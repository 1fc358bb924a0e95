import ReportTemplate.Syntax
import ReportTemplate.Value

/-!
# ReportTemplate.Value.Refusal — why an operation gives no value

Operators and library functions refuse values that they cannot work with.  The message of a refusal
is what a template's author reads.
-/

namespace ReportTemplate

/-- The largest string that the limited operations give, in bytes. -/
def maxTextSize : Nat := 16 * 1024 * 1024

/-- The longest list that the limited operations give. -/
def maxListLength : Nat := 1024 * 1024

/-- The most places that a number is written with. -/
def maxPlaces : Nat := 64

inductive Refusal where
  | expected (wanted : String) (found : Value.Kind)
  | noLength (found : Value.Kind)
  | notSearchable (found : Value.Kind)
  | noInteger (found : Value.Kind)
  | notAnInteger (text : String)
  | notANumber (text : String)
  | overflow
  | divisionByZero
  | notComparable
  | notNegatable (found : Value.Kind)
  | notInvertible (found : Value.Kind)
  | notOperands (op : Syntax.BinaryOp) (left right : Value.Kind)
  | negativeWidth (n : Int)
  | tooLarge (what : String) (limit : Nat)
  | emptySeparator
  | notSortable
  | indexKind (found : Value.Kind)
  | negativeIndex (n : Int)
  | outsideList (n : Int) (length : Nat)
  | outsideString (n : Int)
  | notIndexable (found : Value.Kind)
  | notIterable (found : Value.Kind)
  /-- A template gave up with a message of its own. -/
  | failed (message : String)
  /-- A library function was handed another number of arguments than it has parameters. -/
  | argumentCount
deriving DecidableEq, Repr

namespace Refusal

def message : Refusal → String
  | expected wanted found => "expected " ++ wanted ++ ", found " ++ found.text
  | noLength found => "cannot take length of " ++ found.text
  | notSearchable found => "cannot search in " ++ found.text
  | noInteger found => "cannot convert " ++ found.text ++ " to int"
  | notAnInteger text => "'" ++ text ++ "' is not an integer"
  | notANumber text => "'" ++ text ++ "' is not a number"
  | overflow => "integer overflow"
  | divisionByZero => "division by zero"
  | notComparable => "cannot compare NaN"
  | notNegatable found => "cannot negate " ++ found.text
  | notInvertible found => "'!' expects bool, found " ++ found.text
  | notOperands op left right =>
    "cannot apply '" ++ op.text ++ "' to " ++ left.text ++ " and " ++ right.text
  | negativeWidth n => "width must not be negative, got " ++ toString n
  | tooLarge what limit => what ++ " too large (limit " ++ toString limit ++ ")"
  | emptySeparator => "separator must not be empty"
  | notSortable => "can only sort lists of numbers or lists of strings"
  | indexKind found => "index must be int, found " ++ found.text
  | negativeIndex n => "index " ++ toString n ++ " is negative"
  | outsideList n length =>
    "index " ++ toString n ++ " out of range for list of length " ++ toString length
  | outsideString n => "index " ++ toString n ++ " out of range for string"
  | notIndexable found => "cannot index into " ++ found.text
  | notIterable found => "cannot iterate over " ++ found.text
  | failed message => message
  | argumentCount => "wrong number of arguments"

end Refusal

end ReportTemplate
