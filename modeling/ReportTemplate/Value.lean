import ReportTemplate.Number.Shortest

/-!
# ReportTemplate.Value — what a running template computes with

Integers have 64 bits with sign.  The document and the log are handles: a template can hand them on
and use them, but not look inside.
-/

namespace ReportTemplate

inductive Value where
  | null
  | bool (b : Bool)
  | int (n : Int64)
  | float (x : Number.Binary64)
  | str (s : String)
  | list (items : List Value)
  | document
  | log
deriving Repr, Inhabited

namespace Value

/-- The kind of a value, as messages name it. -/
inductive Kind where
  | null | bool | int | float | string | list | document | log
deriving DecidableEq, Repr

def Kind.text : Kind → String
  | null => "null"
  | bool => "bool"
  | int => "int"
  | float => "float"
  | string => "string"
  | list => "list"
  | document => "Document"
  | log => "fn(int, string, any)"

def kind : Value → Kind
  | null => .null
  | bool _ => .bool
  | int _ => .int
  | float _ => .float
  | str _ => .string
  | list _ => .list
  | document => .document
  | log => .log

/-- An integer or a float as a float. -/
def toBinary64? : Value → Option Number.Binary64
  | int n => some (Number.Binary64.ofInt n.toInt)
  | float x => some x
  | _ => none

def isDocument : Value → Bool
  | document => true
  | _ => false

/-- The decimal text of an integer. -/
def intText (n : Int64) : String :=
  let digits := String.ofList (Nat.toDigits 10 n.toInt.natAbs)
  if n.toInt < 0 then "-" ++ digits else digits

mutual

/-- Writes a value behind a text. -/
def writeOn (text : String) : Value → String
  | null => text
  | bool b => text ++ if b then "true" else "false"
  | int n => text ++ intText n
  | float x => text ++ x.text
  | str s => text ++ s
  | list [] => text ++ "[]"
  | list (v :: vs) => writeItems (writeOn (text ++ "[") v) vs ++ "]"
  | document => text ++ Kind.document.text
  | log => text ++ Kind.log.text

/-- Writes the items of a list behind the first. -/
def writeItems (text : String) : List Value → String
  | [] => text
  | v :: vs => writeItems (writeOn (text ++ ", ") v) vs

end

/-- The text of a value: strings stand for themselves, null for nothing. -/
def text (v : Value) : String := writeOn "" v

mutual

/-- Equality as templates see it: integers and floats compare by number, also inside lists. -/
def equals : Value → Value → Bool
  | null, null => true
  | bool a, bool b => a == b
  | int a, int b => a == b
  | float a, float b => a.equals b
  | int a, float b => (Number.Binary64.ofInt a.toInt).equals b
  | float a, int b => (Number.Binary64.ofInt b.toInt).equals a
  | str a, str b => a == b
  | list as, list bs => allEqual as bs
  | document, document => true
  | log, log => true
  | _, _ => false

/-- Two lists have equal items at every place. -/
def allEqual : List Value → List Value → Bool
  | [], [] => true
  | a :: as, b :: bs => if equals a b then allEqual as bs else false
  | _, _ => false

end

end Value

end ReportTemplate
