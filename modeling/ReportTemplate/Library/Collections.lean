import ReportTemplate.Library.Argument

/-!
# ReportTemplate.Library.Collections — functions on lists
-/

namespace ReportTemplate.Library.Collections

open Number (Binary64)

def push (v item : Value) : Except Refusal Value := do
  let items ← expectList v
  pure (.list (items ++ [item]))

/-- The first item, null if there is none. -/
def first (v : Value) : Except Refusal Value := do
  let items ← expectList v
  pure (items.head?.getD .null)

/-- The last item, null if there is none. -/
def last (v : Value) : Except Refusal Value := do
  let items ← expectList v
  pure (items.getLast?.getD .null)

def isInt : Value → Bool
  | .int _ => true
  | _ => false

/-- The sum of integers, behind those already added; it is refused when a sum on the way has more
than 64 bits. -/
def sumInts (total : Int64) : List Value → Except Refusal Value
  | [] => .ok (.int total)
  | v :: vs =>
    match expectInt v with
    | .error e => .error e
    | .ok n =>
      match Value.ofInt? (total.toInt + n.toInt) with
      | some total => sumInts total vs
      | none => .error .overflow

/-- The sum of numbers as floats, behind those already added. -/
def sumFloats (total : Binary64) : List Value → Except Refusal Value
  | [] => .ok (.float total)
  | v :: vs =>
    match expectNumber v with
    | .error e => .error e
    | .ok x => sumFloats (total.add x) vs

/-- The sum of a list: an integer if all items are integers, else a float. -/
def sum (v : Value) : Except Refusal Value := do
  let items ← expectList v
  if items.all isInt then sumInts 0 items else sumFloats Binary64.zero items

def reverse (v : Value) : Except Refusal Value := do
  let items ← expectList v
  pure (.list items.reverse)

/-- The place of a number in the total order of floats. -/
def numberKey (v : Value) : Int := (v.toBinary64?.getD Binary64.zero).orderKey

/-- The text of a string. -/
def textKey : Value → String
  | .str s => s
  | _ => ""

def isStr : Value → Bool
  | .str _ => true
  | _ => false

/-- Numbers in the total order of floats, or strings by code point; equal items keep their order. -/
def sort (v : Value) : Except Refusal Value := do
  let items ← expectList v
  if items.all fun v => v.toBinary64?.isSome then
    pure (.list (items.mergeSort fun a b => numberKey a ≤ numberKey b))
  else if items.all isStr then
    pure (.list (items.mergeSort fun a b => textKey a ≤ textKey b))
  else throw .notSortable

/-- The integers from the first up to the second, which is left out. -/
def range (start stop : Value) : Except Refusal Value := do
  let a ← expectInt start
  let b ← expectInt stop
  let n ← checkSize "range" maxListLength (b.toInt - a.toInt).toNat
  pure (.list ((List.range n).map fun (i : Nat) => .int (Int64.ofInt (a.toInt + i))))

end ReportTemplate.Library.Collections
