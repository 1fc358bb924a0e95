import ReportTemplate.Value.Operator

/-!
# ReportTemplate.Library.Argument — arguments as library functions expect them
-/

namespace ReportTemplate.Library

open Number (Binary64)

def expectStr : Value → Except Refusal String
  | .str s => .ok s
  | v => .error (.expected "string" v.kind)

def expectInt : Value → Except Refusal Int64
  | .int n => .ok n
  | v => .error (.expected "int" v.kind)

/-- An integer or a float, as a float. -/
def expectNumber (v : Value) : Except Refusal Binary64 :=
  match v.toBinary64? with
  | some x => .ok x
  | none => .error (.expected "number" v.kind)

def expectList : Value → Except Refusal (List Value)
  | .list items => .ok items
  | v => .error (.expected "list" v.kind)

/-- A count that is not negative. -/
def expectWidth (v : Value) : Except Refusal Nat := do
  let n ← expectInt v
  if n.toInt < 0 then throw (.negativeWidth n.toInt) else pure n.toInt.toNat

/-- A size up to a limit. -/
def checkSize (what : String) (limit size : Nat) : Except Refusal Nat :=
  if size ≤ limit then .ok size else .error (.tooLarge what limit)

end ReportTemplate.Library
