import ReportTemplate.Library.Argument
import ReportTemplate.Number.Read
import ReportTemplate.Text.Blank
import ReportTemplate.Text.Search

/-!
# ReportTemplate.Library.Core — conversions, size, search and order
-/

namespace ReportTemplate.Library.Core

open Number (Binary64)

/-- The number of characters of a string or items of a list. -/
def len : Value → Except Refusal Value
  | .str s => .ok (.int (Int64.ofNat s.length))
  | .list items => .ok (.int (Int64.ofNat items.length))
  | v => .error (.noLength v.kind)

def str (v : Value) : Except Refusal Value := .ok (.str v.text)

/-- The nearest integer of 64 bits. -/
def saturate (n : Int) : Int64 :=
  Int64.ofInt (max Int64.minValue.toInt (min Int64.maxValue.toInt n))

/-- An integer from a number, whose places are cut, from a truth value or from a text. -/
def int : Value → Except Refusal Value
  | .int n => .ok (.int n)
  | .float x => if x.isFinite then .ok (.int (saturate x.truncate)) else .error (.noInteger .float)
  | .bool b => .ok (.int (if b then 1 else 0))
  | .str s =>
    match (Number.readInt? (Text.trim s.toList)).bind Value.ofInt? with
    | some n => .ok (.int n)
    | none => .error (.notAnInteger s)
  | v => .error (.noInteger v.kind)

/-- A float from a number or from a text. -/
def float : Value → Except Refusal Value
  | .str s =>
    match Number.readFloat? (Text.trim s.toList) with
    | some x => .ok (.float x)
    | none => .error (.notANumber s)
  | v => do
    let x ← expectNumber v
    pure (.float x)

/-- A text holds another, or a list an equal item. -/
def contains (v wanted : Value) : Except Refusal Value :=
  match v with
  | .str s => do
    let t ← expectStr wanted
    pure (.bool (Text.contains s.toList t.toList))
  | .list items => .ok (.bool (items.any fun item => item.equals wanted))
  | v => .error (.notSearchable v.kind)

/-- The second value if it is less than the first, else the first. -/
def min (a b : Value) : Except Refusal Value := do
  let x ← expectNumber a
  let y ← expectNumber b
  pure (if y.compare? x = some .lt then b else a)

/-- The second value if it is greater than the first, else the first. -/
def max (a b : Value) : Except Refusal Value := do
  let x ← expectNumber a
  let y ← expectNumber b
  pure (if y.compare? x = some .gt then b else a)

def abs : Value → Except Refusal Value
  | .int n => Value.exact n.toInt.natAbs
  | .float x => .ok (.float x.abs)
  | v => .error (.expected "number" v.kind)

/-- Gives up with the text of a value. -/
def fail (v : Value) : Except Refusal Value := .error (.failed v.text)

end ReportTemplate.Library.Core
