import ReportTemplate.Value.Refusal

/-!
# ReportTemplate.Value.Operator — the operators of the language

Integer results are exact or refused, never wrapped.  Where an operand is a float the other one is
read as a float.  `+` also joins texts and lists, up to a largest size.
-/

namespace ReportTemplate.Value

open Syntax (UnaryOp BinaryOp)
open Number (Binary64)

/-- A whole number as an integer of the language, if it has 64 bits. -/
def ofInt? (n : Int) : Option Int64 :=
  if Int64.minValue.toInt ≤ n ∧ n ≤ Int64.maxValue.toInt then some (Int64.ofInt n) else none

/-- A whole number, or the refusal to wrap it. -/
def exact (n : Int) : Except Refusal Value :=
  match ofInt? n with
  | some n => .ok (.int n)
  | none => .error .overflow

/-- The answer of a comparison. -/
def ordered (op : BinaryOp) (o : Ordering) : Bool :=
  match op with
  | .less => o.isLT
  | .lessEqual => o.isLE
  | .greater => o.isGT
  | _ => o.isGE

def unary : UnaryOp → Value → Except Refusal Value
  | .negate, .int n => exact (-n.toInt)
  | .negate, .float x => .ok (.float x.neg)
  | .negate, v => .error (.notNegatable v.kind)
  | .not, .bool b => .ok (.bool !b)
  | .not, v => .error (.notInvertible v.kind)

/-- Two texts put together, up to the largest size. -/
def joinTexts (a b : Value) : Except Refusal Value :=
  let s := b.writeOn (a.writeOn "")
  if maxTextSize < s.utf8ByteSize then .error (.tooLarge "string" maxTextSize) else .ok (.str s)

/-- Two lists put together, up to the largest size. -/
def joinLists (as bs : List Value) : Except Refusal Value :=
  if maxListLength < as.length + bs.length then .error (.tooLarge "list" maxListLength)
  else .ok (.list (as ++ bs))

def onInts (op : BinaryOp) (a b : Int64) : Except Refusal Value :=
  match op with
  | .add => exact (a.toInt + b.toInt)
  | .sub => exact (a.toInt - b.toInt)
  | .mul => exact (a.toInt * b.toInt)
  | .div => if b = 0 then .error .divisionByZero else exact (a.toInt.tdiv b.toInt)
  | .rem =>
    if b = 0 then .error .divisionByZero
    else
      -- The remainder is refused together with the quotient.
      match ofInt? (a.toInt.tdiv b.toInt) with
      | some _ => exact (a.toInt.tmod b.toInt)
      | none => .error .overflow
  | _ => .ok (.bool (ordered op (compare a.toInt b.toInt)))

def onFloats (op : BinaryOp) (a b : Binary64) : Except Refusal Value :=
  match op with
  | .add => .ok (.float (a.add b))
  | .sub => .ok (.float (a.sub b))
  | .mul => .ok (.float (a.mul b))
  | .div => .ok (.float (a.div b))
  | .rem => .ok (.float (a.rem b))
  | _ =>
    match a.compare? b with
    | some o => .ok (.bool (ordered op o))
    | none => .error .notComparable

/-- Arithmetic and order on numbers. -/
def onNumbers (op : BinaryOp) (a b : Value) : Except Refusal Value :=
  match a, b with
  | .int m, .int n => onInts op m n
  | a, b =>
    match a.toBinary64?, b.toBinary64? with
    | some x, some y => onFloats op x y
    | _, _ => .error (.notOperands op a.kind b.kind)

/-- `+` joins as soon as one side is a string, or both are lists. -/
def plus (a b : Value) : Except Refusal Value :=
  match a, b with
  | .str _, _ | _, .str _ => joinTexts a b
  | .list as, .list bs => joinLists as bs
  | _, _ => onNumbers .add a b

/-- An order between two strings or two numbers. -/
def order (op : BinaryOp) (a b : Value) : Except Refusal Value :=
  match a, b with
  | .str s, .str t => .ok (.bool (ordered op (compare s t)))
  | _, _ => onNumbers op a b

/-- A binary operator on its two operands; `&&` and `||` take no part here, since they may leave their
right side alone. -/
def binary (op : BinaryOp) (a b : Value) : Except Refusal Value :=
  match op with
  | .equal => .ok (.bool (a.equals b))
  | .notEqual => .ok (.bool !(a.equals b))
  | .add => plus a b
  | .less | .lessEqual | .greater | .greaterEqual => order op a b
  | _ => onNumbers op a b

/-- The value at a place of a list or a string, counted from zero. -/
def index (target place : Value) : Except Refusal Value :=
  match place with
  | .int n =>
    if n.toInt < 0 then .error (.negativeIndex n.toInt)
    else
      match target with
      | .list items =>
        match items[n.toInt.toNat]? with
        | some v => .ok v
        | none => .error (.outsideList n.toInt items.length)
      | .str s =>
        match (s.startPos.nextn n.toInt.toNat).get? with
        | some c => .ok (.str (String.singleton c))
        | none => .error (.outsideString n.toInt)
      | v => .error (.notIndexable v.kind)
  | v => .error (.indexKind v.kind)

/-- What a loop over a value goes through. -/
def items : Value → Except Refusal (List Value)
  | .list items => .ok items
  | .str s => .ok (s.toList.map fun c => .str (String.singleton c))
  | v => .error (.notIterable v.kind)

end ReportTemplate.Value
