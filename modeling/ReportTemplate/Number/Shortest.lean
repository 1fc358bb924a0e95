import ReportTemplate.Number.Binary64

/-!
# ReportTemplate.Number.Shortest — the fewest digits that read back

The text of a float has the fewest digits that still name it.  A decimal names a float when it lies
among the reals that round to it, and of several decimals of one length the nearest is taken, the
upper one of two that are equally near.  The text is positional for every size and has no `.0`.
-/

namespace ReportTemplate.Number

/-- The number `digits * 10 ^ exp`. -/
structure Decimal where
  digits : Nat
  exp : Int
deriving DecidableEq, Repr

/-- Compares `a * 10 ^ i` with `n * 2 ^ j`. -/
def compareScaled (a : Nat) (i : Int) (n : Nat) (j : Int) : Ordering :=
  compare (a * Nat.pow 10 i.toNat * Nat.pow 2 (-j).toNat)
    (n * Nat.pow 2 j.toNat * Nat.pow 10 (-i).toNat)

namespace Magnitude

/-- `d` lies among the reals that round to `x`; the ends belong to them when `x.m` is even. -/
def readsBack (x : Magnitude) (d : Decimal) : Bool :=
  let lo := if x.narrowBelow then 4 * x.m - 1 else 4 * x.m - 2
  let hi := 4 * x.m + 2
  let closed := x.m % 2 == 0
  let cl := compareScaled d.digits d.exp lo (x.q - 2)
  let ch := compareScaled d.digits d.exp hi (x.q - 2)
  (cl == .gt || (closed && cl == .eq)) && (ch == .lt || (closed && ch == .eq))

/-- The least `k` with `x < 10 ^ k`, for `x` other than zero. -/
def scale (x : Magnitude) : Int :=
  let guess := (x.q + x.m.log2) * 30103 / 100000
  let above (k : Int) : Bool := compareScaled 1 k x.m x.q == .gt
  if above guess then guess
  else if above (guess + 1) then guess + 1
  else guess + 2

/-- The whole part of `x / 10 ^ g`. -/
def floorAt (x : Magnitude) (g : Int) : Nat :=
  x.m * Nat.pow 2 x.q.toNat * Nat.pow 10 (-g).toNat /
    (Nat.pow 2 (-x.q).toNat * Nat.pow 10 g.toNat)

/-- The decimal of the grid `10 ^ g` that names `x`, if one does. -/
def onGrid? (x : Magnitude) (g : Int) : Option Decimal :=
  let below : Decimal := ⟨x.floorAt g, g⟩
  let above : Decimal := ⟨x.floorAt g + 1, g⟩
  match x.readsBack below, x.readsBack above with
  | false, false => none
  | true, false => some below
  | false, true => some above
  | true, true =>
    if compareScaled (below.digits + above.digits) g (2 * x.m) x.q == .gt then some below
    else some above

/-- The exact value of `x`, the answer if no shorter decimal names it. -/
def exactDecimal (x : Magnitude) : Decimal :=
  if 0 ≤ x.q then ⟨x.m * Nat.pow 2 x.q.toNat, 0⟩ else ⟨x.m * Nat.pow 5 (-x.q).toNat, x.q⟩

/-- The shortest decimal that names `x`, for `x` other than zero. -/
def shortest (x : Magnitude) : Decimal :=
  let k := x.scale
  ((List.range 17).findSome? fun n => x.onGrid? (k - (n + 1 : Nat))).getD x.exactDecimal

end Magnitude

namespace Decimal

/-- Drops trailing zeros of the digits that stand behind the point. -/
def stripZeros (d : Decimal) : Decimal :=
  go (-d.exp).toNat d
where
  go : Nat → Decimal → Decimal
    | 0, d => d
    | n + 1, d => if d.digits % 10 = 0 then go n ⟨d.digits / 10, d.exp + 1⟩ else d

/-- Digits with the point `places` from their right end, padded with zeros on the left. -/
def withPoint (digits : List Char) (places : Nat) : List Char :=
  let padded := List.replicate (places + 1 - digits.length) '0' ++ digits
  if places = 0 then padded
  else padded.take (padded.length - places) ++ '.' :: padded.drop (padded.length - places)

/-- The decimal written positionally. -/
def positional (d : Decimal) : List Char :=
  let s := d.stripZeros
  withPoint (Nat.toDigits 10 (s.digits * Nat.pow 10 s.exp.toNat)) (-s.exp).toNat

end Decimal

namespace Binary64

/-- Puts the sign in front of the text of a size. -/
def signed (x : Binary64) (size : List Char) : List Char :=
  if x.isNegative then '-' :: size else size

/-- The text of a float: `NaN`, `inf`, `-inf`, `-0`, or the shortest digits that name it. -/
def text (x : Binary64) : String :=
  if x.isNaN then "NaN"
  else if !x.isFinite then String.ofList (x.signed "inf".toList)
  else if x.magnitude.m = 0 then String.ofList (x.signed ['0'])
  else String.ofList (x.signed x.magnitude.shortest.positional)

end Binary64

end ReportTemplate.Number
