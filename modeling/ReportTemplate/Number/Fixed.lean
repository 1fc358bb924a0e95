import ReportTemplate.Number.Shortest

/-!
# ReportTemplate.Number.Fixed — a fixed number of places

The exact value of the float is rounded to the asked number of places, a tie to the even neighbour.
-/

namespace ReportTemplate.Number

/-- The whole number nearest to `num / den`, the even one of two that are equally near. -/
def roundDiv (num den : Nat) : Nat :=
  let q := num / den
  match compare (2 * (num % den)) den with
  | .lt => q
  | .gt => q + 1
  | .eq => if q % 2 = 0 then q else q + 1

namespace Binary64

/-- The float written with `places` digits behind the point. -/
def fixed (x : Binary64) (places : Nat) : String :=
  if x.isNaN then "NaN"
  else if !x.isFinite then String.ofList (x.signed "inf".toList)
  else
    let s := x.magnitude
    let n := roundDiv (s.m * Nat.pow 2 s.q.toNat * Nat.pow 10 places) (Nat.pow 2 (-s.q).toNat)
    String.ofList (x.signed (Decimal.withPoint (Nat.toDigits 10 n) places))

end Binary64

end ReportTemplate.Number
