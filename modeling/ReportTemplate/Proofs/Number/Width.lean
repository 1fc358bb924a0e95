import Mathlib.Algebra.Order.Ring.Nat
import ReportTemplate.Number.Fixed

/-!
# ReportTemplate.Proofs.Number.Width — how long the text of a number can be

A finite float is less than `2 ^ 1025`, so with a fixed number of places its text has a limit.
-/

namespace ReportTemplate.Number

namespace Binary64

theorem fractionBits_lt (x : Binary64) : x.fractionBits < 2 ^ 52 := by
  unfold fractionBits
  rw [UInt64.toNat_and]
  exact Nat.lt_of_le_of_lt Nat.and_le_right (by decide)

theorem exponentBits_le (x : Binary64) : x.exponentBits ≤ 2047 := by
  unfold exponentBits
  rw [UInt64.toNat_and]
  exact Nat.and_le_right

theorem magnitude_m_lt (x : Binary64) : x.magnitude.m < 2 ^ 53 := by
  have hfraction := x.fractionBits_lt
  unfold magnitude
  split
  · exact Nat.lt_trans hfraction (by decide)
  · show 2 ^ 52 + x.fractionBits < 2 ^ 53
    omega

theorem magnitude_q_le (x : Binary64) : x.magnitude.q.toNat ≤ 972 := by
  have hexponent := x.exponentBits_le
  unfold magnitude
  split
  · exact Nat.zero_le _
  · show ((x.exponentBits : Int) - 1075).toNat ≤ 972
    omega

end Binary64

theorem roundDiv_le (num den : Nat) : roundDiv num den ≤ num + 1 := by
  have hq : num / den ≤ num := Nat.div_le_self num den
  unfold roundDiv
  dsimp only
  split
  · omega
  · omega
  · split <;> omega

theorem length_toDigits_le {n k : Nat} (h : n ≤ 10 ^ k + 1) : (Nat.toDigits 10 n).length ≤ k + 1 := by
  refine (Nat.length_toDigits_le_iff (by decide) (Nat.succ_pos k)).mpr ?_
  have hpos : 0 < 10 ^ k := Nat.pow_pos (by decide)
  rw [Nat.pow_succ]
  omega

/-- The digits of a scaled number that has been rounded. -/
theorem length_scaled_le {m e k places l : Nat} (hm : m < 2 ^ 53) (he : e ≤ k) (hplaces : places ≤ l)
    (den : Nat) :
    (Nat.toDigits 10 (roundDiv (m * 2 ^ e * 10 ^ places) den)).length ≤ 53 + k + l + 1 := by
  have hm : m ≤ 10 ^ 53 := Nat.le_trans (Nat.le_of_lt hm) (Nat.pow_le_pow_left (by decide) 53)
  have he : 2 ^ e ≤ 10 ^ k :=
    Nat.le_trans (Nat.pow_le_pow_left (by decide) e) (Nat.pow_le_pow_right (by decide) he)
  have hplaces : 10 ^ places ≤ 10 ^ l := Nat.pow_le_pow_right (by decide) hplaces
  have hnum : m * 2 ^ e * 10 ^ places ≤ 10 ^ (53 + k + l) := by
    rw [pow_add, pow_add]
    exact Nat.mul_le_mul (Nat.mul_le_mul hm he) hplaces
  exact length_toDigits_le (Nat.le_trans (roundDiv_le _ den) (Nat.succ_le_succ hnum))

theorem Decimal.length_withPoint_le (digits : List Char) (places : Nat) :
    (withPoint digits places).length ≤ digits.length + places + 2 := by
  unfold withPoint
  dsimp only
  split
  · rw [List.length_append, List.length_replicate]
    omega
  · rw [List.length_append, List.length_cons, List.length_take, List.length_drop, List.length_append,
      List.length_replicate]
    omega

namespace Binary64

theorem length_signed_le (x : Binary64) (size : List Char) :
    (x.signed size).length ≤ size.length + 1 := by
  unfold signed
  split
  · rw [List.length_cons]
  · exact Nat.le_succ _

/-- With up to 64 places the text of a float is short. -/
theorem length_fixed_le (x : Binary64) {places : Nat} (h : places ≤ 64) :
    (x.fixed places).toList.length ≤ 1200 := by
  unfold fixed
  split
  · decide
  split
  · rw [String.toList_ofList]
    exact Nat.le_trans (x.length_signed_le _) (by decide)
  · dsimp only
    rw [String.toList_ofList]
    have hdigits := length_scaled_le x.magnitude_m_lt x.magnitude_q_le h
      (2 ^ (-x.magnitude.q).toNat)
    have hpoint := Decimal.length_withPoint_le (Nat.toDigits 10 (roundDiv
      (x.magnitude.m * 2 ^ x.magnitude.q.toNat * 10 ^ places) (2 ^ (-x.magnitude.q).toNat))) places
    refine Nat.le_trans (x.length_signed_le _) (Nat.le_trans (Nat.succ_le_succ hpoint) ?_)
    omega

end Binary64

end ReportTemplate.Number
