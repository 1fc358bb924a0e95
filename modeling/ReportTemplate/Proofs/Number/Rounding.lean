import Mathlib.Algebra.Order.Ring.Nat
import Mathlib.Tactic.Common
import ReportTemplate.Number.Fixed

/-!
# ReportTemplate.Proofs.Number.Rounding — whole numbers of 53 bits

A whole number is rounded to the nearest one that 53 bits and a power of two make up, the even one of two
that are equally near.  Rounding keeps the order, but it can make neighbours equal.
-/

namespace ReportTemplate.Number

/-! ## Rounded quotients -/

/-- What rounding adds to the quotient. -/
theorem roundDiv_eq (num den : Nat) : roundDiv num den = num / den +
    if 2 * (num % den) < den then 0 else if den < 2 * (num % den) then 1 else num / den % 2 := by
  unfold roundDiv
  rcases hcmp : compare (2 * (num % den)) den with _ | _ | _
  · have hlt := Nat.compare_eq_lt.mp hcmp
    rw [if_pos hlt]
    rfl
  · have heq := Nat.compare_eq_eq.mp hcmp
    rw [if_neg (by omega), if_neg (by omega)]
    dsimp only
    split_ifs with heven <;> omega
  · have hgt := Nat.compare_eq_gt.mp hcmp
    rw [if_neg (by omega), if_pos hgt]

theorem le_roundDiv (num den : Nat) : num / den ≤ roundDiv num den := by
  rw [roundDiv_eq]
  exact Nat.le_add_right _ _

theorem roundDiv_le_succ (num den : Nat) : roundDiv num den ≤ num / den + 1 := by
  rw [roundDiv_eq]
  split_ifs <;> omega

theorem roundDiv_mono {m n : Nat} (h : m ≤ n) (den : Nat) : roundDiv m den ≤ roundDiv n den := by
  have hquot : m / den ≤ n / den := Nat.div_le_div_right h
  rcases Nat.lt_or_eq_of_le hquot with hlt | heq
  · have hm := roundDiv_le_succ m den
    have hn := le_roundDiv n den
    omega
  · -- With one quotient, the greater number has the greater remainder.
    have hmod : m % den ≤ n % den := by
      have hdm := Nat.div_add_mod m den
      have hdn := Nat.div_add_mod n den
      rw [heq] at hdm
      omega
    rw [roundDiv_eq, roundDiv_eq, heq]
    split_ifs <;> omega

theorem roundDiv_mul_self (q : Nat) {den : Nat} (h : 0 < den) : roundDiv (q * den) den = q := by
  rw [roundDiv_eq, Nat.mul_mod_left, Nat.mul_div_cancel q h, if_pos (by omega), Nat.add_zero]

theorem roundDiv_one (n : Nat) : roundDiv n 1 = n := by
  have h := roundDiv_mul_self n Nat.one_pos
  rwa [Nat.mul_one] at h

/-- A factor of both sides does not change the quotient. -/
theorem roundDiv_mul_mul (num den : Nat) {c : Nat} (hc : 0 < c) :
    roundDiv (num * c) (den * c) = roundDiv num den := by
  have hmod : 2 * (num * c % (den * c)) = 2 * (num % den) * c := by
    rw [Nat.mul_mod_mul_right, Nat.mul_assoc]
  rw [roundDiv_eq, roundDiv_eq, hmod, Nat.mul_div_mul_right num den hc]
  simp only [Nat.mul_lt_mul_right hc]

/-! ## The nearest number of 53 bits -/

/-- The gap between neighbours among the numbers of 53 bits, where `n` stands. -/
def gap (n : Nat) : Nat := 2 ^ (n.log2 - 52)

/-- The number of 53 bits, with zeros behind them, that is nearest to `n`. -/
def nearestNat (n : Nat) : Nat := roundDiv n (gap n) * gap n

/-- The same for whole numbers of either sign. -/
def nearest (n : Int) : Int := if n < 0 then -nearestNat n.natAbs else nearestNat n.natAbs

theorem gap_pos (n : Nat) : 0 < gap n := Nat.two_pow_pos _

/-- Up to 53 bits nothing is rounded. -/
theorem nearestNat_of_le {n : Nat} (h : n ≤ 2 ^ 53) : nearestNat n = n := by
  rcases Nat.lt_or_eq_of_le h with hlt | rfl
  · have hlog : n.log2 - 52 = 0 := by
      by_cases hn : n = 0
      · simp [hn]
      · have hlog := (Nat.log2_lt hn).mpr hlt
        omega
    rw [nearestNat, gap, hlog, Nat.pow_zero, roundDiv_one, Nat.mul_one]
  · decide

/-- The rounded quotient has 53 bits, or is the first with 54. -/
theorem roundDiv_gap {n : Nat} (h : 52 ≤ n.log2) :
    2 ^ 52 ≤ roundDiv n (gap n) ∧ roundDiv n (gap n) ≤ 2 ^ 53 := by
  have hn : n ≠ 0 := by rintro rfl; simp at h
  have hlow : 2 ^ 52 * gap n ≤ n := by
    rw [gap, ← Nat.pow_add, Nat.add_sub_cancel' h]
    exact Nat.log2_self_le hn
  have hhigh : n < 2 ^ 53 * gap n := by
    have hpow : 53 + (n.log2 - 52) = n.log2 + 1 := by omega
    rw [gap, ← Nat.pow_add, hpow]
    exact Nat.lt_log2_self
  have hquot := le_roundDiv n (gap n)
  have hsucc := roundDiv_le_succ n (gap n)
  have hge : 2 ^ 52 ≤ n / gap n := (Nat.le_div_iff_mul_le (gap_pos n)).mpr hlow
  have hlt : n / gap n < 2 ^ 53 := (Nat.div_lt_iff_lt_mul (gap_pos n)).mpr hhigh
  omega

theorem log2_mono {m n : Nat} (h : m ≤ n) : m.log2 ≤ n.log2 := by
  by_cases hm : m = 0
  · simp [hm]
  · have hn : n ≠ 0 := by omega
    exact (Nat.le_log2 hn).mpr (Nat.le_trans (Nat.log2_self_le hm) h)

/-- A power of two that is in reach is not passed by rounding down, and not by rounding up. -/
theorem nearestNat_bounds {n : Nat} (hn : n ≠ 0) :
    2 ^ n.log2 ≤ nearestNat n ∧ nearestNat n ≤ 2 ^ (n.log2 + 1) := by
  by_cases h : 52 ≤ n.log2
  · obtain ⟨hlow, hhigh⟩ := roundDiv_gap h
    have hpow : 2 ^ 52 * gap n = 2 ^ n.log2 := by
      rw [gap, ← Nat.pow_add, Nat.add_sub_cancel' h]
    have hpow' : 2 ^ 53 * gap n = 2 ^ (n.log2 + 1) := by
      rw [gap, ← Nat.pow_add]
      congr 1
      omega
    rw [← hpow, ← hpow']
    exact ⟨Nat.mul_le_mul_right _ hlow, Nat.mul_le_mul_right _ hhigh⟩
  · have hlt : n < 2 ^ (n.log2 + 1) := Nat.lt_log2_self
    have hle : 2 ^ (n.log2 + 1) ≤ 2 ^ 53 := Nat.pow_le_pow_right (by decide) (by omega)
    rw [nearestNat_of_le (by omega)]
    exact ⟨Nat.log2_self_le hn, hlt.le⟩

theorem nearestNat_mono {m n : Nat} (h : m ≤ n) : nearestNat m ≤ nearestNat n := by
  by_cases hm : m = 0
  · rw [hm, nearestNat_of_le (Nat.zero_le _)]
    exact Nat.zero_le _
  rcases Nat.lt_or_eq_of_le (log2_mono h) with hlt | heq
  · -- A power of two stands between numbers of different length.
    have hn : n ≠ 0 := by omega
    calc nearestNat m ≤ 2 ^ (m.log2 + 1) := (nearestNat_bounds hm).2
      _ ≤ 2 ^ n.log2 := Nat.pow_le_pow_right (by decide) hlt
      _ ≤ nearestNat n := (nearestNat_bounds hn).1
  · have hgap : gap m = gap n := by rw [gap, gap, heq]
    rw [nearestNat, nearestNat, hgap]
    exact Nat.mul_le_mul_right _ (roundDiv_mono h _)

theorem nearest_mono {a b : Int} (h : a ≤ b) : nearest a ≤ nearest b := by
  unfold nearest
  split_ifs with ha hb
  · have habs := nearestNat_mono (show b.natAbs ≤ a.natAbs by omega)
    omega
  · omega
  · omega
  · have habs := nearestNat_mono (show a.natAbs ≤ b.natAbs by omega)
    omega

end ReportTemplate.Number
