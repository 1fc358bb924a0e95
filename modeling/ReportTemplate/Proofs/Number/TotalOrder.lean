import Mathlib.Tactic.MkIffOfInductiveProp
import ReportTemplate.Proofs.Number.Nearest
import ReportTemplate.Proofs.Number.Width

/-!
# ReportTemplate.Proofs.Number.TotalOrder — the total order of floats

All floats stand in one order: those with the sign before those without, and of one sign by how far they
lie from zero, where a NaN lies behind infinity.  For finite floats it is the order of the numbers that
they stand for, with `-0` before `0`.
-/

namespace ReportTemplate.Number.Binary64

/-! ### Far from zero -/

/-- One float lies no further from zero than another, whatever their signs: by the exponent, which is
greatest for infinities and NaNs, and then by the fraction, which is zero for infinities. -/
def NoFurther (x y : Binary64) : Prop :=
  x.exponentBits < y.exponentBits ∨
    x.exponentBits = y.exponentBits ∧ x.fractionBits ≤ y.fractionBits

/-- The total order of floats. -/
@[mk_iff]
inductive TotalLe (x y : Binary64) : Prop
  | signs (hx : x.isNegative = true) (hy : y.isNegative = false)
  | negative (hx : x.isNegative = true) (hy : y.isNegative = true) (h : y.NoFurther x)
  | positive (hx : x.isNegative = false) (hy : y.isNegative = false) (h : x.NoFurther y)

theorem fractionBits_eq (x : Binary64) : x.fractionBits = x.bits.toNat % 2 ^ 52 := by
  show (x.bits &&& 0xFFFFFFFFFFFFF).toNat = _
  rw [UInt64.toNat_and]
  exact Nat.and_two_pow_sub_one_eq_mod _ 52

/-- The bits without the sign. -/
theorem bits_mod_eq (x : Binary64) :
    x.bits.toNat % 2 ^ 63 = 2 ^ 52 * x.exponentBits + x.fractionBits := by
  rw [exponentBits_eq, fractionBits_eq]
  omega

theorem noFurther_iff {x y : Binary64} :
    x.NoFurther y ↔ x.bits.toNat % 2 ^ 63 ≤ y.bits.toNat % 2 ^ 63 := by
  have hx := x.fractionBits_lt
  have hy := y.fractionBits_lt
  rw [bits_mod_eq, bits_mod_eq, NoFurther]
  omega

theorem orderKey_le_iff (x y : Binary64) : x.orderKey ≤ y.orderKey ↔ x.TotalLe y := by
  have hx := x.bits.toNat_lt
  have hy := y.bits.toNat_lt
  rw [totalLe_iff, noFurther_iff, noFurther_iff, isNegative_eq, isNegative_eq, orderKey_eq, orderKey_eq]
  simp only [decide_eq_true_eq, decide_eq_false_iff_not]
  split_ifs <;> omega

theorem orderKey_inj {x y : Binary64} : x.orderKey = y.orderKey ↔ x = y := by
  refine ⟨fun h => ?_, fun h => h ▸ rfl⟩
  have hx := x.bits.toNat_lt
  have hy := y.bits.toNat_lt
  rw [orderKey_eq, orderKey_eq] at h
  have hbits : x.bits.toNat = y.bits.toNat := by split_ifs at h <;> omega
  obtain ⟨bits⟩ := x
  exact congrArg mk (UInt64.toNat_inj.mp hbits)

/-! ### The numbers that floats stand for -/

/-- The size of a finite float in units of `2 ^ -1074`. -/
def units (x : Binary64) : Nat := x.magnitude.m * 2 ^ (x.magnitude.q + 1074).toNat

/-- A finite float as a number of units. -/
def inUnits (x : Binary64) : Int := if x.isNegative then -(x.units : Int) else x.units

theorem units_eq (x : Binary64) : x.units =
    if x.exponentBits = 0 then x.fractionBits
    else (2 ^ 52 + x.fractionBits) * 2 ^ (x.exponentBits - 1) := by
  unfold units magnitude
  by_cases h : x.exponentBits = 0
  · simp [h]
  · have hq : ((x.exponentBits : Int) - 1075 + 1074).toNat = x.exponentBits - 1 := by omega
    simp [h, hq]

theorem units_lt_of_exponentBits_lt {x y : Binary64} (h : x.exponentBits < y.exponentBits) :
    x.units < y.units := by
  have hx := x.fractionBits_lt
  rw [units_eq, units_eq, if_neg (show y.exponentBits ≠ 0 by omega)]
  have hpow : 2 ^ x.exponentBits ≤ 2 ^ (y.exponentBits - 1) :=
    Nat.pow_le_pow_right (by decide) (by omega)
  have hy : 2 ^ 52 * 2 ^ (y.exponentBits - 1) ≤
      (2 ^ 52 + y.fractionBits) * 2 ^ (y.exponentBits - 1) :=
    Nat.mul_le_mul_right _ (Nat.le_add_right _ _)
  refine Nat.lt_of_lt_of_le ?_ ((Nat.mul_le_mul_left _ hpow).trans hy)
  split_ifs with hzero
  · rw [hzero]
    omega
  · obtain ⟨e, he⟩ := Nat.exists_eq_succ_of_ne_zero hzero
    have hdouble : 2 ^ 52 * 2 ^ (e + 1) = 2 ^ 53 * 2 ^ e := by omega
    rw [he, Nat.succ_sub_one, hdouble]
    exact Nat.mul_lt_mul_of_pos_right (by omega) (Nat.two_pow_pos e)

theorem noFurther_iff_units {x y : Binary64} : x.NoFurther y ↔ x.units ≤ y.units := by
  rcases Nat.lt_trichotomy x.exponentBits y.exponentBits with hlt | heq | hgt
  · have hunits := units_lt_of_exponentBits_lt hlt
    rw [NoFurther]
    omega
  · rw [NoFurther, units_eq, units_eq, heq]
    split_ifs with hzero
    · omega
    · rw [Nat.mul_le_mul_right_iff (Nat.two_pow_pos _)]
      omega
  · have hunits := units_lt_of_exponentBits_lt hgt
    rw [NoFurther]
    omega

/-- The total order is that of the numbers, with `-0` before `0`. -/
theorem totalLe_iff_inUnits (x y : Binary64) : x.TotalLe y ↔
    x.inUnits < y.inUnits ∨
      x.inUnits = y.inUnits ∧ (x.isNegative = true ∨ y.isNegative = false) := by
  rw [totalLe_iff, noFurther_iff_units, noFurther_iff_units, inUnits, inUnits]
  rcases x.isNegative with _ | _ <;> rcases y.isNegative with _ | _ <;> simp <;> omega

end ReportTemplate.Number.Binary64
