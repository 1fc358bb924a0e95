import ReportTemplate.Proofs.Number.Packed

/-!
# ReportTemplate.Proofs.Number.Nearest — the order of the floats nearest to whole numbers

The float that a whole number is read as stands for the nearest number of 53 bits.  So the two orders of
floats, the numeric one and the total one, compare whole numbers by these nearest numbers.
-/

namespace ReportTemplate.Number

open Float.Model Float.Model.UnpackedFloat

/-! ## Bits as numbers -/

namespace Binary64

variable {x : Binary64}

theorem toNat_neg (h : x.bits.toNat < 2 ^ 63) : x.neg.bits.toNat = 2 ^ 63 + x.bits.toNat := by
  have hxor : x.neg.bits.toNat = x.bits.toNat ^^^ 2 ^ 63 := by
    show (x.bits ^^^ 0x8000000000000000).toNat = _
    rw [UInt64.toNat_xor]
    rfl
  have hmod : (x.bits.toNat ^^^ 2 ^ 63) % 2 ^ 63 = x.bits.toNat := by
    rw [Nat.xor_mod_two_pow, Nat.mod_self, Nat.xor_zero, Nat.mod_eq_of_lt h]
  have hdiv : (x.bits.toNat ^^^ 2 ^ 63) / 2 ^ 63 = 1 := by
    rw [Nat.xor_div_two_pow, Nat.div_self (by decide), Nat.div_eq_of_lt h, Nat.zero_xor]
  rw [hxor]
  omega

theorem toNat_abs (x : Binary64) : x.abs.bits.toNat = x.bits.toNat % 2 ^ 63 := by
  show (x.bits &&& 0x7FFFFFFFFFFFFFFF).toNat = _
  rw [UInt64.toNat_and]
  exact Nat.and_two_pow_sub_one_eq_mod _ 63

theorem isNegative_eq (x : Binary64) : x.isNegative = decide (2 ^ 63 ≤ x.bits.toNat) := by
  have hlt : x.bits.toNat < 2 ^ 64 := x.bits.toNat_lt
  have hshift : (x.bits >>> 63).toNat = x.bits.toNat / 2 ^ 63 := by
    rw [UInt64.toNat_shiftRight, Nat.shiftRight_eq_div_pow]
    rfl
  rw [isNegative, Bool.eq_iff_iff, beq_iff_eq, decide_eq_true_iff, ← UInt64.toNat_inj, hshift]
  show _ = 1 ↔ _
  omega

theorem exponentBits_eq (x : Binary64) : x.exponentBits = x.bits.toNat / 2 ^ 52 % 2 ^ 11 := by
  have hshift : (x.bits >>> 52).toNat = x.bits.toNat / 2 ^ 52 := by
    rw [UInt64.toNat_shiftRight, Nat.shiftRight_eq_div_pow]
    rfl
  show ((x.bits >>> 52) &&& 0x7FF).toNat = _
  rw [UInt64.toNat_and, hshift]
  exact Nat.and_two_pow_sub_one_eq_mod _ 11

end Binary64

/-! ## Floats that stand for whole numbers -/

/-- The float stands for the whole number. -/
inductive Placed (x : Binary64) : Int → Prop
  | zero (bits : x.bits.toNat = 0) : Placed x 0
  | positive {m k v : Nat} (normal : Normal m (k - 52)) (value : m * 2 ^ k = v * 2 ^ 52)
      (bits : x.bits.toNat = size m (k - 52)) : Placed x v
  | negative {m k v : Nat} (normal : Normal m (k - 52)) (value : m * 2 ^ k = v * 2 ^ 52)
      (bits : x.bits.toNat = 2 ^ 63 + size m (k - 52)) : Placed x (-v)

theorem size_lt {m : Nat} {e : Int} (h : Normal m e) : size m e < 2 ^ 63 := by
  obtain ⟨-, hhigh, hmin, hmax⟩ := h
  unfold size
  omega

theorem bits_ofScientific {n : Nat} (hn : n ≠ 0) (hmax : n < 2 ^ 64) : ∃ m k, NormalOf n m k ∧
    (Float.ofScientific n false 0).toBits.toNat = size m (k - 52) := by
  have packed {m k : Nat} (h : NormalOf n m k) (hmodel : (Float.ofScientific n false 0).toModel =
      Float.Model.pack (.finite .positive m (k - 52) h.normal.pos)) :
      (Float.ofScientific n false 0).toBits.toNat = size m (k - 52) := by
    unfold Float.toBits
    rw [hmodel]
    have hbits := toNat_pack h.normal .positive
    rwa [show Sign.positive.toBitVec.toNat = 0 from rfl, Nat.zero_mul, Nat.zero_add] at hbits
  rcases Nat.lt_or_ge n (2 ^ 53) with hlt | hge
  · exact ⟨_, _, normalOf_small hn hlt, packed (normalOf_small hn hlt) (toModel_small hn hlt)⟩
  · obtain ⟨m, k, h, hmodel⟩ := toModel_large hge hmax
    exact ⟨m, k, h, packed h hmodel⟩

/-- A whole number is read as the nearest number of 53 bits. -/
theorem placed_ofInt {n : Int} (h : n.natAbs < 2 ^ 64) : Placed (Binary64.ofInt n) (nearest n) := by
  by_cases hn : n = 0
  · subst hn
    refine .zero ?_
    decide
  · obtain ⟨m, k, hnormal, hbits⟩ := bits_ofScientific (n := n.natAbs) (by omega) h
    unfold Binary64.ofInt nearest
    dsimp only
    split_ifs with hneg
    · refine .negative hnormal.normal hnormal.value ?_
      rw [Binary64.toNat_neg (hbits.trans_lt (size_lt hnormal.normal)), hbits]
    · exact .positive hnormal.normal hnormal.value hbits

/-! ## The order of floats -/

section Pairs

variable {m m' k k' v v' : Nat} (h : Normal m (k - 52)) (h' : Normal m' (k' - 52))
  (hv : m * 2 ^ k = v * 2 ^ 52) (hv' : m' * 2 ^ k' = v' * 2 ^ 52)

include h h' hv hv'

/-- The exponent decides, as each mantissa has 53 bits. -/
theorem lt_of_exponent_lt (hlt : k < k') : v < v' := by
  have hpow : 2 ^ (k + 1) ≤ 2 ^ k' := Nat.pow_le_pow_right (by decide) hlt
  have hdouble : 2 ^ (k + 1) = 2 * 2 ^ k := Nat.pow_succ'
  have hmul : v * 2 ^ 52 < v' * 2 ^ 52 := calc
    v * 2 ^ 52 = m * 2 ^ k := hv.symm
    _ < 2 ^ 53 * 2 ^ k := Nat.mul_lt_mul_of_pos_right h.high (Nat.two_pow_pos k)
    _ = 2 ^ 52 * 2 ^ (k + 1) := by omega
    _ ≤ 2 ^ 52 * 2 ^ k' := Nat.mul_le_mul_left _ hpow
    _ ≤ m' * 2 ^ k' := Nat.mul_le_mul_right _ h'.low
    _ = v' * 2 ^ 52 := hv'
  exact Nat.lt_of_mul_lt_mul_right hmul

/-- Exponents come before mantissas. -/
theorem exponent_cases : (k < k' ∧ v < v') ∨ (k' < k ∧ v' < v) ∨
    (k = k' ∧ (m < m' ↔ v < v') ∧ (m' < m ↔ v' < v)) := by
  rcases Nat.lt_trichotomy k k' with hlt | rfl | hgt
  · exact .inl ⟨hlt, lt_of_exponent_lt h h' hv hv' hlt⟩
  · have hpow : 0 < 2 ^ k := Nat.two_pow_pos k
    have hbase : 0 < 2 ^ 52 := Nat.two_pow_pos 52
    refine .inr (.inr ⟨rfl, ?_, ?_⟩)
    · rw [← Nat.mul_lt_mul_right hpow, hv, hv', Nat.mul_lt_mul_right hbase]
    · rw [← Nat.mul_lt_mul_right hpow, hv, hv', Nat.mul_lt_mul_right hbase]
  · exact .inr (.inl ⟨hgt, lt_of_exponent_lt h' h hv' hv hgt⟩)

/-- Bits are ordered as the numbers that they stand for. -/
theorem size_le_size_iff : size m (k - 52) ≤ size m' (k' - 52) ↔ v ≤ v' := by
  have hcases := exponent_cases h h' hv hv'
  obtain ⟨hlow, hhigh, -, -⟩ := h
  obtain ⟨hlow', hhigh', -, -⟩ := h'
  unfold size
  rcases hcases with ⟨hk, hlt⟩ | ⟨hk, hlt⟩ | ⟨rfl, hlt, hgt⟩ <;> omega

theorem compare_exponent_mantissa :
    (compare ((k : Int) - 52) (k' - 52)).then (compare m m') = compare v v' := by
  rcases exponent_cases h h' hv hv' with ⟨hk, hlt⟩ | ⟨hk, hlt⟩ | ⟨rfl, hlt, hgt⟩
  · rw [Int.compare_eq_lt.mpr (by omega), Nat.compare_eq_lt.mpr hlt]
    rfl
  · rw [Int.compare_eq_gt.mpr (by omega), Nat.compare_eq_gt.mpr hlt]
    rfl
  · rw [Int.compare_eq_eq.mpr rfl]
    show compare m m' = _
    rcases Nat.lt_trichotomy v v' with hv | rfl | hv
    · rw [Nat.compare_eq_lt.mpr (hlt.mpr hv), Nat.compare_eq_lt.mpr hv]
    · have heq : m = m' := by omega
      rw [Nat.compare_eq_eq.mpr heq, Nat.compare_eq_eq.mpr rfl]
    · rw [Nat.compare_eq_gt.mpr (hgt.mpr hv), Nat.compare_eq_gt.mpr hv]

end Pairs

/-! ### The two orders of floats -/

variable {x y : Binary64} {a b : Int}

/-- The number in the unpacked form of a float. -/
def unpacked (x : Binary64) : UnpackedFloat := x.toFloat.toModel.unpack

theorem unpacked_of_toNat {m : Nat} {e : Int} (h : Normal m e) (s : Sign)
    (hbits : x.bits.toNat = s.toBitVec.toNat * 2 ^ 63 + size m e) :
    unpacked x = .finite s m e h.pos := by
  have hfirst : UnpackedFloat.unpack .binary64 x.bits.toBitVec = .finite s m e h.pos :=
    unpack_of_toNat h s hbits
  show (Float.Model.pack (UnpackedFloat.unpack .binary64 x.bits.toBitVec)).unpack = _
  rw [hfirst]
  exact unpack_pack h s

theorem unpacked_zero (h : x.bits.toNat = 0) : unpacked x = .zero .positive := by
  have hx : x = ⟨0⟩ := by
    obtain ⟨bits⟩ := x
    exact congrArg Binary64.mk (UInt64.toNat_inj.mp h)
  rw [hx]
  rfl

theorem Placed.not_isNaN (h : Placed x a) : x.isNaN = false := by
  have hexponent : x.exponentBits ≠ 0x7FF := by
    rw [Binary64.exponentBits_eq]
    cases h with
    | zero bits => rw [bits]; decide
    | positive normal value bits =>
      obtain ⟨hlow, hhigh, hmin, hmax⟩ := normal
      rw [bits, size]
      omega
    | negative normal value bits =>
      obtain ⟨hlow, hhigh, hmin, hmax⟩ := normal
      rw [bits, size]
      omega
  simp [Binary64.isNaN, hexponent]

theorem value_pos {m k v : Nat} (h : Normal m (k - 52)) (hv : m * 2 ^ k = v * 2 ^ 52) : 0 < v := by
  have hpos : 0 < m * 2 ^ k := Nat.mul_pos h.pos (Nat.two_pow_pos k)
  omega

theorem compare_natCast (v v' : Nat) : compare (v : Int) v' = compare v v' := by
  rcases Nat.lt_trichotomy v v' with hlt | rfl | hgt
  · rw [Nat.compare_eq_lt.mpr hlt, Int.compare_eq_lt.mpr (by omega)]
  · rw [Nat.compare_eq_eq.mpr rfl, Int.compare_eq_eq.mpr rfl]
  · rw [Nat.compare_eq_gt.mpr hgt, Int.compare_eq_gt.mpr (by omega)]

theorem compare_neg_natCast (v v' : Nat) : compare (-v : Int) (-v') = (compare v v').swap := by
  rcases Nat.lt_trichotomy v v' with hlt | rfl | hgt
  · rw [Nat.compare_eq_lt.mpr hlt, Int.compare_eq_gt.mpr (by omega)]
    rfl
  · rw [Nat.compare_eq_eq.mpr rfl, Int.compare_eq_eq.mpr rfl]
    rfl
  · rw [Nat.compare_eq_gt.mpr hgt, Int.compare_eq_lt.mpr (by omega)]
    rfl

theorem unpacked_positive {m k : Nat} (h : Normal m (k - 52))
    (bits : x.bits.toNat = size m (k - 52)) : unpacked x = .finite .positive m (k - 52) h.pos :=
  unpacked_of_toNat h .positive (by rw [bits]; exact (Nat.zero_add _).symm)

theorem unpacked_negative {m k : Nat} (h : Normal m (k - 52))
    (bits : x.bits.toNat = 2 ^ 63 + size m (k - 52)) :
    unpacked x = .finite .negative m (k - 52) h.pos :=
  unpacked_of_toNat h .negative bits

theorem compare_unpacked (h : Placed x a) (h' : Placed y b) :
    (unpacked x).compare (unpacked y) = some (compare a b) := by
  cases h with
  | zero bits =>
    rw [unpacked_zero bits]
    cases h' with
    | zero bits' =>
      rw [unpacked_zero bits']
      rfl
    | @positive m' k' v' normal' value' bits' =>
      have hpos := value_pos normal' value'
      rw [unpacked_positive normal' bits', Int.compare_eq_lt.mpr (by omega)]
      rfl
    | @negative m' k' v' normal' value' bits' =>
      have hpos := value_pos normal' value'
      rw [unpacked_negative normal' bits', Int.compare_eq_gt.mpr (by omega)]
      rfl
  | @positive m k v normal value bits =>
    have hpos := value_pos normal value
    rw [unpacked_positive normal bits]
    cases h' with
    | zero bits' =>
      rw [unpacked_zero bits', Int.compare_eq_gt.mpr (by omega)]
      rfl
    | positive normal' value' bits' =>
      rw [unpacked_positive normal' bits', compare_natCast,
        ← compare_exponent_mantissa normal normal' value value']
      rfl
    | negative normal' value' bits' =>
      rw [unpacked_negative normal' bits', Int.compare_eq_gt.mpr (by omega)]
      rfl
  | @negative m k v normal value bits =>
    have hpos := value_pos normal value
    rw [unpacked_negative normal bits]
    cases h' with
    | zero bits' =>
      rw [unpacked_zero bits', Int.compare_eq_lt.mpr (by omega)]
      rfl
    | positive normal' value' bits' =>
      rw [unpacked_positive normal' bits', Int.compare_eq_lt.mpr (by omega)]
      rfl
    | negative normal' value' bits' =>
      rw [unpacked_negative normal' bits', compare_neg_natCast,
        ← compare_exponent_mantissa normal normal' value value']
      rfl

/-- The numeric order of floats compares the whole numbers that they stand for. -/
theorem Placed.compare? (h : Placed x a) (h' : Placed y b) :
    x.compare? y = some (compare a b) := by
  have hcmp := compare_unpacked h h'
  have hequals : x.equals y = (compare a b == .eq) := by
    show ((unpacked x).compare (unpacked y) == some .eq) = _
    rw [hcmp]
    rfl
  have hless : x.toFloat < y.toFloat ↔ compare a b = .lt := by
    show decide (x.toFloat.toModel < y.toFloat.toModel) = true ↔ _
    rw [decide_eq_true_iff]
    show ((unpacked x).compare (unpacked y) == some .lt) = true ↔ _
    rw [hcmp, beq_iff_eq, Option.some.injEq]
  unfold Binary64.compare?
  rw [h.not_isNaN, h'.not_isNaN, hequals]
  simp only [hless]
  rcases compare a b with _ | _ | _ <;> rfl

theorem orderKey_eq (x : Binary64) : x.orderKey = if 2 ^ 63 ≤ x.bits.toNat then
    -((x.bits.toNat % 2 ^ 63 : Nat) + 1 : Int) else x.bits.toNat := by
  unfold Binary64.orderKey
  simp only [Binary64.isNegative_eq, Binary64.toNat_abs, decide_eq_true_eq]

theorem orderKey_positive {m : Nat} {e : Int} (h : Normal m e) (bits : x.bits.toNat = size m e) :
    x.orderKey = size m e := by
  have hsize := size_lt h
  rw [orderKey_eq, bits, if_neg (by omega)]

theorem orderKey_negative {m : Nat} {e : Int} (h : Normal m e)
    (bits : x.bits.toNat = 2 ^ 63 + size m e) : x.orderKey = -(size m e + 1 : Int) := by
  have hsize := size_lt h
  have hmod : (2 ^ 63 + size m e) % 2 ^ 63 = size m e := by omega
  rw [orderKey_eq, bits, if_pos (by omega), hmod]

theorem size_pos {m : Nat} {e : Int} (h : Normal m e) : 0 < size m e :=
  Nat.lt_of_lt_of_le h.pos (Nat.le_add_left m _)

/-- The total order of floats compares the whole numbers that they stand for. -/
theorem Placed.orderKey_le_iff (h : Placed x a) (h' : Placed y b) :
    x.orderKey ≤ y.orderKey ↔ a ≤ b := by
  have zero {z : Binary64} (bits : z.bits.toNat = 0) : z.orderKey = 0 := by
    rw [orderKey_eq, bits]
    rfl
  cases h with
  | zero bits =>
    rw [zero bits]
    cases h' with
    | zero bits' => rw [zero bits']
    | positive normal' value' bits' =>
      have hpos := value_pos normal' value'
      rw [orderKey_positive normal' bits']
      omega
    | negative normal' value' bits' =>
      have hpos := value_pos normal' value'
      rw [orderKey_negative normal' bits']
      omega
  | positive normal value bits =>
    have hpos := value_pos normal value
    have hsize := size_pos normal
    rw [orderKey_positive normal bits]
    cases h' with
    | zero bits' =>
      rw [zero bits']
      omega
    | positive normal' value' bits' =>
      have hiff := size_le_size_iff normal normal' value value'
      rw [orderKey_positive normal' bits']
      omega
    | negative normal' value' bits' =>
      have hpos' := value_pos normal' value'
      rw [orderKey_negative normal' bits']
      omega
  | negative normal value bits =>
    have hpos := value_pos normal value
    rw [orderKey_negative normal bits]
    cases h' with
    | zero bits' =>
      rw [zero bits']
      omega
    | positive normal' value' bits' =>
      rw [orderKey_positive normal' bits']
      omega
    | negative normal' value' bits' =>
      have hiff := size_le_size_iff normal' normal value' value
      rw [orderKey_negative normal' bits']
      omega

end ReportTemplate.Number
