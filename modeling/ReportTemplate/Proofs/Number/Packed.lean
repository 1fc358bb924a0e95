import ReportTemplate.Number.Binary64
import ReportTemplate.Proofs.Number.Rounding

/-!
# ReportTemplate.Proofs.Number.Packed — the bits of the float nearest to a whole number

The model of floats shifts a mantissa down and rounds what falls off.  On a whole number that is division
by the gap between the floats around it, with ties to even; the result is in normal form, and its bits as
a number tell mantissa and exponent.
-/

namespace ReportTemplate.Number

open Float.Model Float.Model.UnpackedFloat

/-! ## Rounding by shifts -/

/-- A mantissa shifted down, with the last bit that fell off and whether any fell off before. -/
theorem shifted (m s : Nat) : (⟨m, false, false⟩ : ExtendedMantissa) >>> (s + 1) =
    ⟨m / 2 ^ (s + 1), m / 2 ^ s % 2 != 0, m % 2 ^ s != 0⟩ := by
  induction s with
  | zero =>
    show ExtendedMantissa.shiftRightOne ⟨m, false, false⟩ = _
    simp [ExtendedMantissa.shiftRightOne, Nat.mod_one]
  | succ s ih =>
    have hstep : (⟨m, false, false⟩ : ExtendedMantissa) >>> (s + 1 + 1) =
        ((⟨m, false, false⟩ : ExtendedMantissa) >>> (s + 1)).shiftRightOne := rfl
    have hmod : m % 2 ^ (s + 1) = m % 2 ^ s + 2 ^ s * (m / 2 ^ s % 2) := Nat.mod_pow_succ
    have hzero : m % 2 ^ (s + 1) = 0 ↔ m / 2 ^ s % 2 = 0 ∧ m % 2 ^ s = 0 := by
      rw [hmod, Nat.add_eq_zero_iff, Nat.mul_eq_zero, and_comm]
      simp
    rw [hstep, ih]
    simp only [ExtendedMantissa.shiftRightOne, Nat.div_div_eq_div_mul, ← Nat.pow_succ]
    congr 1
    rw [Bool.eq_iff_iff]
    simp only [Bool.or_eq_true, bne_iff_ne, ne_eq, hzero, not_and_or]

theorem roundedMantissa_shifted (m s : Nat) :
    ((⟨m, false, false⟩ : ExtendedMantissa) >>> s).roundedMantissa = roundDiv m (2 ^ s) := by
  cases s with
  | zero =>
    rw [Nat.pow_zero, roundDiv_one]
    rfl
  | succ s =>
    have hmod : m % 2 ^ (s + 1) = m % 2 ^ s + 2 ^ s * (m / 2 ^ s % 2) := Nat.mod_pow_succ
    have hlt : m % 2 ^ s < 2 ^ s := Nat.mod_lt _ (Nat.two_pow_pos s)
    have hpow : 2 ^ (s + 1) = 2 * 2 ^ s := Nat.pow_succ'
    rw [shifted, roundDiv_eq]
    generalize hq : m / 2 ^ (s + 1) = q
    rcases Nat.mod_two_eq_zero_or_one (m / 2 ^ s) with hbit | hbit
    · -- Less than half is left.
      rw [hbit, Nat.mul_zero, Nat.add_zero] at hmod
      rw [if_pos (by omega), hbit]
      rcases h : (m % 2 ^ s != 0) <;> rfl
    · rw [hbit, Nat.mul_one] at hmod
      rw [if_neg (by omega), hbit]
      by_cases hrest : m % 2 ^ s = 0
      · rw [if_neg (by omega), hrest]
        rfl
      · have hsome : (m % 2 ^ s != 0) = true := bne_iff_ne.mpr hrest
        rw [if_pos (by omega), hsome]
        rfl

/-! ## Rounding to 53 bits -/

theorem log2_eq_of_bounds {m k : Nat} (h : 2 ^ k ≤ m) (h' : m < 2 ^ (k + 1)) : m.log2 = k := by
  have hm : m ≠ 0 := by
    have := Nat.two_pow_pos k
    omega
  exact (Nat.log2_eq_iff hm).mpr ⟨h, h'⟩

/-- The exponent that leaves a mantissa 53 bits. -/
theorem targetExponent_total (m : Nat) (e : Int) :
    Format.binary64.targetExponent (totalExponent m e) = max (m.log2 + 1 + e - 53) (-1074) :=
  rfl

/-- Where the exponent is large enough, a mantissa keeps its first 53 bits. -/
theorem shiftToTargetExponent_eq {m : Nat} {e : Int} (he : -1074 ≤ e + (m.log2 - 52 : Nat)) :
    shiftToTargetExponent .binary64 m e .exact =
      ((⟨m, false, false⟩ : ExtendedMantissa) >>> (m.log2 - 52), e + (m.log2 - 52 : Nat)) := by
  have hamount : (Format.binary64.targetExponent (totalExponent m e) - e).toNat = m.log2 - 52 := by
    rw [targetExponent_total]
    omega
  unfold shiftToTargetExponent shiftToExponent
  dsimp only
  rw [hamount]
  rfl

theorem finite_congr {s s' : Sign} {m m' : Nat} {e e' : Int} {hpos : 0 < m} {hpos' : 0 < m'}
    (hs : s = s') (hm : m = m') (he : e = e') :
    UnpackedFloat.finite s m e hpos = .finite s' m' e' hpos' := by
  subst hs hm he
  rfl

/-- A float of 53 bits in front of an exponent that fits. -/
structure Normal (m : Nat) (e : Int) : Prop where
  low : 2 ^ 52 ≤ m
  high : m < 2 ^ 53
  min : -1074 ≤ e
  max : e ≤ 971

theorem Normal.pos {m : Nat} {e : Int} (h : Normal m e) : 0 < m :=
  Nat.lt_of_lt_of_le (Nat.two_pow_pos 52) h.low

/-- Rounding gives the nearest number of 53 bits. -/
theorem roundWithAccuracy_eq {m : Nat} {e : Int} (hm : 52 ≤ m.log2)
    (he : -1074 ≤ e + (m.log2 - 52 : Nat)) (s : Sign) :
    ∃ (m' k : Nat) (hpos : 0 < m'), 2 ^ 52 ≤ m' ∧ m' < 2 ^ 53 ∧ m' * 2 ^ k = roundDiv m (gap m) ∧ k ≤ 1 ∧
      roundWithAccuracy .binary64 s m e .exact = .finite s m' (e + (m.log2 - 52 : Nat) + k) hpos := by
  obtain ⟨hlow, hhigh⟩ := roundDiv_gap hm
  have hfirst := shiftToTargetExponent_eq he
  have hrounded : ((⟨m, false, false⟩ : ExtendedMantissa) >>> (m.log2 - 52)).roundedMantissa =
      roundDiv m (gap m) := roundedMantissa_shifted m _
  generalize hR : roundDiv m (gap m) = R at *
  generalize hE : e + (m.log2 - 52 : Nat) = E at *
  rcases Nat.lt_or_eq_of_le hhigh with hlt | rfl
  · have hlog : R.log2 - 52 = 0 := by rw [log2_eq_of_bounds hlow hlt]
    have hsecond := shiftToTargetExponent_eq (m := R) (e := E) (by omega)
    rw [hlog] at hsecond
    refine ⟨R, 0, by omega, hlow, hlt, Nat.mul_one R, Nat.zero_le 1, ?_⟩
    unfold roundWithAccuracy
    rw [hfirst]
    dsimp only
    rw [hrounded, hsecond]
    dsimp only
    have hR0 : ((⟨R, false, false⟩ : ExtendedMantissa) >>> (0 : Nat)).mantissa = R := rfl
    rw [dif_neg (by rw [hR0]; omega)]
    rfl
  · have hlog : (2 ^ 53 : Nat).log2 - 52 = 1 := by decide
    have hsecond := shiftToTargetExponent_eq (m := 2 ^ 53) (e := E) (by omega)
    rw [hlog] at hsecond
    refine ⟨2 ^ 52, 1, by decide, Nat.le_refl _, by decide, by decide, Nat.le_refl 1, ?_⟩
    unfold roundWithAccuracy
    rw [hfirst]
    dsimp only
    rw [hrounded, hsecond]
    dsimp only
    rfl

/-- What has 53 bits in front of zeros is not rounded. -/
theorem roundWithAccuracy_exact {m j : Nat} {e : Int} (h : Normal m (e + j)) (s : Sign) :
    roundWithAccuracy .binary64 s (m * 2 ^ j) e .exact = .finite s m (e + j) h.pos := by
  have hpow : 0 < 2 ^ j := Nat.two_pow_pos j
  have hlog : (m * 2 ^ j).log2 = 52 + j := by
    refine log2_eq_of_bounds ?_ ?_
    · rw [Nat.pow_add]
      exact Nat.mul_le_mul_right _ h.low
    · have hexp : 52 + j + 1 = 53 + j := by omega
      rw [hexp, Nat.pow_add]
      exact Nat.mul_lt_mul_of_pos_right h.high hpow
  have hsub : (m * 2 ^ j).log2 - 52 = j := by omega
  have hgap : gap (m * 2 ^ j) = 2 ^ j := by rw [gap, hsub]
  obtain ⟨m', k, hpos, hlow, -, hm', hk, heq⟩ := roundWithAccuracy_eq (m := m * 2 ^ j) (e := e)
    (by omega) (by rw [hsub]; exact h.min) s
  rw [hgap, roundDiv_mul_self m hpow] at hm'
  have hhigh := h.high
  obtain rfl : k = 0 := by
    by_contra hne
    obtain rfl : k = 1 := by omega
    omega
  obtain rfl : m' = m := by simpa using hm'
  rw [heq, hsub]
  exact finite_congr rfl rfl (Int.add_zero _)

/-! ## Bits -/

theorem toNat_packComponents (s : Sign) (e : BitVec 11) (m : BitVec 52) :
    (packComponents .binary64 s e m).toNat = s.toBitVec.toNat * 2 ^ 63 + e.toNat * 2 ^ 52 + m.toNat := by
  have hm : m.toNat < 2 ^ 52 := m.isLt
  have he : e.toNat < 2 ^ 11 := e.isLt
  show (s.toBitVec ++ e ++ m).toNat = _
  rw [BitVec.toNat_append, BitVec.toNat_append, ← Nat.shiftLeft_add_eq_or_of_lt hm,
    ← Nat.shiftLeft_add_eq_or_of_lt he, Nat.shiftLeft_eq, Nat.shiftLeft_eq]
  omega

theorem toNat_unpackMantissa (b : BitVec 64) :
    (@unpackMantissa .binary64 b).toNat = b.toNat % 2 ^ 52 := by
  show (b.extractLsb' 0 52).toNat = _
  rw [BitVec.extractLsb'_toNat, Nat.shiftRight_zero]

theorem toNat_unpackExponent (b : BitVec 64) :
    (@unpackExponent .binary64 b).toNat = b.toNat / 2 ^ 52 % 2 ^ 11 := by
  show (b.extractLsb' 52 11).toNat = _
  rw [BitVec.extractLsb'_toNat, Nat.shiftRight_eq_div_pow]

theorem toNat_unpackSign (b : BitVec 64) :
    (@unpackSign .binary64 b).toNat = b.toNat / 2 ^ 63 % 2 := by
  show (b.extractLsb' 63 1).toNat = _
  rw [BitVec.extractLsb'_toNat, Nat.shiftRight_eq_div_pow]

/-- The bits of a float but its sign. -/
def size (m : Nat) (e : Int) : Nat := (e + 1074).toNat * 2 ^ 52 + m

section
variable {m : Nat} {e : Int} (h : Normal m e) (s : Sign)

theorem toNat_pack : (UnpackedFloat.pack .binary64 (.finite s m e h.pos)).toNat =
    s.toBitVec.toNat * 2 ^ 63 + size m e := by
  obtain ⟨hlow, hhigh, hmin, hmax⟩ := h
  have hlog : m.log2 = 52 := log2_eq_of_bounds hlow hhigh
  have hbiased : (e + Format.binary64.exponentBias + Format.binary64.mantissaBitsWithoutImplicit).toNat
      = (e + 1074).toNat + 1 := by
    show (e + 1023 + 52).toNat = _
    omega
  unfold UnpackedFloat.pack
  dsimp only
  rw [hbiased, if_neg (by show ¬ 2048 ≤ _; omega), if_pos (by rw [hlog]; rfl)]
  refine (toNat_packComponents s _ _).trans ?_
  have he : (BitVec.ofNat 11 ((e + 1074).toNat + 1)).toNat = (e + 1074).toNat + 1 := by
    rw [BitVec.toNat_ofNat]
    exact Nat.mod_eq_of_lt (by omega)
  have hm : (BitVec.ofNat 52 m).toNat = m - 2 ^ 52 := by
    rw [BitVec.toNat_ofNat]
    omega
  show _ + (BitVec.ofNat 11 ((e + 1074).toNat + 1)).toNat * 2 ^ 52 + (BitVec.ofNat 52 m).toNat = _
  rw [he, hm, size]
  omega

theorem unpack_of_toNat {b : BitVec 64} (hb : b.toNat = s.toBitVec.toNat * 2 ^ 63 + size m e) :
    UnpackedFloat.unpack .binary64 b = .finite s m e h.pos := by
  have hbit : s.toBitVec.toNat < 2 := s.toBitVec.isLt
  obtain ⟨hlow, hhigh, hmin, hmax⟩ := h
  have hmantissa := toNat_unpackMantissa b
  have hexponent := toNat_unpackExponent b
  have hsign := toNat_unpackSign b
  rw [hb, size] at hmantissa hexponent hsign
  have hm : (@unpackMantissa .binary64 b).toNat = m - 2 ^ 52 := by omega
  have he : (@unpackExponent .binary64 b).toNat = (e + 1074).toNat + 1 := by omega
  have hs : @unpackSign .binary64 b = s.toBitVec := by
    refine BitVec.eq_of_toNat_eq ?_
    omega
  unfold UnpackedFloat.unpack
  dsimp only
  rw [if_neg, if_neg]
  · have hvec : (1#1 ++ @unpackMantissa .binary64 b).toNat = m := by
      rw [BitVec.toNat_append, ← Nat.shiftLeft_add_eq_or_of_lt (BitVec.isLt _), hm, Nat.shiftLeft_eq]
      show 1 * 2 ^ 52 + _ = _
      omega
    have hexp : ((@unpackExponent .binary64 b).toNat : Int) -
        (Format.binary64.exponentBias + Format.binary64.mantissaBitsWithoutImplicit) = e := by
      rw [he]
      show (((e + 1074).toNat + 1 : Nat) : Int) - (1023 + 52) = e
      omega
    have hsgn : Sign.ofBitVec (@unpackSign .binary64 b) = s := by
      rw [hs]
      cases s <;> rfl
    exact finite_congr hsgn hvec hexp
  · intro hzero
    have := congrArg BitVec.toNat hzero
    rw [he] at this
    simp at this
  · intro hones
    have := congrArg BitVec.toNat hones
    rw [he] at this
    change _ = 2047 at this
    omega
end

theorem unpack_pack {m : Nat} {e : Int} (h : Normal m e) (s : Sign) :
    (Float.Model.pack (.finite s m e h.pos)).unpack = .finite s m e h.pos :=
  unpack_of_toNat h s (toNat_pack h s)

/-! ## Whole numbers as floats -/

/-- A number of at most 53 bits, moved up to 53 bits. -/
theorem normal_small {n : Nat} (hn : n ≠ 0) (h : n < 2 ^ 53) :
    Normal (n * 2 ^ (52 - n.log2)) (n.log2 - 52) := by
  have hlog : n.log2 < 53 := (Nat.log2_lt hn).mpr h
  have hpow := Nat.two_pow_pos (52 - n.log2)
  refine ⟨?_, ?_, by omega, by omega⟩
  · have hlow := Nat.mul_le_mul_right (2 ^ (52 - n.log2)) (Nat.log2_self_le hn)
    rwa [← Nat.pow_add, Nat.add_sub_cancel' (by omega)] at hlow
  · have hhigh := Nat.mul_lt_mul_of_pos_right (Nat.lt_log2_self (n := n)) hpow
    have hexp : n.log2 + 1 + (52 - n.log2) = 53 := by omega
    rwa [← Nat.pow_add, hexp] at hhigh

theorem ofNat_small {n : Nat} (hn : n ≠ 0) (h : n < 2 ^ 53) :
    UnpackedFloat.ofNat .binary64 n =
      .finite .positive (n * 2 ^ (52 - n.log2)) (n.log2 - 52) (normal_small hn h).pos := by
  have hlog : n.log2 < 53 := (Nat.log2_lt hn).mpr h
  have hcmp : compare (n : Int) 0 = .gt := by
    rw [Int.compare_eq_gt]
    omega
  have htarget : Format.binary64.targetExponent (totalExponent n 0) = n.log2 - 52 := by
    rw [targetExponent_total]
    omega
  have hshift : (0 - ((n.log2 : Int) - 52)).toNat = 52 - n.log2 := by omega
  have hexp : (0 : Int) - (52 - n.log2 : Nat) = n.log2 - 52 := by omega
  have hexact := roundWithAccuracy_exact (j := 0) (e := n.log2 - 52)
    (by simpa using normal_small hn h) .positive
  unfold UnpackedFloat.ofNat UnpackedFloat.ofInt UnpackedFloat.normalize
  rw [hcmp]
  dsimp only
  unfold UnpackedFloat.round decreaseExponent
  rw [Int.toNat_natCast, htarget]
  dsimp only
  rw [hshift, hexp, Nat.shiftLeft_eq]
  rw [Nat.pow_zero, Nat.mul_one] at hexact
  exact hexact.trans (finite_congr rfl rfl (Int.add_zero _))

theorem one_unpack : Float.exactlyRepresentablePowersOfTen[0].toModel.unpack =
    .finite .positive (2 ^ 52) (-52) (by decide) :=
  unpack_of_toNat (m := 2 ^ 52) (e := -52) ⟨by decide, by decide, by decide, by decide⟩ .positive
    (by decide)

/-- The float nearest to a positive whole number, in normal form. -/
structure NormalOf (n m k : Nat) : Prop where
  normal : Normal m (k - 52)
  value : m * 2 ^ k = nearestNat n * 2 ^ 52

theorem toModel_small {n : Nat} (hn : n ≠ 0) (h : n < 2 ^ 53) :
    (Float.ofScientific n false 0).toModel = Float.Model.pack
      (.finite .positive (n * 2 ^ (52 - n.log2)) (n.log2 - 52) (normal_small hn h).pos) := by
  have hnormal := normal_small hn h
  have hfloat : Float.ofScientific n false 0 =
      n.toUInt64.toFloat * Float.exactlyRepresentablePowersOfTen[0] := by
    unfold Float.ofScientific
    rw [dif_pos ⟨h, by decide⟩]
    rfl
  have hnat : n.toUInt64.toNat = n := Nat.mod_eq_of_lt (by omega)
  have hleft : n.toUInt64.toFloat.toModel.unpack =
      .finite .positive (n * 2 ^ (52 - n.log2)) (n.log2 - 52) hnormal.pos := by
    show (Float.Model.pack (UnpackedFloat.ofNat .binary64 n.toUInt64.toNat)).unpack = _
    rw [hnat, ofNat_small hn h]
    exact unpack_pack hnormal .positive
  have hmul := roundWithAccuracy_exact (m := n * 2 ^ (52 - n.log2)) (j := 52)
    (e := (n.log2 : Int) - 52 + -52) (by simpa using hnormal) .positive
  rw [hfloat]
  show Float.Model.pack (UnpackedFloat.mul .binary64 n.toUInt64.toFloat.toModel.unpack
    Float.exactlyRepresentablePowersOfTen[0].toModel.unpack) = _
  rw [hleft, one_unpack]
  refine congrArg Float.Model.pack (hmul.trans (finite_congr rfl rfl ?_))
  omega

theorem normalOf_small {n : Nat} (hn : n ≠ 0) (h : n < 2 ^ 53) :
    NormalOf n (n * 2 ^ (52 - n.log2)) n.log2 where
  normal := normal_small hn h
  value := by
    have hlog : n.log2 < 53 := (Nat.log2_lt hn).mpr h
    rw [nearestNat_of_le h.le, Nat.mul_assoc, ← Nat.pow_add, Nat.sub_add_cancel (by omega)]

theorem toModel_large {n : Nat} (h : 2 ^ 53 ≤ n) (hmax : n < 2 ^ 64) :
    ∃ m k, ∃ hnormal : NormalOf n m k, (Float.ofScientific n false 0).toModel =
      Float.Model.pack (.finite .positive m (k - 52) hnormal.normal.pos) := by
  have hn : n ≠ 0 := by omega
  have hlow : 53 ≤ n.log2 := (Nat.le_log2 hn).mpr h
  have hhigh : n.log2 < 64 := (Nat.log2_lt hn).mpr hmax
  have hlog : (n * 2 ^ 53).log2 = n.log2 + 53 := by
    refine log2_eq_of_bounds ?_ ?_
    · rw [Nat.pow_add]
      exact Nat.mul_le_mul_right _ (Nat.log2_self_le hn)
    · have hexp : n.log2 + 53 + 1 = n.log2 + 1 + 53 := by omega
      rw [hexp, Nat.pow_add]
      exact Nat.mul_lt_mul_of_pos_right Nat.lt_log2_self (by decide)
  have hsub : (n * 2 ^ 53).log2 - 52 = n.log2 + 1 := by omega
  have hgap : gap (n * 2 ^ 53) = gap n * 2 ^ 53 := by
    rw [gap, hsub, gap, ← Nat.pow_add]
    congr 1
    omega
  obtain ⟨m, k, hpos, hm, hm', hvalue, hk, heq⟩ := roundWithAccuracy_eq (m := n * 2 ^ 53) (e := -53)
    (by omega) (by omega) .positive
  rw [hgap, roundDiv_mul_mul n (gap n) (by decide)] at hvalue
  have hexp : (-53 : Int) + ((n * 2 ^ 53).log2 - 52 : Nat) + k = (n.log2 + k : Nat) - 52 := by
    rw [hsub]
    omega
  have hnormal : NormalOf n m (n.log2 + k) := by
    refine ⟨⟨hm, hm', by omega, by omega⟩, ?_⟩
    have hpow : 2 ^ n.log2 = gap n * 2 ^ 52 := by
      rw [gap, ← Nat.pow_add, Nat.sub_add_cancel (by omega)]
    rw [Nat.add_comm, Nat.pow_add, ← Nat.mul_assoc, hvalue, hpow, nearestNat, Nat.mul_assoc]
  refine ⟨m, n.log2 + k, hnormal, ?_⟩
  have hfloat : (Float.ofScientific n false 0).toModel = Float.Model.ofScientific n 0 := by
    unfold Float.ofScientific
    rw [dif_neg (by omega)]
    rfl
  rw [hfloat]
  refine congrArg Float.Model.pack ?_
  unfold UnpackedFloat.ofScientific
  have hbits : (2 : Int) ^ Format.binary64.exponentBits = 2048 := rfl
  rw [dif_neg hn, hbits, if_neg (by decide), if_neg (by omega), if_pos (Int.le_refl 0)]
  have hshift : n <<< Format.binary64.mantissaBits * 1 = n * 2 ^ 53 := by
    rw [Nat.mul_one, Nat.shiftLeft_eq]
    rfl
  show roundWithAccuracy .binary64 .positive (n <<< Format.binary64.mantissaBits * 1) (-53 + 0) .exact = _
  rw [hshift, Int.add_zero, heq]
  exact finite_congr rfl rfl hexp

end ReportTemplate.Number
