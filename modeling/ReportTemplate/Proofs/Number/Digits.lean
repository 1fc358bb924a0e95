import Mathlib.Algebra.Group.Nat.Defs
import ReportTemplate.Number.Read

/-!
# ReportTemplate.Proofs.Number.Digits — decimal digits read back

`Number.readNat?` is the left inverse of `Nat.toDigits 10` on the numbers that fit in a word.
-/

namespace ReportTemplate.Number

theorem digitsValue_cons_zero (ds : List Char) : digitsValue ('0' :: ds) = digitsValue ds := rfl

theorem digitsValue_significant (ds : List Char) : digitsValue (significant ds) = digitsValue ds := by
  induction ds with
  | nil => rfl
  | cons c ds ih =>
    unfold significant at ih ⊢
    rw [List.dropWhile_cons]
    split
    next hc =>
      rw [ih, of_decide_eq_true hc, digitsValue_cons_zero]
    next => rfl

theorem digitsValue_eq_ofDigitChars (ds : List Char) : digitsValue ds = Nat.ofDigitChars 10 ds 0 := by
  rw [Nat.ofDigitChars_eq_foldl]
  unfold digitsValue
  simp only [Nat.mul_comm]

theorem digitsValue_toDigits (n : Nat) : digitsValue (Nat.toDigits 10 n) = n := by
  rw [digitsValue_eq_ofDigitChars, Nat.ofDigitChars_ten_toDigits]

theorem isDigit_of_mem_toDigits {n : Nat} {c : Char} (h : c ∈ Nat.toDigits 10 n) :
    isDigit c = true := by
  have hc := Nat.isDigit_of_mem_toDigits (by decide) (by decide) h
  simpa [isDigit, Char.isDigit, Char.le_def] using hc

theorem isNumeral_toDigits (n : Nat) : isNumeral (Nat.toDigits 10 n) = true := by
  have hall : (Nat.toDigits 10 n).all isDigit = true :=
    List.all_eq_true.mpr fun c hc => isDigit_of_mem_toDigits hc
  have hne : (Nat.toDigits 10 n).isEmpty = false :=
    List.isEmpty_eq_false_iff.mpr Nat.toDigits_ne_nil
  unfold isNumeral
  rw [hall, hne]
  rfl

/-- What is read from digits is the number they denote. -/
theorem readNat?_eq_some {ds : List Char} {n : Nat} (h : readNat? ds = some n) :
    n = Nat.ofDigitChars 10 ds 0 := by
  unfold readNat? at h
  split at h
  next =>
    rw [digitsValue_significant, digitsValue_eq_ofDigitChars] at h
    exact (Option.some.inj h).symm
  next => cases h

/-- The decimal text of a number reads back, unless it has too many digits. -/
theorem readNat?_toDigits {n m : Nat} (h : readNat? (Nat.toDigits 10 n) = some m) : m = n := by
  rw [readNat?_eq_some h, Nat.ofDigitChars_ten_toDigits]

theorem le_ofDigitChars (ds : List Char) (n : Nat) :
    n * 10 ^ ds.length ≤ Nat.ofDigitChars 10 ds n := by
  induction ds generalizing n with
  | nil => simp
  | cons c ds ih =>
    rw [Nat.ofDigitChars_cons, List.length_cons, Nat.pow_succ']
    refine Nat.le_trans ?_ (ih (10 * n + (c.toNat - '0'.toNat)))
    rw [← Nat.mul_assoc]
    exact Nat.mul_le_mul_right _ (by omega)

theorem pos_of_isDigit {c : Char} (hc : isDigit c = true) (h : c ≠ '0') :
    0 < c.toNat - '0'.toNat := by
  simp only [isDigit, Bool.and_eq_true, decide_eq_true_eq, Char.le_def, UInt32.le_iff_toNat_le] at hc
  have hne : c.toNat ≠ '0'.toNat := fun he => h (Char.toNat_inj.mp he)
  have hle : '0'.toNat ≤ c.toNat := hc.1
  omega

/-- Digits that are not read denote a number that is too large for 64 bits. -/
theorem readNat?_eq_none {ds : List Char} (hds : isNumeral ds = true) (h : readNat? ds = none) :
    10 ^ wordDigits ≤ Nat.ofDigitChars 10 ds 0 := by
  have hlong : wordDigits < (significant ds).length := by
    unfold readNat? at h
    simpa [hds] using h
  rw [← digitsValue_eq_ofDigitChars, ← digitsValue_significant, digitsValue_eq_ofDigitChars]
  cases hs : significant ds with
  | nil => simp [hs] at hlong
  | cons c s =>
    have hc : c ≠ '0' := by
      have hhead := List.head?_dropWhile_not (fun d : Char => decide (d = '0')) ds
      unfold significant at hs
      simpa [hs] using hhead
    have hmem : c ∈ ds := (List.dropWhile_suffix _).subset (hs ▸ List.mem_cons_self)
    have hdigit : isDigit c = true := by
      simp only [isNumeral, Bool.and_eq_true, List.all_eq_true] at hds
      exact hds.2 c hmem
    have hpos : 0 < c.toNat - '0'.toNat := pos_of_isDigit hdigit hc
    rw [hs, List.length_cons] at hlong
    rw [Nat.ofDigitChars_cons, Nat.mul_zero, Nat.zero_add]
    calc 10 ^ wordDigits ≤ 1 * 10 ^ s.length := by
          rw [Nat.one_mul]
          exact Nat.pow_le_pow_right (by decide) (by omega)
      _ ≤ (c.toNat - '0'.toNat) * 10 ^ s.length := Nat.mul_le_mul_right _ hpos
      _ ≤ _ := le_ofDigitChars s _

theorem readNat?_toDigits_of_lt {n : Nat} (h : n < 10 ^ wordDigits) :
    readNat? (Nat.toDigits 10 n) = some n := by
  have hlen : (significant (Nat.toDigits 10 n)).length ≤ wordDigits := by
    have h₁ : (significant (Nat.toDigits 10 n)).length ≤ (Nat.toDigits 10 n).length :=
      (List.dropWhile_suffix _).length_le
    have h₂ : (Nat.toDigits 10 n).length ≤ wordDigits :=
      (Nat.length_toDigits_le_iff (by decide) (by decide)).mpr h
    exact Nat.le_trans h₁ h₂
  unfold readNat?
  rw [isNumeral_toDigits, digitsValue_significant, digitsValue_toDigits]
  simp [hlen]

end ReportTemplate.Number
