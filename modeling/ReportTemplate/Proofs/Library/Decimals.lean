import ReportTemplate.Library.Core
import ReportTemplate.Proofs.Library.Integers
import ReportTemplate.Proofs.Number.Digits

/-!
# ReportTemplate.Proofs.Library.Decimals — `int` reads what `str` writes

The text of an integer is its sign, if it is negative, and the digits of its magnitude.  The magnitude
of the least integer is no integer itself, but it has few enough digits to be read before the sign
is put to it.
-/

namespace ReportTemplate

/-- The digits of the magnitude of an integer. -/
def Value.magnitude (n : Int64) : List Char := Nat.toDigits 10 n.toInt.natAbs

theorem Value.intText_toList (n : Int64) :
    (intText n).toList = if n.toInt < 0 then '-' :: magnitude n else magnitude n := by
  unfold intText magnitude
  split
  · rw [String.toList_append, String.toList_ofList, String.toList_ofList]
    exact List.singleton_append
  · exact String.toList_ofList

namespace Number

theorem splitSign_toDigits (n : Nat) :
    splitSign (Nat.toDigits 10 n) = (false, Nat.toDigits 10 n) := by
  have hdigits : ∀ c ∈ Nat.toDigits 10 n, isDigit c = true := fun _ => isDigit_of_mem_toDigits
  generalize Nat.toDigits 10 n = ds at hdigits ⊢
  unfold splitSign
  split
  · exact absurd (hdigits '-' List.mem_cons_self) (by decide)
  · exact absurd (hdigits '+' List.mem_cons_self) (by decide)
  · rfl

theorem readInt?_intText (n : Int64) : readInt? (Value.intText n).toList = some n.toInt := by
  have low := n.le_toInt
  have high := n.toInt_lt
  have hread : readNat? (Value.magnitude n) = some n.toInt.natAbs :=
    readNat?_toDigits_of_lt (Nat.lt_of_le_of_lt (by omega : _ ≤ 2 ^ 63) (by decide))
  rw [Value.intText_toList]
  by_cases hneg : n.toInt < 0
  · have hsign : splitSign ('-' :: Value.magnitude n) = (true, Value.magnitude n) := rfl
    have habs : -(n.toInt.natAbs : Int) = n.toInt := by omega
    rw [if_pos hneg, readInt?, hsign]
    dsimp only
    rw [hread]
    exact congrArg some habs
  · have hsign : splitSign (Value.magnitude n) = (false, Value.magnitude n) := splitSign_toDigits _
    have habs : (n.toInt.natAbs : Int) = n.toInt := by omega
    rw [if_neg hneg, readInt?, hsign]
    dsimp only
    rw [hread]
    exact congrArg some habs

end Number

theorem Text.trim_eq_self {s : List Char} (h : ∀ c ∈ s, isBlank c = false) : trim s = s := by
  have hdrop : ∀ r : List Char, (∀ c ∈ r, isBlank c = false) → r.dropWhile isBlank = r := by
    intro r hr
    cases r with
    | nil => rfl
    | cons c r => rw [List.dropWhile_cons_of_neg (by simp [hr c List.mem_cons_self])]
  rw [trim, trimStart, hdrop s h, trimEnd, hdrop s.reverse fun c hc => h c (List.mem_reverse.1 hc),
    List.reverse_reverse]

theorem Text.isBlank_of_isDigit {c : Char} (h : Number.isDigit c = true) : isBlank c = false := by
  simp only [Number.isDigit, Bool.and_eq_true, decide_eq_true_eq, Char.le_def,
    UInt32.le_iff_toNat_le] at h
  have low : 48 ≤ c.toNat := h.1
  have high : c.toNat ≤ 57 := h.2
  simp only [isBlank, inRanges, blankRanges, List.any_cons, List.any_nil, Bool.or_false,
    Bool.or_eq_false_iff, Bool.and_eq_false_iff, decide_eq_false_iff_not]
  omega

namespace Library.Core

theorem str_int (n : Int64) : str (.int n) = .ok (.str (Value.intText n)) := by
  simp only [str, Value.text, Value.writeOn, String.empty_append]

/-- The least integer reads back like any other. -/
theorem int_intText (n : Int64) : int (.str (Value.intText n)) = .ok (.int n) := by
  have hblank : ∀ c ∈ (Value.intText n).toList, Text.isBlank c = false := by
    intro c hc
    rw [Value.intText_toList] at hc
    have hdigit : c ∈ Value.magnitude n → Text.isBlank c = false := fun hc =>
      Text.isBlank_of_isDigit (Number.isDigit_of_mem_toDigits hc)
    split at hc
    · rcases List.mem_cons.1 hc with rfl | hc
      · rfl
      · exact hdigit hc
    · exact hdigit hc
  simp only [int, Text.trim_eq_self hblank, Number.readInt?_intText, Option.bind_some, ofInt?_toInt]

end Library.Core

end ReportTemplate
