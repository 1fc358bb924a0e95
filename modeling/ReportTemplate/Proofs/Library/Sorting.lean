import ReportTemplate.Proofs.Library.CodePoints
import ReportTemplate.Proofs.Library.Stable
import ReportTemplate.Proofs.Number.TotalOrder

/-!
# ReportTemplate.Proofs.Library.Sorting — what `sort` gives

`sort` takes lists of numbers and lists of strings.  It gives the items themselves, in the total order of
the floats that they stand for or by code point, and those of one key in the order in which they come.
-/

namespace ReportTemplate.Library.Collections

open Number (Binary64)
open Text (codePoints utf8)

/-- An integer or a float as a float. -/
def floatView (v : Value) : Binary64 := v.toBinary64?.getD Binary64.zero

def isNumber (v : Value) : Bool := v.toBinary64?.isSome

/-- The code points of `t` are not below those of `s`, compared from the first on. -/
def CodePointLe (s t : String) : Prop := ¬ codePoints t < codePoints s

/-- The bytes of `t` in UTF-8 are not below those of `s`, compared from the first on. -/
def ByteLe (s t : String) : Prop := ¬ utf8 t < utf8 s

variable {items sorted : List Value}

theorem sort_list (items : List Value) : sort (.list items) =
    if items.all isNumber then .ok (.list (items.mergeSort fun a b => numberKey a ≤ numberKey b))
    else if items.all isStr then .ok (.list (items.mergeSort fun a b => textKey a ≤ textKey b))
    else .error .notSortable := rfl

/-! ### Numbers -/

theorem sort_numbers (h : ∀ v ∈ items, isNumber v = true) : sort (.list items) =
    .ok (.list (items.mergeSort fun a b => numberKey a ≤ numberKey b)) := by
  rw [sort_list, if_pos (List.all_eq_true.mpr h)]

theorem sortedBy_numbers (items : List Value) : SortedBy Binary64.TotalLe floatView items
    (items.mergeSort fun a b => numberKey a ≤ numberKey b) :=
  (sortedBy_mergeSort numberKey items).of_key (fun _ _ => Binary64.orderKey_inj)
    Binary64.orderKey_le_iff

/-! ### Strings -/

/-- The empty list is a list of numbers as well as one of strings. -/
theorem sort_strings (h : ∀ v ∈ items, isStr v = true) : sort (.list items) =
    .ok (.list (items.mergeSort fun a b => textKey a ≤ textKey b)) := by
  cases items with
  | nil =>
    rw [sort_list, List.mergeSort_nil, List.mergeSort_nil]
    rfl
  | cons v items =>
    have hno : ¬ (v :: items).all isNumber = true := by
      have hfirst := h v List.mem_cons_self
      cases v <;> simp_all [isStr, isNumber, Value.toBinary64?]
    rw [sort_list, if_neg hno, if_pos (List.all_eq_true.mpr h)]

theorem sortedBy_codePoints (items : List Value) : SortedBy CodePointLe textKey items
    (items.mergeSort fun a b => textKey a ≤ textKey b) :=
  (sortedBy_mergeSort textKey items).of_key (f := id) (fun _ _ => Iff.rfl) Text.le_iff_codePoints

theorem sortedBy_bytes (items : List Value) : SortedBy ByteLe textKey items
    (items.mergeSort fun a b => textKey a ≤ textKey b) :=
  (sortedBy_mergeSort textKey items).of_key (f := id) (fun _ _ => Iff.rfl) Text.le_iff_utf8

/-! ### All lists -/

theorem sort_ok_iff (items : List Value) : (∃ v, sort (.list items) = .ok v) ↔
    (∀ v ∈ items, isNumber v = true) ∨ ∀ v ∈ items, isStr v = true := by
  constructor
  · rintro ⟨v, hv⟩
    rw [← List.all_eq_true, ← List.all_eq_true]
    by_contra hno
    rw [not_or] at hno
    rw [sort_list, if_neg hno.1, if_neg hno.2] at hv
    simp at hv
  · rintro (hnumbers | hstrings)
    · exact ⟨_, sort_numbers hnumbers⟩
    · exact ⟨_, sort_strings hstrings⟩

/-- **`sort` is stable.**  A list can be sorted if and only if all items are numbers or all are strings.
What it gives has the same items, rises by their keys, and keeps the order of those with the same key, and
sorting it again changes nothing.  The key of a number is its float in the total order; strings rise by
code point, which is the order of their bytes in UTF-8. -/
theorem sort_stable (items : List Value) :
    ((∃ v, sort (.list items) = .ok v) ↔
      (∀ v ∈ items, isNumber v = true) ∨ ∀ v ∈ items, isStr v = true) ∧
    ((∀ v ∈ items, isNumber v = true) → ∃ sorted, sort (.list items) = .ok (.list sorted) ∧
      SortedBy Binary64.TotalLe floatView items sorted ∧
      sort (.list sorted) = .ok (.list sorted)) ∧
    ((∀ v ∈ items, isStr v = true) → ∃ sorted, sort (.list items) = .ok (.list sorted) ∧
      SortedBy CodePointLe textKey items sorted ∧ SortedBy ByteLe textKey items sorted ∧
      sort (.list sorted) = .ok (.list sorted)) := by
  refine ⟨sort_ok_iff items, fun h => ?_, fun h => ?_⟩
  · have hsorted := sortedBy_mergeSort numberKey items
    have hagain := sort_numbers fun v hv => h v (hsorted.same.mem_iff.mp hv)
    rw [List.mergeSort_of_pairwise (hsorted.rising.imp decide_eq_true)] at hagain
    exact ⟨_, sort_numbers h, sortedBy_numbers items, hagain⟩
  · have hsorted := sortedBy_mergeSort textKey items
    have hagain := sort_strings fun v hv => h v (hsorted.same.mem_iff.mp hv)
    rw [List.mergeSort_of_pairwise (hsorted.rising.imp decide_eq_true)] at hagain
    exact ⟨_, sort_strings h, sortedBy_codePoints items, sortedBy_bytes items, hagain⟩

/-- `1`, `1.0` and `-0.0` between the two NaNs. -/
theorem sort_stable_mixed :
    let items := [.float .nan, .int 1, .float ⟨0x3FF0000000000000⟩, .float Binary64.zero.neg, .float .invalid]
    (∀ v ∈ items, isNumber v = true) ∧ ∃ sorted, sort (.list items) = .ok (.list sorted) ∧
      SortedBy Binary64.TotalLe floatView items sorted ∧
      sort (.list sorted) = .ok (.list sorted) := by
  intro items
  have hnumbers : ∀ v ∈ items, isNumber v = true := by simp [items, isNumber, Value.toBinary64?]
  exact ⟨hnumbers, (sort_stable items).2.1 hnumbers⟩

end ReportTemplate.Library.Collections
