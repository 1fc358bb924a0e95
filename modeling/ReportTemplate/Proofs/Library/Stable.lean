import Mathlib.Data.List.Sort

/-!
# ReportTemplate.Proofs.Library.Stable — lists sorted by a key

`SortedBy le key items sorted` says that `sorted` has the items of `items`, rises by their keys, and keeps
those with the same key in the order in which they come.  There is only one such list.
-/

namespace ReportTemplate

variable {α κ : Type} [DecidableEq κ]

/-- A list has the given items, rises by their keys, and keeps the order of those with the same key. -/
structure SortedBy (le : κ → κ → Prop) (key : α → κ) (items sorted : List α) : Prop where
  same : sorted.Perm items
  rising : sorted.Pairwise fun a b => le (key a) (key b)
  stable : ∀ k, (sorted.filter fun a => key a = k) = items.filter fun a => key a = k

/-- A list that rises by keys is told by its items of each key. -/
theorem eq_of_rising {le : κ → κ → Prop} [Std.Refl le] [Std.Antisymm le] {key : α → κ}
    {xs ys : List α} (hxs : xs.Pairwise fun a b => le (key a) (key b))
    (hys : ys.Pairwise fun a b => le (key a) (key b))
    (h : ∀ k, (xs.filter fun a => key a = k) = ys.filter fun a => key a = k) : xs = ys := by
  have hmem {xs ys : List α}
      (h : ∀ k, (xs.filter fun a => key a = k) = ys.filter fun a => key a = k) :
      ∀ a ∈ xs, a ∈ ys := by
    intro a ha
    have hkey : a ∈ xs.filter fun b => key b = key a := by simp [ha]
    rw [h] at hkey
    exact (List.mem_filter.mp hkey).1
  have hfirst {x : α} {xs : List α} (hxs : (x :: xs).Pairwise fun a b => le (key a) (key b)) :
      ∀ a ∈ x :: xs, le (key x) (key a) := by
    intro a ha
    rcases List.mem_cons.mp ha with rfl | ha
    · exact Std.Refl.refl _
    · exact (List.pairwise_cons.mp hxs).1 a ha
  induction xs generalizing ys with
  | nil =>
    cases ys with
    | nil => rfl
    | cons y ys => exact absurd (hmem (fun k => (h k).symm) y List.mem_cons_self) List.not_mem_nil
  | cons x xs ih =>
    cases ys with
    | nil => exact absurd (hmem h x List.mem_cons_self) List.not_mem_nil
    | cons y ys =>
      -- Each of the first items is the least, so they have one key, and are the first of that key.
      have hkey : key y = key x := Std.Antisymm.antisymm _ _
        (hfirst hys x (hmem h x List.mem_cons_self))
        (hfirst hxs y (hmem (fun k => (h k).symm) y List.mem_cons_self))
      obtain rfl : x = y := by
        have hfilter := h (key x)
        rw [List.filter_cons_of_pos (by simp), List.filter_cons_of_pos (by simp [hkey])] at hfilter
        exact (List.cons.inj hfilter).1
      refine congrArg (x :: ·) (ih hxs.of_cons hys.of_cons fun k => ?_)
      have hfilter := h k
      by_cases hx : key x = k
      · simpa [hx] using hfilter
      · simpa [hx] using hfilter

namespace SortedBy

variable {le : κ → κ → Prop} {key : α → κ} {items sorted : List α}

/-- There is only one such list. -/
theorem unique [Std.Refl le] [Std.Antisymm le] {sorted' : List α} (h : SortedBy le key items sorted)
    (h' : SortedBy le key items sorted') : sorted = sorted' :=
  eq_of_rising h.rising h'.rising fun k => (h.stable k).trans (h'.stable k).symm

theorem filter (h : SortedBy le key items sorted) (p : α → Bool) :
    SortedBy le key (items.filter p) (sorted.filter p) where
  same := h.same.filter p
  rising := h.rising.filter p
  stable k := by
    rw [List.filter_filter, List.filter_filter]
    simp only [Bool.and_comm _ (p _)]
    rw [← List.filter_filter, ← List.filter_filter, h.stable k]

/-- Keys that are ordered alike sort alike. -/
theorem of_key {μ : Type} [DecidableEq μ] {le' : μ → μ → Prop} {f : κ → μ}
    (hf : ∀ a b, f a = f b ↔ a = b) (hle : ∀ a b, le' (f a) (f b) ↔ le a b)
    (h : SortedBy le' (f ∘ key) items sorted) : SortedBy le key items sorted where
  same := h.same
  rising := h.rising.imp fun hab => (hle _ _).mp hab
  stable k := by
    have hstable := h.stable (f k)
    simpa only [Function.comp_apply, hf] using hstable

end SortedBy

section Linear

variable [LE κ] [DecidableLE κ] [Std.IsLinearOrder κ]

omit [DecidableEq κ] in
theorem key_le_trans (key : α → κ) (a b c : α) (hab : decide (key a ≤ key b) = true)
    (hbc : decide (key b ≤ key c) = true) : decide (key a ≤ key c) = true :=
  decide_eq_true (Std.le_trans (of_decide_eq_true hab) (of_decide_eq_true hbc))

omit [DecidableEq κ] in
theorem key_le_total (key : α → κ) (a b : α) :
    (decide (key a ≤ key b) || decide (key b ≤ key a)) = true := by
  rw [Bool.or_eq_true, decide_eq_true_eq, decide_eq_true_eq]
  exact Std.le_total

theorem sortedBy_mergeSort (key : α → κ) (items : List α) :
    SortedBy (· ≤ ·) key items (items.mergeSort fun a b => key a ≤ key b) := by
  have hperm := List.mergeSort_perm items fun a b => key a ≤ key b
  refine ⟨hperm, ?_, fun k => ?_⟩
  · have hpairs := List.pairwise_mergeSort (key_le_trans key) (key_le_total key) items
    exact hpairs.imp fun h => of_decide_eq_true h
  · -- The items of one key rise as they come, so sorting keeps them as a sublist.
    have hsub : (items.filter fun a => key a = k).Sublist
        (items.mergeSort fun a b => key a ≤ key b) := by
      refine List.sublist_mergeSort (key_le_trans key) (key_le_total key) ?_ List.filter_sublist
      refine List.pairwise_of_forall_mem_list fun a ha b hb => ?_
      have ha : key a = k := of_decide_eq_true (List.mem_filter.mp ha).2
      have hb : key b = k := of_decide_eq_true (List.mem_filter.mp hb).2
      rw [ha, hb]
      exact decide_eq_true (Std.le_refl k)
    have hfilter := hsub.filter fun a => decide (key a = k)
    rw [List.filter_filter] at hfilter
    simp only [Bool.and_self] at hfilter
    exact (hfilter.eq_of_length (hperm.filter _).length_eq.symm).symm

end Linear

end ReportTemplate
