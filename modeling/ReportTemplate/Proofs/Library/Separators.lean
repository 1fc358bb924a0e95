import Mathlib.Data.List.Infix
import ReportTemplate.Library.Core
import ReportTemplate.Library.Texts

/-!
# ReportTemplate.Proofs.Library.Separators — occurrences of one text in another

`Apart a s pieces` says that the occurrences of `a` from the left, none of them over another, leave the
pieces of `s`.  What `split` gives is `Apart`, and what `join`, `replace` and `contains` give follows from
that alone.
-/

namespace ReportTemplate.Text

/-! ### Occurrences -/

/-- The first occurrence of `a` in a text that begins with `p ++ a` stands behind `p`. -/
def FirstBehind (a p : List Char) : Prop := ¬ a <:+: (p ++ a).dropLast

/-- The occurrences of `a` from the left, none of them over another, leave the pieces of a text. -/
inductive Apart (a : List Char) : List Char → List (List Char) → Prop
  | last {s : List Char} (none : ¬ a <:+: s) : Apart a s [s]
  | cons {p r : List Char} {pieces : List (List Char)} (first : FirstBehind a p)
      (rest : Apart a r pieces) : Apart a (p ++ a ++ r) (p :: pieces)

/-- A text with `b` in place of the occurrences of `a` from the left, none of them over another. -/
inductive Substituted (a b : List Char) : List Char → List Char → Prop
  | last {s : List Char} (none : ¬ a <:+: s) : Substituted a b s s
  | cons {p r t : List Char} (first : FirstBehind a p) (rest : Substituted a b r t) :
      Substituted a b (p ++ a ++ r) (p ++ b ++ t)

variable {a : List Char}

theorem startsWith_iff {s : List Char} : startsWith a s = true ↔ a <+: s :=
  List.isPrefixOf_iff_prefix

theorem contains_iff (s a : List Char) : contains s a = true ↔ a <:+: s := by
  induction s with
  | nil => rw [contains, List.isEmpty_iff, List.infix_nil]
  | cons c s ih =>
    rw [contains, List.infix_cons_iff, ← startsWith_iff]
    by_cases h : startsWith a (c :: s) = true <;> simp [h, ih]

theorem FirstBehind.nil (ha : a ≠ []) : FirstBehind a [] := by
  intro h
  have hlength := h.length_le
  have hpos := List.length_pos_of_ne_nil ha
  rw [List.nil_append, List.length_dropLast] at hlength
  omega

theorem FirstBehind.cons (ha : a ≠ []) {c : Char} {p r : List Char} (h : FirstBehind a p)
    (hc : ¬ a <+: c :: (p ++ a ++ r)) : FirstBehind a (c :: p) := by
  have hne : p ++ a ≠ [] := List.append_ne_nil_of_right_ne_nil p ha
  intro hin
  rw [List.cons_append, List.dropLast_cons_of_ne_nil hne, List.infix_cons_iff] at hin
  rcases hin with hstart | hinner
  · refine hc (hstart.trans ?_)
    rw [List.cons_prefix_cons]
    exact ⟨rfl, (List.dropLast_prefix _).trans (List.prefix_append _ r)⟩
  · exact h hinner

/-- Nothing of the occurrence stands in front of it. -/
theorem FirstBehind.not_mem (ha : a ≠ []) {p : List Char} (h : FirstBehind a p) : ¬ a <:+: p := by
  intro hin
  refine h (hin.trans ?_)
  rw [List.dropLast_append_of_ne_nil ha]
  exact (List.prefix_append p _).isInfix

namespace Apart

variable {s : List Char} {pieces : List (List Char)}

theorem ne_nil (h : Apart a s pieces) : pieces ≠ [] := by
  cases h <;> simp

theorem intercalate_eq (h : Apart a s pieces) : a.intercalate pieces = s := by
  induction h with
  | last => simp
  | cons first rest ih =>
    rw [List.intercalate_cons_of_ne_nil rest.ne_nil, ih, List.append_assoc]

theorem not_mem (ha : a ≠ []) (h : Apart a s pieces) : ∀ p ∈ pieces, ¬ a <:+: p := by
  induction h with
  | last none => exact List.forall_mem_singleton.mpr none
  | cons first rest ih => exact List.forall_mem_cons.mpr ⟨first.not_mem ha, ih⟩

theorem infix_iff (h : Apart a s pieces) : a <:+: s ↔ 1 < pieces.length := by
  cases h with
  | last none => simp [none]
  | @cons p r pieces first rest =>
    have hpos := List.length_pos_of_ne_nil rest.ne_nil
    simp only [List.length_cons]
    exact ⟨fun _ => by omega, fun _ => ⟨p, r, rfl⟩⟩

theorem substituted (h : Apart a s pieces) (b : List Char) :
    Substituted a b s (b.intercalate pieces) := by
  induction h with
  | last none =>
    rw [List.intercalate_singleton]
    exact .last none
  | cons first rest ih =>
    rw [List.intercalate_cons_of_ne_nil rest.ne_nil]
    exact .cons first ih

end Apart

/-! ### The split -/

theorem splitFrom_done (done : List (List Char)) (piece : List Char) (skip : Nat) (s : List Char) :
    splitFrom a done piece skip s = done.reverse ++ splitFrom a [] piece skip s := by
  induction s generalizing done piece skip with
  | nil => simp [splitFrom]
  | cons c s ih =>
    simp only [splitFrom]
    split_ifs
    · exact ih done piece _
    · rw [ih, ih [piece.reverse]]
      simp
    · exact ih done _ 0

theorem splitFrom_skip (piece : List Char) (skip : Nat) (s : List Char) :
    splitFrom a [] piece skip s = splitFrom a [] piece 0 (s.drop skip) := by
  induction s generalizing skip with
  | nil => simp [splitFrom]
  | cons c s ih =>
    cases skip with
    | zero => rfl
    | succ n =>
      rw [splitFrom, if_pos (Nat.succ_pos n), Nat.add_sub_cancel, ih]
      rfl

/-- The open piece goes on up to the first occurrence, or up to the end if there is none. -/
theorem splitFrom_first (ha : a ≠ []) (s : List Char) : ∀ piece : List Char,
    (¬ a <:+: s ∧ splitFrom a [] piece 0 s = [piece.reverse ++ s]) ∨
      ∃ p r, s = p ++ a ++ r ∧ FirstBehind a p ∧
        splitFrom a [] piece 0 s = (piece.reverse ++ p) :: split r a := by
  induction s with
  | nil =>
    intro piece
    refine .inl ⟨fun h => ha (List.infix_nil.mp h), ?_⟩
    rw [splitFrom, List.append_nil, List.reverse_singleton]
  | cons c s ih =>
    intro piece
    rw [splitFrom, if_neg (Nat.lt_irrefl 0)]
    by_cases hstart : startsWith a (c :: s) = true
    · obtain ⟨r, hr⟩ := startsWith_iff.mp hstart
      -- The occurrence begins with `c`, and what is left of it is passed over.
      have hdrop : s.drop (a.length - 1) = r := by
        obtain ⟨d, w, rfl⟩ := List.exists_cons_of_ne_nil ha
        obtain ⟨-, rfl⟩ := List.cons.inj hr
        simp
      refine .inr ⟨[], r, hr.symm, .nil ha, ?_⟩
      rw [if_pos hstart, splitFrom_done, splitFrom_skip, hdrop, split]
      simp
    · rw [if_neg hstart]
      have hc : ¬ a <+: c :: s := fun h => hstart (startsWith_iff.mpr h)
      rcases ih (c :: piece) with ⟨hnone, hsplit⟩ | ⟨p, r, rfl, hfirst, hsplit⟩
      · refine .inl ⟨fun h => ?_, by simpa using hsplit⟩
        rcases List.infix_cons_iff.mp h with h | h
        · exact hc h
        · exact hnone h
      · exact .inr ⟨c :: p, r, rfl, hfirst.cons ha hc, by simpa using hsplit⟩

/-- **Pieces**: a split leaves what stands between the occurrences of the separator. -/
theorem apart_split (ha : a ≠ []) (s : List Char) : Apart a s (split s a) := by
  induction hn : s.length using Nat.strong_induction_on generalizing s with
  | _ n ih =>
    rcases splitFrom_first ha s [] with ⟨hnone, hsplit⟩ | ⟨p, r, rfl, hfirst, hsplit⟩
    · rw [split, hsplit]
      exact .last hnone
    · rw [split, hsplit]
      have hpos := List.length_pos_of_ne_nil ha
      simp only [List.length_append] at hn
      exact .cons hfirst (ih r.length (by omega) r rfl)

theorem replace_eq (ha : a ≠ []) (s b : List Char) : replace s a b = b.intercalate (split s a) := by
  rw [replace, if_neg]
  simpa [List.isEmpty_iff] using ha

end ReportTemplate.Text

namespace ReportTemplate.Library

open Text (Apart Substituted)

theorem contains_str (s a : String) : Core.contains (.str s) (.str a) =
    .ok (.bool (Text.contains s.toList a.toList)) := rfl

theorem split_str {a : String} (ha : a ≠ "") (s : String) :
    Texts.split (.str s) (.str a) =
      .ok (.list (((Text.split s.toList a.toList).map String.ofList).map .str)) := by
  have hempty : a.isEmpty = false := by simpa using ha
  show (if a.isEmpty then _ else _) = _
  rw [if_neg (by simp [hempty]), List.map_map]
  rfl

/-- The texts of strings are the strings. -/
theorem join_strs (pieces : List String) (b : String) :
    Texts.join (.list (pieces.map .str)) (.str b) = .ok (.str (b.intercalate pieces)) := by
  have htexts : (pieces.map Value.str).map Value.text = pieces := by
    simp [Function.comp_def, Value.text, Value.writeOn]
  show Except.ok (Value.str (b.intercalate ((pieces.map Value.str).map Value.text))) = _
  rw [htexts]

theorem replace_str (s a b : String) : Texts.replace (.str s) (.str a) (.str b) =
    .ok (.str (String.ofList (Text.replace s.toList a.toList b.toList))) := rfl

theorem intercalate_ofList (b : String) (pieces : List (List Char)) :
    b.intercalate (pieces.map String.ofList) = String.ofList (b.toList.intercalate pieces) := by
  rw [← String.toList_inj, String.toList_intercalate, String.toList_ofList, List.map_map]
  simp [Function.comp_def]

/-- **Separators**: a text is split at the occurrences of a separator from the left, none of them over
another; joining the pieces with a text puts it in place of these occurrences, as `replace` does, and
joining them with the separator gives the text back.  No piece contains the separator, and the text
contains it exactly if there is more than one piece. -/
theorem separators_agree (s a b : String) (ha : a ≠ "") :
    ∃ pieces : List String, Texts.split (.str s) (.str a) = .ok (.list (pieces.map .str)) ∧
      (∃ t : String, Substituted a.toList b.toList s.toList t.toList ∧
        Texts.replace (.str s) (.str a) (.str b) = .ok (.str t) ∧
        Texts.join (.list (pieces.map .str)) (.str b) = .ok (.str t)) ∧
      Texts.join (.list (pieces.map .str)) (.str a) = .ok (.str s) ∧
      (∀ p ∈ pieces, Core.contains (.str p) (.str a) = .ok (.bool false)) ∧
      Core.contains (.str s) (.str a) = .ok (.bool (decide (1 < pieces.length))) := by
  have hne : a.toList ≠ [] := by simpa using ha
  have happart := Text.apart_split hne s.toList
  refine ⟨_, split_str ha s, ⟨_, ?_, replace_str s a b, ?_⟩, ?_, fun p hp => ?_, ?_⟩
  · rw [String.toList_ofList, Text.replace_eq hne]
    exact happart.substituted b.toList
  · rw [join_strs, intercalate_ofList, Text.replace_eq hne]
  · rw [join_strs, intercalate_ofList, happart.intercalate_eq, String.ofList_toList]
  · obtain ⟨piece, hpiece, rfl⟩ := List.mem_map.mp hp
    have hnone := happart.not_mem hne piece hpiece
    rw [contains_str, String.toList_ofList]
    simpa [← Text.contains_iff] using hnone
  · have hcount := happart.infix_iff
    rw [contains_str, List.length_map, Except.ok.injEq, Value.bool.injEq, Bool.eq_iff_iff,
      Text.contains_iff, hcount, decide_eq_true_iff]

/-- A separator that overlaps itself stands at the start, back to back and at the end. -/
theorem separators_agree_overlapping : "aa" ≠ "" ∧
    ∃ pieces : List String, Texts.split (.str "aaaaébaaa") (.str "aa") = .ok (.list (pieces.map .str)) ∧
      Texts.join (.list (pieces.map .str)) (.str "-") = .ok (.str "--éb-a") := by
  refine ⟨by decide, ?_⟩
  obtain ⟨pieces, hsplit, ⟨t, -, hreplace, hjoin⟩, -⟩ :=
    separators_agree "aaaaébaaa" "aa" "-" (by decide)
  have ht : String.ofList (Text.replace "aaaaébaaa".toList "aa".toList "-".toList) = "--éb-a" := by
    decide +kernel
  rw [replace_str, ht] at hreplace
  rw [← hreplace] at hjoin
  exact ⟨pieces, hsplit, hjoin⟩

end ReportTemplate.Library
