import ReportTemplate.Proofs.LogCall.Lines

/-!
# ReportTemplate.Proofs.LogCall.Numbering — line numbers of an expanded source

The number of the line at a place is one more than the number of line feeds in front of it.  What stands
on a line of the expanded source stands on the expansion of the line with the same number.
-/

namespace ReportTemplate

open Text (byteSize)

namespace LineIndex

theorem lt_of_mem_startsFrom {offset x : Nat} {s : List Char} (h : x ∈ startsFrom offset s) :
    offset < x := by
  induction s generalizing offset with
  | nil => cases h
  | cons c s ih =>
    have hpos : 0 < c.utf8Size := Char.utf8Size_pos c
    rw [startsFrom] at h
    split at h
    · rcases List.mem_cons.mp h with rfl | h
      · omega
      · exact lt_trans (by omega) (ih h)
    · exact lt_trans (by omega) (ih h)

/-- The lines that have begun behind a text, one for each line feed of it. -/
theorem countP_startsFrom (offset : Nat) (before after : List Char) :
    (startsFrom offset (before ++ after)).countP (· ≤ offset + byteSize before) =
      before.count '\n' := by
  induction before generalizing offset with
  | nil =>
    refine List.countP_eq_zero.mpr fun x hx => ?_
    have hlt := lt_of_mem_startsFrom hx
    simpa using hlt
  | cons c before ih =>
    have hrest := ih (offset + c.utf8Size)
    rw [Nat.add_assoc, ← Text.byteSize_cons] at hrest
    rw [List.cons_append, startsFrom]
    split
    next hc =>
      subst hc
      rw [List.countP_cons_of_pos, hrest, List.count_cons_self]
      exact decide_eq_true (Nat.add_le_add_left (by simp) offset)
    next hc =>
      rw [hrest, List.count_cons_of_ne hc]

/-- The line at a place of a source. -/
theorem line_border (before after : List Char) :
    (ofSource (before ++ after)).line (byteSize before) = before.count '\n' + 1 := by
  have hcount := countP_startsFrom 0 before after
  rw [Nat.zero_add] at hcount
  rw [line, ofSource, List.countP_cons_of_pos (by simp), hcount]

theorem line_mono (index : LineIndex) {m n : Nat} (h : m ≤ n) : index.line m ≤ index.line n :=
  List.countP_mono_left fun _ _ hx =>
    decide_eq_true ((of_decide_eq_true hx).trans h)

end LineIndex

namespace LogCall

/-- An offset of an expanded source lies on the expansion of the line with a number. -/
def OnLine (source : List Char) (offset number : Nat) : Prop :=
  ∃ line before behind front rest, (Text.split source ['\n'])[number - 1]? = some line ∧
    expandLine number line = before ++ behind ∧
    expand source = front ++ (before ++ behind ++ rest) ∧ offset = byteSize (front ++ before) ∧
    (∀ c ∈ front.getLast?, c = '\n') ∧ ∀ c ∈ rest.head?, c = '\n'

/-- What stands in front of the first line feed of a text. -/
theorem exists_first_line (b : List Char) : ∃ behind rest, b = behind ++ rest ∧ '\n' ∉ behind ∧
    ∀ c ∈ rest.head?, c = '\n' := by
  induction b with
  | nil => exact ⟨[], [], rfl, List.not_mem_nil, nofun⟩
  | cons c b ih =>
    obtain ⟨behind, rest, rfl, hbehind, hrest⟩ := ih
    by_cases hc : c = '\n'
    · exact ⟨[], c :: (behind ++ rest), rfl, List.not_mem_nil,
        fun d hd => (Option.some.inj hd).symm.trans hc⟩
    · refine ⟨c :: behind, rest, rfl, fun hmem => ?_, hrest⟩
      rcases List.mem_cons.mp hmem with h | h
      · exact hc h.symm
      · exact hbehind h

/-- What stands behind the last line feed of a text. -/
theorem exists_last_line (a : List Char) : ∃ front before, a = front ++ before ∧ '\n' ∉ before ∧
    ∀ c ∈ front.getLast?, c = '\n' := by
  obtain ⟨before, front, hparts, hbefore, hfront⟩ := exists_first_line a.reverse
  refine ⟨front.reverse, before.reverse, ?_, fun hmem => hbefore (List.mem_reverse.mp hmem), ?_⟩
  · rw [← List.reverse_append, ← hparts, List.reverse_reverse]
  · rw [List.getLast?_reverse]
    exact hfront

/-- **Line numbers**: a place of an expanded source lies on the expansion of the line whose number the
index of lines gives it. -/
theorem onLine_border {source a b : List Char} (h : expand source = a ++ b) :
    OnLine source (byteSize a) ((LineIndex.ofSource (expand source)).line (byteSize a)) := by
  rw [h, LineIndex.line_border]
  obtain ⟨front, before, rfl, hbefore, hfront⟩ := exists_last_line a
  obtain ⟨behind, rest, rfl, hbehind, hrest⟩ := exists_first_line b
  have hwhole : expand source = front ++ (before ++ behind ++ rest) := by
    rw [h]
    simp only [List.append_assoc]
  have hline : '\n' ∉ before ++ behind := fun hmem =>
    (List.mem_append.mp hmem).elim hbefore hbehind
  have hcount : (front ++ before).count '\n' = front.count '\n' := by
    rw [List.count_append, List.count_eq_zero_of_not_mem hbefore, Nat.add_zero]
  have hfound := getElem?_split hline hfront hrest
  rw [← hwhole, split_expand, getElem?_expandLines, Nat.add_comm 1] at hfound
  obtain ⟨line, hsource, hexpanded⟩ := Option.map_eq_some_iff.mp hfound
  refine ⟨line, before, behind, front, rest, ?_, ?_, hwhole, rfl, hfront, hrest⟩
  · rw [hcount, Nat.add_sub_cancel]
    exact hsource
  · rw [hcount]
    exact hexpanded

end LogCall

end ReportTemplate
