import ReportTemplate.Proofs.LogCall.Statements
import ReportTemplate.Proofs.Text.Pieces

/-!
# ReportTemplate.Proofs.LogCall.Lines — an expansion keeps the lines of a source

Text is cut at its line feeds and nowhere else, so lines that hold none are found again behind one
another.  Each line of an expanded source is the expansion of the line with the same number.
-/

namespace ReportTemplate.LogCall

/-- Lines behind one another are found again. -/
theorem split_behind {line : List Char} {lines : List (List Char)}
    (h : ∀ l ∈ line :: lines, '\n' ∉ l) : Text.split (line ++ behind lines) ['\n'] = line :: lines := by
  induction lines generalizing line with
  | nil =>
    rw [behind_nil, List.append_nil]
    exact Text.split_free (h line List.mem_cons_self)
  | cons next lines ih =>
    obtain ⟨hline, hnext⟩ := List.forall_mem_cons.mp h
    rw [behind_cons, Text.split_append, Text.split_free hline, ih hnext]
    rfl

/-- A text has one line more than it has line feeds. -/
theorem length_split (source : List Char) :
    (Text.split source ['\n']).length = source.count '\n' + 1 := by
  obtain ⟨line, lines, hsplit, rfl, hlines⟩ := split_lines source
  have hcount : ∀ ls : List (List Char), (∀ l ∈ ls, '\n' ∉ l) → (behind ls).count '\n' = ls.length := by
    intro ls hls
    induction ls with
    | nil => rfl
    | cons l ls ih =>
      obtain ⟨hl, hls⟩ := List.forall_mem_cons.mp hls
      rw [behind_cons, List.count_cons_self, List.count_append, List.count_eq_zero_of_not_mem hl, ih hls,
        Nat.zero_add, List.length_cons]
  obtain ⟨hline, hrest⟩ := List.forall_mem_cons.mp hlines
  rw [hsplit, List.count_append, List.count_eq_zero_of_not_mem hline, hcount lines hrest, Nat.zero_add,
    List.length_cons]

/-- **Lines are kept**: the lines of an expanded source are the expanded lines of the source. -/
theorem split_expand (source : List Char) :
    Text.split (expand source) ['\n'] = expandLines 1 (Text.split source ['\n']) := by
  obtain ⟨line, lines, hsplit, -, hlines⟩ := split_lines source
  unfold expand
  rw [hsplit, expandLines, intercalate_lines]
  refine split_behind fun l hl => ?_
  have hl : l ∈ expandLines 1 (line :: lines) := hl
  obtain ⟨n, l', hl', rfl⟩ := mem_expandLines hl
  exact not_mem_expandLine (hlines l' hl')

/-- The line of a source that stands between two others. -/
theorem getElem?_split {front line rest : List Char} (hline : '\n' ∉ line)
    (hfront : ∀ c ∈ front.getLast?, c = '\n') (hrest : ∀ c ∈ rest.head?, c = '\n') :
    (Text.split (front ++ (line ++ rest)) ['\n'])[front.count '\n']? = some line := by
  have hlater : ∃ lines, Text.split (line ++ rest) ['\n'] = line :: lines := by
    cases rest with
    | nil => exact ⟨[], by rw [List.append_nil, Text.split_free hline]⟩
    | cons c rest =>
      obtain rfl := hrest c rfl
      exact ⟨Text.split rest ['\n'], by rw [Text.split_append, Text.split_free hline]; rfl⟩
  obtain ⟨lines, hlines⟩ := hlater
  cases hlast : front.getLast? with
  | none =>
    obtain rfl := List.getLast?_eq_none_iff.mp hlast
    rw [List.nil_append, hlines]
    rfl
  | some c =>
    obtain rfl := hfront c hlast
    obtain ⟨u, rfl⟩ := List.getLast?_eq_some_iff.mp hlast
    have hlength : (Text.split u ['\n']).length = (u ++ ['\n']).count '\n' := by
      rw [length_split, List.count_append]
      rfl
    rw [List.append_assoc, List.singleton_append, Text.split_append, hlines, ← hlength,
      List.getElem?_append_right (Nat.le_refl _), Nat.sub_self]
    rfl

end ReportTemplate.LogCall
