import ReportTemplate.Proofs.LogCall.Tokens
import ReportTemplate.Proofs.LogCall.Upgrade
import ReportTemplate.Span

/-!
# ReportTemplate.Proofs.LogCall.Statements — log statements that stand alone on their lines

A line that holds nothing but `log(e);` and blanks is compiled with the number of the line and the text
of the argument in front of the argument.  The other lines of the source keep their places.
-/

namespace ReportTemplate.LogCall

open Text (byteSize)

/-! ### Lines -/

section

variable {number : Nat}

theorem not_mem_recorded {e : List Char} (he : '\n' ∉ e) : '\n' ∉ recorded number e := by
  have hdigits : '\n' ∉ Nat.toDigits 10 number := fun hmem =>
    absurd (Number.isDigit_of_mem_toDigits hmem) (by decide)
  have hescape : '\n' ∉ escape e := by
    intro hmem
    obtain ⟨c, hc, hmem⟩ := List.mem_flatMap.mp hmem
    split_ifs at hmem with hspecial
    · rcases List.mem_cons.mp hmem with h | h
      · cases h
      · rw [List.mem_singleton.mp h] at he
        exact he hc
    · rw [List.mem_singleton.mp hmem] at he
      exact he hc
  unfold recorded
  simp only [List.mem_append, not_or]
  exact ⟨⟨⟨⟨⟨⟨by decide, hdigits⟩, by decide⟩, hescape⟩, by decide⟩, he⟩, by decide⟩

theorem not_mem_expandLine {line : List Char} (hline : '\n' ∉ line) : '\n' ∉ expandLine number line := by
  have hupgrade := (upgraded_upgradeDeclarations line).not_mem (x := '\n') (by decide) hline
  unfold expandLine
  cases hs : site? (upgradeDeclarations line) with
  | none =>
    rw [site?_none hs]
    exact hupgrade
  | some s =>
    obtain ⟨htext, hexpand⟩ := site?_some hs number
    rw [htext] at hupgrade
    rw [hexpand]
    simp only [List.mem_append, not_or] at hupgrade ⊢
    obtain ⟨hbefore, -, ⟨hargument, -⟩, htail⟩ := hupgrade
    exact ⟨hbefore, not_mem_recorded hargument, htail⟩

theorem mem_expandLines {lines : List (List Char)} {line : List Char}
    (h : line ∈ expandLines number lines) : ∃ n, ∃ l ∈ lines, line = expandLine n l := by
  induction lines generalizing number with
  | nil => cases h
  | cons l lines ih =>
    rcases List.mem_cons.mp h with rfl | h
    · exact ⟨number, l, List.mem_cons_self, rfl⟩
    · obtain ⟨n, l', hl', rfl⟩ := ih h
      exact ⟨n, l', List.mem_cons_of_mem _ hl', rfl⟩

theorem getElem?_expandLines (lines : List (List Char)) (i : Nat) :
    (expandLines number lines)[i]? = lines[i]?.map (expandLine (number + i)) := by
  induction lines generalizing number i with
  | nil => rfl
  | cons l lines ih =>
    cases i with
    | zero => rfl
    | succ i =>
      rw [expandLines, List.getElem?_cons_succ, List.getElem?_cons_succ, ih, Nat.add_right_comm]
      rfl

end

theorem startsFrom_append {u : List Char} (hu : '\n' ∉ u) (offset : Nat) (w : List Char) :
    LineIndex.startsFrom offset (u ++ w) = LineIndex.startsFrom (offset + byteSize u) w := by
  induction u generalizing offset with
  | nil => rfl
  | cons c u ih =>
    rw [List.mem_cons, not_or] at hu
    rw [List.cons_append, LineIndex.startsFrom, if_neg (Ne.symm hu.1), ih hu.2, Text.byteSize_cons,
      Nat.add_assoc]

/-- Each line begins where the index of lines says. -/
theorem starts_behind {lines : List (List Char)} (hlines : ∀ l ∈ lines, '\n' ∉ l) (offset : Nat)
    {i : Nat} {line : List Char} (h : lines[i]? = some line) :
    ∃ u w, behind lines = u ++ (line ++ w) ∧
      (LineIndex.startsFrom offset (behind lines))[i]? = some (offset + byteSize u) := by
  induction lines generalizing offset i with
  | nil => cases h
  | cons l lines ih =>
    obtain ⟨hl, hrest⟩ := List.forall_mem_cons.mp hlines
    have hnewline : ('\n').utf8Size = 1 := rfl
    have hstarts : LineIndex.startsFrom offset (behind (l :: lines)) =
        (offset + 1) :: LineIndex.startsFrom (offset + 1 + byteSize l) (behind lines) := by
      rw [behind_cons, LineIndex.startsFrom, if_pos rfl, startsFrom_append hl]
      rfl
    rw [hstarts]
    cases i with
    | zero =>
      obtain rfl := Option.some.inj h
      exact ⟨['\n'], behind lines, rfl, rfl⟩
    | succ i =>
      obtain ⟨u, w, htext, hstart⟩ := ih hrest (offset + 1 + byteSize l) h
      refine ⟨'\n' :: (l ++ u), w, ?_, ?_⟩
      · rw [behind_cons, htext]
        simp
      · rw [List.getElem?_cons_succ, hstart, Text.byteSize_cons, Text.byteSize_append, hnewline]
        congr 1
        omega

theorem starts_source {source : List Char} {i : Nat} {line : List Char} {start : Nat}
    (h : (Text.split source ['\n'])[i]? = some line)
    (hstart : (LineIndex.ofSource (expand source)).starts[i]? = some start) :
    ∃ u w, expand source = u ++ (expandLine (i + 1) line ++ w) ∧ start = byteSize u := by
  obtain ⟨first, lines, hsplit, -, hlines⟩ := split_lines source
  obtain ⟨hfirst, hrest⟩ := List.forall_mem_cons.mp hlines
  have hexpand : expand source = expandLine 1 first ++ behind (expandLines 2 lines) := by
    unfold expand
    rw [hsplit, expandLines, intercalate_lines]
  have hlater : ∀ l ∈ expandLines 2 lines, '\n' ∉ l := by
    intro l hl
    obtain ⟨n, l', hl', rfl⟩ := mem_expandLines hl
    exact not_mem_expandLine (hrest l' hl')
  unfold LineIndex.ofSource at hstart
  rw [hsplit] at h
  rw [hexpand] at hstart ⊢
  cases i with
  | zero =>
    obtain rfl := Option.some.inj h
    obtain rfl := Option.some.inj hstart
    exact ⟨[], _, rfl, rfl⟩
  | succ i =>
    rw [List.getElem?_cons_succ] at h hstart
    have hget : (expandLines 2 lines)[i]? = some (expandLine (i + 1 + 1) line) := by
      rw [getElem?_expandLines, h, Option.map_some, Nat.add_right_comm, Nat.add_comm 2]
    rw [startsFrom_append (not_mem_expandLine hfirst)] at hstart
    obtain ⟨u, w, htext, hplace⟩ := starts_behind hlater (0 + byteSize (expandLine 1 first)) hget
    rw [hplace] at hstart
    refine ⟨expandLine 1 first ++ u, w, ?_, ?_⟩
    · rw [htext, List.append_assoc]
    · rw [← Option.some.inj hstart, Text.byteSize_append, Nat.zero_add]

/-! ### Statements -/

/-- Line `number` of a source is a log statement and nothing else, with a single `log(`; the statement
begins at `offset` of the expanded source. -/
structure StandsAlone (source : List Char) (offset number : Nat) (s : Site) : Prop where
  alone : s.Alone
  single : sites s.line = 1
  place : ∃ i start, number = i + 1 ∧ (Text.split source ['\n'])[i]? = some s.line ∧
    (LineIndex.ofSource (expand source)).starts[i]? = some start ∧ offset = start + byteSize s.before

/-- **Recorded statements**: a log statement that stands alone is compiled with the number of its line
and the text of its argument, in which short declarations are in full. -/
theorem StandsAlone.recorded {source : List Char} {offset number : Nat} {s : Site}
    (h : StandsAlone source offset number s) :
    ∃ e, (upgradeDeclarations s.line = Site.line ⟨s.before, e, s.tail⟩ ∧
      (e = s.argument ↔ declares s.line = false)) ∧
      ∃ u w, expand source = u ++ (recorded number e ++ w) ∧ offset = byteSize u := by
  obtain ⟨i, start, rfl, hline, hstart, rfl⟩ := h.place
  obtain ⟨e, hupgrade, hsame⟩ := h.alone.upgrade
  refine ⟨e, ⟨hupgrade, hsame⟩, ?_⟩
  have halone : Site.Alone ⟨s.before, e, s.tail⟩ := ⟨h.alone.before, h.alone.tail⟩
  have hsingle : sites (Site.line ⟨s.before, e, s.tail⟩) = 1 := by
    rw [← hupgrade, sites_upgradeDeclarations]
    exact h.single
  obtain ⟨-, hexpand⟩ := site?_some (halone.site?_eq hsingle) (i + 1)
  obtain ⟨u, w, htext, rfl⟩ := starts_source hline hstart
  have hcompiled : expandLine (i + 1) s.line = s.before ++ (LogCall.recorded (i + 1) e ++ s.tail) := by
    unfold expandLine
    rw [hupgrade, hexpand]
  refine ⟨u ++ s.before, s.tail ++ w, ?_, (Text.byteSize_append _ _).symm⟩
  rw [htext, hcompiled]
  simp only [List.append_assoc]

end ReportTemplate.LogCall
