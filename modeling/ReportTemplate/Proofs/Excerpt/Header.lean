import ReportTemplate.Proofs.Excerpt.Places
import ReportTemplate.Proofs.LogCall.Numbering
import ReportTemplate.Proofs.Number.Digits
import ReportTemplate.Proofs.Program.Ranges

/-!
# ReportTemplate.Proofs.Excerpt.Header — the place in front of an excerpt

The second row of an excerpt names a line and a column.  They are those of the character whose index is
the offset of the diagnostic, and this offset counts bytes: the row names the place of the diagnostic
exactly when every character in front of it takes one byte and the lines in front of it end with line
feeds only.  A diagnostic whose span runs backwards has no excerpt, so it has no such row either.
-/

namespace ReportTemplate.Excerpt

open Text (byteSize)

/-! ### The second row -/

/-- The first row of an excerpt. -/
def titleRow (d : Diagnostic) : List Char :=
  ("[" ++ d.code.text ++ "] " ++ title d ++ ": ").toList ++ d.fullMessage.toList

/-- A row that names a place of a file. -/
def headerRow (indent : Nat) (filename : List Char) (line column : Nat) : List Char :=
  List.replicate indent ' ' ++ "╭─[".toList
    ++ (filename ++ ':' :: Nat.toDigits 10 line ++ ':' :: Nat.toDigits 10 column) ++ "]".toList

/-- The second row of a text about a diagnostic names a line and a column. -/
def Headed (text : String) (d : Diagnostic) (filename : String) (line column : Nat) : Prop :=
  ∃ indent rest, text.toList =
    titleRow d ++ '\n' :: (headerRow indent filename.toList line column ++ '\n' :: rest)

/-- A text is cut at the first place where a character stands. -/
theorem split_unique {c : Char} {u v p q : List Char} (hu : c ∉ u) (hv : c ∉ v)
    (h : u ++ c :: p = v ++ c :: q) : u = v ∧ p = q := by
  induction u generalizing v with
  | nil =>
    cases v with
    | nil => exact ⟨rfl, (List.cons.inj h).2⟩
    | cons b v =>
      obtain ⟨rfl, -⟩ := List.cons.inj h
      exact absurd List.mem_cons_self hv
  | cons a u ih =>
    cases v with
    | nil =>
      obtain ⟨rfl, -⟩ := List.cons.inj h
      exact absurd List.mem_cons_self hu
    | cons b v =>
      obtain ⟨rfl, hrest⟩ := List.cons.inj h
      obtain ⟨rfl, rfl⟩ := ih (fun hmem => hu (List.mem_cons_of_mem _ hmem))
        (fun hmem => hv (List.mem_cons_of_mem _ hmem)) hrest
      exact ⟨rfl, rfl⟩

theorem notMem_toDigits {c : Char} (hc : Number.isDigit c = false) (n : Nat) :
    c ∉ Nat.toDigits 10 n := fun h => by
  rw [Number.isDigit_of_mem_toDigits h] at hc
  cases hc

theorem toDigits_injective {m n : Nat} (h : Nat.toDigits 10 m = Nat.toDigits 10 n) : m = n := by
  rw [← Number.digitsValue_toDigits m, h, Number.digitsValue_toDigits]

/-- A text names one place at most. -/
theorem Headed.unique {text : String} {d : Diagnostic} {filename : String}
    {line column line' column' : Nat} (h : Headed text d filename line column)
    (h' : Headed text d filename line' column') : line = line' ∧ column = column' := by
  obtain ⟨indent, rest, htext⟩ := h
  obtain ⟨indent', rest', htext'⟩ := h'
  have hrow := (List.cons.inj (List.append_cancel_left (htext.symm.trans htext'))).2
  have hbox : "╭─[".toList = '╭' :: "─[".toList := by decide
  have hclose : "]".toList = [']'] := by decide
  simp only [headerRow, hbox, hclose, List.append_assoc, List.cons_append, List.nil_append] at hrow
  have hspace : ∀ n : Nat, '╭' ∉ List.replicate n ' ' := fun n hmem =>
    absurd (List.eq_of_mem_replicate hmem) (by decide)
  have hplace := List.append_cancel_left (List.append_cancel_left
    (split_unique (hspace indent) (hspace indent') hrow).2)
  obtain ⟨hline, hcolumn⟩ := split_unique (notMem_toDigits rfl line) (notMem_toDigits rfl line')
    (List.cons.inj hplace).2
  obtain ⟨hcolumn, -⟩ := split_unique (notMem_toDigits rfl column) (notMem_toDigits rfl column') hcolumn
  exact ⟨toDigits_injective hline, toDigits_injective hcolumn⟩

/-- The ends of a span, counted in characters, are in order and lie in a source that is not empty. -/
structure Holds (source : List Char) (span : Span) : Prop where
  nonempty : source ≠ []
  start : span.start ≤ source.length
  ordered : span.start ≤ span.stop
  stop : span.stop ≤ source.length + 1

variable {source : List Char} {span : Span}

theorem lineRange?_eq_some (h : Holds source span) :
    ∃ last, lineRange? (lines source) span = some ((place source span.start).1, last) := by
  have hfirst : lineOf? (lines source) span.start = some (place source span.start).1 :=
    lineOf?_eq_some_iff.mpr ⟨h.nonempty, h.start, rfl⟩
  have hstop := h.stop
  by_cases hspan : span.start < span.stop
  · have hlast : lineOf? (lines source) (span.stop - 1) = some (place source (span.stop - 1)).1 :=
      lineOf?_eq_some_iff.mpr ⟨h.nonempty, by omega, rfl⟩
    refine ⟨(place source (span.stop - 1)).1, ?_⟩
    simp [lineRange?, hfirst, hspan, hlast]
  · refine ⟨(place source span.start).1, ?_⟩
    simp [lineRange?, hfirst, hspan]

theorem holds_of_lineRange? {range : Nat × Nat} (hordered : span.start ≤ span.stop)
    (h : lineRange? (lines source) span = some range) : Holds source span := by
  cases hfirst : lineOf? (lines source) span.start with
  | none => simp [lineRange?, hfirst] at h
  | some first =>
    obtain ⟨hsource, hstart, -⟩ := lineOf?_eq_some_iff.mp hfirst
    refine ⟨hsource, hstart, hordered, ?_⟩
    by_cases hspan : span.start < span.stop
    · cases hlast : lineOf? (lines source) (span.stop - 1) with
      | none => simp [lineRange?, hfirst, hspan, hlast] at h
      | some last =>
        obtain ⟨-, hstop, -⟩ := lineOf?_eq_some_iff.mp hlast
        omega
    · omega

/-- The rows of an excerpt are the first row, and the box if the source holds the span. -/
theorem toList_render (filename : String) (d : Diagnostic) :
    (render source filename d).toList = titleRow d ++ '\n' ::
      ((lineRange? (lines source) d.span).elim [] fun (first, last) =>
        boxRows (lines source) filename.toList first last d.span d.fullMessage.toList).flatMap
          fun row => row ++ ['\n'] := by
  unfold render
  dsimp only
  cases lineRange? (lines source) d.span with
  | none => simp [titleRow]
  | some range => simp [titleRow]

theorem boxRows_eq_cons {ls : List Line} {line column : Nat} (h : Stands ls span.start line column)
    (filename : List Char) (last : Nat) (message : List Char) :
    ∃ rows, boxRows ls filename line last span message =
      headerRow ((Nat.toDigits 10 (last + 1)).length + 2) filename (line + 1) (column + 1) :: rows := by
  obtain ⟨l, hl, hoffset⟩ := h.start
  have hcolumn : span.start - l.offset = column := by omega
  unfold boxRows
  rw [hl]
  dsimp only [Option.map_some, Option.getD_some]
  rw [hcolumn]
  exact ⟨_, rfl⟩

/-- A diagnostic is shown with a header that names a line and a column. -/
def ShownAt (source : List Char) (filename : String) (d : Diagnostic) (line column : Nat) : Prop :=
  ∃ text, format? source filename d = some text ∧ Headed text d filename line column

/-- A diagnostic is shown at one place at most. -/
theorem ShownAt.unique {filename : String} {d : Diagnostic} {line column line' column' : Nat}
    (h : ShownAt source filename d line column) (h' : ShownAt source filename d line' column') :
    line = line' ∧ column = column' := by
  obtain ⟨text, htext, hheaded⟩ := h
  obtain ⟨text', htext', hheaded'⟩ := h'
  obtain rfl := Option.some.inj (htext.symm.trans htext')
  exact hheaded.unique hheaded'

theorem shownAt_iff_headed {filename : String} {d : Diagnostic} {line column : Nat} :
    ShownAt source filename d line column ↔
      d.span.start ≤ d.span.stop ∧ Headed (render source filename d) d filename line column := by
  unfold ShownAt format?
  split
  next hordered => simp [hordered]
  next hordered => simp [hordered]

/-- **The second row of an excerpt**: it is there when the source holds the span, and it names the
place of the character whose index is the offset of the diagnostic. -/
theorem shownAt_iff {filename : String} {d : Diagnostic} {line column : Nat} :
    ShownAt source filename d line column ↔ Holds source d.span ∧
      line = (place source d.span.start).1 + 1 ∧ column = (place source d.span.start).2 + 1 := by
  by_cases hholds : Holds source d.span
  · obtain ⟨last, hrange⟩ := lineRange?_eq_some hholds
    have hshown : ShownAt source filename d
        ((place source d.span.start).1 + 1) ((place source d.span.start).2 + 1) := by
      obtain ⟨rows, hrows⟩ := boxRows_eq_cons (stands_lines hholds.nonempty hholds.start)
        filename.toList last d.fullMessage.toList
      refine shownAt_iff_headed.mpr ⟨hholds.ordered, (Nat.toDigits 10 (last + 1)).length + 2,
        rows.flatMap fun row => row ++ ['\n'], ?_⟩
      rw [toList_render, hrange, Option.elim_some]
      dsimp only
      rw [hrows, List.flatMap_cons, List.append_assoc, List.singleton_append]
    constructor
    · intro h
      obtain ⟨hline, hcolumn⟩ := h.unique hshown
      exact ⟨hholds, hline, hcolumn⟩
    · rintro ⟨-, rfl, rfl⟩
      exact hshown
  · refine ⟨fun h => ?_, fun h => absurd h.1 hholds⟩
    obtain ⟨hordered, indent, rest, htext⟩ := shownAt_iff_headed.mp h
    have hrange : lineRange? (lines source) d.span = none :=
      Option.eq_none_iff_forall_ne_some.mpr fun _ hr => hholds (holds_of_lineRange? hordered hr)
    rw [toList_render, hrange, Option.elim_none, List.flatMap_nil] at htext
    have hrow := (List.cons.inj (List.append_cancel_left htext)).2
    simp at hrow

/-! ### Places that bytes and characters count alike -/

/-- The column behind a text that begins at a column; both are counted from zero. -/
def columnFrom (column : Nat) : List Char → Nat
  | [] => column
  | c :: s => columnFrom (if c = '\n' then 0 else column + 1) s

/-- In front of a place, the lines that an excerpt is drawn from end exactly where line feeds stand. -/
def Feeds : (before rest : List Char) → Prop
  | [], _ => True
  | c :: before, rest => (breaksAt c (before ++ rest) = true ↔ c = '\n') ∧ Feeds before rest

/-- Where line feeds end the lines, the place behind a text is told by its line feeds. -/
theorem placeFrom_of_feeds {before rest : List Char} (h : Feeds before rest) (line column : Nat) :
    placeFrom line column (before ++ rest) before.length =
      (line + before.count '\n', columnFrom column before) := by
  induction before generalizing line column with
  | nil => simp [columnFrom]
  | cons c before ih =>
    obtain ⟨hbreaks, hrest⟩ := h
    rw [List.length_cons, List.cons_append, placeFrom_cons, columnFrom]
    by_cases hc : c = '\n'
    · rw [if_pos (hbreaks.mpr hc), if_pos hc, ih hrest, hc, List.count_cons_self,
        Nat.add_right_comm, Nat.add_assoc]
    · rw [if_neg (fun hb => hc (hbreaks.mp hb)), if_neg hc, ih hrest, List.count_cons_of_ne hc]

/-- What stands behind a place is on a later line, or on the same one at a greater column. -/
theorem le_placeFrom {s : List Char} {n : Nat} (hn : n ≤ s.length) (line column : Nat) :
    line < (placeFrom line column s n).1 ∨
      line = (placeFrom line column s n).1 ∧ (placeFrom line column s n).2 = column + n := by
  induction s generalizing line column n with
  | nil =>
    obtain rfl : n = 0 := Nat.le_zero.mp hn
    exact .inr ⟨rfl, rfl⟩
  | cons c s ih =>
    cases n with
    | zero => exact .inr ⟨rfl, rfl⟩
    | succ n =>
      have hn' : n ≤ s.length := by simpa using hn
      rw [placeFrom_cons]
      split
      · have h := ih hn' (line + 1) 0
        omega
      · have h := ih hn' line (column + 1)
        omega

theorem breaksAt_feed {s : List Char} (h : s ≠ []) : breaksAt '\n' s = true := by
  simpa [breaksAt, endsLine] using h

/-- A line that is counted too much in front of a place is not made up for. -/
theorem placeFrom_ne {before rest : List Char} {n : Nat} (hn : before.length ≤ n)
    (hlength : n ≤ (before ++ rest).length) {line line' : Nat} (hline : line < line')
    (column column' : Nat) :
    placeFrom line' column' (before ++ rest) n ≠
      (line + before.count '\n', columnFrom column before) := by
  induction before generalizing n line line' column column' with
  | nil =>
    intro h
    have hle := le_placeFrom hlength line' column'
    rw [h] at hle
    simp only [List.count_nil, Nat.add_zero] at hle
    omega
  | cons c before ih =>
    obtain ⟨n, rfl⟩ : ∃ m, n = m + 1 := ⟨n - 1, by simp only [List.length_cons] at hn; omega⟩
    have hn' : before.length ≤ n := by simpa using hn
    have hlength' : n ≤ (before ++ rest).length := by simpa using hlength
    rw [List.cons_append, placeFrom_cons, columnFrom]
    by_cases hc : c = '\n'
    · rw [hc, if_pos rfl, List.count_cons_self, ← Nat.add_assoc, Nat.add_right_comm]
      by_cases hempty : before ++ rest = []
      · -- the last line feed of the text begins no line
        obtain ⟨rfl, rfl⟩ := List.append_eq_nil_iff.mp hempty
        simp [breaksAt, columnFrom]
      · rw [if_pos (breaksAt_feed hempty)]
        exact ih hn' hlength' (Nat.succ_lt_succ hline) 0 0
    · rw [if_neg hc, List.count_cons_of_ne hc]
      split
      · exact ih hn' hlength' (Nat.lt_succ_of_lt hline) (column + 1) 0
      · exact ih hn' hlength' hline (column + 1) (column' + 1)

/-- A place at or behind the end of a text is told by the line feeds of the text only if it is this end
and line feeds end the lines. -/
theorem feeds_of_placeFrom {before rest : List Char} {n : Nat} (hn : before.length ≤ n)
    (hlength : n ≤ (before ++ rest).length) {line column : Nat}
    (h : placeFrom line column (before ++ rest) n =
      (line + before.count '\n', columnFrom column before)) :
    n = before.length ∧ Feeds before rest := by
  induction before generalizing n line column with
  | nil =>
    have hle := le_placeFrom hlength line column
    rw [h] at hle
    simp only [List.count_nil, Nat.add_zero, columnFrom] at hle
    exact ⟨by simp only [List.length_nil]; omega, trivial⟩
  | cons c before ih =>
    obtain ⟨n, rfl⟩ : ∃ m, n = m + 1 := ⟨n - 1, by simp only [List.length_cons] at hn; omega⟩
    have hn' : before.length ≤ n := by simpa using hn
    have hlength' : n ≤ (before ++ rest).length := by simpa using hlength
    rw [List.cons_append, placeFrom_cons, columnFrom] at h
    by_cases hc : c = '\n'
    · rw [hc, if_pos rfl, List.count_cons_self, ← Nat.add_assoc, Nat.add_right_comm] at h
      by_cases hempty : before ++ rest = []
      · obtain ⟨rfl, rfl⟩ := List.append_eq_nil_iff.mp hempty
        simp [breaksAt, columnFrom] at h
      · have hbreaks := breaksAt_feed hempty
        rw [if_pos hbreaks] at h
        obtain ⟨rfl, hrest⟩ := ih hn' hlength' h
        exact ⟨rfl, by rw [hc]; exact iff_of_true hbreaks rfl, hrest⟩
    · rw [if_neg hc, List.count_cons_of_ne hc] at h
      by_cases hbreaks : breaksAt c (before ++ rest) = true
      · rw [if_pos hbreaks] at h
        exact absurd h (placeFrom_ne hn' hlength' (Nat.lt_succ_self line) _ _)
      · rw [if_neg hbreaks] at h
        obtain ⟨rfl, hrest⟩ := ih hn' hlength' h
        exact ⟨rfl, iff_of_false hbreaks hc, hrest⟩

theorem length_le_byteSize (s : List Char) : s.length ≤ byteSize s := by
  induction s with
  | nil => exact Nat.le_refl _
  | cons c s ih =>
    have hpos : 0 < c.utf8Size := Char.utf8Size_pos c
    rw [Text.byteSize_cons, List.length_cons]
    omega

/-- A text has as many bytes as characters only if each character takes one byte. -/
theorem byteSize_eq_length_iff {s : List Char} :
    byteSize s = s.length ↔ ∀ c ∈ s, c.utf8Size = 1 := by
  induction s with
  | nil => exact ⟨fun _ => nofun, fun _ => rfl⟩
  | cons c s ih =>
    have hpos : 0 < c.utf8Size := Char.utf8Size_pos c
    have hle := length_le_byteSize s
    rw [Text.byteSize_cons, List.length_cons, List.forall_mem_cons, ← ih]
    omega

/-- An excerpt can be headed by the place behind a text: each character of it takes one byte, lines end
with line feeds in it, and the source holds the span, whose ends are in order. -/
structure Plain (before rest : List Char) (span : Span) : Prop where
  ascii : ∀ c ∈ before, c.utf8Size = 1
  feeds : Feeds before rest
  nonempty : before ++ rest ≠ []
  ordered : span.start ≤ span.stop
  stop : span.stop ≤ (before ++ rest).length + 1

/-- **Headers and places**: a diagnostic is shown at the line that the index of lines gives to its offset,
and at the column of the character there, exactly where bytes and lines are plain. -/
theorem shownAt_iff_plain {before rest : List Char} {d : Diagnostic}
    (hstart : d.span.start = byteSize before) (filename : String) :
    ShownAt (before ++ rest) filename d
        ((LineIndex.ofSource (before ++ rest)).line d.span.start) (columnFrom 0 before + 1) ↔
      Plain before rest d.span := by
  rw [shownAt_iff, hstart, LineIndex.line_border]
  constructor
  · rintro ⟨hholds, hline, hcolumn⟩
    have hlength := hholds.start
    rw [hstart] at hlength
    have hplace : placeFrom 0 0 (before ++ rest) (byteSize before) =
        (0 + before.count '\n', columnFrom 0 before) :=
      Prod.ext (by rw [Nat.zero_add]; exact (Nat.succ.inj hline).symm) (Nat.succ.inj hcolumn).symm
    obtain ⟨hbytes, hfeeds⟩ := feeds_of_placeFrom (length_le_byteSize before) hlength hplace
    exact ⟨byteSize_eq_length_iff.mp hbytes, hfeeds, hholds.nonempty, hholds.ordered, hholds.stop⟩
  · intro h
    have hbytes := byteSize_eq_length_iff.mpr h.ascii
    have hplace := placeFrom_of_feeds h.feeds 0 0
    rw [hbytes, place, hplace, Nat.zero_add]
    refine ⟨⟨h.nonempty, ?_, h.ordered, h.stop⟩, rfl, rfl⟩
    rw [hstart, hbytes, List.length_append]
    exact Nat.le_add_right _ _

end ReportTemplate.Excerpt

namespace ReportTemplate.Program

open Excerpt (Plain ShownAt columnFrom format? shownAt_iff shownAt_iff_plain)
open Text (byteSize)

theorem reported_of_mem_reports {refs : ReferenceSet} {policy : WarningPolicy} {source : List Char}
    {d : Diagnostic} (h : d ∈ reports (compile refs policy source)) : Syntax.Reported source d := by
  unfold compile at h
  cases hparse : Syntax.parse source with
  | error found =>
    rw [hparse] at h
    exact Syntax.reported_of_parse hparse d h
  | ok file =>
    have hplaced : ∀ d ∈ byPlace (findings refs policy source file), d.span.Within source :=
      within_byPlace hparse
    rw [hparse] at h
    dsimp only at h
    unfold ofFile at h
    dsimp only at h
    split at h
    · exact Syntax.reported_of_within (hplaced d h)
    · exact Syntax.reported_of_within (hplaced d h)

/-- What a compilation reports can be shown, but for the message that a source ends too early with
something behind its last token. -/
theorem format?_reports {refs : ReferenceSet} {policy : WarningPolicy} {source : List Char}
    {d : Diagnostic} (h : d ∈ reports (compile refs policy source)) (filename : String) :
    format? source filename d = none ↔ Syntax.PastLast source d := by
  have hreported := reported_of_mem_reports h
  unfold format?
  split
  next hordered => exact iff_of_false nofun fun hpast => Nat.not_le.mpr hpast.inverted hordered
  next hordered =>
    refine iff_of_true rfl (Classical.byContradiction fun hpast => ?_)
    exact hordered (hreported.within.mpr hpast).ordered

example : (reports (compile ⟨[]⟩ {} openClass.toList)).map (format? openClass.toList "T.tpl") =
    [none] := by
  decide

/-- **Headers of reports**: what a compilation reports begins between two characters of the source.  It
is shown with a header that names the line which the index of lines gives to its offset, and the column
of the character there, exactly if every character in front takes one byte, the lines in front end with
line feeds and not otherwise, and the source holds the span when its offsets count characters.  The span
must not run backwards, or the diagnostic is not shown at all. -/
theorem headed_reports (refs : ReferenceSet) (policy : WarningPolicy) (source : List Char)
    (filename : String) : ∀ d ∈ reports (compile refs policy source),
      Border source d.span.start ∧
      ∀ before rest, source = before ++ rest → d.span.start = byteSize before →
        (ShownAt source filename d
            ((LineIndex.ofSource source).line d.span.start) (columnFrom 0 before + 1) ↔
          Plain before rest d.span) := by
  intro d hd
  refine ⟨(reported_of_mem_reports hd).start, ?_⟩
  rintro before rest rfl hstart
  exact shownAt_iff_plain hstart filename

theorem shownAt_missing : ShownAt spareAndMissing.toList "T.tpl" missingUnknown 4 3 :=
  shownAt_iff.mpr ⟨⟨by decide, by decide, by decide, by decide⟩, by decide, by decide⟩

theorem headed_reports_missing : missingUnknown ∈ reports
      (compile ⟨Catalog.standard.libraries⟩ {} spareAndMissing.toList) ∧
    Plain (spareAndMissing.toList.take 46) (spareAndMissing.toList.drop 46) missingUnknown.span := by
  have hmem : missingUnknown ∈ reports
      (compile ⟨Catalog.standard.libraries⟩ {} spareAndMissing.toList) := by
    rw [compile_spare]
    exact List.mem_cons_of_mem _ List.mem_cons_self
  have hiff := (headed_reports ⟨Catalog.standard.libraries⟩ {} spareAndMissing.toList "T.tpl"
    missingUnknown hmem).2 _ _ (List.take_append_drop 46 _).symm (by decide +kernel)
  refine ⟨hmem, hiff.mp ?_⟩
  have hline : (LineIndex.ofSource spareAndMissing.toList).line missingUnknown.span.start = 4 := by
    decide +kernel
  have hcolumn : columnFrom 0 (spareAndMissing.toList.take 46) + 1 = 3 := by decide +kernel
  rw [hline, hcolumn]
  exact shownAt_missing

/-- A source with an accent in a comment in front of a call of a function that does not exist. -/
def accented : String := "// é\nclass T \x7b static fn f() \x7b gone(); \x7d \x7d\n"

/-- The error about the call. -/
def goneUnknown : Diagnostic :=
  { code := .unknownFunction, message := "unknown function 'gone'", span := ⟨32, 36⟩ }

theorem findings_accented :
    (Syntax.parse accented.toList).toOption.map
        (findings ⟨Catalog.standard.libraries⟩ {} accented.toList) = some [goneUnknown] := by
  unfold accented
  rw [String.toList_ofList]
  decide +kernel

/-- The call is the only thing that is found.  It stands on the second line, in column 27, and it is shown
at column 28. -/
theorem headed_accented :
    compile ⟨Catalog.standard.libraries⟩ {} accented.toList = .error [goneUnknown] ∧
    (LineIndex.ofSource accented.toList).line goneUnknown.span.start = 2 ∧
    byteSize (accented.toList.take 31) = goneUnknown.span.start ∧
    columnFrom 0 (accented.toList.take 31) + 1 = 27 ∧
    ShownAt accented.toList "T.tpl" goneUnknown 2 28 ∧
    ¬ ShownAt accented.toList "T.tpl" goneUnknown 2 27 := by
  have hshown : ShownAt accented.toList "T.tpl" goneUnknown 2 28 :=
    shownAt_iff.mpr
      ⟨⟨by decide, by decide, by decide, by decide⟩, by decide +kernel, by decide +kernel⟩
  exact ⟨compile_of_findings findings_accented (by simp [byPlace]) (by decide), by decide +kernel,
    by decide +kernel, by decide +kernel, hshown,
    fun h => absurd (h.unique hshown).2 (by decide)⟩

end ReportTemplate.Program
