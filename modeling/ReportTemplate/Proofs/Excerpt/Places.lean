import ReportTemplate.Excerpt
import Mathlib.Data.List.Basic

/-!
# ReportTemplate.Proofs.Excerpt.Places — lines and columns of an excerpt

`placeFrom` walks a text character by character and counts the line and the column.  The table of lines
that an excerpt is drawn from gives the same: the line of an offset, and its distance from the
beginning of this line.
-/

namespace ReportTemplate.Excerpt

/-- A line ends with a character, and another one begins behind it. -/
def breaksAt (c : Char) (rest : List Char) : Bool :=
  endsLine c && !(c = '\r' && rest.head? = some '\n') && !rest.isEmpty

/-- The line and the column behind the first `n` characters of a text that begins at a line and a
column; all are counted from zero. -/
def placeFrom (line column : Nat) : List Char → Nat → Nat × Nat
  | c :: s, n + 1 =>
    if breaksAt c s then placeFrom (line + 1) 0 s n else placeFrom line (column + 1) s n
  | _, _ => (line, column)

@[simp]
theorem placeFrom_nil (line column n : Nat) : placeFrom line column [] n = (line, column) := by
  cases n <;> rfl

@[simp]
theorem placeFrom_zero (line column : Nat) (s : List Char) :
    placeFrom line column s 0 = (line, column) := by
  cases s <;> rfl

theorem placeFrom_cons (line column : Nat) (c : Char) (s : List Char) (n : Nat) :
    placeFrom line column (c :: s) (n + 1) =
      if breaksAt c s then placeFrom (line + 1) 0 s n else placeFrom line (column + 1) s n := rfl

/-- The lines in front are only added to the line that is counted. -/
theorem placeFrom_succ (line column : Nat) (s : List Char) (n : Nat) :
    placeFrom (line + 1) column s n =
      ((placeFrom line column s n).1 + 1, (placeFrom line column s n).2) := by
  induction s generalizing line column n with
  | nil => simp
  | cons c s ih =>
    cases n with
    | zero => simp
    | succ n =>
      simp only [placeFrom_cons]
      split <;> exact ih ..

/-- By a table of lines, an offset stands in a line at a column; both are counted from zero. -/
structure Stands (ls : List Line) (offset line column : Nat) : Prop where
  count : (ls.countP fun l => l.offset ≤ offset) = line + 1
  start : ∃ l, ls[line]? = some l ∧ l.offset + column = offset

variable {ls : List Line} {l : Line} {offset line column : Nat}

theorem Stands.first (column : Nat) (hrest : ∀ l' ∈ ls, l.offset + column < l'.offset) :
    Stands (l :: ls) (l.offset + column) 0 column where
  count := by
    have hnone : (ls.countP fun l' => l'.offset ≤ l.offset + column) = 0 :=
      List.countP_eq_zero.mpr fun l' hl' => by simpa using hrest l' hl'
    rw [List.countP_cons_of_pos (by simp), hnone]
  start := ⟨l, rfl, rfl⟩

theorem Stands.cons (h : Stands ls offset line column) (hle : l.offset ≤ offset) :
    Stands (l :: ls) offset (line + 1) column where
  count := by rw [List.countP_cons_of_pos (by simpa using hle), h.count]
  start := h.start

/-! ### The lines of a text -/

variable {s : List Char}

theorem le_of_mem_linesFrom {open_ : List Char} (h : l ∈ linesFrom offset open_ s) :
    offset ≤ l.offset := by
  fun_induction linesFrom offset open_ s <;> grind

/-- The open line is the first one, and the others begin behind what was read of it. -/
theorem linesFrom_cons (offset : Nat) {text : List Char} (h : 0 < text.length + s.length) :
    ∃ l ls, linesFrom offset text s = l :: ls ∧ l.offset = offset ∧
      ∀ l' ∈ ls, offset + text.length < l'.offset := by
  fun_induction linesFrom offset text s with
  | case1 offset text hempty => simp_all
  | case2 offset text hempty => exact ⟨_, _, rfl, rfl, nofun⟩
  | case3 offset text s ih =>
    refine ⟨_, _, rfl, rfl, fun l' hl' => ?_⟩
    have hle := le_of_mem_linesFrom hl'
    omega
  | case4 offset text c s hcrlf hends ih =>
    refine ⟨_, _, rfl, rfl, fun l' hl' => ?_⟩
    have hle := le_of_mem_linesFrom hl'
    omega
  | case5 offset text c s hcrlf hends ih =>
    obtain ⟨l, ls, hlines, hoffset, hrest⟩ := ih (by simp only [List.length_cons]; omega)
    refine ⟨l, ls, hlines, hoffset, fun l' hl' => ?_⟩
    have hlt := hrest l' hl'
    simp only [List.length_cons] at hlt
    omega

/-- A place in front of the lines that follow stands in the first one. -/
theorem stands_open {text : List Char} (h : 0 < text.length + s.length) {column : Nat}
    (hcolumn : column ≤ text.length) :
    Stands (linesFrom offset text s) (offset + column) 0 column := by
  obtain ⟨l, ls, hlines, rfl, hrest⟩ := linesFrom_cons offset h
  rw [hlines]
  refine .first column fun l' hl' => ?_
  have hlt := hrest l' hl'
  omega

/-- Behind a line that has ended, another one begins only if there is something in it. -/
theorem stands_behind {n : Nat} (hn : n ≤ s.length) (hl : l.offset + column = offset)
    (hlt : l.offset < offset) (h : s ≠ [] →
      Stands (linesFrom offset [] s) (offset + n) (placeFrom 0 0 s n).1 (placeFrom 0 0 s n).2) :
    Stands (l :: linesFrom offset [] s) (offset + n)
      (if s = [] then (0, column) else placeFrom 1 0 s n).1
      (if s = [] then (0, column) else placeFrom 1 0 s n).2 := by
  by_cases hs : s = []
  · subst hs
    obtain rfl : n = 0 := Nat.le_zero.mp hn
    rw [if_pos rfl, Nat.add_zero, ← hl]
    exact .first _ nofun
  · rw [if_neg hs, placeFrom_succ]
    exact (h hs).cons (by omega)

theorem breaksAt_eq_false {c : Char} (h : ¬ endsLine c = true) : breaksAt c s = false := by
  simp [breaksAt, h]

/-- What a line end changes, unless it is a carriage return in front of a line feed. -/
theorem placeFrom_end {c : Char} (hends : endsLine c = true)
    (hcrlf : ¬ (c = '\r' ∧ s.head? = some '\n')) (line column n : Nat) :
    placeFrom line column (c :: s) (n + 1) =
      if s = [] then (line, column + 1) else placeFrom (line + 1) 0 s n := by
  rw [placeFrom_cons]
  by_cases hs : s = []
  · subst hs
    simp [breaksAt]
  · have hbreaks : breaksAt c s = true := by
      simp [breaksAt, hends, hs, Decidable.not_and_iff_not_or_not.mp hcrlf]
    rw [if_pos hbreaks, if_neg hs]

theorem stands_linesFrom (offset : Nat) (text : List Char) {n : Nat} (hn : n ≤ s.length)
    (h : 0 < text.length + s.length) :
    Stands (linesFrom offset text s) (offset + text.length + n) (placeFrom 0 text.length s n).1
      (placeFrom 0 text.length s n).2 := by
  induction offset, text, s using linesFrom.induct generalizing n with
  | case1 offset text hempty => simp_all
  | case2 offset text hempty =>
    obtain rfl : n = 0 := Nat.le_zero.mp hn
    simpa using stands_open h (Nat.le_refl _)
  | case3 offset text s ih =>
    match n with
    | 0 => simpa using stands_open h (Nat.le_refl _)
    | 1 =>
      rw [placeFrom_cons, if_neg (by simp [breaksAt]), placeFrom_zero, linesFrom]
      refine Stands.first (l := ⟨offset, _⟩) (text.length + 1) fun l' hl' => ?_
      have hle := le_of_mem_linesFrom hl'
      dsimp only
      omega
    | n + 2 =>
      have hn' : n ≤ s.length := by simpa using hn
      rw [placeFrom_cons, if_neg (by simp [breaksAt]), placeFrom_end rfl (by simp), linesFrom,
        show offset + text.length + (n + 2) = offset + text.length + 2 + n by omega]
      refine stands_behind hn' (l := ⟨offset, _⟩) (by dsimp only; omega) (by dsimp only; omega)
        fun hs => ?_
      simpa using ih hn' (by simpa using List.length_pos_iff.mpr hs)
  | case4 offset text c s hcrlf hends ih =>
    cases n with
    | zero => simpa using stands_open h (Nat.le_refl _)
    | succ n =>
      have hn' : n ≤ s.length := by simpa using hn
      have hcrlf' : ¬ (c = '\r' ∧ s.head? = some '\n') := by
        rintro ⟨hc, hhead⟩
        obtain ⟨rest, rfl⟩ := List.head?_eq_some_iff.mp hhead
        exact hcrlf rest hc rfl
      rw [placeFrom_end hends hcrlf', linesFrom.eq_3 _ _ _ _ hcrlf, if_pos hends,
        show offset + text.length + (n + 1) = offset + text.length + 1 + n by omega]
      refine stands_behind hn' (l := ⟨offset, _⟩) (by dsimp only; omega) (by dsimp only; omega)
        fun hs => ?_
      simpa using ih hn' (by simpa using List.length_pos_iff.mpr hs)
  | case5 offset text c s hcrlf hends ih =>
    cases n with
    | zero => simpa using stands_open h (Nat.le_refl _)
    | succ n =>
      have hopen := ih (n := n) (by simpa using hn) (by simp only [List.length_cons]; omega)
      rw [placeFrom_cons, if_neg (by simp [breaksAt_eq_false hends]), linesFrom.eq_3 _ _ _ _ hcrlf,
        if_neg hends, show offset + text.length + (n + 1) = offset + (c :: text).length + n by
          simp only [List.length_cons]; omega]
      exact hopen

/-- Behind a line that has ended, the last line is this one or one of those that follow. -/
theorem getLast?_behind (hl : l.stop = offset)
    (h : 0 < s.length →
      ∃ l', (linesFrom offset [] s).getLast? = some l' ∧ l'.stop = offset + s.length) :
    ∃ l', (l :: linesFrom offset [] s).getLast? = some l' ∧ l'.stop = offset + s.length := by
  cases s with
  | nil => exact ⟨l, rfl, hl⟩
  | cons c s =>
    obtain ⟨l', hlast, hstop⟩ := h (Nat.succ_pos _)
    exact ⟨l', by rw [List.getLast?_cons, hlast, Option.getD_some], hstop⟩

/-- The last line ends where the text does. -/
theorem getLast?_linesFrom (offset : Nat) (text : List Char) (h : 0 < text.length + s.length) :
    ∃ l, (linesFrom offset text s).getLast? = some l ∧ l.stop = offset + text.length + s.length := by
  fun_induction linesFrom offset text s with
  | case1 offset text hempty => simp_all
  | case2 offset text hempty => exact ⟨_, rfl, by simp [Line.stop]⟩
  | case3 offset text s ih =>
    have hend : Line.stop ⟨offset, ('\n' :: '\r' :: text).reverse⟩ = offset + text.length + 2 := by
      simp [Line.stop, Nat.add_assoc]
    obtain ⟨l, hlast, hstop⟩ := getLast?_behind hend (fun hs => by simpa using ih (by simpa using hs))
    refine ⟨l, hlast, ?_⟩
    simp only [List.length_cons]
    omega
  | case4 offset text c s hcrlf hends ih =>
    have hend : Line.stop ⟨offset, (c :: text).reverse⟩ = offset + text.length + 1 := by
      simp [Line.stop, Nat.add_assoc]
    obtain ⟨l, hlast, hstop⟩ := getLast?_behind hend (fun hs => by simpa using ih (by simpa using hs))
    refine ⟨l, hlast, ?_⟩
    simp only [List.length_cons]
    omega
  | case5 offset text c s hcrlf hends ih =>
    obtain ⟨l, hlast, hstop⟩ := ih (by simp only [List.length_cons]; omega)
    refine ⟨l, hlast, ?_⟩
    simp only [List.length_cons] at hstop ⊢
    omega

/-! ### The lines of a source -/

/-- The line and the column of an offset of a source; both are counted from zero. -/
def place (source : List Char) (offset : Nat) : Nat × Nat := placeFrom 0 0 source offset

variable {source : List Char}

theorem stands_lines (hsource : source ≠ []) (h : offset ≤ source.length) :
    Stands (lines source) offset (place source offset).1 (place source offset).2 := by
  have hstands := stands_linesFrom 0 [] h
    (by simpa using List.length_pos_iff.mpr hsource)
  simpa [lines, place] using hstands

/-- The lines hold the offsets up to the end of the source, if there is one. -/
theorem lineOf?_eq_some_iff {n : Nat} : lineOf? (lines source) offset = some n ↔
    source ≠ [] ∧ offset ≤ source.length ∧ n = (place source offset).1 := by
  by_cases hsource : source = []
  · subst hsource
    simp [lineOf?, lines, linesFrom]
  · obtain ⟨l, hlast, hstop⟩ := getLast?_linesFrom 0 []
      (by simpa using List.length_pos_iff.mpr hsource)
    have hstop' : l.stop = source.length := by simpa using hstop
    rw [lineOf?, lines, hlast]
    dsimp only
    rw [hstop']
    by_cases h : offset ≤ source.length
    · have hcount := (stands_lines hsource h).count
      rw [lines] at hcount
      rw [if_neg (Nat.not_lt.mpr h), hcount]
      simp [hsource, h, eq_comm]
    · rw [if_pos (Nat.not_le.mp h)]
      simp [h]

end ReportTemplate.Excerpt
