import Mathlib.Data.List.Forall2
import ReportTemplate.Proofs.LogCall.Lines
import ReportTemplate.Report

/-!
# ReportTemplate.Proofs.LogCall.InFull — sources with their declarations in full

`ModernLine line t` takes a line apart into characters and short declarations, so that each short
declaration of the line is one of the pieces, and `t` is the line with these in full.  The declarations
of a line do not overlap: each has one `l`, with which it begins.  None comes in with the full ones, so
writing the declarations of a source in full leaves nothing to do, and nothing that is done with the
source tells the two apart.
-/

namespace ReportTemplate.LogCall

open Text (isBlank)

/-! ### Short declarations in a text -/

/-- A declaration may begin behind the text: at the beginning of a line, or behind a blank, a bracket
or a comma. -/
def Admits (front : List Char) : Prop := ∀ c ∈ front.getLast?, leadsDeclaration c = true

/-- In a text behind `front`, the short declaration `d` stands between `u` and `v`. -/
structure Occurs (front s u d v : List Char) : Prop where
  whole : s = u ++ (d ++ v)
  short : ShortDeclaration d
  admits : Admits (front ++ u)

/-- A piece of a line. -/
inductive Piece where
  | char (c : Char)
  | declaration (d : List Char)

def Piece.text : Piece → List Char
  | .char c => [c]
  | .declaration d => d

/-- The piece with a declaration in full. -/
def Piece.inFull : Piece → List Char
  | .char c => [c]
  | .declaration _ => fullDeclaration

/-- The pieces of a text behind `front`: its declarations are the short declarations that occur. -/
structure Pieces (front s : List Char) (ps : List Piece) : Prop where
  whole : s = ps.flatMap Piece.text
  occurs : ∀ before d after, ps = before ++ .declaration d :: after →
    Occurs front s (before.flatMap Piece.text) d (after.flatMap Piece.text)
  every : ∀ u d v, Occurs front s u d v →
    ∃ before after, ps = before ++ .declaration d :: after ∧ before.flatMap Piece.text = u

/-- The line `t` is `line` with every short declaration in full. -/
def ModernLine (line t : List Char) : Prop := ∃ ps, Pieces [] line ps ∧ t = ps.flatMap Piece.inFull

/-- The source `t` is `source` with every short declaration of every line in full. -/
def Modern (source t : List Char) : Prop :=
  List.Forall₂ ModernLine (Text.split source ['\n']) (Text.split t ['\n'])

/-! ### Where a declaration begins -/

/-- The only `l` of a short declaration is its first letter. -/
theorem ShortDeclaration.letters {d : List Char} (h : ShortDeclaration d) :
    ∃ w, d = 'l' :: (w ++ [')']) ∧ 'l' ∉ w := by
  obtain ⟨c, middle, rfl, -, hplain⟩ := h.isShort
  refine ⟨'o' :: 'g' :: c :: middle, rfl, ?_⟩
  rw [List.mem_cons, List.mem_cons, not_or, not_or]
  exact ⟨by decide, by decide, not_mem_of_isPlain hplain (by decide)⟩

theorem ShortDeclaration.ne_nil {d : List Char} (h : ShortDeclaration d) : d ≠ [] := by
  obtain ⟨w, rfl, -⟩ := h.letters
  exact List.cons_ne_nil _ _

theorem afterDeclaration?_append {d : List Char} (h : ShortDeclaration d) (s : List Char) :
    afterDeclaration? (d ++ s) = some s :=
  afterDeclaration?_iff.mpr ⟨d, h, rfl⟩

theorem admits_concat {front : List Char} {c : Char} :
    Admits (front ++ [c]) ↔ leadsDeclaration c = true := by
  unfold Admits
  rw [List.getLast?_concat]
  exact ⟨fun h => h c rfl, fun h x hx => Option.some.inj hx ▸ h⟩

/-- No declaration begins right behind another one. -/
theorem ShortDeclaration.not_admits {d : List Char} (h : ShortDeclaration d) (front : List Char) :
    ¬ Admits (front ++ d) := by
  obtain ⟨w, rfl, -⟩ := h.letters
  rw [← List.cons_append, ← List.append_assoc, admits_concat]
  decide

theorem admits_nil : Admits [] := nofun

/-! ### Taking a line apart -/

section

variable {front s t u v d : List Char} {c : Char} {p : Piece} {ps : List Piece} {lead : Bool}

theorem Occurs.of_append (h : Occurs front (s ++ t) (s ++ u) d v) : Occurs (front ++ s) t u d v where
  whole := List.append_cancel_left (h.whole.trans (List.append_assoc _ _ _))
  short := h.short
  admits := by
    rw [List.append_assoc]
    exact h.admits

theorem Occurs.append (h : Occurs (front ++ s) t u d v) : Occurs front (s ++ t) (s ++ u) d v where
  whole := by rw [h.whole, List.append_assoc]
  short := h.short
  admits := by
    rw [← List.append_assoc]
    exact h.admits

theorem Pieces.nil : Pieces front [] [] where
  whole := rfl
  occurs := fun before _ _ h => absurd h.symm (by simp)
  every := fun u d v h => by
    have hparts := (List.append_eq_nil_iff.mp h.whole.symm).2
    exact absurd (List.append_eq_nil_iff.mp hparts).1 h.short.ne_nil

/-- Pieces are put in front of others if each occurrence in the longer text is the first piece or
begins behind it. -/
theorem Pieces.cons (h : Pieces (front ++ p.text) s ps)
    (hfirst : ∀ d, p = .declaration d → Occurs front (d ++ s) [] d s)
    (hevery : ∀ u d v, Occurs front (p.text ++ s) u d v →
      (u = [] ∧ p = .declaration d) ∨ ∃ u', u = p.text ++ u') :
    Pieces front (p.text ++ s) (p :: ps) where
  whole := by rw [h.whole, List.flatMap_cons]
  occurs := by
    rintro (_ | ⟨q, before⟩) d after hps
    · obtain ⟨rfl, rfl⟩ := List.cons.inj hps
      rw [← h.whole]
      exact hfirst d rfl
    · obtain ⟨rfl, rfl⟩ := List.cons.inj hps
      rw [List.flatMap_cons]
      exact (h.occurs before d after rfl).append
  every := by
    intro u d v hoccurs
    rcases hevery u d v hoccurs with ⟨rfl, rfl⟩ | ⟨u', rfl⟩
    · exact ⟨[], ps, rfl, rfl⟩
    · obtain ⟨before, after, rfl, rfl⟩ := h.every u' d v hoccurs.of_append
      exact ⟨p :: before, after, rfl, List.flatMap_cons⟩

theorem Pieces.char (h : Pieces (front ++ [c]) s ps)
    (hnone : Admits front → afterDeclaration? (c :: s) = none) :
    Pieces front (c :: s) (.char c :: ps) := by
  refine Pieces.cons (p := .char c) h nofun fun u d v hoccurs => ?_
  obtain ⟨hwhole, hshort, hadmits⟩ := hoccurs
  have hwhole : c :: s = u ++ (d ++ v) := hwhole
  cases u with
  | nil =>
    rw [List.append_nil] at hadmits
    have hfound := hnone hadmits
    rw [hwhole, List.nil_append, afterDeclaration?_append hshort] at hfound
    cases hfound
  | cons x u =>
    obtain ⟨rfl, -⟩ := List.cons.inj hwhole
    exact .inr ⟨u, rfl⟩

/-- Nothing occurs in the middle of a short declaration: its only `l` is the first letter. -/
theorem Pieces.declaration (hd : ShortDeclaration d) (hadmits : Admits front)
    (h : Pieces (front ++ d) s ps) : Pieces front (d ++ s) (.declaration d :: ps) := by
  refine Pieces.cons (p := .declaration d) h ?_ fun u d' v hoccurs => ?_
  · intro d' hd'
    obtain rfl := Piece.declaration.inj hd'
    exact ⟨rfl, hd, by rwa [List.append_nil]⟩
  have hwhole : d ++ s = u ++ (d' ++ v) := hoccurs.whole
  rcases List.append_eq_append_iff.mp hwhole with ⟨a, rfl, -⟩ | ⟨a, hu, hrest⟩
  · exact .inr ⟨a, rfl⟩
  · cases u with
    | nil =>
      have hfound := afterDeclaration?_append hd s
      rw [hwhole, List.nil_append, afterDeclaration?_append hoccurs.short] at hfound
      obtain rfl := Option.some.inj hfound
      exact .inl ⟨rfl, congrArg _ (List.append_cancel_right hwhole)⟩
    | cons x u =>
      cases a with
      | nil => exact .inr ⟨[], by rw [List.append_nil]; exact (hu.trans (List.append_nil _)).symm⟩
      | cons y a =>
        obtain ⟨w, rfl, hw⟩ := hd.letters
        obtain ⟨w', rfl, -⟩ := hoccurs.short.letters
        obtain ⟨rfl, -⟩ := List.cons.inj hrest
        have hmem : 'l' ∈ w ++ [')'] := by
          rw [(List.cons.inj hu).2]
          simp
        simp [hw] at hmem

theorem Upgraded.pieces (h : Upgraded lead s t) (hlead : lead = true ↔ Admits front) :
    ∃ ps, Pieces front s ps ∧ t = ps.flatMap Piece.inFull := by
  induction h generalizing front with
  | nil => exact ⟨[], .nil, rfl⟩
  | @keep _ c _ _ other _ ih =>
    obtain ⟨ps, hps, rfl⟩ := ih admits_concat.symm
    exact ⟨.char c :: ps, hps.char fun hadmits => other (hlead.mpr hadmits), rfl⟩
  | @full d _ _ _ found _ ih =>
    obtain ⟨d', hd, htext⟩ := afterDeclaration?_iff.mp found
    obtain rfl := List.append_cancel_right htext
    obtain ⟨ps, hps, rfl⟩ := ih (iff_of_false Bool.false_ne_true (hd.not_admits front))
    exact ⟨.declaration d :: ps, hps.declaration hd (hlead.mp rfl), rfl⟩

/-- What stands behind the first piece of a text. -/
theorem Pieces.behind (h : Pieces front s (p :: ps)) :
    ∃ t, s = p.text ++ t ∧ Pieces (front ++ p.text) t ps := by
  have hp : p.text ≠ [] := by
    cases p with
    | char c => exact List.cons_ne_nil _ _
    | declaration d => exact (h.occurs [] d ps rfl).short.ne_nil
  refine ⟨ps.flatMap Piece.text, h.whole, rfl, fun before d after hps => ?_, fun u d v hoccurs => ?_⟩
  · have hoccurs := h.occurs (p :: before) d after (congrArg _ hps)
    rw [h.whole] at hoccurs
    exact hoccurs.of_append
  · have hlonger := hoccurs.append
    rw [← List.flatMap_cons, ← h.whole] at hlonger
    obtain ⟨before, after, hps, hbefore⟩ := h.every _ d v hlonger
    cases before with
    | nil => exact absurd (List.append_eq_nil_iff.mp hbefore.symm).1 hp
    | cons q before =>
      obtain ⟨rfl, rfl⟩ := List.cons.inj hps
      exact ⟨before, after, rfl, List.append_cancel_left hbefore⟩

theorem Pieces.upgradeFrom_eq (h : Pieces front s ps) (hlead : lead = true ↔ Admits front) :
    upgradeFrom lead 0 s = ps.flatMap Piece.inFull := by
  induction ps generalizing front s lead with
  | nil => rw [h.whole]; rfl
  | cons p ps ih =>
    obtain ⟨t, rfl, hrest⟩ := h.behind
    cases p with
    | char c =>
      have hnone : lead = true → afterDeclaration? (c :: t) = none := by
        intro hadmits
        refine Option.eq_none_iff_forall_ne_some.mpr fun r hr => ?_
        obtain ⟨d, hd, htext⟩ := afterDeclaration?_iff.mp hr
        obtain ⟨before, after, hps, hbefore⟩ := h.every [] d r
          ⟨htext, hd, by rw [List.append_nil]; exact hlead.mp hadmits⟩
        cases before with
        | nil => cases hps
        | cons q before =>
          obtain ⟨rfl, -⟩ := List.cons.inj hps
          cases hbefore
      show upgradeFrom lead 0 (c :: t) = c :: ps.flatMap Piece.inFull
      rw [upgradeFrom_keep hnone, ih hrest admits_concat.symm]
    | declaration d =>
      have hoccurs := h.occurs [] d ps rfl
      have hadmits := hoccurs.admits
      rw [List.flatMap_nil, List.append_nil] at hadmits
      obtain rfl := hlead.mpr hadmits
      have hfound := afterDeclaration?_append hoccurs.short t
      have hbehind := hoccurs.short.not_admits front
      obtain ⟨w, rfl, -⟩ := hoccurs.short.letters
      show upgradeFrom true 0 ('l' :: (w ++ [')'] ++ t)) = fullDeclaration ++ ps.flatMap Piece.inFull
      rw [upgradeFrom_full hfound, ih hrest (iff_of_false Bool.false_ne_true hbehind)]

end

/-- A line has one text with its short declarations in full. -/
theorem modernLine_iff {line t : List Char} : ModernLine line t ↔ t = upgradeDeclarations line := by
  constructor
  · rintro ⟨ps, hps, rfl⟩
    exact (hps.upgradeFrom_eq (iff_of_true rfl admits_nil)).symm
  · rintro rfl
    exact (upgraded_upgradeDeclarations line).pieces (iff_of_true rfl admits_nil)

/-! ### Nothing is left -/

section

variable {front s t u v d w : List Char} {c : Char} {lead : Bool}

theorem Occurs.declaresFrom_eq (h : Occurs front s u d v) (hlead : lead = true ↔ Admits front) :
    declaresFrom lead s = true := by
  induction u generalizing front s lead with
  | nil =>
    have hadmits := h.admits
    rw [List.append_nil] at hadmits
    obtain rfl := hlead.mpr hadmits
    have hfound := afterDeclaration?_append h.short v
    obtain ⟨w, rfl, -⟩ := h.short.letters
    rw [h.whole]
    rw [List.nil_append, List.cons_append, declaresFrom]
    rw [List.cons_append] at hfound
    rw [hfound]
    rfl
  | cons c u ih =>
    obtain rfl := h.whole
    have hrest : Occurs (front ++ [c]) (u ++ (d ++ v)) u d v :=
      Occurs.of_append (s := [c]) h
    rw [List.cons_append, declaresFrom, ih hrest admits_concat.symm, Bool.or_true]

/-- Text without an `l` stood there before. -/
theorem Upgraded.of_append_right (hw : 'l' ∉ w) (h : Upgraded lead s (w ++ t)) :
    ∃ lead' s', s = w ++ s' ∧ Upgraded lead' s' t := by
  induction w generalizing lead s with
  | nil => exact ⟨lead, s, rfl, h⟩
  | cons c w ih =>
    rw [List.mem_cons, not_or] at hw
    generalize htext : c :: w ++ t = x at h
    cases h with
    | nil => cases htext
    | keep _ rest =>
      obtain ⟨rfl, rfl⟩ := List.cons.inj htext
      obtain ⟨lead', s', rfl, h'⟩ := ih hw.2 rest
      exact ⟨lead', s', rfl, h'⟩
    | full _ _ _ => exact absurd (List.cons.inj htext).1.symm hw.1

theorem declaresFrom_append (hw : 'l' ∉ w) (hc : c ≠ 'l') (s : List Char) :
    declaresFrom lead (w ++ c :: s) = declaresFrom (leadsDeclaration c) s := by
  have hnone {x : Char} (hx : x ≠ 'l') (r : List Char) : afterDeclaration? (x :: r) = none := by
    refine Option.eq_none_iff_forall_ne_some.mpr fun _ hr => ?_
    obtain ⟨d, hd, htext⟩ := afterDeclaration?_iff.mp hr
    obtain ⟨w, rfl, -⟩ := hd.letters
    exact hx (List.cons.inj htext).1
  induction w generalizing lead with
  | nil => rw [List.nil_append, declaresFrom, hnone hc, Option.isSome_none, Bool.and_false, Bool.false_or]
  | cons x w ih =>
    rw [List.mem_cons, not_or] at hw
    rw [List.cons_append, declaresFrom, hnone (Ne.symm hw.1), Option.isSome_none, Bool.and_false,
      Bool.false_or, ih hw.2]

/-- There is no short declaration in the full one. -/
theorem declaresFrom_fullDeclaration (s : List Char) :
    declaresFrom lead (fullDeclaration ++ s) = declaresFrom false s := by
  have htext : fullDeclaration ++ s = 'l' :: ('o' :: 'g' :: ':' :: callbackText ++ ')' :: s) := rfl
  have hnone : afterDeclaration? ('l' :: ('o' :: 'g' :: ':' :: callbackText ++ ')' :: s)) = none := rfl
  rw [htext, declaresFrom, hnone, Option.isSome_none, Bool.and_false, Bool.false_or,
    declaresFrom_append (by decide) (by decide)]
  rfl

/-- A declaration of the text with its declarations in full would have stood there before. -/
theorem Upgraded.declaresFrom_eq_false (h : Upgraded lead s t) : declaresFrom lead t = false := by
  induction h with
  | nil => rfl
  | @keep lead c s t other rest ih =>
    have hnone : lead = true → afterDeclaration? (c :: t) = none := by
      intro hlead
      refine Option.eq_none_iff_forall_ne_some.mpr fun r hr => ?_
      obtain ⟨d, hd, htext⟩ := afterDeclaration?_iff.mp hr
      obtain ⟨w, hletters, hw⟩ := hd.letters
      rw [hletters] at htext
      obtain ⟨rfl, rfl⟩ := List.cons.inj htext
      have hw : 'l' ∉ w ++ [')'] := by simp [hw]
      obtain ⟨_, s', rfl, -⟩ := rest.of_append_right hw
      have hbefore := afterDeclaration?_append hd s'
      rw [hletters, List.cons_append, other hlead] at hbefore
      cases hbefore
    rw [declaresFrom, ih, Bool.or_false]
    cases lead with
    | false => rfl
    | true => rw [hnone rfl]; rfl
  | full _ _ _ ih => rw [declaresFrom_fullDeclaration, ih]

end

theorem declares_upgradeDeclarations (line : List Char) : declares (upgradeDeclarations line) = false :=
  (upgraded_upgradeDeclarations line).declaresFrom_eq_false

theorem upgradeDeclarations_idem (line : List Char) :
    upgradeDeclarations (upgradeDeclarations line) = upgradeDeclarations line :=
  upgradeDeclarations_of_not_declares (declares_upgradeDeclarations line)

theorem not_occurs_upgradeDeclarations (line u d v : List Char) :
    ¬ Occurs [] (upgradeDeclarations line) u d v := fun h => by
  have hdeclares := h.declaresFrom_eq (iff_of_true rfl admits_nil)
  rw [show declaresFrom true _ = false from declares_upgradeDeclarations line] at hdeclares
  cases hdeclares

theorem expandLine_upgradeDeclarations (number : Nat) (line : List Char) :
    expandLine number (upgradeDeclarations line) = expandLine number line := by
  unfold expandLine
  rw [upgradeDeclarations_idem]

/-! ### Sources -/

/-- The source with its short declarations in full, line by line. -/
def modernize (source : List Char) : List Char :=
  ['\n'].intercalate ((Text.split source ['\n']).map upgradeDeclarations)

theorem split_modernize (source : List Char) :
    Text.split (modernize source) ['\n'] = (Text.split source ['\n']).map upgradeDeclarations := by
  obtain ⟨line, lines, hsplit, -, hlines⟩ := split_lines source
  unfold modernize
  rw [hsplit, List.map_cons, intercalate_lines]
  refine split_behind fun l hl => ?_
  rw [← List.map_cons] at hl
  obtain ⟨l', hl', rfl⟩ := List.mem_map.mp hl
  exact (upgraded_upgradeDeclarations l').not_mem (by decide) (hlines l' hl')

/-- A source is known by its lines. -/
theorem eq_of_split_eq {s t : List Char} (h : Text.split s ['\n'] = Text.split t ['\n']) : s = t := by
  obtain ⟨line, lines, hs, rfl, -⟩ := split_lines s
  obtain ⟨line', lines', ht, rfl, -⟩ := split_lines t
  obtain ⟨rfl, rfl⟩ := List.cons.inj (hs.symm.trans (h.trans ht))
  rfl

theorem modern_iff {source t : List Char} : Modern source t ↔ t = modernize source := by
  have hline : ModernLine = fun line t => upgradeDeclarations line = t := by
    funext line t
    exact propext (modernLine_iff.trans eq_comm)
  unfold Modern
  rw [hline, ← List.forall₂_map_left_iff, List.forall₂_eq_eq_eq, ← split_modernize]
  exact ⟨fun h => (eq_of_split_eq h).symm, fun h => by rw [h]⟩

theorem expandLines_upgradeDeclarations (number : Nat) (lines : List (List Char)) :
    expandLines number (lines.map upgradeDeclarations) = expandLines number lines := by
  induction lines generalizing number with
  | nil => rfl
  | cons line lines ih => rw [List.map_cons, expandLines, expandLines, expandLine_upgradeDeclarations, ih]

theorem expand_modernize (source : List Char) : expand (modernize source) = expand source := by
  unfold expand
  rw [split_modernize, expandLines_upgradeDeclarations]

end ReportTemplate.LogCall

namespace ReportTemplate.Report

open LogCall

/-- What is done with a source depends on its expansion only. -/
theorem compile_of_expand {s t : String} (h : expand s.toList = expand t.toList) (settings : Settings) :
    compile settings s = compile settings t := by
  unfold compile
  rw [h]

/-- **Declarations in full**: for each source there is one text that is the source with every short
declaration of its lines in full.  No short declaration is left in it, it has the same expansion, and
under all settings it compiles to the same program with the same warnings, or fails with the same
errors, has the same entry point, and every run of it does the same to the document and gives the same
report. -/
theorem modern_alike (source : String) : ∃ t : String, Modern source.toList t.toList ∧
    (∀ t' : String, Modern source.toList t'.toList → t' = t) ∧
    (∀ line ∈ Text.split t.toList ['\n'], ∀ u d v, ¬ Occurs [] line u d v) ∧
    expand t.toList = expand source.toList ∧
    ∀ settings, compile settings t = compile settings source ∧
      check settings t = check settings source ∧
      ∀ directory document, ofSource settings t directory document =
        ofSource settings source directory document := by
  have hlist : (String.ofList (modernize source.toList)).toList = modernize source.toList :=
    String.toList_ofList
  refine ⟨String.ofList (modernize source.toList), ?_, fun t' ht' => ?_, ?_, ?_, fun settings => ?_⟩
  · rw [hlist]
    exact modern_iff.mpr rfl
  · rw [← modern_iff.mp ht', String.ofList_toList]
  · rw [hlist, split_modernize]
    intro line hline
    obtain ⟨l, -, rfl⟩ := List.mem_map.mp hline
    exact not_occurs_upgradeDeclarations l
  · rw [hlist, expand_modernize]
  · have hcompile : compile settings (String.ofList (modernize source.toList)) =
        compile settings source :=
      compile_of_expand (by rw [hlist, expand_modernize]) settings
    have hcheck : check settings (String.ofList (modernize source.toList)) =
        check settings source := by
      unfold check
      rw [hcompile]
    refine ⟨hcompile, hcheck, fun directory document => ?_⟩
    unfold ofSource
    rw [hcheck]

end ReportTemplate.Report
