import Mathlib.Data.List.Basic
import Mathlib.Tactic.Common
import ReportTemplate.LogCall
import ReportTemplate.Proofs.Library.Separators
import ReportTemplate.Text.Utf8

/-!
# ReportTemplate.Proofs.LogCall.Expansions — the calls that an expansion changes

`site? line` takes the call of a line apart that `expandCall` rewrites, and `expansions source` lists
these calls for a source: the line each stands on, the byte it begins at, and its argument.
-/

namespace ReportTemplate.LogCall

open Text (byteSize isBlank startsWith)

/-! ### Lines -/

/-- Lines that follow another one, each behind its line feed. -/
def behind (lines : List (List Char)) : List Char := lines.flatMap fun line => '\n' :: line

@[simp] theorem behind_nil : behind [] = [] := rfl

@[simp] theorem behind_cons (line : List Char) (lines : List (List Char)) :
    behind (line :: lines) = '\n' :: (line ++ behind lines) := rfl

theorem intercalate_lines (line : List Char) (lines : List (List Char)) :
    ['\n'].intercalate (line :: lines) = line ++ behind lines := by
  induction lines generalizing line with
  | nil => simp [List.intercalate]
  | cons next lines ih =>
    have h : ['\n'].intercalate (line :: next :: lines) =
        line ++ ['\n'] ++ ['\n'].intercalate (next :: lines) := by
      simp [List.intercalate, List.intersperse]
    rw [h, ih, behind_cons, List.append_assoc, List.singleton_append]

/-- A text cut at its line feeds: the first line and those behind it. -/
theorem splitFrom_lines {piece : List Char} (s : List Char) (hpiece : '\n' ∉ piece) :
    ∃ line lines, Text.splitFrom ['\n'] [] piece 0 s = line :: lines ∧
      line ++ behind lines = piece.reverse ++ s ∧ ∀ l ∈ line :: lines, '\n' ∉ l := by
  induction s generalizing piece with
  | nil =>
    refine ⟨piece.reverse, [], rfl, rfl, fun l hl => ?_⟩
    rw [List.mem_singleton.mp hl, List.mem_reverse]
    exact hpiece
  | cons c s ih =>
    simp only [Text.splitFrom, Nat.lt_irrefl, if_false, List.length_singleton, Nat.sub_self]
    split
    next h =>
      have hc : c = '\n' := (List.cons_prefix_cons.mp (List.isPrefixOf_iff_prefix.mp h)).1.symm
      obtain ⟨line, lines, hs, htext, hlines⟩ := ih List.not_mem_nil
      rw [Text.splitFrom_done, hs]
      refine ⟨piece.reverse, line :: lines, rfl, ?_, fun l hl => ?_⟩
      · rw [behind_cons, htext, hc, List.reverse_nil, List.nil_append]
      · rcases List.mem_cons.mp hl with rfl | hl
        · rw [List.mem_reverse]
          exact hpiece
        · exact hlines l hl
    next h =>
      have hc : '\n' ∉ c :: piece := by
        intro hmem
        rcases List.mem_cons.mp hmem with rfl | hmem
        · exact h rfl
        · exact hpiece hmem
      obtain ⟨line, lines, hs, htext, hlines⟩ := ih hc
      refine ⟨line, lines, hs, ?_, hlines⟩
      rw [htext, List.reverse_cons, List.append_assoc, List.singleton_append]

theorem split_lines (source : List Char) :
    ∃ line lines, Text.split source ['\n'] = line :: lines ∧ line ++ behind lines = source ∧
      ∀ l ∈ line :: lines, '\n' ∉ l := splitFrom_lines source List.not_mem_nil

/-! ### Declarations -/

/-- A short declaration stands somewhere in a text; `lead` says that one may begin here. -/
def declaresFrom (lead : Bool) : List Char → Bool
  | [] => false
  | c :: r => (lead && (afterDeclaration? (c :: r)).isSome) || declaresFrom (leadsDeclaration c) r

/-- The line holds a short declaration. -/
def declares (line : List Char) : Bool := declaresFrom true line

theorem upgradeFrom_of_not_declares {lead : Bool} {s : List Char} (h : declaresFrom lead s = false) :
    upgradeFrom lead 0 s = s := by
  induction s generalizing lead with
  | nil => rfl
  | cons c r ih =>
    simp only [declaresFrom, Bool.or_eq_false_iff] at h
    obtain ⟨hc, hr⟩ := h
    have hnone : (if lead then afterDeclaration? (c :: r) else none) = none := by
      cases lead with
      | false => rfl
      | true => simpa using hc
    rw [upgradeFrom]
    simp only [hnone]
    rw [ih hr]

theorem upgradeDeclarations_of_not_declares {line : List Char} (h : declares line = false) :
    upgradeDeclarations line = line := upgradeFrom_of_not_declares h

/-! ### Calls -/

theorem splitLastClose?_eq {s argument tail : List Char}
    (h : splitLastClose? s = some (argument, tail)) : s = argument ++ ");".toList ++ tail := by
  induction s generalizing argument tail with
  | nil => simp [splitLastClose?] at h
  | cons c r ih =>
    unfold splitLastClose? at h
    split at h
    next a t hr =>
      obtain ⟨rfl, rfl⟩ := Prod.mk.inj (Option.some.inj h)
      rw [ih hr]
      rfl
    next =>
      split_ifs at h with hc
      obtain ⟨rfl, rfl⟩ := Prod.mk.inj (Option.some.inj h)
      simp only [Bool.and_eq_true, decide_eq_true_eq] at hc
      obtain ⟨hc, hr⟩ := hc
      obtain ⟨t, rfl⟩ := List.head?_eq_some_iff.mp hr
      rw [hc]
      rfl

/-- A line around its call `log(argument);`. -/
structure Site where
  before : List Char
  argument : List Char
  tail : List Char
deriving DecidableEq, Repr

/-- The first call of a text that is closed; `lead` says that a call may begin here. -/
def siteFrom? (lead : Bool) : List Char → Option Site
  | [] => none
  | c :: r =>
    match if lead && startsWith opening (c :: r) then splitLastClose? (r.drop 3) else none with
    | some (argument, tail) => some ⟨[], argument, tail⟩
    | none => (siteFrom? (isBlank c) r).map fun s => ⟨c :: s.before, s.argument, s.tail⟩

/-- The call of a line that is expanded. -/
def site? (line : List Char) : Option Site :=
  if sites line = 1 then siteFrom? true line else none

theorem siteFrom?_text {lead : Bool} {line : List Char} {s : Site}
    (h : siteFrom? lead line = some s) :
    line = s.before ++ (opening ++ (s.argument ++ ");".toList ++ s.tail)) := by
  induction line generalizing lead s with
  | nil => simp [siteFrom?] at h
  | cons c r ih =>
    unfold siteFrom? at h
    split at h
    next a t hcall =>
      obtain rfl := Option.some.inj h
      split_ifs at hcall with hlead
      simp only [Bool.and_eq_true] at hlead
      obtain ⟨w, hw⟩ := List.isPrefixOf_iff_prefix.mp hlead.2
      have hr : r = 'o' :: 'g' :: '(' :: w := (List.cons_eq_cons.mp hw).2.symm
      rw [← hw]
      rw [hr] at hcall
      exact congrArg (opening ++ ·) (splitLastClose?_eq hcall)
    next =>
      obtain ⟨s', hs', rfl⟩ := Option.map_eq_some_iff.mp h
      rw [List.cons_append, ← ih hs']

theorem expandFrom?_eq (number : Nat) (lead : Bool) (line : List Char) :
    expandFrom? number lead line =
      (siteFrom? lead line).map fun s => s.before ++ (recorded number s.argument ++ s.tail) := by
  induction line generalizing lead with
  | nil => rfl
  | cons c r ih =>
    unfold expandFrom? siteFrom?
    rw [ih]
    generalize (if lead && startsWith opening (c :: r) then splitLastClose? (r.drop 3) else none) =
      call
    cases call with
    | some _ => rfl
    | none => cases siteFrom? (isBlank c) r <;> rfl

/-- **The expanded call**: a line around its call, and nothing else of it changed. -/
theorem site?_some {line : List Char} {s : Site} (h : site? line = some s) (number : Nat) :
    line = s.before ++ (opening ++ (s.argument ++ ");".toList ++ s.tail)) ∧
      expandCall number line = s.before ++ (recorded number s.argument ++ s.tail) := by
  unfold site? at h
  split_ifs at h with hone
  refine ⟨siteFrom?_text h, ?_⟩
  unfold expandCall
  rw [if_pos hone, expandFrom?_eq, h]
  rfl

theorem length_lt_of_recorded (number : Nat) (argument : List Char) :
    (opening ++ (argument ++ ");".toList)).length < (recorded number argument).length := by
  have hdigits : 0 < (Nat.toDigits 10 number).length :=
    List.length_pos_iff.mpr Nat.toDigits_ne_nil
  unfold recorded
  simp only [List.length_append]
  omega

theorem site?_none {line : List Char} (h : site? line = none) (number : Nat) :
    expandCall number line = line := by
  unfold site? at h
  unfold expandCall
  split_ifs at h ⊢
  · rw [expandFrom?_eq, h]
    rfl
  · rfl

/-- The lines with a call that is expanded are those that an expansion changes. -/
theorem site?_eq_none_iff (number : Nat) (line : List Char) :
    site? line = none ↔ expandCall number line = line := by
  constructor
  · exact fun h => site?_none h number
  · intro h
    cases hs : site? line with
    | none => rfl
    | some s =>
      obtain ⟨hline, hexpand⟩ := site?_some hs number
      have hlen := congrArg List.length (hexpand.symm.trans (h.trans hline))
      have hlt := length_lt_of_recorded number s.argument
      simp only [List.length_append] at hlen hlt
      omega

/-! ### The calls of a source -/

/-- A call that is expanded: the number of its line, the byte of the source it begins at, and its
argument. -/
structure Expansion where
  number : Nat
  offset : Nat
  argument : List Char
deriving DecidableEq, Repr

/-- The expanded calls of lines that are counted from `number` and begin at byte `offset`. -/
def expansionsFrom (number offset : Nat) : List (List Char) → List Expansion
  | [] => []
  | line :: lines =>
    let rest := expansionsFrom (number + 1) (offset + byteSize line + 1) lines
    match site? line with
    | some s => ⟨number, offset + byteSize s.before, s.argument⟩ :: rest
    | none => rest

/-- The calls of a source that are expanded. -/
def expansions (source : List Char) : List Expansion :=
  expansionsFrom 1 0 (Text.split source ['\n'])

theorem expansionsFrom_some {line : List Char} {s : Site} (h : site? line = some s)
    (number offset : Nat) (lines : List (List Char)) :
    expansionsFrom number offset (line :: lines) =
      ⟨number, offset + byteSize s.before, s.argument⟩ ::
        expansionsFrom (number + 1) (offset + byteSize line + 1) lines := by
  simp only [expansionsFrom, h]

theorem expansionsFrom_none {line : List Char} (h : site? line = none) (number offset : Nat)
    (lines : List (List Char)) :
    expansionsFrom number offset (line :: lines) =
      expansionsFrom (number + 1) (offset + byteSize line + 1) lines := by
  simp only [expansionsFrom, h]

theorem le_offset_of_mem {number offset : Nat} {lines : List (List Char)} {x : Expansion}
    (h : x ∈ expansionsFrom number offset lines) : offset ≤ x.offset := by
  induction lines generalizing number offset with
  | nil => simp [expansionsFrom] at h
  | cons line lines ih =>
    have later : x ∈ expansionsFrom (number + 1) (offset + byteSize line + 1) lines →
        offset ≤ x.offset := by
      intro h
      have hle := ih h
      omega
    cases hs : site? line with
    | none =>
      rw [expansionsFrom_none hs] at h
      exact later h
    | some s =>
      rw [expansionsFrom_some hs] at h
      rcases List.mem_cons.mp h with rfl | h
      · exact Nat.le_add_right _ _
      · exact later h

/-- Line `number` of a text, which begins at byte `offset`, holds the call `x` somewhere in or behind
its line. -/
def StandsIn (number offset : Nat) (text : List Char) (x : Expansion) : Prop :=
  ∃ u w, text = u ++ (opening ++ (x.argument ++ ");".toList ++ w)) ∧
    x.offset = offset + byteSize u ∧ x.number = number + u.count '\n'

theorem standsIn_site {line : List Char} {s : Site} (hs : site? line = some s) (hline : '\n' ∉ line)
    (number offset : Nat) (w : List Char) :
    StandsIn number offset (line ++ w) ⟨number, offset + byteSize s.before, s.argument⟩ := by
  have htext := (site?_some hs number).1
  have hbefore : '\n' ∉ s.before := by
    intro h
    rw [htext] at hline
    exact hline (List.mem_append_left _ h)
  refine ⟨s.before, s.tail ++ w, ?_, rfl, ?_⟩
  · rw [htext]
    simp only [List.append_assoc]
  · rw [List.count_eq_zero_of_not_mem hbefore]
    rfl

theorem StandsIn.behind_line {number offset : Nat} {text line : List Char} {x : Expansion}
    (hline : '\n' ∉ line) (h : StandsIn (number + 1) (offset + byteSize line + 1) text x) :
    StandsIn number offset (line ++ '\n' :: text) x := by
  obtain ⟨u, w, htext, hoff, hnum⟩ := h
  refine ⟨line ++ '\n' :: u, w, ?_, ?_, ?_⟩
  · rw [htext]
    simp only [List.append_assoc, List.cons_append]
  · have hfeed : Char.utf8Size '\n' = 1 := rfl
    rw [hoff, Text.byteSize_append, Text.byteSize_cons, hfeed]
    omega
  · rw [hnum, List.count_append, List.count_eq_zero_of_not_mem hline, List.count_cons_self]
    omega

theorem standsIn_of_mem {number offset : Nat} {line : List Char} {lines : List (List Char)}
    {x : Expansion} (hlines : ∀ l ∈ line :: lines, '\n' ∉ l)
    (h : x ∈ expansionsFrom number offset (line :: lines)) :
    StandsIn number offset (line ++ behind lines) x := by
  induction lines generalizing number offset line with
  | nil =>
    have hline : '\n' ∉ line := hlines line List.mem_cons_self
    cases hs : site? line with
    | none =>
      rw [expansionsFrom_none hs] at h
      exact absurd h List.not_mem_nil
    | some s =>
      rw [expansionsFrom_some hs] at h
      rcases List.mem_cons.mp h with rfl | h
      · exact standsIn_site hs hline number offset _
      · exact absurd h List.not_mem_nil
  | cons next lines ih =>
    have hline : '\n' ∉ line := hlines line List.mem_cons_self
    have hnext : ∀ l ∈ next :: lines, '\n' ∉ l := fun l hl => hlines l (List.mem_cons_of_mem _ hl)
    cases hs : site? line with
    | none =>
      rw [expansionsFrom_none hs] at h
      exact (ih hnext h).behind_line hline
    | some s =>
      rw [expansionsFrom_some hs] at h
      rcases List.mem_cons.mp h with rfl | h
      · exact standsIn_site hs hline number offset _
      · exact (ih hnext h).behind_line hline

/-- An expanded call stands in the source where its offset and the number of its line say. -/
theorem standsIn_source {source : List Char} {x : Expansion} (h : x ∈ expansions source) :
    StandsIn 1 0 source x := by
  obtain ⟨line, lines, hsplit, htext, hlines⟩ := split_lines source
  unfold expansions at h
  rw [hsplit] at h
  rw [← htext]
  exact standsIn_of_mem hlines h

end ReportTemplate.LogCall
