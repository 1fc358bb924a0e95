import Mathlib.Data.List.TakeWhile
import ReportTemplate.Proofs.LogCall.Expansions

/-!
# ReportTemplate.Proofs.LogCall.Upgrade — short declarations in full

`Upgraded lead s t` says that `t` is the text `s` with its short declarations in full.  A short
declaration begins with the only `l` in it and holds no `;`, so what stands around it stays in place:
the blanks and the opening in front of a call, and the closing behind it.
-/

namespace ReportTemplate.LogCall

open Text (isBlank isWord startsWith)

/-! ### Short declarations -/

theorem eq_append_of_startsWith {p s : List Char} (h : startsWith p s = true) :
    s = p ++ s.drop p.length := by
  have hprefix : p <+: s := List.isPrefixOf_iff_prefix.mp h
  exact (List.prefix_iff_eq_append.mp hprefix).symm

theorem ne_of_isBlank {c d : Char} (hc : isBlank c = true) (hd : isBlank d = false) : c ≠ d := by
  rintro rfl
  rw [hc] at hd
  cases hd

theorem afterBlanks?_eq {fixed s r : List Char} (h : afterBlanks? fixed s = some r) :
    ∃ b, (∀ c ∈ b, isBlank c = true) ∧ s = b ++ (fixed ++ r) := by
  unfold afterBlanks? at h
  dsimp only at h
  split_ifs at h with hstarts
  refine ⟨s.takeWhile isBlank, fun c hc => List.mem_takeWhile_imp hc, ?_⟩
  have hrest := eq_append_of_startsWith hstarts
  rw [Option.some.inj h] at hrest
  rw [← hrest, List.takeWhile_append_dropWhile]

theorem afterBlanks?_append {b fixed : List Char} (hb : ∀ c ∈ b, isBlank c = true)
    (hfixed : fixed.head?.map isBlank = some false) (r : List Char) :
    afterBlanks? fixed (b ++ (fixed ++ r)) = some r := by
  obtain ⟨c, hhead, hc⟩ := Option.map_eq_some_iff.mp hfixed
  obtain ⟨t, rfl⟩ := List.head?_eq_some_iff.mp hhead
  have hrest : (b ++ (c :: t ++ r)).dropWhile isBlank = c :: t ++ r := by
    rw [List.dropWhile_append_of_pos hb, List.cons_append, List.dropWhile_cons_of_neg]
    rw [hc]
    exact Bool.false_ne_true
  have hstarts : startsWith (c :: t) (c :: t ++ r) = true :=
    List.isPrefixOf_iff_prefix.mpr (List.prefix_append _ _)
  unfold afterBlanks?
  rw [hrest]
  dsimp only
  rw [if_pos hstarts, List.drop_left]

/-- The text is `log: fn(any)`, with any blanks between its words. -/
def ShortDeclaration (d : List Char) : Prop :=
  ∃ b₁ b₂ b₃ b₄ : List Char, (∀ c ∈ b₁ ++ b₂ ++ b₃ ++ b₄, isBlank c = true) ∧
    d = "log".toList ++ b₁ ++ ":".toList ++ b₂ ++ "fn(".toList ++ b₃ ++ "any".toList ++ b₄ ++ ")".toList

theorem afterDeclaration?_iff {s r : List Char} :
    afterDeclaration? s = some r ↔ ∃ d, ShortDeclaration d ∧ s = d ++ r := by
  constructor
  · intro h
    unfold afterDeclaration? at h
    split_ifs at h with hlog
    simp only [Option.bind_eq_bind, Option.bind_eq_some_iff] at h
    obtain ⟨r₁, h₁, r₂, h₂, r₃, h₃, h₄⟩ := h
    obtain ⟨b₁, hb₁, hs₁⟩ := afterBlanks?_eq h₁
    obtain ⟨b₂, hb₂, rfl⟩ := afterBlanks?_eq h₂
    obtain ⟨b₃, hb₃, rfl⟩ := afterBlanks?_eq h₃
    obtain ⟨b₄, hb₄, rfl⟩ := afterBlanks?_eq h₄
    have htext := eq_append_of_startsWith hlog
    have hlength : "log".toList.length = 3 := rfl
    rw [hlength, hs₁] at htext
    refine ⟨_, ⟨b₁, b₂, b₃, b₄, ?_, rfl⟩, ?_⟩
    · simp only [List.forall_mem_append]
      exact ⟨⟨⟨hb₁, hb₂⟩, hb₃⟩, hb₄⟩
    · rw [htext]
      simp only [List.append_assoc]
  · rintro ⟨d, ⟨b₁, b₂, b₃, b₄, hb, rfl⟩, rfl⟩
    simp only [List.forall_mem_append] at hb
    obtain ⟨⟨⟨hb₁, hb₂⟩, hb₃⟩, hb₄⟩ := hb
    have hstarts (t : List Char) : startsWith "log".toList ("log".toList ++ t) = true :=
      List.isPrefixOf_iff_prefix.mpr (List.prefix_append _ _)
    have hdrop (t : List Char) : ("log".toList ++ t).drop 3 = t := rfl
    unfold afterDeclaration?
    simp only [List.append_assoc, hstarts, hdrop, if_true, Option.bind_eq_bind]
    rw [afterBlanks?_append hb₁ (by decide), Option.bind_some, afterBlanks?_append hb₂ (by decide),
      Option.bind_some, afterBlanks?_append hb₃ (by decide), Option.bind_some,
      afterBlanks?_append hb₄ (by decide)]

/-- The letters of a short declaration behind its first are not among these. -/
def isPlain (c : Char) : Bool := c ≠ 'l' && c ≠ ';' && c ≠ 't'

theorem isPlain_of_isBlank {c : Char} (h : isBlank c = true) : isPlain c = true := by
  have h₁ : c ≠ 'l' := ne_of_isBlank h (by decide)
  have h₂ : c ≠ ';' := ne_of_isBlank h (by decide)
  have h₃ : c ≠ 't' := ne_of_isBlank h (by decide)
  simp [isPlain, h₁, h₂, h₃]

/-- The text is `log`, something other than `(`, and a `)`, with plain characters in between. -/
def IsShort (d : List Char) : Prop :=
  ∃ c middle, d = 'l' :: 'o' :: 'g' :: c :: (middle ++ [')']) ∧ c ≠ '(' ∧
    ∀ x ∈ c :: middle, isPlain x = true

theorem ShortDeclaration.isShort {d : List Char} (h : ShortDeclaration d) : IsShort d := by
  obtain ⟨b₁, b₂, b₃, b₄, hb, rfl⟩ := h
  simp only [List.forall_mem_append] at hb
  obtain ⟨⟨⟨hb₁, hb₂⟩, hb₃⟩, hb₄⟩ := hb
  have hlater : ∀ x ∈ b₂ ++ 'f' :: 'n' :: '(' :: (b₃ ++ 'a' :: 'n' :: 'y' :: b₄), isPlain x = true := by
    simp only [List.forall_mem_append, List.forall_mem_cons]
    exact ⟨fun x hx => isPlain_of_isBlank (hb₂ x hx), by decide, by decide, by decide,
      fun x hx => isPlain_of_isBlank (hb₃ x hx), by decide, by decide, by decide,
      fun x hx => isPlain_of_isBlank (hb₄ x hx)⟩
  cases b₁ with
  | nil =>
    refine ⟨':', _, ?_, by decide, List.forall_mem_cons.mpr ⟨by decide, hlater⟩⟩
    simp
  | cons c b =>
    have hc := hb₁ c List.mem_cons_self
    have hmiddle : ∀ x ∈ b ++ ':' :: (b₂ ++ 'f' :: 'n' :: '(' :: (b₃ ++ 'a' :: 'n' :: 'y' :: b₄)),
        isPlain x = true := by
      rw [List.forall_mem_append, List.forall_mem_cons]
      exact ⟨fun x hx => isPlain_of_isBlank (hb₁ x (List.mem_cons_of_mem _ hx)), by decide, hlater⟩
    refine ⟨c, _, ?_, ne_of_isBlank hc (by decide),
      List.forall_mem_cons.mpr ⟨isPlain_of_isBlank hc, hmiddle⟩⟩
    simp

theorem afterDeclaration?_eq {s r : List Char} (h : afterDeclaration? s = some r) :
    ∃ d, IsShort d ∧ s = d ++ r := by
  obtain ⟨d, hd, rfl⟩ := afterDeclaration?_iff.mp h
  exact ⟨d, hd.isShort, rfl⟩

/-! ### Upgrades -/

/-- A text with its short declarations in full; `lead` says that one may begin here. -/
inductive Upgraded : Bool → List Char → List Char → Prop
  | nil {lead : Bool} : Upgraded lead [] []
  | keep {lead : Bool} {c : Char} {s t : List Char}
      (other : lead = true → afterDeclaration? (c :: s) = none)
      (rest : Upgraded (leadsDeclaration c) s t) : Upgraded lead (c :: s) (c :: t)
  | full {d s t : List Char} (short : IsShort d) (found : afterDeclaration? (d ++ s) = some s)
      (rest : Upgraded false s t) : Upgraded true (d ++ s) (fullDeclaration ++ t)

theorem upgradeFrom_skip (skip : Nat) (s : List Char) :
    upgradeFrom false skip s = upgradeFrom false 0 (s.drop skip) := by
  induction skip generalizing s with
  | zero => rfl
  | succ skip ih =>
    cases s with
    | nil => rfl
    | cons c s => exact ih s

theorem upgradeFrom_keep {lead : Bool} {c : Char} {s : List Char}
    (h : lead = true → afterDeclaration? (c :: s) = none) :
    upgradeFrom lead 0 (c :: s) = c :: upgradeFrom (leadsDeclaration c) 0 s := by
  have hnone : (if lead then afterDeclaration? (c :: s) else none) = none := by
    cases lead with
    | false => rfl
    | true => exact h rfl
  rw [upgradeFrom]
  simp only [hnone]

theorem upgradeFrom_full {c : Char} {d s : List Char}
    (h : afterDeclaration? (c :: (d ++ s)) = some s) :
    upgradeFrom true 0 (c :: (d ++ s)) = fullDeclaration ++ upgradeFrom false 0 s := by
  have hskip : (d ++ s).length - s.length = d.length := by
    rw [List.length_append]
    omega
  rw [upgradeFrom]
  simp only [if_true, h]
  rw [hskip, upgradeFrom_skip, List.drop_left]

/-- The texts get shorter, by a whole declaration at once. -/
theorem upgraded_upgradeFrom : ∀ (n : Nat) (s : List Char), s.length ≤ n → ∀ lead : Bool,
    Upgraded lead s (upgradeFrom lead 0 s)
  | _, [], _, lead => .nil
  | n + 1, c :: s, hn, lead => by
    have hs : s.length ≤ n := Nat.le_of_succ_le_succ hn
    by_cases h : lead = true → afterDeclaration? (c :: s) = none
    · rw [upgradeFrom_keep h]
      exact .keep h (upgraded_upgradeFrom n s hs _)
    · obtain ⟨rfl, hfound⟩ := Classical.not_imp.mp h
      obtain ⟨r, hr⟩ := Option.ne_none_iff_exists'.mp hfound
      obtain ⟨d, hshort, htext⟩ := afterDeclaration?_eq hr
      obtain ⟨x, middle, rfl, -⟩ := id hshort
      rw [List.cons_append] at htext
      obtain ⟨rfl, rfl⟩ := List.cons.inj htext
      have hlength : r.length ≤ n := by
        rw [List.length_append] at hs
        omega
      rw [upgradeFrom_full hr]
      exact .full hshort hr (upgraded_upgradeFrom n r hlength false)

theorem upgraded_upgradeDeclarations (line : List Char) :
    Upgraded true line (upgradeDeclarations line) :=
  upgraded_upgradeFrom line.length line (Nat.le_refl _) true

theorem not_mem_of_isPlain {c d : Char} {s : List Char} (h : ∀ x ∈ c :: s, isPlain x = true)
    (hd : isPlain d = false) : d ∉ c :: s := by
  intro hmem
  have hplain := h d hmem
  rw [hd] at hplain
  cases hplain

/-- What stands in the full declaration behind its colon. -/
def callbackText : List Char := " fn(int, string, any".toList

theorem fullDeclaration_eq : fullDeclaration = 'l' :: 'o' :: 'g' :: ':' :: (callbackText ++ [')']) :=
  rfl

theorem not_mem_callbackText : 'l' ∉ ':' :: callbackText := by decide

section

variable {lead : Bool} {s t : List Char}

/-- Nothing new comes into a text but the characters of the full declaration. -/
theorem Upgraded.not_mem {x : Char} (hx : x ∉ fullDeclaration) (h : Upgraded lead s t)
    (hs : x ∉ s) : x ∉ t := by
  induction h with
  | nil => exact hs
  | keep _ _ ih =>
    rw [List.mem_cons, not_or] at hs ⊢
    exact ⟨hs.1, ih hs.2⟩
  | full _ _ _ ih =>
    rw [List.mem_append, not_or] at hs ⊢
    exact ⟨hx, ih hs.2⟩

/-! ### The number of calls -/

theorem startsWith_opening {c : Char} (h : c ≠ 'l') (s : List Char) :
    startsWith opening (c :: s) = false := by
  have hc : ('l' == c) = false := beq_false_of_ne h.symm
  show ('l' == c && _) = false
  rw [hc]
  rfl

theorem startsWith_opening_log {c : Char} (h : c ≠ '(') (s : List Char) :
    startsWith opening ('l' :: 'o' :: 'g' :: c :: s) = false := by
  have hc : ('(' == c) = false := beq_false_of_ne h.symm
  show ('l' == 'l' && ('o' == 'o' && ('g' == 'g' && ('(' == c && _)))) = false
  rw [hc]
  rfl

theorem sitesFrom_append {w : List Char} (hw : 'l' ∉ w) {c : Char} (hc : c ≠ 'l') (inWord : Bool)
    (s : List Char) : sitesFrom inWord (w ++ c :: s) = sitesFrom (isWord c) s := by
  induction w generalizing inWord with
  | nil =>
    show sitesFrom inWord (c :: s) = _
    rw [sitesFrom, startsWith_opening hc, Bool.and_false, if_neg Bool.false_ne_true, Nat.zero_add]
  | cons d w ih =>
    rw [List.mem_cons, not_or] at hw
    rw [List.cons_append, sitesFrom, startsWith_opening (Ne.symm hw.1), Bool.and_false,
      if_neg Bool.false_ne_true, Nat.zero_add]
    exact ih hw.2 _

/-- There is no call in a declaration, short or full. -/
theorem sitesFrom_declaration {c : Char} {middle : List Char} (hc : c ≠ '(')
    (hmiddle : 'l' ∉ c :: middle) (inWord : Bool) (s : List Char) :
    sitesFrom inWord ('l' :: 'o' :: 'g' :: c :: (middle ++ [')']) ++ s) = sitesFrom false s := by
  have htext : 'l' :: 'o' :: 'g' :: c :: (middle ++ [')']) ++ s =
      'l' :: ('o' :: 'g' :: c :: middle ++ ')' :: s) := by simp
  have hw : 'l' ∉ 'o' :: 'g' :: c :: middle := by
    rw [List.mem_cons, List.mem_cons, not_or, not_or]
    exact ⟨by decide, by decide, hmiddle⟩
  rw [htext, sitesFrom, sitesFrom_append hw (by decide)]
  rw [show startsWith opening ('l' :: ('o' :: 'g' :: c :: middle ++ ')' :: s)) = false from
    startsWith_opening_log hc _, Bool.and_false, if_neg Bool.false_ne_true, Nat.zero_add]
  rfl

/-- Words without an `l` begin the text where they did. -/
theorem Upgraded.startsWith_eq (h : Upgraded lead s t) {p : List Char} (hp : 'l' ∉ p) :
    startsWith p t = startsWith p s := by
  induction h generalizing p with
  | nil => rfl
  | @keep _ c s t _ _ ih =>
    cases p with
    | nil => rfl
    | cons a p =>
      rw [List.mem_cons, not_or] at hp
      show (a == c && startsWith p t) = (a == c && startsWith p s)
      rw [ih hp.2]
  | full short _ _ _ =>
    obtain ⟨c, middle, rfl, -⟩ := short
    cases p with
    | nil => rfl
    | cons a p =>
      rw [List.mem_cons, not_or] at hp
      have ha : (a == 'l') = false := beq_false_of_ne (Ne.symm hp.1)
      have hfalse (u : List Char) : startsWith (a :: p) ('l' :: u) = false := by
        unfold startsWith
        rw [List.isPrefixOf_cons_cons, ha, Bool.false_and]
      rw [fullDeclaration_eq]
      exact (hfalse _).trans (hfalse _).symm

/-- A line has as many calls with its declarations in full as it had before. -/
theorem Upgraded.sitesFrom_eq (h : Upgraded lead s t) (inWord : Bool) :
    sitesFrom inWord t = sitesFrom inWord s := by
  induction h generalizing inWord with
  | nil => rfl
  | @keep _ c s t _ rest ih =>
    have hopening : startsWith opening (c :: t) = startsWith opening (c :: s) := by
      show ('l' == c && startsWith ['o', 'g', '('] t) = ('l' == c && startsWith ['o', 'g', '('] s)
      rw [rest.startsWith_eq (by decide)]
    rw [sitesFrom, sitesFrom, hopening, ih]
  | full short _ _ ih =>
    obtain ⟨c, middle, rfl, hc, hplain⟩ := short
    have hcolon : ':' ≠ '(' := by decide
    rw [sitesFrom_declaration hc (not_mem_of_isPlain hplain (by decide)), fullDeclaration_eq,
      sitesFrom_declaration hcolon not_mem_callbackText, ih]

theorem sites_upgradeDeclarations (line : List Char) : sites (upgradeDeclarations line) = sites line :=
  (upgraded_upgradeDeclarations line).sitesFrom_eq false

/-! ### Texts without declarations -/

theorem IsShort.not_mem_t {d : List Char} (h : IsShort d) : 't' ∉ d := by
  obtain ⟨c, middle, rfl, -, hplain⟩ := h
  have hmiddle := not_mem_of_isPlain hplain (d := 't') (by decide)
  simp only [List.mem_cons, List.mem_append, List.not_mem_nil, or_false, not_or] at hmiddle ⊢
  exact ⟨by decide, by decide, by decide, hmiddle.1, hmiddle.2, by decide⟩

/-- The full declaration has a letter that the short one does not have. -/
theorem Upgraded.count_le (h : Upgraded lead s t) : s.count 't' ≤ t.count 't' := by
  induction h with
  | nil => exact Nat.le_refl _
  | @keep _ c _ _ _ _ ih =>
    rw [List.count_cons, List.count_cons]
    exact Nat.add_le_add_right ih _
  | full short _ _ ih =>
    rw [List.count_append, List.count_append, List.count_eq_zero_of_not_mem short.not_mem_t]
    omega

theorem Upgraded.eq_iff (h : Upgraded lead s t) : t = s ↔ declaresFrom lead s = false := by
  induction h with
  | nil => exact ⟨fun _ => rfl, fun _ => rfl⟩
  | @keep lead c s t other _ ih =>
    have hnone : (lead && (afterDeclaration? (c :: s)).isSome) = false := by
      cases lead with
      | false => rfl
      | true => rw [other rfl]; rfl
    rw [declaresFrom, hnone, Bool.false_or, ← ih]
    exact ⟨fun h => (List.cons.inj h).2, fun h => by rw [h]⟩
  | @full d s t short found rest _ =>
    constructor
    · intro heq
      have hfull : fullDeclaration.count 't' = 2 := rfl
      have hcount := congrArg (List.count 't') heq
      rw [List.count_append, List.count_append, List.count_eq_zero_of_not_mem short.not_mem_t, hfull]
        at hcount
      have hle := rest.count_le
      omega
    · intro hnone
      obtain ⟨c, middle, rfl, -⟩ := short
      rw [List.cons_append] at found hnone
      rw [declaresFrom, found] at hnone
      cases hnone

/-! ### Lines that are a call -/

/-- Text without an `l` stays where it is. -/
theorem Upgraded.of_append {w : List Char} (hw : 'l' ∉ w) (h : Upgraded lead (w ++ s) t) :
    ∃ lead' t', t = w ++ t' ∧ Upgraded lead' s t' := by
  induction w generalizing lead t with
  | nil => exact ⟨lead, t, rfl, h⟩
  | cons c w ih =>
    rw [List.mem_cons, not_or] at hw
    generalize htext : c :: w ++ s = u at h
    cases h with
    | nil => cases htext
    | @keep _ c' s' t' _ rest =>
      obtain ⟨rfl, rfl⟩ := List.cons.inj htext
      obtain ⟨lead', t'', rfl, h'⟩ := ih hw.2 rest
      exact ⟨lead', t'', rfl, h'⟩
    | full short _ _ =>
      obtain ⟨x, middle, rfl, -⟩ := short
      exact absurd (List.cons.inj htext).1.symm hw.1

theorem Upgraded.eq_nil (h : Upgraded lead [] t) : t = [] := by
  generalize htext : ([] : List Char) = u at h
  cases h with
  | nil => rfl
  | keep _ _ => cases htext
  | full short _ _ =>
    obtain ⟨c, middle, rfl, -⟩ := short
    cases htext

/-- Text without an `l` has no declarations. -/
theorem Upgraded.eq_of_not_mem (hs : 'l' ∉ s) (h : Upgraded lead s t) : t = s := by
  rw [← List.append_nil s] at h
  obtain ⟨lead', t', rfl, hnil⟩ := h.of_append hs
  rw [hnil.eq_nil, List.append_nil]

/-- A call is no declaration. -/
theorem Upgraded.of_opening (h : Upgraded lead (opening ++ s) t) :
    ∃ lead' t', t = opening ++ t' ∧ Upgraded lead' s t' := by
  have hopening : opening ++ s = 'l' :: (['o', 'g', '('] ++ s) := rfl
  generalize htext : opening ++ s = u at h
  rw [hopening] at htext
  cases h with
  | nil => cases htext
  | keep _ rest =>
    obtain ⟨rfl, rfl⟩ := List.cons.inj htext
    obtain ⟨lead', t', rfl, h'⟩ := rest.of_append (by decide)
    exact ⟨lead', t', rfl, h'⟩
  | full short _ _ =>
    obtain ⟨c, middle, rfl, hc, -⟩ := short
    simp only [List.cons_append, List.cons.injEq] at htext
    exact absurd htext.2.2.2.1.symm hc

/-- The closing of a call stays where it is, even if the bracket ends a declaration. -/
theorem Upgraded.of_closing {tail : List Char} (htail : 'l' ∉ tail) (h : Upgraded lead s t)
    {e : List Char} (htext : s = e ++ ')' :: ';' :: tail) :
    ∃ e', t = e' ++ ')' :: ';' :: tail := by
  have hsemicolon : 'l' ∉ ';' :: tail := by
    rw [List.mem_cons, not_or]
    exact ⟨by decide, htail⟩
  induction h generalizing e with
  | nil => cases e <;> cases htext
  | @keep _ c s t _ rest ih =>
    cases e with
    | nil =>
      obtain ⟨rfl, rfl⟩ := List.cons.inj htext
      exact ⟨[], by rw [rest.eq_of_not_mem hsemicolon]; rfl⟩
    | cons d e =>
      obtain ⟨rfl, rfl⟩ := List.cons.inj htext
      obtain ⟨e', rfl⟩ := ih rfl
      exact ⟨c :: e', rfl⟩
  | @full d s t short _ rest ih =>
    rcases List.append_eq_append_iff.mp htext with ⟨a, rfl, rfl⟩ | ⟨a, rfl, hrest⟩
    · obtain ⟨e', rfl⟩ := ih rfl
      exact ⟨fullDeclaration ++ e', (List.append_assoc _ _ _).symm⟩
    · -- What the declaration takes of the closing is nothing, or the bracket: it holds no `;`.
      match a, hrest with
      | [], hrest =>
        obtain ⟨e', rfl⟩ := ih (e := []) hrest.symm
        exact ⟨fullDeclaration ++ e', (List.append_assoc _ _ _).symm⟩
      | [_], hrest =>
        obtain ⟨-, rfl⟩ := List.cons.inj hrest
        refine ⟨'l' :: 'o' :: 'g' :: ':' :: callbackText, ?_⟩
        rw [rest.eq_of_not_mem hsemicolon, fullDeclaration_eq]
        simp
      | _ :: x :: a, hrest =>
        obtain ⟨-, hrest⟩ := List.cons.inj hrest
        obtain ⟨rfl, -⟩ := List.cons.inj hrest
        obtain ⟨c, middle, hd, -, hplain⟩ := short
        have hmiddle := not_mem_of_isPlain hplain (d := ';') (by decide)
        have hmem : ';' ∈ 'l' :: 'o' :: 'g' :: c :: (middle ++ [')']) := by
          rw [← hd]
          simp
        simp only [List.mem_cons, List.mem_append, List.not_mem_nil, or_false] at hmem hmiddle
        rcases hmem with h | h | h | h | h | h
        · cases h
        · cases h
        · cases h
        · exact absurd (Or.inl h) hmiddle
        · exact absurd (Or.inr h) hmiddle
        · cases h

end

/-! ### Sites -/

theorem splitLastClose?_none {t : List Char} (ht : ')' ∉ t) : splitLastClose? t = none := by
  induction t with
  | nil => rfl
  | cons c t ih =>
    rw [List.mem_cons, not_or] at ht
    have hc : (c = ')') = False := eq_false (Ne.symm ht.1)
    unfold splitLastClose?
    rw [ih ht.2]
    simp [hc]

theorem splitLastClose?_append (e : List Char) {t : List Char} (ht : ')' ∉ t) :
    splitLastClose? (e ++ ')' :: ';' :: t) = some (e, t) := by
  induction e with
  | nil =>
    have hnone : splitLastClose? (';' :: t) = none := by
      refine splitLastClose?_none ?_
      rw [List.mem_cons, not_or]
      exact ⟨by decide, ht⟩
    show splitLastClose? (')' :: ';' :: t) = _
    unfold splitLastClose?
    rw [hnone]
    rfl
  | cons c e ih =>
    rw [List.cons_append]
    unfold splitLastClose?
    rw [ih]

namespace Site

/-- The line of a site. -/
def line (s : Site) : List Char := s.before ++ (opening ++ (s.argument ++ ");".toList ++ s.tail))

/-- Nothing but blanks stands around the call. -/
structure Alone (s : Site) : Prop where
  before : ∀ c ∈ s.before, isBlank c = true
  tail : ∀ c ∈ s.tail, isBlank c = true

theorem line_eq (s : Site) :
    s.line = s.before ++ (opening ++ (s.argument ++ ')' :: ';' :: s.tail)) := by
  have hclose : ");".toList = [')', ';'] := rfl
  unfold line
  rw [hclose]
  simp

variable {s : Site}

theorem Alone.not_mem_before (h : s.Alone) {c : Char} (hc : isBlank c = false) : c ∉ s.before :=
  fun hmem => ne_of_isBlank (h.before c hmem) hc rfl

theorem Alone.not_mem_tail (h : s.Alone) {c : Char} (hc : isBlank c = false) : c ∉ s.tail :=
  fun hmem => ne_of_isBlank (h.tail c hmem) hc rfl

theorem siteFrom?_opening (e : List Char) {tail : List Char} (htail : ')' ∉ tail) :
    siteFrom? true (opening ++ (e ++ ')' :: ';' :: tail)) = some ⟨[], e, tail⟩ := by
  have hstarts : startsWith opening ('l' :: 'o' :: 'g' :: '(' :: (e ++ ')' :: ';' :: tail)) = true :=
    rfl
  show siteFrom? true ('l' :: 'o' :: 'g' :: '(' :: (e ++ ')' :: ';' :: tail)) = _
  rw [siteFrom?, hstarts]
  simp only [Bool.and_self, if_true, List.drop_succ_cons, List.drop_zero]
  rw [splitLastClose?_append e htail]

theorem siteFrom?_blanks {before : List Char} (hbefore : ∀ c ∈ before, isBlank c = true)
    {line : List Char} {s : Site} (h : siteFrom? true line = some s) :
    siteFrom? true (before ++ line) = some { s with before := before ++ s.before } := by
  induction before with
  | nil => exact h
  | cons c before ih =>
    rw [List.forall_mem_cons] at hbefore
    rw [List.cons_append, siteFrom?, startsWith_opening (ne_of_isBlank hbefore.1 (by decide)),
      hbefore.1, ih hbefore.2]
    rfl

theorem Alone.site?_eq (h : s.Alone) (hone : sites s.line = 1) : site? s.line = some s := by
  obtain ⟨before, e, tail⟩ := s
  unfold site?
  rw [if_pos hone, line_eq, siteFrom?_blanks h.before (siteFrom?_opening e (h.not_mem_tail (by decide)))]
  rw [List.append_nil]

/-- **Lines that are a call**: the declarations of the line in full, it is a call of an argument with
the same around it.  The argument is the same one when the line has no short declaration. -/
theorem Alone.upgrade (h : s.Alone) : ∃ e, upgradeDeclarations s.line = line ⟨s.before, e, s.tail⟩ ∧
    (e = s.argument ↔ declares s.line = false) := by
  have hline := upgraded_upgradeDeclarations s.line
  have heq := hline.eq_iff
  rw [line_eq] at hline
  obtain ⟨_, t, ht, hcall⟩ := hline.of_append (h.not_mem_before (by decide))
  obtain ⟨_, t', rfl, hargument⟩ := hcall.of_opening
  obtain ⟨e, rfl⟩ := hargument.of_closing (h.not_mem_tail (by decide)) rfl
  refine ⟨e, ?_, ?_⟩
  · rw [line_eq, ht]
    exact (line_eq ⟨s.before, e, s.tail⟩).symm
  · have hargument : upgradeDeclarations s.line = s.line ↔ e = s.argument := by
      rw [line_eq, ht]
      simp
    rw [← hargument]
    exact heq

end Site

end ReportTemplate.LogCall
