import Mathlib.Computability.Language
import ReportTemplate.Proofs.Token.Literals

/-!
# ReportTemplate.Proofs.Token.Pattern — the patterns of tokens and comments

Each kind of piece has a pattern, a regular language over characters.  The texts of a pattern are told
by their shape: what they begin with, what goes on inside, and how they end.
-/

open scoped Computability

namespace ReportTemplate.Lexer

/-! ### Languages of texts -/

/-- The texts of one character with a property. -/
def one (p : Char → Bool) : Language Char := {w | ∃ c, p c = true ∧ w = [c]}

/-- A character or more of a kind. -/
def some1 (p : Char → Bool) : Language Char := one p * (one p)∗

/-- A character of a string other than its quotes, or a backslash and any character of the line. -/
def stringUnit : Language Char := one (fun c => c ≠ '"' && c ≠ '\\') + {['\\']} * one (· ≠ '\n')

/-- A character of a block comment other than a star, or a star and any character but a slash. -/
def blockUnit : Language Char := one (· ≠ '*') + {['*']} * one (· ≠ '/')

/-- What the lexer looks for. -/
inductive Pattern where
  | keyword (k : Keyword)
  | symbol (k : Symbol)
  | ident
  | string
  | float
  | int
  | lineComment
  | blockComment
  | blanks
  | anything
deriving DecidableEq

/-- The texts of a pattern. -/
def Pattern.language : Pattern → Language Char
  | keyword k => {k.text.toList}
  | symbol k => {k.text.toList}
  | ident => one isIdentStart * (one isIdentPart)∗
  | string => {['"']} * stringUnit∗ * {['"']}
  | float => some1 Number.isDigit * {['.']} * some1 Number.isDigit
  | int => some1 Number.isDigit
  | lineComment => {['/', '/']} * (one (· ≠ '\n'))∗
  | blockComment => {['/', '*']} * blockUnit∗ * {['*', '/']}
  | blanks => some1 isSeparator
  | anything => one (· ≠ '\n')

theorem append_mem_kstar {l : Language Char} {u w : List Char} (hu : u ∈ l) (hw : w ∈ l∗) :
    u ++ w ∈ l∗ := by
  obtain ⟨L, rfl, hL⟩ := Language.mem_kstar.mp hw
  exact Language.mem_kstar.mpr ⟨u :: L, rfl, List.forall_mem_cons.mpr ⟨hu, hL⟩⟩

/-- By induction on the texts that are put behind one another. -/
@[elab_as_elim]
theorem kstar_induction {l : Language Char} {motive : List Char → Prop} {w : List Char} (hw : w ∈ l∗)
    (nil : motive []) (append : ∀ u w, u ∈ l → motive w → motive (u ++ w)) : motive w := by
  obtain ⟨L, rfl, hL⟩ := Language.mem_kstar.mp hw
  clear hw
  induction L with
  | nil => exact nil
  | cons u L ih =>
    obtain ⟨hu, hL⟩ := List.forall_mem_cons.mp hL
    exact append u L.flatten hu (ih hL)

theorem mem_kstar_one {p : Char → Bool} {w : List Char} : w ∈ (one p)∗ ↔ ∀ c ∈ w, p c = true := by
  constructor
  · intro hw
    refine kstar_induction hw (by simp) ?_
    rintro _ w ⟨c, hc, rfl⟩ ih
    simpa [hc] using ih
  · intro hw
    induction w with
    | nil => exact Language.nil_mem_kstar _
    | cons c w ih =>
      obtain ⟨hc, hw⟩ := List.forall_mem_cons.mp hw
      exact append_mem_kstar (u := [c]) ⟨c, hc, rfl⟩ (ih hw)

/-- A character of one kind and then characters of another. -/
theorem mem_one_mul {p q : Char → Bool} {w : List Char} :
    w ∈ one p * (one q)∗ ↔ ∃ c u, p c = true ∧ (∀ d ∈ u, q d = true) ∧ w = c :: u := by
  constructor
  · rintro ⟨_, ⟨c, hc, rfl⟩, u, hu, rfl⟩
    exact ⟨c, u, hc, mem_kstar_one.mp hu, rfl⟩
  · rintro ⟨c, u, hc, hu, rfl⟩
    exact ⟨[c], ⟨c, hc, rfl⟩, u, mem_kstar_one.mpr hu, rfl⟩

theorem mem_blockUnit {u : List Char} : u ∈ blockUnit ↔
    (∃ c, c ≠ '*' ∧ u = [c]) ∨ ∃ d, d ≠ '/' ∧ u = ['*', d] := by
  constructor
  · rintro (⟨c, hc, rfl⟩ | ⟨_, rfl, _, ⟨d, hd, rfl⟩, rfl⟩)
    · exact .inl ⟨c, by simpa using hc, rfl⟩
    · exact .inr ⟨d, by simpa using hd, rfl⟩
  · rintro (⟨c, hc, rfl⟩ | ⟨d, hd, rfl⟩)
    · exact .inl ⟨c, by simpa using hc, rfl⟩
    · exact .inr ⟨['*'], rfl, [d], ⟨d, by simpa using hd, rfl⟩, rfl⟩

/-! ### Strings -/

/-- What stands between the quotes of a string, and the text that it denotes. -/
inductive Denotes : List Char → List Char → Prop
  | nil : Denotes [] []
  | char {c : Char} {b s : List Char} (hq : c ≠ '"') (hb : c ≠ '\\') (h : Denotes b s) :
      Denotes (c :: b) (c :: s)
  | escape {d : Char} {b s : List Char} (hd : d ≠ '\n') (h : Denotes b s) :
      Denotes ('\\' :: d :: b) (escaped d :: s)

theorem Denotes.mem_kstar {b s : List Char} (h : Denotes b s) : b ∈ stringUnit∗ := by
  induction h with
  | nil => exact Language.nil_mem_kstar _
  | @char c b s hq hb _ ih =>
    have hc : [c] ∈ stringUnit := .inl ⟨c, by simp [hq, hb], rfl⟩
    exact append_mem_kstar hc ih
  | @escape d b s hd _ ih =>
    have hc : ['\\', d] ∈ stringUnit := .inr ⟨['\\'], rfl, [d], ⟨d, by simp [hd], rfl⟩, rfl⟩
    exact append_mem_kstar hc ih

theorem exists_denotes {b : List Char} (hb : b ∈ stringUnit∗) : ∃ s, Denotes b s := by
  refine kstar_induction hb ⟨[], .nil⟩ ?_
  rintro _ w (⟨c, hc, rfl⟩ | ⟨_, rfl, _, ⟨d, hd, rfl⟩, rfl⟩) ⟨s, hs⟩
  · simp only [ne_eq, Bool.and_eq_true, decide_eq_true_eq] at hc
    exact ⟨c :: s, .char hc.1 hc.2 hs⟩
  · exact ⟨escaped d :: s, .escape (by simpa using hd) hs⟩

theorem Denotes.stringBody_append {b s : List Char} (h : Denotes b s) (r : List Char) :
    stringBody (b ++ '"' :: r) = (b.length + 1, .quote) := by
  induction h with
  | nil => exact stringBody_quote r
  | char hq hb _ ih => simp [stringBody_char hq hb, ih]
  | escape hd _ ih => simp [stringBody_escape hd, ih]

theorem Denotes.unescape_eq {b s : List Char} (h : Denotes b s) : unescape b = s := by
  induction h with
  | nil => rfl
  | char _ hb _ ih => rw [unescape_char hb, ih]
  | escape _ _ ih => rw [unescape_backslash, ih]

/-- A string with a closing quote has a body in front of it. -/
theorem exists_denotes_of_stringBody {r : List Char} {n : Nat} (h : stringBody r = (n, .quote)) :
    ∃ b s t, Denotes b s ∧ r = b ++ '"' :: t ∧ n = b.length + 1 := by
  induction r using stringBody.induct generalizing n with
  | case1 => simp [stringBody] at h
  | case2 r =>
    rw [stringBody_quote] at h
    exact ⟨[], [], r, .nil, rfl, by simpa using h.symm⟩
  | case3 => simp [stringBody] at h
  | case4 r => simp [stringBody_newline] at h
  | case5 d r hd _ _ _ _ ih =>
    rw [stringBody_escape hd, Prod.mk.injEq] at h
    obtain ⟨hlen, hend⟩ := h
    obtain ⟨b, s, t, hb, rfl, hn⟩ := ih (Prod.ext rfl hend)
    exact ⟨'\\' :: d :: b, escaped d :: s, t, .escape hd hb, rfl, by simp [← hlen, hn]⟩
  | case6 c r hq hb _ _ _ ih =>
    rw [stringBody_char hq hb, Prod.mk.injEq] at h
    obtain ⟨hlen, hend⟩ := h
    obtain ⟨b, s, t, hd, rfl, hn⟩ := ih (Prod.ext rfl hend)
    exact ⟨c :: b, c :: s, t, .char hq hb hd, rfl, by simp [← hlen, hn]⟩

/-! ### Block comments -/

theorem blockBody_append {b : List Char} (hb : b ∈ blockUnit∗) (r : List Char) :
    blockBody (b ++ '*' :: '/' :: r) = (b.length + 2, true) := by
  refine kstar_induction hb (blockBody_star r) ?_
  intro u w hu ih
  obtain ⟨c, hc, rfl⟩ | ⟨d, hd, rfl⟩ := mem_blockUnit.mp hu
  · simp [blockBody_char hc, ih]
  · simp [blockBody_pair hd, ih]

/-- A block comment that is closed has a body in front of its end. -/
theorem exists_body_of_blockBody {r : List Char} {n : Nat} (h : blockBody r = (n, true)) :
    ∃ b t, b ∈ blockUnit∗ ∧ r = b ++ '*' :: '/' :: t ∧ n = b.length + 2 := by
  induction r using blockBody.induct generalizing n with
  | case1 => simp [blockBody] at h
  | case2 => simp [blockBody] at h
  | case3 r =>
    rw [blockBody_star] at h
    exact ⟨[], r, Language.nil_mem_kstar _, rfl, by simpa using h.symm⟩
  | case4 d r hd _ _ _ ih =>
    rw [blockBody_pair hd, Prod.mk.injEq] at h
    obtain ⟨hlen, hend⟩ := h
    obtain ⟨b, t, hb, rfl, hn⟩ := ih (Prod.ext rfl hend)
    have hu : ['*', d] ∈ blockUnit := mem_blockUnit.mpr (.inr ⟨d, hd, rfl⟩)
    exact ⟨'*' :: d :: b, t, append_mem_kstar hu hb, rfl, by simp [← hlen, hn]⟩
  | case5 c r hc _ _ _ ih =>
    rw [blockBody_char hc, Prod.mk.injEq] at h
    obtain ⟨hlen, hend⟩ := h
    obtain ⟨b, t, hb, rfl, hn⟩ := ih (Prod.ext rfl hend)
    have hu : [c] ∈ blockUnit := mem_blockUnit.mpr (.inl ⟨c, hc, rfl⟩)
    exact ⟨c :: b, t, append_mem_kstar hu hb, rfl, by simp [← hlen, hn]⟩

/-! ### The texts of the patterns -/

variable {w : List Char}

theorem Keyword.letters (k : Keyword) :
    ∃ c u, k.text.toList = c :: u ∧ isIdentStart c = true ∧ ∀ d ∈ u, isIdentPart d = true := by
  cases k <;> exact ⟨_, _, rfl, rfl, List.all_eq_true.mp rfl⟩

theorem mem_string : w ∈ Pattern.string.language ↔ ∃ b s, Denotes b s ∧ w = '"' :: (b ++ ['"']) := by
  constructor
  · rintro ⟨_, ⟨_, rfl, b, hb, rfl⟩, _, rfl, rfl⟩
    obtain ⟨s, hs⟩ := exists_denotes hb
    exact ⟨b, s, hs, rfl⟩
  · rintro ⟨b, s, hs, rfl⟩
    exact ⟨'"' :: b, ⟨['"'], rfl, b, hs.mem_kstar, rfl⟩, ['"'], rfl, rfl⟩

theorem mem_int : w ∈ Pattern.int.language ↔ w ≠ [] ∧ ∀ d ∈ w, Number.isDigit d = true := by
  constructor
  · intro hw
    obtain ⟨c, u, hc, hu, rfl⟩ := mem_one_mul.mp hw
    exact ⟨List.cons_ne_nil c u, List.forall_mem_cons.mpr ⟨hc, hu⟩⟩
  · rintro ⟨hne, hw⟩
    cases w with
    | nil => exact absurd rfl hne
    | cons c u =>
      obtain ⟨hc, hu⟩ := List.forall_mem_cons.mp hw
      exact mem_one_mul.mpr ⟨c, u, hc, hu, rfl⟩

theorem mem_float : w ∈ Pattern.float.language ↔
    ∃ u v, u ∈ Pattern.int.language ∧ v ∈ Pattern.int.language ∧ w = u ++ '.' :: v := by
  constructor
  · rintro ⟨_, ⟨u, hu, _, rfl, rfl⟩, v, hv, rfl⟩
    exact ⟨u, v, hu, hv, by simp⟩
  · rintro ⟨u, v, hu, hv, rfl⟩
    exact ⟨u ++ ['.'], ⟨u, hu, ['.'], rfl, rfl⟩, v, hv, by simp⟩

theorem mem_lineComment : w ∈ Pattern.lineComment.language ↔
    ∃ u, (∀ d ∈ u, d ≠ '\n') ∧ w = '/' :: '/' :: u := by
  constructor
  · rintro ⟨_, rfl, u, hu, rfl⟩
    exact ⟨u, by simpa using mem_kstar_one.mp hu, rfl⟩
  · rintro ⟨u, hu, rfl⟩
    exact ⟨['/', '/'], rfl, u, mem_kstar_one.mpr (by simpa using hu), rfl⟩

theorem mem_blockComment : w ∈ Pattern.blockComment.language ↔
    ∃ b ∈ blockUnit∗, w = '/' :: '*' :: (b ++ ['*', '/']) := by
  constructor
  · rintro ⟨_, ⟨_, rfl, b, hb, rfl⟩, _, rfl, rfl⟩
    exact ⟨b, hb, rfl⟩
  · rintro ⟨b, hb, rfl⟩
    exact ⟨'/' :: '*' :: b, ⟨['/', '*'], rfl, b, hb, rfl⟩, ['*', '/'], rfl, rfl⟩

end ReportTemplate.Lexer
