import Mathlib.Data.List.TakeWhile
import ReportTemplate.LogCall
import ReportTemplate.Proofs.Number.Digits
import ReportTemplate.Proofs.Token.Cuts

/-!
# ReportTemplate.Proofs.Token.Literals — numbers and quoted texts read back

The decimal text of a number is one token where the number ends behind it, and so is any text in quotes
once its quotes and backslashes are escaped.
-/

namespace ReportTemplate.Lexer

open Text (byteSize)
open LogCall (escape)

/-- The token that the decimal text of a number is read as: digits that fit in no integer are
unknown. -/
def numeral (n : Nat) : Token :=
  if n < 2 ^ 63 then .int (Int64.ofNat n) else .unknown (String.ofList (Nat.toDigits 10 n))

theorem integer_toDigits (n : Nat) : integer (Nat.toDigits 10 n) = numeral n := by
  unfold integer numeral
  by_cases hn : n < 2 ^ 63
  · rw [Number.readNat?_toDigits_of_lt (Nat.lt_trans hn (by decide))]
    rfl
  · rw [if_neg hn]
    cases h : Number.readNat? (Nat.toDigits 10 n) with
    | none => rfl
    | some m =>
      rw [Number.readNat?_toDigits h]
      exact if_neg hn

theorem pieces_of_munch {c : Char} {r w : List Char} {x : Lexeme}
    (h : munch c (r ++ w) = (x, r.length)) : pieces (c :: (r ++ w)) = ⟨x, c :: r⟩ :: pieces w := by
  have hcut : Cut w (c :: (r ++ [])) [⟨x, c :: r⟩] := .cons (by simpa using h) .nil
  simpa using hcut.pieces_append

theorem locate_blank (off : Nat) (s : List Char) (ps : List Piece) :
    locate off (⟨.blank, s⟩ :: ps) = locate (off + byteSize s) ps := rfl

theorem locate_token (off : Nat) (t : Token) (s : List Char) (ps : List Piece) :
    locate off (⟨.token t, s⟩ :: ps) = ⟨t, ⟨off, off + byteSize s⟩⟩ :: locate (off + byteSize s) ps :=
  rfl

theorem pieces_separator {c : Char} (hc : isSeparator c = true) (r : List Char) :
    pieces (c :: r) =
      ⟨.blank, c :: r.takeWhile isSeparator⟩ :: pieces (r.dropWhile isSeparator) := by
  have hr : r.takeWhile isSeparator ++ r.dropWhile isSeparator = r := List.takeWhile_append_dropWhile
  have hmunch : munch c (r.takeWhile isSeparator ++ r.dropWhile isSeparator) =
      (.blank, (r.takeWhile isSeparator).length) := by
    rw [hr, munch_separator r hc]
  rw [← pieces_of_munch hmunch, hr]

/-- A separator in front of a text only moves its tokens. -/
theorem locate_separator {c : Char} (hc : isSeparator c = true) (off : Nat) (r : List Char) :
    locate off (pieces (c :: r)) = locate (off + c.utf8Size) (pieces r) := by
  rw [pieces_separator hc, locate_blank, Text.byteSize_cons]
  cases r with
  | nil => rfl
  | cons d t =>
    by_cases hd : isSeparator d = true
    · rw [pieces_separator hd, locate_blank, List.takeWhile_cons_of_pos hd,
        List.dropWhile_cons_of_pos hd, Text.byteSize_cons, Nat.add_assoc]
    · rw [List.takeWhile_cons_of_neg hd, List.dropWhile_cons_of_neg hd, Text.byteSize_nil,
        Nat.add_zero]

theorem pieces_opening (r : List Char) :
    pieces (LogCall.opening ++ r) =
      ⟨.token (.ident "log"), "log".toList⟩ :: ⟨.token (.symbol .parenOpen), ['(']⟩ :: pieces r := by
  have hlog : munch 'l' (['o', 'g'] ++ '(' :: r) = (.token (.ident "log"), 2) := by
    rw [munch_word _ rfl rfl, takeWhile_append_stop rfl]
    rfl
  have hparen : munch '(' ([] ++ r) = (.token (.symbol .parenOpen), 0) := by
    rw [munch_symbol _ rfl rfl rfl (by decide) (fun h => absurd h (by decide))]
    rfl
  have h := pieces_of_munch hparen
  rw [List.nil_append] at h
  rw [← h]
  exact pieces_of_munch hlog

theorem pieces_comma (r : List Char) :
    pieces (',' :: r) = ⟨.token (.symbol .comma), [',']⟩ :: pieces r := by
  have h : munch ',' ([] ++ r) = (.token (.symbol .comma), 0) := by
    rw [munch_symbol _ rfl rfl rfl (by decide) (fun h => absurd h (by decide))]
    rfl
  exact pieces_of_munch h

theorem isSeparator_eq_false_of_isDigit {c : Char} (hc : Number.isDigit c = true) :
    isSeparator c = false := by
  rw [Bool.eq_false_iff]
  intro h
  simp only [isSeparator, Bool.or_eq_true, decide_eq_true_eq] at h
  rcases h with ((rfl | rfl) | rfl) | rfl <;> simp [Number.isDigit] at hc

/-- Behind a number, neither a digit follows nor a point with digits. -/
def EndsNumber (r : List Char) : Prop := r.takeWhile Number.isDigit = [] ∧ places r = []

instance (r : List Char) : Decidable (EndsNumber r) := inferInstanceAs (Decidable (_ ∧ _))

theorem pieces_numeral (n : Nat) {r : List Char} (hr : EndsNumber r) :
    pieces (Nat.toDigits 10 n ++ r) = ⟨.token (numeral n), Nat.toDigits 10 n⟩ :: pieces r := by
  have hdigits : ∀ c ∈ Nat.toDigits 10 n, Number.isDigit c = true := fun _ hc =>
    Number.isDigit_of_mem_toDigits hc
  rw [← integer_toDigits]
  cases hn : Nat.toDigits 10 n with
  | nil => exact absurd hn Nat.toDigits_ne_nil
  | cons c ds =>
    rw [hn] at hdigits
    obtain ⟨hc, hds⟩ := List.forall_mem_cons.mp hdigits
    have hrun : (ds ++ r).takeWhile Number.isDigit = ds := by
      rw [List.takeWhile_append_of_pos hds, hr.1, List.append_nil]
    have hplaces : places (ds ++ r) = [] := by
      have hplace := hr.2
      unfold places at hplace ⊢
      rw [List.dropWhile_append_of_pos hds]
      exact hplace
    have hword : isIdentStart c = false := by
      rw [Bool.eq_false_iff]
      intro h
      rw [isDigit_eq_false h] at hc
      cases hc
    refine pieces_of_munch ?_
    rw [munch_number _ (isSeparator_eq_false_of_isDigit hc) hword hc, hplaces, hrun]
    rfl

/-- A minus sign in front of a digit is a token of its own. -/
theorem pieces_minus {c : Char} (hc : Number.isDigit c = true) (r : List Char) :
    pieces ('-' :: c :: r) = ⟨.token (.symbol .minus), ['-']⟩ :: pieces (c :: r) := by
  have hsymbol : Symbol.atStart? ('-' :: c :: r) = some .minus := by
    have harrow : ('>' == c) = false := by
      rw [beq_eq_false_iff_ne]
      rintro rfl
      cases hc
    unfold Symbol.atStart?
    simp [Symbol.all, Symbol.text, List.find?, List.isPrefixOf, harrow]
  have h : munch '-' ([] ++ c :: r) = (.token (.symbol .minus), 0) := by
    rw [munch_symbol _ rfl rfl rfl (by decide) (fun h => absurd h (by decide)), List.nil_append,
      hsymbol]
    rfl
  exact pieces_of_munch h

/-! ### Quoted text -/

theorem escape_cons (c : Char) (e : List Char) :
    escape (c :: e) = (if c = '\\' || c = '"' then ['\\', c] else [c]) ++ escape e := rfl

theorem stringBody_escaped (e r : List Char) :
    stringBody (escape e ++ '"' :: r) = ((escape e).length + 1, .quote) := by
  induction e with
  | nil => exact stringBody_quote r
  | cons c e ih =>
    rw [escape_cons]
    split
    next h =>
      have hc : c ≠ '\n' := by
        rintro rfl
        simp at h
      simp only [List.cons_append, List.nil_append, stringBody_escape hc, ih, List.length_cons]
    next h =>
      simp only [Bool.or_eq_true, decide_eq_true_eq, not_or] at h
      simp only [List.cons_append, List.nil_append, stringBody_char h.2 h.1, ih, List.length_cons]

theorem unescape_backslash (d : Char) (r : List Char) :
    unescape ('\\' :: d :: r) = escaped d :: unescape r := by
  rw [unescape.eq_def]
  rfl

theorem unescape_char {c : Char} (hc : c ≠ '\\') (r : List Char) :
    unescape (c :: r) = c :: unescape r := by
  rw [unescape.eq_def]
  simp only [hc, if_false]

theorem unescape_escape (e : List Char) : unescape (escape e) = e := by
  induction e with
  | nil => rfl
  | cons c e ih =>
    rw [escape_cons]
    split
    next h =>
      simp only [Bool.or_eq_true, decide_eq_true_eq] at h
      have hc : escaped c = c := by rcases h with rfl | rfl <;> rfl
      rw [List.cons_append, List.singleton_append, unescape_backslash, hc, ih]
    next h =>
      simp only [Bool.or_eq_true, decide_eq_true_eq, not_or] at h
      rw [List.singleton_append, unescape_char h.1, ih]

/-- A text in quotes, its quotes and backslashes escaped, is one string token. -/
theorem pieces_quoted (e r : List Char) :
    pieces ('"' :: (escape e ++ '"' :: r)) =
      ⟨.token (.string (String.ofList e)), '"' :: (escape e ++ ['"'])⟩ :: pieces r := by
  have h : munch '"' ((escape e ++ ['"']) ++ r) =
      (.token (.string (String.ofList e)), (escape e ++ ['"']).length) := by
    rw [List.append_assoc, List.singleton_append, munch_string, stringBody_escaped,
      List.length_append]
    show (Lexeme.token (.string (String.ofList
      (unescape ((escape e ++ '"' :: r).take (escape e).length)))), _) = _
    rw [List.take_left', unescape_escape]
    · rfl
    · rfl
  rw [← pieces_of_munch h, List.append_assoc, List.singleton_append]

end ReportTemplate.Lexer
