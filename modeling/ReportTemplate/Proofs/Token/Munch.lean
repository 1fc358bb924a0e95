import Mathlib.Data.List.Basic
import Mathlib.Tactic.Common
import ReportTemplate.Token.Lexer

/-!
# ReportTemplate.Proofs.Token.Munch — the piece a character begins

What `munch` takes is decided by the first character, so it has one equation for each class of
characters.  A piece that ends before a word does not depend on what follows this word's first letter.
-/

namespace ReportTemplate.Lexer

@[simp] theorem piecesFrom_nil (n : Nat) : piecesFrom n [] = [] := by cases n <;> rfl

theorem pieces_cons (c : Char) (r : List Char) :
    pieces (c :: r) = ⟨(munch c r).1, c :: r.take (munch c r).2⟩ :: piecesFrom (munch c r).2 r := rfl

theorem piecesFrom_append : ∀ u w : List Char, piecesFrom u.length (u ++ w) = pieces w
  | [], _ => rfl
  | _ :: u, w => piecesFrom_append u w

theorem stringBody_le : ∀ r : List Char, (stringBody r).1 ≤ r.length := by
  intro r
  fun_induction stringBody r <;> simp_all

theorem blockBody_le (r : List Char) : (blockBody r).1 ≤ r.length := by
  fun_induction blockBody r <;> simp_all

/-- The digits behind the point of a number whose digits go on in `r`. -/
def places (r : List Char) : List Char :=
  match r.dropWhile Number.isDigit with
  | '.' :: s => s.takeWhile Number.isDigit
  | _ => []

section Classes

variable {c : Char} (r : List Char)

theorem munch_separator (h : isSeparator c = true) :
    munch c r = (.blank, (r.takeWhile isSeparator).length) := by
  unfold munch
  rw [if_pos h]

theorem munch_word (h₁ : isSeparator c = false) (h₂ : isIdentStart c = true) :
    munch c r = (.token (word (c :: r.takeWhile isIdentPart)), (r.takeWhile isIdentPart).length) := by
  unfold munch
  simp only [h₁, h₂, Bool.false_eq_true, if_false, if_true]

theorem munch_number (h₁ : isSeparator c = false) (h₂ : isIdentStart c = false)
    (h₃ : Number.isDigit c = true) :
    munch c r =
      if (places r).isEmpty then
        (.token (integer (c :: r.takeWhile Number.isDigit)), (r.takeWhile Number.isDigit).length)
      else
        (.token (.float (Number.nearestFloat false
            (c :: (r.takeWhile Number.isDigit ++ places r)) (-(places r).length))),
          (r.takeWhile Number.isDigit).length + 1 + (places r).length) := by
  unfold munch
  simp only [h₁, h₂, h₃, Bool.false_eq_true, if_false, if_true]
  rfl

theorem munch_string :
    munch '"' r =
      match stringBody r with
      | (n, .quote) => (.token (.string (String.ofList (unescape (r.take (n - 1))))), n)
      | (n, _) => (.token (.unknown (String.ofList ('"' :: r.take n))), n) := by
  have h₁ : isSeparator '"' = false := rfl
  have h₂ : isIdentStart '"' = false := rfl
  have h₃ : Number.isDigit '"' = false := rfl
  have h := munch.eq_def '"' r
  simp only [h₁, h₂, h₃, Bool.false_eq_true, if_false, if_true] at h
  exact h

theorem munch_lineComment : munch '/' ('/' :: r) =
    (.comment, (('/' :: r).takeWhile (· ≠ '\n')).length) := by
  unfold munch
  rw [if_neg (by decide), if_neg (by decide), if_neg (by decide), if_neg (by decide),
    if_pos (by simp [munch.startsComment])]

theorem munch_blockComment :
    munch '/' ('*' :: r) =
      match blockBody r with
      | (n, true) => (.comment, n + 1)
      | (n, false) => (.token (.unknown (String.ofList ('/' :: ('*' :: r).take (n + 1)))), n + 1) := by
  have h₁ : isSeparator '/' = false := rfl
  have h₂ : isIdentStart '/' = false := rfl
  have h₃ : Number.isDigit '/' = false := rfl
  have h₄ : ('/' = '"') = False := eq_false (by decide)
  have h₅ : munch.startsComment '/' ('*' :: r) '/' = false := rfl
  have h₆ : munch.startsComment '/' ('*' :: r) '*' = true := rfl
  have h := munch.eq_def '/' ('*' :: r)
  simp only [h₁, h₂, h₃, h₄, h₅, h₆, Bool.false_eq_true, if_false, if_true] at h
  exact h

/-- Whatever begins no other piece is a symbol or unknown. -/
theorem munch_symbol (h₁ : isSeparator c = false) (h₂ : isIdentStart c = false)
    (h₃ : Number.isDigit c = false) (h₄ : c ≠ '"')
    (h₅ : c = '/' → r.head? ≠ some '/' ∧ r.head? ≠ some '*') :
    munch c r =
      match Symbol.atStart? (c :: r) with
      | some k => (.token (.symbol k), k.text.length - 1)
      | none => (.token (.unknown (String.ofList [c])), 0) := by
  have hs : munch.startsComment c r '/' = false := by
    by_contra hc
    simp only [munch.startsComment, Bool.not_eq_false, Bool.and_eq_true, decide_eq_true_eq] at hc
    exact (h₅ hc.1).1 hc.2
  have hb : munch.startsComment c r '*' = false := by
    by_contra hc
    simp only [munch.startsComment, Bool.not_eq_false, Bool.and_eq_true, decide_eq_true_eq] at hc
    exact (h₅ hc.1).2 hc.2
  have h := munch.eq_def c r
  simp only [h₁, h₂, h₃, h₄, hs, hb, Bool.false_eq_true, if_false, List.take_zero] at h
  exact h

/-- What a character can begin. -/
theorem munch_classes (c : Char) (r : List Char) :
    isSeparator c = true ∨
    (isSeparator c = false ∧ isIdentStart c = true) ∨
    (isSeparator c = false ∧ isIdentStart c = false ∧ Number.isDigit c = true) ∨
    c = '"' ∨
    (∃ s, c = '/' ∧ r = '/' :: s) ∨
    (∃ s, c = '/' ∧ r = '*' :: s) ∨
    (isSeparator c = false ∧ isIdentStart c = false ∧ Number.isDigit c = false ∧ c ≠ '"' ∧
      (c = '/' → r.head? ≠ some '/' ∧ r.head? ≠ some '*')) := by
  by_cases h₁ : isSeparator c = true
  · exact .inl h₁
  by_cases h₂ : isIdentStart c = true
  · exact .inr (.inl ⟨by simpa using h₁, h₂⟩)
  by_cases h₃ : Number.isDigit c = true
  · exact .inr (.inr (.inl ⟨by simpa using h₁, by simpa using h₂, h₃⟩))
  by_cases h₄ : c = '"'
  · exact .inr (.inr (.inr (.inl h₄)))
  by_cases h₅ : ∃ s, c = '/' ∧ r = '/' :: s
  · exact .inr (.inr (.inr (.inr (.inl h₅))))
  by_cases h₆ : ∃ s, c = '/' ∧ r = '*' :: s
  · exact .inr (.inr (.inr (.inr (.inr (.inl h₆)))))
  refine .inr (.inr (.inr (.inr (.inr (.inr ⟨by simpa using h₁, by simpa using h₂,
    by simpa using h₃, h₄, fun hc => ⟨fun hr => ?_, fun hr => ?_⟩⟩)))))
  · obtain ⟨s, hs⟩ := List.head?_eq_some_iff.mp hr
    exact h₅ ⟨s, hc, hs⟩
  · obtain ⟨s, hs⟩ := List.head?_eq_some_iff.mp hr
    exact h₆ ⟨s, hc, hs⟩

end Classes

theorem places_le {r : List Char} (h : (places r).isEmpty = false) :
    (r.takeWhile Number.isDigit).length + 1 + (places r).length ≤ r.length := by
  have hr := congrArg List.length (List.takeWhile_append_dropWhile (p := Number.isDigit) (l := r))
  rw [List.length_append] at hr
  unfold places at h ⊢
  split at h
  next s hs =>
    have hs' := (List.takeWhile_prefix (p := Number.isDigit) (l := s)).length_le
    simp only [hs, List.length_cons] at hr ⊢
    omega
  next => simp at h

theorem Symbol.atStart?_prefix {s : List Char} {k : Symbol} (h : Symbol.atStart? s = some k) :
    k.text.toList <+: s :=
  List.isPrefixOf_iff_prefix.mp
    (List.find?_some (p := fun k : Symbol => k.text.toList.isPrefixOf s) h)

theorem munch_le (c : Char) (r : List Char) : (munch c r).2 ≤ r.length := by
  rcases munch_classes c r with h | ⟨h₁, h₂⟩ | ⟨h₁, h₂, h₃⟩ | rfl | ⟨s, rfl, rfl⟩ | ⟨s, rfl, rfl⟩ |
    ⟨h₁, h₂, h₃, h₄, h₅⟩
  · rw [munch_separator r h]
    exact (List.takeWhile_prefix _).length_le
  · rw [munch_word r h₁ h₂]
    exact (List.takeWhile_prefix _).length_le
  · rw [munch_number r h₁ h₂ h₃]
    split_ifs with hp
    · exact (List.takeWhile_prefix _).length_le
    · exact places_le (by simpa using hp)
  · have hb := stringBody_le r
    rw [munch_string]
    split <;> simp_all
  · rw [munch_lineComment]
    exact (List.takeWhile_prefix _).length_le
  · have hb := blockBody_le s
    rw [munch_blockComment]
    split <;> simp_all
  · rw [munch_symbol r h₁ h₂ h₃ h₄ h₅]
    split
    next k hk =>
      have hle := (Symbol.atStart?_prefix hk).length_le
      rw [String.length_toList, List.length_cons] at hle
      show k.text.length - 1 ≤ r.length
      omega
    next => exact Nat.zero_le _

/-! ### A piece does not depend on what follows a word behind it -/

theorem takeWhile_append_stop {p : Char → Bool} {a : Char} (ha : p a = false) (r v : List Char) :
    (r ++ a :: v).takeWhile p = r.takeWhile p := by
  rw [List.takeWhile_append]
  split_ifs with hr
  · rw [List.takeWhile_cons, ha]
    rw [List.takeWhile_prefix p |>.eq_of_length hr]
    simp
  · rfl

theorem dropWhile_append_stop {p : Char → Bool} {a : Char} (ha : p a = false) (r v : List Char) :
    (r ++ a :: v).dropWhile p = r.dropWhile p ++ a :: v := by
  rw [List.dropWhile_append]
  split_ifs with hr
  · rw [List.dropWhile_cons, ha]
    simp [List.isEmpty_iff.mp hr]
  · rfl

/-- A run that would take the next character ends before it only where it ends anyway. -/
theorem takeWhile_append_inner {p : Char → Bool} {a : Char} (ha : p a = true) {r v : List Char}
    (h : ((r ++ a :: v).takeWhile p).length ≤ r.length) (w : List Char) :
    (r ++ w).takeWhile p = (r ++ a :: v).takeWhile p := by
  have hr : (r.takeWhile p).length ≠ r.length := by
    intro hr
    rw [List.takeWhile_append, if_pos hr, List.takeWhile_cons, ha] at h
    simp only [if_true, List.length_append, List.length_cons] at h
    omega
  rw [List.takeWhile_append, if_neg hr, List.takeWhile_append, if_neg hr]

theorem stringBody_quote (r : List Char) : stringBody ('"' :: r) = (1, .quote) := by
  rw [stringBody.eq_def]
  rfl

theorem stringBody_newline (r : List Char) : stringBody ('\\' :: '\n' :: r) = (0, .badEscape) := by
  rw [stringBody.eq_def]
  rfl

theorem stringBody_escape {d : Char} (hd : d ≠ '\n') (r : List Char) :
    stringBody ('\\' :: d :: r) = ((stringBody r).1 + 2, (stringBody r).2) := by
  rw [stringBody.eq_def]
  simp [hd]

theorem stringBody_char {c : Char} (hq : c ≠ '"') (hb : c ≠ '\\') (r : List Char) :
    stringBody (c :: r) = ((stringBody r).1 + 1, (stringBody r).2) := by
  rw [stringBody.eq_def]
  simp [hq, hb]

theorem stringBody_congr {a : Char} (ha : a ≠ '\n') (ha' : a ≠ '\\') (v w r : List Char)
    (h : (stringBody (r ++ a :: v)).1 ≤ r.length) :
    stringBody (r ++ a :: w) = stringBody (r ++ a :: v) := by
  induction r using stringBody.induct with
  | case1 =>
    rw [List.nil_append] at h
    by_cases hq : a = '"'
    · rw [hq, stringBody_quote] at h
      simp at h
    · rw [stringBody_char hq ha'] at h
      simp at h
  | case2 r => simp only [List.cons_append, stringBody_quote]
  | case3 =>
    rw [List.cons_append, List.nil_append, stringBody_escape ha] at h
    simp only [List.length_singleton] at h
    omega
  | case4 r => simp only [List.cons_append, stringBody_newline]
  | case5 d r hd _ _ _ _ ih =>
    simp only [List.cons_append, stringBody_escape hd, List.length_cons] at h ⊢
    rw [ih (by omega)]
  | case6 c r hq hb _ _ _ ih =>
    simp only [List.cons_append, stringBody_char hq hb, List.length_cons] at h ⊢
    rw [ih (by omega)]

theorem blockBody_star (r : List Char) : blockBody ('*' :: '/' :: r) = (2, true) := by
  rw [blockBody.eq_def]
  rfl

theorem blockBody_pair {d : Char} (hd : d ≠ '/') (r : List Char) :
    blockBody ('*' :: d :: r) = ((blockBody r).1 + 2, (blockBody r).2) := by
  rw [blockBody.eq_def]
  simp [hd]

theorem blockBody_char {c : Char} (hc : c ≠ '*') (r : List Char) :
    blockBody (c :: r) = ((blockBody r).1 + 1, (blockBody r).2) := by
  rw [blockBody.eq_def]
  simp [hc]

theorem blockBody_congr {a : Char} (ha : a ≠ '*') (ha' : a ≠ '/') (v w r : List Char)
    (h : (blockBody (r ++ a :: v)).1 ≤ r.length) :
    blockBody (r ++ a :: w) = blockBody (r ++ a :: v) := by
  induction r using blockBody.induct with
  | case1 =>
    rw [List.nil_append, blockBody_char ha] at h
    simp at h
  | case2 =>
    rw [List.cons_append, List.nil_append, blockBody_pair ha'] at h
    simp only [List.length_singleton] at h
    omega
  | case3 r => simp only [List.cons_append, blockBody_star]
  | case4 d r hd _ _ _ ih =>
    simp only [List.cons_append, blockBody_pair hd, List.length_cons] at h ⊢
    rw [ih (by omega)]
  | case5 c r hc _ _ _ ih =>
    simp only [List.cons_append, blockBody_char hc, List.length_cons] at h ⊢
    rw [ih (by omega)]

theorem Symbol.isPrefixOf_congr (k : Symbol) (a b : Char) (v w : List Char) :
    k.text.toList.isPrefixOf (a :: b :: v) = k.text.toList.isPrefixOf (a :: b :: w) := by
  cases k <;> rfl

theorem Symbol.atStart?_congr (c a : Char) (r v w : List Char) :
    Symbol.atStart? (c :: (r ++ a :: v)) = Symbol.atStart? (c :: (r ++ a :: w)) := by
  unfold Symbol.atStart?
  congr 1
  funext k
  cases r with
  | nil => exact Symbol.isPrefixOf_congr k c a v w
  | cons b r => exact Symbol.isPrefixOf_congr k c b _ _

theorem isSeparator_eq_false {a : Char} (ha : isIdentStart a = true) : isSeparator a = false := by
  rw [Bool.eq_false_iff]
  intro h
  simp only [isSeparator, Bool.or_eq_true, decide_eq_true_eq] at h
  rcases h with ((rfl | rfl) | rfl) | rfl <;> simp [isIdentStart] at ha

theorem isDigit_eq_false {a : Char} (ha : isIdentStart a = true) : Number.isDigit a = false := by
  rw [Bool.eq_false_iff]
  intro h
  simp only [isIdentStart, Number.isDigit, Bool.or_eq_true, Bool.and_eq_true, decide_eq_true_eq,
    Char.le_def, UInt32.le_iff_toNat_le] at h ha
  rcases ha with (⟨ha, -⟩ | ⟨ha, -⟩) | rfl
  · have := Nat.le_trans ha h.2
    simp at this
  · have := Nat.le_trans ha h.2
    simp at this
  · simp at h

theorem places_congr {a : Char} (ha : isIdentStart a = true) (r v w : List Char) :
    places (r ++ a :: w) = places (r ++ a :: v) := by
  unfold places
  rw [dropWhile_append_stop (isDigit_eq_false ha), dropWhile_append_stop (isDigit_eq_false ha)]
  cases r.dropWhile Number.isDigit with
  | nil =>
    have hdot : a ≠ '.' := by rintro rfl; simp [isIdentStart] at ha
    split <;> simp_all
  | cons b s =>
    rw [List.cons_append, List.cons_append]
    split
    next t ht =>
      obtain ⟨rfl, rfl⟩ := List.cons_eq_cons.mp ht
      simp only [takeWhile_append_stop (isDigit_eq_false ha)]
    next hb =>
      have hdot : b ≠ '.' := fun h => hb _ (by rw [h])
      split <;> simp_all

theorem munch_congr {c a : Char} (ha : isIdentStart a = true) (r v w : List Char)
    (h : (munch c (r ++ a :: v)).2 ≤ r.length) : munch c (r ++ a :: w) = munch c (r ++ a :: v) := by
  have hsep : isSeparator a = false := isSeparator_eq_false ha
  have hdig : Number.isDigit a = false := isDigit_eq_false ha
  have hpart : isIdentPart a = true := by simp [isIdentPart, ha]
  have hne : ∀ b : Char, isIdentStart b = false → a ≠ b := by
    rintro b hb rfl
    simp [ha] at hb
  rcases munch_classes c (r ++ a :: v) with h₁ | ⟨h₁, h₂⟩ | ⟨h₁, h₂, h₃⟩ | rfl | ⟨s, rfl, hs⟩ |
    ⟨s, rfl, hs⟩ | ⟨h₁, h₂, h₃, h₄, h₅⟩
  · rw [munch_separator _ h₁, munch_separator _ h₁, takeWhile_append_stop hsep,
      takeWhile_append_stop hsep]
  · rw [munch_word _ h₁ h₂] at h
    rw [munch_word _ h₁ h₂, munch_word _ h₁ h₂, takeWhile_append_inner hpart h]
  · simp only [munch_number _ h₁ h₂ h₃, takeWhile_append_stop hdig, places_congr ha r v w]
  · have hb : (stringBody (r ++ a :: v)).1 ≤ r.length := by
      rw [munch_string] at h
      split at h <;> simp_all
    rw [munch_string, munch_string, stringBody_congr (hne '\n' rfl) (hne '\\' rfl) v w r hb]
    have htake : ∀ n ≤ (stringBody (r ++ a :: v)).1, (r ++ a :: w).take n = (r ++ a :: v).take n := by
      intro n hn
      rw [List.take_append_of_le_length (Nat.le_trans hn hb),
        List.take_append_of_le_length (Nat.le_trans hn hb)]
    split
    next n hn =>
      rw [htake (n - 1) (by rw [hn]; exact Nat.sub_le n 1)]
    next n _ _ hn =>
      rw [htake n (by simp [hn])]
  · cases r with
    | nil => exact absurd (List.cons_eq_cons.mp hs).1 (hne '/' rfl)
    | cons b r =>
      obtain ⟨rfl, rfl⟩ := List.cons_eq_cons.mp hs
      rw [List.cons_append, munch_lineComment] at h
      rw [List.cons_append, List.cons_append, munch_lineComment, munch_lineComment]
      rw [← List.cons_append] at h
      rw [← List.cons_append, ← List.cons_append,
        takeWhile_append_inner (p := fun d => d ≠ '\n') (by simpa using hne '\n' rfl) h]
  · cases r with
    | nil => exact absurd (List.cons_eq_cons.mp hs).1 (hne '*' rfl)
    | cons b r =>
      obtain ⟨rfl, rfl⟩ := List.cons_eq_cons.mp hs
      have hb : (blockBody (r ++ a :: v)).1 ≤ r.length := by
        rw [List.cons_append, munch_blockComment] at h
        split at h <;> simp_all
      rw [List.cons_append, List.cons_append, munch_blockComment, munch_blockComment,
        blockBody_congr (hne '*' rfl) (hne '/' rfl) v w r hb]
      split
      next => rfl
      next n hn =>
        rw [hn] at hb
        rw [List.take_succ_cons, List.take_succ_cons, List.take_append_of_le_length hb,
          List.take_append_of_le_length hb]
  · have h₅' : c = '/' → (r ++ a :: w).head? ≠ some '/' ∧ (r ++ a :: w).head? ≠ some '*' := by
      intro hc
      have h₆ := h₅ hc
      cases r <;> simpa using h₆
    rw [munch_symbol _ h₁ h₂ h₃ h₄ h₅, munch_symbol _ h₁ h₂ h₃ h₄ h₅', Symbol.atStart?_congr]

end ReportTemplate.Lexer
