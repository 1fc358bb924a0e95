import Mathlib.Algebra.Group.Nat.Even
import Mathlib.Data.List.DropRight
import ReportTemplate.Proofs.Token.Lossless

/-!
# ReportTemplate.Proofs.Token.Comments — where a block comment ends

A comment is read in pairs: a star takes the character behind it with it.  So whether the scan sees a
`*/` depends on the stars in front of it, which are passed over two by two.  A comment ends with the
first `*/` that an even number of stars stands in front of.

## Main results

* `blockBody_closed`, `blockBody_open`: what `blockBody` returns, by the number of final stars.
* `comment_ends`: where the comment ends that the lexer meets at a cut, and what it reads where no
  `*/` ends it.
-/

namespace ReportTemplate.Lexer

open Text (byteSize)

/-- The number of stars that a text ends with. -/
def finalStars (b : List Char) : Nat := (b.rtakeWhile (· = '*')).length

/-- Behind the opening of a comment, the text `b` stands in front of a `*/`. -/
def ClosesAt (r b : List Char) : Prop := b ++ ['*', '/'] <+: r

/-- The text `b` stands in front of a `*/` that the stars before it do not hide. -/
def EndsAt (r b : List Char) : Prop := ClosesAt r b ∧ Even (finalStars b)

/-- No shorter text than `b` has the property that `b` has. -/
def Shortest (P : List Char → Prop) (b : List Char) : Prop :=
  P b ∧ ∀ b', P b' → b.length ≤ b'.length

/-! ## The stars at the end of a text -/

/-- A character in front counts only where nothing but stars stands behind it. -/
theorem finalStars_cons (c : Char) (b : List Char) :
    finalStars (c :: b) =
      if finalStars b = b.length ∧ c = '*' then b.length + 1 else finalStars b := by
  unfold finalStars List.rtakeWhile
  rw [List.reverse_cons, List.takeWhile_append]
  simp only [List.length_reverse]
  by_cases hb : (b.reverse.takeWhile (· = '*')).length = b.length
  · by_cases hc : c = '*'
    · simp [hb, hc]
    · simp [hb, hc]
  · simp [hb]

theorem even_finalStars_char {c : Char} (hc : c ≠ '*') (b : List Char) :
    Even (finalStars (c :: b)) ↔ Even (finalStars b) := by
  rw [finalStars_cons, if_neg (fun h => hc h.2)]

/-- A pair in front of a text counts for two stars or for none. -/
theorem even_finalStars_pair (d : Char) (b : List Char) :
    Even (finalStars ('*' :: d :: b)) ↔ Even (finalStars b) := by
  rw [finalStars_cons, finalStars_cons]
  by_cases hb : finalStars b = b.length
  · by_cases hd : d = '*'
    · simp [hb, hd, Nat.even_add_one]
    · have hne : finalStars b ≠ b.length + 1 := by omega
      simp [hb, hd]
  · have hne : finalStars b ≠ b.length + 1 := by
      have hle : finalStars b ≤ b.length := by
        simpa [finalStars, List.rtakeWhile] using (List.takeWhile_prefix (· = '*')
          (l := b.reverse)).length_le
      omega
    simp [hb, hne]

/-! ## The scan ends where an even number of stars stands -/

theorem not_closesAt_of_length {r b : List Char} (h : r.length < 2) : ¬ ClosesAt r b := by
  intro hb
  have hlen := hb.length_le
  simp only [List.length_append, List.length_cons, List.length_nil] at hlen
  omega

theorem closesAt_cons {c d : Char} {r b : List Char} :
    ClosesAt (c :: r) (d :: b) ↔ c = d ∧ ClosesAt r b := by
  unfold ClosesAt
  rw [List.cons_append, List.cons_prefix_cons, eq_comm]

theorem closesAt_nil {c d : Char} {r : List Char} :
    ClosesAt (c :: d :: r) [] ↔ c = '*' ∧ d = '/' := by
  simp [ClosesAt, List.cons_prefix_cons, eq_comm]

theorem endsAt_star (r : List Char) : EndsAt ('*' :: '/' :: r) [] := by
  refine ⟨⟨r, rfl⟩, ?_⟩
  simp [finalStars]

theorem endsAt_char {c : Char} (hc : c ≠ '*') {r b : List Char} :
    EndsAt (c :: r) b ↔ ∃ b', b = c :: b' ∧ EndsAt r b' := by
  constructor
  · rintro ⟨hcloses, heven⟩
    cases b with
    | nil =>
      obtain ⟨hstar, -⟩ := List.cons_prefix_cons.mp hcloses
      exact absurd hstar.symm hc
    | cons d b =>
      obtain ⟨rfl, hbehind⟩ := closesAt_cons.mp hcloses
      exact ⟨b, rfl, hbehind, (even_finalStars_char hc b).mp heven⟩
  · rintro ⟨b, rfl, hcloses, heven⟩
    exact ⟨closesAt_cons.mpr ⟨rfl, hcloses⟩, (even_finalStars_char hc b).mpr heven⟩

theorem endsAt_pair {d : Char} (hd : d ≠ '/') {r b : List Char} :
    EndsAt ('*' :: d :: r) b ↔ ∃ b', b = '*' :: d :: b' ∧ EndsAt r b' := by
  constructor
  · rintro ⟨hcloses, heven⟩
    match b with
    | [] => exact absurd (closesAt_nil.mp hcloses).2 hd
    | [c] =>
      -- the one star in front of this closing is the one that hides it
      obtain ⟨rfl, -⟩ := closesAt_cons.mp hcloses
      simp [finalStars, List.rtakeWhile] at heven
    | c :: e :: b =>
      obtain ⟨hc, hpair⟩ := closesAt_cons.mp hcloses
      obtain ⟨he, hbehind⟩ := closesAt_cons.mp hpair
      subst hc he
      exact ⟨b, rfl, hbehind, (even_finalStars_pair d b).mp heven⟩
  · rintro ⟨b, rfl, hcloses, heven⟩
    have hcloses : ClosesAt ('*' :: d :: r) ('*' :: d :: b) :=
      closesAt_cons.mpr ⟨rfl, closesAt_cons.mpr ⟨rfl, hcloses⟩⟩
    exact ⟨hcloses, (even_finalStars_pair d b).mpr heven⟩

/-- If every text with the property begins with `front`, and behind it stands one with the property
`P`, the shortest one has the shortest one of `P` behind it. -/
theorem Shortest.behind {P Q : List Char → Prop} (front : List Char) {b : List Char}
    (h : ∀ b', Q b' ↔ ∃ b'', b' = front ++ b'' ∧ P b'') (hb : Shortest P b) :
    Shortest Q (front ++ b) := by
  refine ⟨(h _).mpr ⟨b, rfl, hb.1⟩, ?_⟩
  intro b' hb'
  obtain ⟨b'', rfl, hP⟩ := (h b').mp hb'
  have hle := hb.2 b'' hP
  simp only [List.length_append]
  omega

theorem blockBody_closed {r : List Char} (h : (blockBody r).2 = true) :
    ∃ b, Shortest (EndsAt r) b ∧ (blockBody r).1 = b.length + 2 := by
  induction r using blockBody.induct with
  | case1 => cases h
  | case2 => cases h
  | case3 r =>
    rw [blockBody_star]
    exact ⟨[], ⟨endsAt_star r, fun b' _ => Nat.zero_le b'.length⟩, rfl⟩
  | case4 d r hd _ _ _ ih =>
    rw [blockBody_pair hd] at h ⊢
    obtain ⟨b, hb, hlen⟩ := ih h
    exact ⟨'*' :: d :: b, Shortest.behind ['*', d] (fun _ => endsAt_pair hd) hb, by simp [hlen]⟩
  | case5 c r hc _ _ _ ih =>
    rw [blockBody_char hc] at h ⊢
    obtain ⟨b, hb, hlen⟩ := ih h
    exact ⟨c :: b, Shortest.behind [c] (fun _ => endsAt_char hc) hb, by simp [hlen]⟩

theorem blockBody_open {r : List Char} (h : (blockBody r).2 = false) :
    (∀ b, ¬ EndsAt r b) ∧
      (r.drop (blockBody r).1 = [] ∨ r.drop (blockBody r).1 = ['*']) := by
  induction r using blockBody.induct with
  | case1 => exact ⟨fun b hb => not_closesAt_of_length (by decide) hb.1, .inl rfl⟩
  | case2 => exact ⟨fun b hb => not_closesAt_of_length (by decide) hb.1, .inr rfl⟩
  | case3 r => rw [blockBody_star] at h; cases h
  | case4 d r hd _ _ _ ih =>
    rw [blockBody_pair hd] at h ⊢
    obtain ⟨hno, hrest⟩ := ih h
    refine ⟨fun b hb => ?_, hrest⟩
    obtain ⟨b', -, hb'⟩ := (endsAt_pair hd).mp hb
    exact hno b' hb'
  | case5 c r hc _ _ _ ih =>
    rw [blockBody_char hc] at h ⊢
    obtain ⟨hno, hrest⟩ := ih h
    refine ⟨fun b hb => ?_, hrest⟩
    obtain ⟨b', -, hb'⟩ := (endsAt_char hc).mp hb
    exact hno b' hb'

/-- Two texts of one length that stand in front of a `*/` are the same text. -/
theorem ClosesAt.eq_of_length {r b b' : List Char} (h : ClosesAt r b) (h' : ClosesAt r b')
    (hlen : b.length = b'.length) : b = b' := by
  have hb : b <+: r := (List.prefix_append b _).trans h
  have hb' : b' <+: r := (List.prefix_append b' _).trans h'
  exact (List.prefix_of_prefix_length_le hb hb' hlen.le).eq_of_length hlen

/-! ## The pieces behind a comment -/

/-- The text of a comment with the body `b`. -/
def commentText (b : List Char) : List Char := '/' :: '*' :: (b ++ ['*', '/'])

theorem pieces_comment {r b : List Char} (h : Shortest (EndsAt r) b) :
    pieces ('/' :: '*' :: r) = ⟨.comment, commentText b⟩ :: pieces (r.drop (b.length + 2)) := by
  have hclosed : (blockBody r).2 = true := by
    by_contra hopen
    exact (blockBody_open (by simpa using hopen)).1 b h.1
  obtain ⟨b', hb', hlen⟩ := blockBody_closed hclosed
  have hle : b.length = b'.length := Nat.le_antisymm (h.2 b' hb'.1) (hb'.2 b h.1)
  obtain rfl := h.1.1.eq_of_length hb'.1.1 hle
  have hbody : blockBody r = (b.length + 2, true) := Prod.ext hlen hclosed
  have htaken : r.take (b.length + 2) = b ++ ['*', '/'] := by
    have hpre := List.prefix_iff_eq_take.mp h.1.1
    simpa using hpre.symm
  rw [pieces_taken, taken, munch_blockComment, hbody]
  simp [commentText, htaken]

theorem pieces_open {r : List Char} (h : ∀ b, ¬ EndsAt r b) : ∃ v w, r = v ++ w ∧
    (w = [] ∨ w = ['*']) ∧
    pieces ('/' :: '*' :: r) =
      ⟨.token (.unknown (String.ofList ('/' :: '*' :: v))), '/' :: '*' :: v⟩ :: pieces w := by
  have hopen : (blockBody r).2 = false := by
    by_contra hclosed
    obtain ⟨b, hb, -⟩ := blockBody_closed (by simpa using hclosed)
    exact h b hb.1
  have hbody : blockBody r = ((blockBody r).1, false) := Prod.ext rfl hopen
  refine ⟨r.take (blockBody r).1, r.drop (blockBody r).1, (List.take_append_drop _ r).symm,
    (blockBody_open hopen).2, ?_⟩
  rw [pieces_taken, taken, munch_blockComment, hbody]
  simp

/-- **Where a block comment ends.**  At a cut where `/*` stands:
the first `*/` behind it ends the comment, and the scan goes on right behind that, exactly where an even
number of stars stands in front of it;
in any case the comment ends with the first `*/` that an even number of stars stands in front of, and
the tokens behind it are those of the text behind it;
where there is none, all the text but a last single star becomes one unknown token. -/
theorem comment_ends {u r : List Char} {ps : List Piece} (hcut : Cut ('/' :: '*' :: r) u ps) :
    (∀ b, Shortest (ClosesAt r) b →
      (pieces (u ++ '/' :: '*' :: r) =
          ps ++ ⟨.comment, commentText b⟩ :: pieces (r.drop (b.length + 2)) ↔
        Even (finalStars b))) ∧
    (∀ b, Shortest (EndsAt r) b →
      pieces (u ++ '/' :: '*' :: r) =
          ps ++ ⟨.comment, commentText b⟩ :: pieces (r.drop (b.length + 2)) ∧
        lex (u ++ '/' :: '*' :: r) = locate 0 ps ++
          locate (byteSize (u ++ commentText b)) (pieces (r.drop (b.length + 2)))) ∧
    ((∀ b, ¬ EndsAt r b) → ∃ v w, r = v ++ w ∧ (w = [] ∨ w = ['*']) ∧
      pieces (u ++ '/' :: '*' :: r) =
        ps ++ ⟨.token (.unknown (String.ofList ('/' :: '*' :: v))), '/' :: '*' :: v⟩ ::
          pieces w) := by
  have hpieces := hcut.pieces_append
  refine ⟨fun b hb => ⟨fun h => ?first, fun heven => ?even⟩, fun b hb => ⟨?ends, ?tokens⟩,
    fun hno => ?never⟩
  case first =>
    rw [hpieces] at h
    have hcomment := List.append_cancel_left h
    rcases hc : (blockBody r).2 with _ | _
    · -- an unknown token is no comment
      obtain ⟨v, w, -, -, hunknown⟩ := pieces_open (blockBody_open hc).1
      rw [hunknown] at hcomment
      cases (List.cons_eq_cons.mp hcomment).1
    · obtain ⟨b', hb', -⟩ := blockBody_closed hc
      rw [pieces_comment hb'] at hcomment
      have htext := congrArg Piece.text (List.cons_eq_cons.mp hcomment).1
      have hbb : b' = b := by simpa [commentText] using htext
      rw [← hbb]
      exact hb'.1.2
  case even =>
    have hends : Shortest (EndsAt r) b := ⟨⟨hb.1, heven⟩, fun b' hb' => hb.2 b' hb'.1⟩
    rw [hpieces, pieces_comment hends]
  case ends => rw [hpieces, pieces_comment hb]
  case tokens =>
    rw [lex, hcut.locate_append, pieces_comment hb, Text.byteSize_append, Nat.zero_add]
    rfl
  case never =>
    obtain ⟨v, w, hr, hw, hunknown⟩ := pieces_open hno
    exact ⟨v, w, hr, hw, by rw [hpieces, hunknown]⟩

/-- A comment between two words: both words are tokens. -/
theorem comment_ends_between_words :
    let ps : List Piece := [⟨.token (.ident "x"), ['x']⟩, ⟨.blank, [' ']⟩]
    Cut "/* a */ y".toList ['x', ' '] ps ∧
      lex "x /* a */ y".toList = [⟨.ident "x", ⟨0, 1⟩⟩, ⟨.ident "y", ⟨10, 11⟩⟩] := by
  have hword : munch 'x' (' ' :: "/* a */ y".toList) = (.token (.ident "x"), 0) := by decide +kernel
  have hblank : munch ' ' "/* a */ y".toList = (.blank, 0) := by decide +kernel
  have hcut : Cut "/* a */ y".toList ['x', ' ']
      [⟨.token (.ident "x"), ['x']⟩, ⟨.blank, [' ']⟩] :=
    .cons (r := []) hword (.cons (r := []) hblank .nil)
  obtain ⟨b, hb, hlen⟩ := blockBody_closed (r := " a */ y".toList) (by decide +kernel)
  have hbody : b = " a ".toList :=
    hb.1.1.eq_of_length ⟨" y".toList, rfl⟩ (by
      have hthree : (blockBody " a */ y".toList).1 = 3 + 2 := by decide +kernel
      rw [hthree] at hlen
      exact (Nat.add_right_cancel hlen).symm)
  subst hbody
  refine ⟨hcut, ((comment_ends hcut).2.1 _ hb).2.trans ?_⟩
  decide +kernel

/-- Behind `/***/` the comment goes on: the first `*/` does not end it, and the word between it and the
next `*/` is lost. -/
theorem comment_swallows_word :
    let r := "**/ x /* */ y".toList
    Cut ('/' :: '*' :: r) [] [] ∧ Shortest (ClosesAt r) ['*'] ∧
      pieces ('/' :: '*' :: r) ≠ ⟨.comment, commentText ['*']⟩ :: pieces " x /* */ y".toList ∧
      lex ('/' :: '*' :: r) = [⟨.ident "y", ⟨14, 15⟩⟩] := by
  refine ⟨.nil, ⟨⟨" x /* */ y".toList, rfl⟩, ?_⟩, by decide +kernel, by decide +kernel⟩
  intro b hb
  cases b with
  | nil => exact absurd (closesAt_nil.mp hb).2 (by decide)
  | cons c b => exact Nat.succ_le_succ (Nat.zero_le _)

end ReportTemplate.Lexer
