import ReportTemplate.Proofs.Token.Spelling

/-!
# ReportTemplate.Proofs.Token.Lossless — nothing of a source is lost

A source is laid out as tokens, blanks and comments, one behind the other, each with a text of its
pattern that is as long as it can be.  So the spans of the tokens are told by the texts in front of them.
-/

namespace ReportTemplate.Lexer

open Text (byteSize)

/-- What `lex` passes over. -/
def Pattern.passedOver : List Pattern := [.blanks, .lineComment, .blockComment]

/-- The tokens of a text that stands at an offset, when nothing is passed over but blanks and comments,
and each piece is as long as it can be. -/
inductive Tiled : Nat → List Char → List Located → Prop
  | done (off : Nat) : Tiled off [] []
  | skip {off : Nat} {text rest : List Char} {tokens : List Located} {P : Pattern}
      (hP : P ∈ Pattern.passedOver) (h : text ∈ P.language) (hmax : Longest text rest)
      (tail : Tiled (off + byteSize text) rest tokens) : Tiled off (text ++ rest) tokens
  | token {off : Nat} {text rest : List Char} {tokens : List Located} {t : Token}
      (hne : text ≠ []) (h : Spells text rest t) (hmax : Longest text rest)
      (tail : Tiled (off + byteSize text) rest tokens) :
      Tiled off (text ++ rest) (⟨t, ⟨off, off + byteSize text⟩⟩ :: tokens)

theorem pieces_taken (c : Char) (r : List Char) :
    pieces (c :: r) = ⟨(munch c r).1, taken c r⟩ :: pieces (r.drop (munch c r).2) := by
  have hlen : (r.take (munch c r).2).length = (munch c r).2 :=
    List.length_take_of_le (munch_le c r)
  have hrest := piecesFrom_append (r.take (munch c r).2) (r.drop (munch c r).2)
  rw [hlen, List.take_append_drop] at hrest
  rw [pieces_cons, hrest]
  rfl

/-- The tokens that are cut from a text tile it, wherever it stands. -/
theorem tiled_locate (source : List Char) (off : Nat) : Tiled off source (locate off (pieces source)) := by
  induction hn : source.length using Nat.strong_induction_on generalizing source off with
  | _ n ih =>
    cases source with
    | nil => exact .done off
    | cons c r =>
      have hmax := taken_longest c r
      have hspelled := munch_spelled c r
      have hlen : (r.drop (munch c r).2).length < n := by
        rw [← hn, List.length_drop, List.length_cons]
        omega
      have htail (off : Nat) := ih _ hlen (r.drop (munch c r).2) off rfl
      rw [pieces_taken, ← taken_append_drop c r]
      cases hx : (munch c r).1 with
      | blank =>
        rw [hx] at hspelled
        exact .skip (P := .blanks) (by decide) hspelled hmax (htail _)
      | comment =>
        rw [hx] at hspelled
        rcases hspelled with hline | hblock
        · exact .skip (P := .lineComment) (by decide) hline hmax (htail _)
        · exact .skip (P := .blockComment) (by decide) hblock hmax (htail _)
      | token t =>
        rw [hx] at hspelled
        exact .token (List.cons_ne_nil c _) hspelled hmax (htail _)

variable {off : Nat} {source : List Char} {tokens : List Located}

/-- Each token covers a text of the source, and its span tells how much stands in front of that. -/
theorem Tiled.located (h : Tiled off source tokens) : ∀ s ∈ tokens, ∃ before text after,
    source = before ++ text ++ after ∧ text ≠ [] ∧
    s.span = ⟨off + byteSize before, off + byteSize (before ++ text)⟩ ∧
    Spells text after s.token ∧ Longest text after := by
  induction h with
  | done => simp
  | @skip off skipped _ _ _ _ _ _ _ ih =>
    intro s hs
    obtain ⟨before, text, after, rfl, hne, hspan, h⟩ := ih s hs
    exact ⟨skipped ++ before, text, after, by simp, hne, by simp [hspan, Nat.add_assoc], h⟩
  | @token off first rest _ t hne hspells hmax _ ih =>
    intro s hs
    rcases List.mem_cons.mp hs with rfl | hs
    · exact ⟨[], first, rest, rfl, hne, by simp, hspells, hmax⟩
    · obtain ⟨before, text, after, rfl, hne, hspan, h⟩ := ih s hs
      exact ⟨first ++ before, text, after, by simp, hne, by simp [hspan, Nat.add_assoc], h⟩

theorem Tiled.le_start (h : Tiled off source tokens) : ∀ s ∈ tokens, off ≤ s.span.start := by
  intro s hs
  obtain ⟨before, text, after, -, -, hspan, -⟩ := h.located s hs
  simp [hspan]

/-- The tokens stand behind one another. -/
theorem Tiled.ordered (h : Tiled off source tokens) :
    tokens.Pairwise fun s t => s.span.stop ≤ t.span.start := by
  induction h with
  | done => exact .nil
  | skip _ _ _ _ ih => exact ih
  | token _ _ _ tail ih => exact .cons tail.le_start ih

/-- Whatever a source is, its tokens stand behind one another at the borders of characters, between
them stand only blanks and comments, and each token and comment is the longest that the input has there. -/
theorem lex_lossless (source : List Char) :
    Tiled 0 source (lex source) ∧
    (lex source).Pairwise (fun s t => s.span.stop ≤ t.span.start) ∧
    ∀ s ∈ lex source, s.span.start < s.span.stop ∧ ∃ before text after,
      source = before ++ text ++ after ∧ s.span = ⟨byteSize before, byteSize (before ++ text)⟩ ∧
      Spells text after s.token ∧ Longest text after := by
  have htiled : Tiled 0 source (lex source) := tiled_locate source 0
  refine ⟨htiled, htiled.ordered, fun s hs => ?_⟩
  obtain ⟨before, text, after, hsource, hne, hspan, hspells, hmax⟩ := htiled.located s hs
  rw [Nat.zero_add, Nat.zero_add] at hspan
  refine ⟨?_, before, text, after, hsource, hspan, hspells, hmax⟩
  have hpos := byteSize_pos_of_ne_nil hne
  simp only [hspan, Text.byteSize_append]
  omega

end ReportTemplate.Lexer
