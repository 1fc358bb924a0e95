import ReportTemplate.Proofs.Token.Munch

/-!
# ReportTemplate.Proofs.Token.Cuts — places where a source is cut

`Cut w u ps` says that in front of `w` the text `u` falls into the pieces `ps`.  A source is cut where a
token starts, and a cut in front of a word stays when something else stands behind its first letter.
-/

namespace ReportTemplate.Lexer

open Text (byteSize)

/-- The text of pieces. -/
def textOf (ps : List Piece) : List Char := ps.flatMap Piece.text

/-- The tokens among pieces. -/
def tokensOf (ps : List Piece) : List Token :=
  ps.filterMap fun p =>
    match p.lexeme with
    | .token t => some t
    | _ => none

@[simp] theorem textOf_nil : textOf [] = [] := rfl

@[simp] theorem textOf_cons (p : Piece) (ps : List Piece) :
    textOf (p :: ps) = p.text ++ textOf ps := rfl

@[simp] theorem textOf_append (ps qs : List Piece) : textOf (ps ++ qs) = textOf ps ++ textOf qs :=
  List.flatMap_append

@[simp] theorem tokensOf_nil : tokensOf [] = [] := rfl

@[simp] theorem tokensOf_append (ps qs : List Piece) :
    tokensOf (ps ++ qs) = tokensOf ps ++ tokensOf qs := List.filterMap_append

@[simp] theorem tokensOf_token (t : Token) (s : List Char) (ps : List Piece) :
    tokensOf (⟨.token t, s⟩ :: ps) = t :: tokensOf ps := rfl

@[simp] theorem tokensOf_blank (s : List Char) (ps : List Piece) :
    tokensOf (⟨.blank, s⟩ :: ps) = tokensOf ps := rfl

theorem locate_tokens (off : Nat) (ps : List Piece) :
    (locate off ps).map Located.token = tokensOf ps := by
  induction ps generalizing off with
  | nil => rfl
  | cons p ps ih =>
    rcases p with ⟨_ | _ | t, s⟩
    · exact ih _
    · exact ih _
    · show t :: (locate (off + byteSize s) ps).map Located.token = t :: tokensOf ps
      rw [ih]

theorem locate_append (off : Nat) (ps qs : List Piece) :
    locate off (ps ++ qs) = locate off ps ++ locate (off + byteSize (textOf ps)) qs := by
  induction ps generalizing off with
  | nil => rfl
  | cons p ps ih =>
    rcases p with ⟨x, s⟩
    rw [textOf_cons, Text.byteSize_append, ← Nat.add_assoc]
    cases x with
    | blank => exact ih _
    | comment => exact ih _
    | token t => exact congrArg (⟨t, ⟨off, off + byteSize s⟩⟩ :: ·) (ih _)

/-- A located token is one of the pieces, behind the text of the pieces in front of it. -/
theorem mem_locate {off : Nat} {ps : List Piece} {t : Located} (h : t ∈ locate off ps) :
    ∃ qs s rs, ps = qs ++ ⟨.token t.token, s⟩ :: rs ∧
      t.span = ⟨off + byteSize (textOf qs), off + byteSize (textOf qs) + byteSize s⟩ := by
  induction ps generalizing off with
  | nil => simp [locate] at h
  | cons p ps ih =>
    have later : t ∈ locate (off + byteSize p.text) ps →
        ∃ qs s rs, p :: ps = qs ++ ⟨.token t.token, s⟩ :: rs ∧
          t.span = ⟨off + byteSize (textOf qs), off + byteSize (textOf qs) + byteSize s⟩ := by
      intro h
      obtain ⟨qs, s, rs, rfl, hs⟩ := ih h
      refine ⟨p :: qs, s, rs, rfl, ?_⟩
      rw [hs, textOf_cons, Text.byteSize_append, Nat.add_assoc off]
    rcases p with ⟨_ | _ | x, s⟩
    · exact later h
    · exact later h
    · rcases List.mem_cons.mp h with rfl | h
      · exact ⟨[], s, ps, rfl, rfl⟩
      · exact later h

/-! ### Cuts -/

/-- In front of `w`, the text `u` is cut into the pieces `ps`, and nothing of them is left. -/
inductive Cut (w : List Char) : List Char → List Piece → Prop
  | nil : Cut w [] []
  | cons {c : Char} {r u : List Char} {x : Lexeme} {ps : List Piece}
      (head : munch c (r ++ (u ++ w)) = (x, r.length)) (tail : Cut w u ps) :
      Cut w (c :: (r ++ u)) (⟨x, c :: r⟩ :: ps)

theorem Cut.pieces_append {w u : List Char} {ps : List Piece} (h : Cut w u ps) :
    pieces (u ++ w) = ps ++ pieces w := by
  induction h with
  | nil => rfl
  | @cons c r u x ps head tail ih =>
    rw [List.cons_append, List.append_assoc, pieces_cons, head]
    simp only [List.take_left', List.cons_append, List.cons.injEq, true_and]
    rw [piecesFrom_append, ih]

theorem Cut.textOf_eq {w u : List Char} {ps : List Piece} (h : Cut w u ps) : textOf ps = u := by
  induction h with
  | nil => rfl
  | cons _ _ ih => rw [textOf_cons, ih, List.cons_append]

theorem byteSize_pos_of_ne_nil {s : List Char} (h : s ≠ []) : 0 < byteSize s := by
  cases s with
  | nil => exact absurd rfl h
  | cons c s =>
    have hc := c.utf8Size_pos
    simp only [Text.byteSize_cons]
    omega

theorem Cut.byteSize_pos {w u : List Char} {ps : List Piece} (h : Cut w u ps) {p : Piece}
    (hp : p ∈ ps) : 0 < byteSize p.text := by
  induction h with
  | nil => simp at hp
  | @cons c r u x ps head tail ih =>
    rcases List.mem_cons.mp hp with rfl | hp
    · exact byteSize_pos_of_ne_nil (List.cons_ne_nil c r)
    · exact ih hp

/-- Where a word begins, what follows can be changed without a change in the pieces before. -/
theorem Cut.congr {a : Char} (ha : isIdentStart a = true) {v u : List Char} {ps : List Piece}
    (h : Cut (a :: v) u ps) (w : List Char) : Cut (a :: w) u ps := by
  induction h with
  | nil => exact .nil
  | @cons c r u x ps head tail ih =>
    refine .cons ?_ ih
    rw [← List.append_assoc] at head ⊢
    rw [munch_congr ha (r ++ u) v w, head]
    rw [head, List.length_append]
    exact Nat.le_add_right _ _

theorem exists_cut : ∀ (ps : List Piece) {s : List Char} {qs : List Piece}, pieces s = ps ++ qs →
    ∃ w, s = textOf ps ++ w ∧ Cut w (textOf ps) ps ∧ pieces w = qs
  | [], s, _, h => ⟨s, rfl, .nil, h⟩
  | p :: ps, [], _, h => by simp [pieces] at h
  | p :: ps, c :: r, qs, h => by
    rw [pieces_cons, List.cons_append] at h
    obtain ⟨rfl, hps⟩ := List.cons_eq_cons.mp h
    have hn : (r.take (munch c r).2).length = (munch c r).2 := by
      rw [List.length_take]
      exact Nat.min_eq_left (munch_le c r)
    have hr : r.take (munch c r).2 ++ r.drop (munch c r).2 = r := List.take_append_drop _ _
    have hp : pieces (r.drop (munch c r).2) = ps ++ qs := by
      rw [← piecesFrom_append (r.take (munch c r).2), hn, hr]
      exact hps
    obtain ⟨w, hw, hcut, hqs⟩ := exists_cut ps hp
    have hhead : munch c (r.take (munch c r).2 ++ (textOf ps ++ w)) =
        ((munch c r).1, (r.take (munch c r).2).length) := by
      rw [← hw, hr, hn]
    refine ⟨w, ?_, .cons hhead hcut, hqs⟩
    rw [textOf_cons, List.append_assoc, ← hw, List.cons_append, hr]

/-- Two splits of a text at one byte are the same split. -/
theorem eq_of_byteSize_eq : ∀ {u u' w w' : List Char}, u ++ w = u' ++ w' →
    byteSize u = byteSize u' → u = u'
  | [], [], _, _, _, _ => rfl
  | [], c :: u', _, _, _, hs => by
    have hc := c.utf8Size_pos
    simp only [Text.byteSize_nil, Text.byteSize_cons] at hs
    omega
  | c :: u, [], _, _, _, hs => by
    have hc := c.utf8Size_pos
    simp only [Text.byteSize_nil, Text.byteSize_cons] at hs
    omega
  | c :: u, c' :: u', w, w', h, hs => by
    obtain ⟨rfl, htail⟩ := List.cons_eq_cons.mp h
    rw [Text.byteSize_cons, Text.byteSize_cons] at hs
    exact congrArg (c :: ·) (eq_of_byteSize_eq htail (Nat.add_left_cancel hs))

/-- Where a token starts, the text is cut. -/
theorem cut_of_mem_locate {off : Nat} {u w : List Char} {t : Located}
    (h : t ∈ locate off (pieces (u ++ w))) (ht : t.span.start = off + byteSize u) :
    ∃ ps, Cut w u ps := by
  obtain ⟨ps, s, rs, hps, hspan⟩ := mem_locate h
  obtain ⟨w', hw, hcut, -⟩ := exists_cut ps hps
  rw [hspan] at ht
  obtain rfl := eq_of_byteSize_eq hw (Nat.add_left_cancel ht).symm
  obtain rfl := List.append_cancel_left hw
  exact ⟨ps, hcut⟩

theorem Cut.locate_append {w u : List Char} {ps : List Piece} (h : Cut w u ps) (off : Nat) :
    locate off (pieces (u ++ w)) = locate off ps ++ locate (off + byteSize u) (pieces w) := by
  rw [h.pieces_append, Lexer.locate_append, h.textOf_eq]

/-- The spans of located tokens lie behind the place where the pieces begin. -/
theorem le_start_of_mem_locate {off : Nat} {ps : List Piece} {t : Located} (h : t ∈ locate off ps) :
    off ≤ t.span.start := by
  obtain ⟨qs, s, rs, -, hspan⟩ := mem_locate h
  rw [hspan]
  exact Nat.le_add_right _ _

/-- A located token starts in front of the place where the pieces end. -/
theorem Cut.start_lt {off : Nat} {w u : List Char} {ps : List Piece} {t : Located}
    (hcut : Cut w u ps) (h : t ∈ locate off ps) : t.span.start < off + byteSize u := by
  obtain ⟨qs, s, rs, rfl, hspan⟩ := mem_locate h
  have hs : 0 < byteSize s := hcut.byteSize_pos (List.mem_append_right _ List.mem_cons_self)
  rw [hspan, ← hcut.textOf_eq, textOf_append, textOf_cons, Text.byteSize_append,
    Text.byteSize_append]
  show off + byteSize (textOf qs) < off + (byteSize (textOf qs) + (byteSize s + byteSize (textOf rs)))
  omega

end ReportTemplate.Lexer
