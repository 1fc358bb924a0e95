import ReportTemplate.Proofs.Grammar.Derivation

/-!
# ReportTemplate.Proofs.Grammar.Viable — tokens that a sentence can begin with

Every phrase has a sentence.  So the beginning of a sentence of a part, behind sentences of the parts in
front of it, is the beginning of a sentence of the phrase.
-/

namespace ReportTemplate.Syntax

variable {α β : Type}

/-! ### Sentences of every phrase -/

/-- A token that stands anywhere. -/
def Token.anywhere (t : Token) : Located := ⟨t, ⟨0, 0⟩⟩

namespace Grammar

/-- An operand alone is an expression. -/
theorem derives_leftChain {ops : List (Symbol × BinaryOp)} {p : Phrase Expr} {u : List Located} {e : Expr}
    (h : Derives p u e) : Derives (leftChain ops p) u e := by
  cases ops with
  | nil => exact h
  | cons o ops => exact List.append_nil u ▸ (h.seq .nil).map

theorem derives_levels (ls : List (List (Symbol × BinaryOp))) {p : Phrase Expr} {u : List Located}
    {e : Expr} (h : Derives p u e) :
    Derives (ls.foldl (fun operand ops => leftChain ops operand) p) u e := by
  induction ls generalizing p with
  | nil => exact h
  | cons ops ls ih => exact ih (derives_leftChain h)

theorem expr_of_unary {u : List Located} {e : Expr} (h : Derives unary u e) : Derives expr u e :=
  .rule (derives_levels levels h)

theorem expr_of_suffixed {u : List Located} {e : Expr} (h : Derives suffixed u e) :
    Derives expr u e :=
  expr_of_unary (Derives.nil.seq h).map

theorem suffixed_of_operand {u : List Located} {e : Expr} (h : Derives operand u e) :
    Derives suffixed u e :=
  List.append_nil u ▸ ((h.labelled (l := .expression)).seq .nil).map

theorem expr_of_operand {u : List Located} {e : Expr} (h : Derives operand u e) :
    Derives expr u e :=
  expr_of_suffixed (suffixed_of_operand h)

theorem sentence_ident (s : String) : ∃ name, Derives ident [Token.anywhere (.ident s)] name :=
  ⟨_, (Derives.name rfl).spanned.map⟩

end Grammar

theorem Nonterminal.exists_sentence (n : Nonterminal α) : ∃ u a, Derives (.rule n) u a := by
  cases n with
  | expr =>
    have hvalue : Denotes (Token.anywhere (.keyword .nullKw)).token .null := .nullKw
    exact ⟨_, _, Grammar.expr_of_operand (Derives.value hvalue).spanned.map.left⟩
  | type =>
    obtain ⟨name, hname⟩ := Grammar.sentence_ident "a"
    exact ⟨_, _, .rule (.labelled (.right (.map hname)))⟩
  | block =>
    exact ⟨_, _, .rule (.enclosed (o := Token.anywhere _) (c := Token.anywhere _) rfl .nil rfl)⟩
  | classDecl =>
    have hclass := Derives.fixed (m := .keyword .classKw) (t := Token.anywhere _) rfl
    obtain ⟨name, hname⟩ := Grammar.sentence_ident "a"
    exact ⟨_, _, .rule ((hclass.preceded (hname.seq
      (.enclosed (o := Token.anywhere _) (c := Token.anywhere _) rfl .nil rfl))).spanned.map)⟩

theorem Phrase.exists_sentence (p : Phrase α) (hadv : p.advancing = true) : ∃ u a, Derives p u a := by
  induction p with
  | fixed m => exact ⟨_, _, .fixed (t := Token.anywhere m.token) rfl⟩
  | name => exact ⟨_, _, .name (t := Token.anywhere (.ident "a")) rfl⟩
  | value => exact ⟨_, _, .value (t := Token.anywhere (.keyword .nullKw)) .nullKw⟩
  | map f p ih =>
    obtain ⟨u, a, h⟩ := ih hadv
    exact ⟨u, f a, h.map⟩
  | seq p q ihp ihq =>
    obtain ⟨hp, hq⟩ := Bool.and_eq_true_iff.mp hadv
    obtain ⟨u, a, h⟩ := ihp hp
    obtain ⟨v, b, h'⟩ := ihq hq
    exact ⟨u ++ v, (a, b), h.seq h'⟩
  | either p q ihp _ =>
    obtain ⟨u, a, h⟩ := ihp (Bool.and_eq_true_iff.mp hadv).1
    exact ⟨u, a, h.left⟩
  | optional p _ => exact ⟨[], none, .absent⟩
  | many p _ => exact ⟨[], [], .nil⟩
  | items p _ => exact ⟨[], [], .noItems⟩
  | spanned p ih =>
    obtain ⟨hnull, hp⟩ := Phrase.advancing_repeated hadv
    obtain ⟨u, a, h⟩ := ih hp
    cases u with
    | nil => exact absurd rfl ((h.begins hp).ne_nil hnull)
    | cons t u => exact ⟨t :: u, _, h.spanned⟩
  | labelled l p ih =>
    obtain ⟨u, a, h⟩ := ih hadv
    exact ⟨u, a, h.labelled⟩
  | rule n => exact n.exists_sentence

/-! ### Beginnings of sentences -/

/-- Some tokens can be extended to a sentence. -/
def Phrase.Viable (p : Phrase α) (x : List Located) : Prop := ∃ z a, Derives p (x ++ z) a

namespace Phrase.Viable

theorem of_derives {p : Phrase α} {x : List Located} {a : α} (h : Derives p x a) : p.Viable x :=
  ⟨[], a, (List.append_nil x).symm ▸ h⟩

theorem nil (p : Phrase α) (hadv : p.advancing = true) : p.Viable [] := p.exists_sentence hadv

section

variable {p : Phrase α} {q : Phrase β} {t : Located} {u x : List Located} {a : α} {as : List α}

theorem map {f : α → β} (h : p.Viable x) : (Phrase.map f p).Viable x := by
  obtain ⟨z, a, h⟩ := h
  exact ⟨z, f a, h.map⟩

theorem seqLeft (hadv : q.advancing = true) (h : p.Viable x) : (Phrase.seq p q).Viable x := by
  obtain ⟨z, a, h⟩ := h
  obtain ⟨v, b, h'⟩ := q.exists_sentence hadv
  exact ⟨z ++ v, (a, b), List.append_assoc x z v ▸ h.seq h'⟩

theorem seqRight (hp : Derives p u a) (h : q.Viable x) : (Phrase.seq p q).Viable (u ++ x) := by
  obtain ⟨z, b, h⟩ := h
  exact ⟨z, (a, b), List.append_assoc u x z ▸ hp.seq h⟩

theorem left {q : Phrase α} (h : p.Viable x) : (Phrase.either p q).Viable x := by
  obtain ⟨z, a, h⟩ := h
  exact ⟨z, a, h.left⟩

theorem right {q : Phrase α} (h : q.Viable x) : (Phrase.either p q).Viable x := by
  obtain ⟨z, a, h⟩ := h
  exact ⟨z, a, h.right⟩

theorem optional (h : p.Viable x) : (Phrase.optional p).Viable x := by
  obtain ⟨z, a, h⟩ := h
  exact ⟨z, some a, h.present⟩

theorem manyHead (h : p.Viable x) : (Phrase.many p).Viable x := by
  obtain ⟨z, a, h⟩ := h
  exact ⟨z ++ [], [a], List.append_assoc x z [] ▸ h.cons .nil⟩

theorem manyTail (hp : Derives p u a) (h : (Phrase.many p).Viable x) :
    (Phrase.many p).Viable (u ++ x) := by
  obtain ⟨z, as, h⟩ := h
  exact ⟨z, a :: as, List.append_assoc u x z ▸ hp.cons h⟩

theorem itemsHead (h : p.Viable x) : (Phrase.items p).Viable x := by
  obtain ⟨z, a, h⟩ := h
  exact ⟨z, [a], h.lastItem⟩

theorem itemsTail (hp : Derives p u a) (ht : t.token = .symbol .comma) (h : (Phrase.items p).Viable x) :
    (Phrase.items p).Viable (u ++ t :: x) := by
  obtain ⟨z, as, h⟩ := h
  have hitem := Derives.item hp ht h
  exact ⟨z, a :: as, by rwa [List.append_assoc]⟩

theorem spanned (hadv : p.advancing = true) (hnull : p.nullable = false) (h : p.Viable x) :
    (Phrase.spanned p).Viable x := by
  obtain ⟨z, a, h⟩ := h
  have hne := (h.begins hadv).ne_nil hnull
  cases hz : x ++ z with
  | nil => exact absurd hz hne
  | cons t u => exact ⟨z, (a, cover t u), hz ▸ (hz ▸ h).spanned⟩

theorem labelled {l : Label} (h : p.Viable x) : (Phrase.labelled l p).Viable x := by
  obtain ⟨z, a, h⟩ := h
  exact ⟨z, a, h.labelled⟩

theorem rule {n : Nonterminal α} (h : n.body.Viable x) : (Phrase.rule n).Viable x := by
  obtain ⟨z, a, h⟩ := h
  exact ⟨z, a, h.rule⟩

end

end Phrase.Viable

end ReportTemplate.Syntax
