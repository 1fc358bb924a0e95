import ReportTemplate.Proofs.Syntax.Reads

/-!
# ReportTemplate.Proofs.Syntax.Literals — literals in front of a comma

A literal with a comma behind it is read as the literal, whatever the grammar lets stand behind an
expression, so two of them behind the bracket of a call are its first arguments.
-/

namespace ReportTemplate.Syntax

open ReportTemplate.Syntax.Parser

/-- A parser reads a literal in front of a comma as the literal, if it reads anything there. -/
def ReadsLiteral (p : Parser Expr) : Prop :=
  ∀ (c c' : Cursor) (t u : Located) (rest : List Located) (l : Literal) (e : Expr),
    c.rest = t :: u :: rest → literalOf? t.token = some l → u.token = .symbol .comma →
    result p c = some (e, c') → e = .literal t.span l ∧ c'.rest = u :: rest

theorem result_symbol_none {c : Cursor} {t : Located} {rest : List Located} {k : Symbol}
    (hrest : c.rest = t :: rest) (h : t.token ≠ .symbol k) : result (symbol k) c = none := by
  show result (exactly (.symbol k)) c = none
  rw [result_exactly hrest, if_neg h]

theorem literalOf?_ne_symbol {t : Token} {l : Literal} (h : literalOf? t = some l) (k : Symbol) :
    t ≠ .symbol k := by
  rintro rfl
  cases h

section

variable {α β : Type} {p : Parser α} {c : Cursor}

theorem result_bind_none (h : result p c = none) (f : α → Parser β) : result (p >>= f) c = none := by
  rw [result_bind, h]
  rfl

theorem result_spanned_none (h : result p c = none) : result (spanned p) c = none := by
  rw [result_spanned, h]
  rfl

theorem result_many_none (h : result p c = none) : result (many p) c = some ([], c) := by
  show result (upTo p c.rest) c = _
  rw [result_upTo, h]

end

theorem result_literal {c : Cursor} {t : Located} {rest : List Located} {l : Literal}
    (hrest : c.rest = t :: rest) (hl : literalOf? t.token = some l) :
    result literal c = some (.literal t.span l, ⟨c.index + 1, t.span.stop, rest⟩) := by
  have hstart : c.start = t.span.start := by
    unfold Cursor.start
    rw [hrest]
  unfold literal
  rw [result_bind, result_spanned, result_token, hrest]
  dsimp only
  rw [hl, hstart]
  rfl

section

variable (expr : Parser Expr)

theorem readsLiteral_atom : ReadsLiteral (atom expr) := by
  intro c c' t u rest l e hrest hl _ hr
  have hatom : result (atom expr) c =
      some (.literal t.span l, ⟨c.index + 1, t.span.stop, u :: rest⟩) := by
    unfold atom
    rw [result_labelled, result_either, result_literal hrest hl]
    rfl
  rw [hatom] at hr
  obtain ⟨rfl, rfl⟩ := Prod.mk.inj (Option.some.inj hr)
  exact ⟨rfl, rfl⟩

theorem result_suffix_none {c : Cursor} {u : Located} {rest : List Located}
    (hrest : c.rest = u :: rest) (hu : u.token = .symbol .comma) :
    result (spanned (either (methodSuffix expr) (indexSuffix expr))) c = none := by
  have hdot : result (symbol .dot) c = none := result_symbol_none hrest (by rw [hu]; decide)
  have hbracket : result (symbol .bracketOpen) c = none :=
    result_symbol_none hrest (by rw [hu]; decide)
  have hmethod : result (methodSuffix expr) c = none := result_bind_none hdot _
  have hindex : result (indexSuffix expr) c = none :=
    result_bind_none (result_bind_none hbracket _) _
  refine result_spanned_none ?_
  rw [result_either, hmethod, hindex]
  rfl

theorem readsLiteral_suffixed : ReadsLiteral (suffixed expr) := by
  intro c c' t u rest l e hrest hl hu hr
  unfold suffixed at hr
  rw [result_bind] at hr
  obtain ⟨⟨a, c₁⟩, ha, hr⟩ := Option.bind_eq_some_iff.mp hr
  obtain ⟨rfl, hc₁⟩ := readsLiteral_atom expr c c₁ t u rest l a hrest hl hu ha
  rw [result_bind, result_many_none (result_suffix_none expr hc₁ hu), Option.bind_some,
    result_pure] at hr
  obtain ⟨rfl, rfl⟩ := Prod.mk.inj (Option.some.inj hr)
  exact ⟨rfl, hc₁⟩

theorem readsLiteral_unary : ReadsLiteral (unary expr) := by
  intro c c' t u rest l e hrest hl hu hr
  have hminus : result (symbol .minus) c = none :=
    result_symbol_none hrest (literalOf?_ne_symbol hl _)
  have hbang : result (symbol .bang) c = none :=
    result_symbol_none hrest (literalOf?_ne_symbol hl _)
  have hop : result (spanned unaryOp) c = none := by
    refine result_spanned_none ?_
    unfold unaryOp
    rw [result_either, result_bind_none hminus, result_bind_none hbang]
    rfl
  unfold unary at hr
  rw [result_bind, result_many_none hop, Option.bind_some, result_bind] at hr
  obtain ⟨⟨a, c₁⟩, ha, hr⟩ := Option.bind_eq_some_iff.mp hr
  obtain ⟨rfl, hc₁⟩ := readsLiteral_suffixed expr c c₁ t u rest l a hrest hl hu ha
  rw [result_pure] at hr
  obtain ⟨rfl, rfl⟩ := Prod.mk.inj (Option.some.inj hr)
  exact ⟨rfl, hc₁⟩

end

theorem result_operator_none {c : Cursor} {u : Located} {rest : List Located}
    (hrest : c.rest = u :: rest) : ∀ {ops : List (Symbol × BinaryOp)},
    (∀ o ∈ ops, u.token ≠ .symbol o.1) → result (operator ops) c = none
  | [], _ => rfl
  | [(k, op)], h => result_bind_none (result_symbol_none hrest (h _ List.mem_cons_self)) _
  | (k, op) :: o :: ops, h => by
    have hfirst : result (symbol k) c = none :=
      result_symbol_none hrest (h _ List.mem_cons_self)
    have hlater := result_operator_none hrest fun o ho => h o (List.mem_cons_of_mem _ ho)
    unfold operator
    rw [result_either, result_bind_none hfirst, hlater]
    rfl

theorem readsLiteral_leftChain {ops : List (Symbol × BinaryOp)}
    (hops : ∀ o ∈ ops, o.1 ≠ .comma) {operand : Parser Expr} (h : ReadsLiteral operand) :
    ReadsLiteral (leftChain ops operand) := by
  intro c c' t u rest l e hrest hl hu hr
  unfold leftChain at hr
  rw [result_bind] at hr
  obtain ⟨⟨a, c₁⟩, ha, hr⟩ := Option.bind_eq_some_iff.mp hr
  obtain ⟨rfl, hc₁⟩ := h c c₁ t u rest l a hrest hl hu ha
  have hno : ∀ o ∈ ops, u.token ≠ .symbol o.1 := by
    intro o ho heq
    rw [hu] at heq
    exact hops o ho (Token.symbol.inj heq).symm
  rw [result_bind, result_many_none (result_bind_none (result_operator_none hc₁ hno) _),
    Option.bind_some, result_pure] at hr
  obtain ⟨rfl, rfl⟩ := Prod.mk.inj (Option.some.inj hr)
  exact ⟨rfl, hc₁⟩

theorem readsLiteral_levels {levels : List (List (Symbol × BinaryOp))}
    (hlevels : ∀ ops ∈ levels, ∀ o ∈ ops, o.1 ≠ .comma) {operand : Parser Expr}
    (h : ReadsLiteral operand) :
    ReadsLiteral (levels.foldl (fun operand ops => leftChain ops operand) operand) := by
  induction levels generalizing operand with
  | nil => exact h
  | cons ops levels ih =>
    obtain ⟨hops, hrest⟩ := List.forall_mem_cons.mp hlevels
    exact ih hrest (readsLiteral_leftChain hops h)

theorem readsLiteral_operation (expr : Parser Expr) : ReadsLiteral (operation expr) :=
  readsLiteral_levels (by decide) (readsLiteral_unary expr)

theorem exprWithin_succ (depth : Nat) : exprWithin (depth + 1) = operation (exprWithin depth) := by
  funext c
  rw [exprWithin]

theorem readsLiteral_exprWithin (depth : Nat) : ReadsLiteral (exprWithin depth) := by
  cases depth with
  | zero =>
    intro c c' t u rest l e _ _ _ hr
    cases hr
  | succ depth =>
    rw [exprWithin_succ]
    exact readsLiteral_operation _

/-- Items begin with a literal that stands in front of a comma, if there are any. -/
theorem result_itemsUpTo_literal {p : Parser Expr} (h : ReadsLiteral p) {c c' : Cursor}
    {t u : Located} {rest : List Located} {l : Literal} (hrest : c.rest = t :: u :: rest)
    (hl : literalOf? t.token = some l) (hu : u.token = .symbol .comma) {first : Located}
    {bound : List Located} {es : List Expr}
    (hr : result (itemsUpTo p (first :: bound)) c = some (es, c')) :
    c' = c ∨ ∃ c₁ others, c₁.rest = rest ∧ es = .literal t.span l :: others ∧
      result (itemsUpTo p bound) c₁ = some (others, c') := by
  rw [result_itemsUpTo] at hr
  split at hr
  · obtain ⟨-, rfl⟩ := Prod.mk.inj (Option.some.inj hr)
    exact .inl rfl
  · next e c₁ he =>
    obtain ⟨rfl, hc₁⟩ := h c c₁ t u rest l e hrest hl hu he
    have hcomma : result (symbol .comma) c₁ = some ((), ⟨c₁.index + 1, u.span.stop, rest⟩) := by
      show result (exactly (.symbol .comma)) c₁ = _
      rw [result_exactly hc₁, if_pos hu]
    rw [hcomma] at hr
    obtain ⟨⟨others, c₂⟩, hothers, heq⟩ := Option.map_eq_some_iff.mp hr
    obtain ⟨rfl, rfl⟩ := Prod.mk.inj heq
    exact .inr ⟨_, others, rfl, rfl, hothers⟩

/-- Two literals with commas behind them are the first arguments of a call. -/
theorem result_args_literals {expr : Parser Expr} (h : ReadsLiteral expr) {c c' : Cursor}
    {es : List Expr} (hr : result (args expr) c = some (es, c')) {t₁ t₂ : Token} {l₁ l₂ : Literal}
    {more : List Token} (htokens : c.rest.map Located.token =
      .symbol .parenOpen :: t₁ :: .symbol .comma :: t₂ :: .symbol .comma :: more)
    (h₁ : literalOf? t₁ = some l₁) (h₂ : literalOf? t₂ = some l₂) :
    ∃ s₁ s₂ others, es = .literal s₁ l₁ :: .literal s₂ l₂ :: others := by
  obtain ⟨o, r₁, hrest, ho, hr₁⟩ := List.map_eq_cons_iff.mp htokens
  obtain ⟨a, r₂, rfl, rfl, hr₂⟩ := List.map_eq_cons_iff.mp hr₁
  obtain ⟨k, r₃, rfl, hk, hr₃⟩ := List.map_eq_cons_iff.mp hr₂
  obtain ⟨b, r₄, rfl, rfl, hr₄⟩ := List.map_eq_cons_iff.mp hr₃
  obtain ⟨m, rest, rfl, hm, -⟩ := List.map_eq_cons_iff.mp hr₄
  have hopen : result (symbol .parenOpen) c =
      some ((), ⟨c.index + 1, o.span.stop, a :: k :: b :: m :: rest⟩) := by
    show result (exactly (.symbol .parenOpen)) c = _
    rw [result_exactly hrest, if_pos ho]
  obtain ⟨c₀, c₁, hopening, hitems, hclose⟩ := result_between_some hr
  rw [hopen] at hopening
  obtain ⟨-, rfl⟩ := Prod.mk.inj (Option.some.inj hopening)
  have hstop {d : Cursor} {t : Located} {ts : List Located} {l : Literal} (hd : d.rest = t :: ts)
      (ht : literalOf? t.token = some l) : c₁ ≠ d := by
    rintro rfl
    rw [result_symbol_none hd (literalOf?_ne_symbol ht _)] at hclose
    cases hclose
  rcases result_itemsUpTo_literal h rfl h₁ hk hitems with heq | ⟨d, others, hd, rfl, hothers⟩
  · exact absurd heq (hstop rfl h₁)
  · rcases result_itemsUpTo_literal h hd h₂ hm hothers with heq | ⟨-, others, -, rfl, -⟩
    · exact absurd heq (hstop hd h₂)
    · exact ⟨a.span, b.span, others, rfl⟩

end ReportTemplate.Syntax
