import ReportTemplate.Proofs.Grammar.Compositional
import ReportTemplate.Proofs.Grammar.Reading
import ReportTemplate.Proofs.Syntax.Runs

/-!
# ReportTemplate.Proofs.Grammar.Recursion — the parsers of templates without their bounds

A parser that is used inside itself only behind a token never meets the bound on its depth.  So the
parser of each construct reads the right side of its rule, with the parsers of all constructs in it.
-/

namespace ReportTemplate.Syntax

open ReportTemplate.Syntax.Parser

/-! ### Parsers with a bound on their depth -/

namespace Parser

variable {α : Type}

/-- Two parsers do the same where less than some number of tokens is left. -/
def AlikeBelow (n : Nat) (p q : Parser α) : Prop := ∀ c, c.rest.length < n → p c = q c

namespace AlikeBelow

variable {β : Type} {n k l : Nat} {p q p' q' : Parser α}

theorem refl (p : Parser α) : AlikeBelow n p p := fun _ _ => rfl

theorem bind {f g : α → Parser β} (hp : AlikeBelow n p q) (hl : Consumes l p) (hn : n ≤ k + l)
    (hf : ∀ a, AlikeBelow k (f a) (g a)) : AlikeBelow n (p >>= f) (q >>= g) := by
  intro c hc
  show andThen p f c = andThen q g c
  unfold andThen
  rw [← hp c hc]
  rcases hrun : p c with ⟨_ | ⟨a, c'⟩, e⟩
  · rfl
  · have hless := hl c a c' (congrArg Prod.fst hrun)
    dsimp only
    rw [hf a c' (by omega)]

theorem map (f : α → β) (hp : AlikeBelow n p q) :
    AlikeBelow n (p >>= fun a => pure (f a)) (q >>= fun a => pure (f a)) := by
  intro c hc
  show andThen p _ c = andThen q _ c
  unfold andThen
  rw [hp c hc]

theorem either (hp : AlikeBelow n p q) (hp' : AlikeBelow n p' q') :
    AlikeBelow n (either p p') (either q q') := by
  intro c hc
  unfold Parser.either
  rw [hp c hc, hp' c hc]

theorem optional (hp : AlikeBelow n p q) : AlikeBelow n (optional p) (optional q) := by
  intro c hc
  unfold Parser.optional
  rw [hp c hc]

theorem spanned (hp : AlikeBelow n p q) : AlikeBelow n (spanned p) (spanned q) := by
  intro c hc
  unfold Parser.spanned
  rw [hp c hc]

theorem labelled (label : String) (hp : AlikeBelow n p q) :
    AlikeBelow n (labelled label p) (labelled label q) := by
  intro c hc
  unfold Parser.labelled
  rw [hp c hc]

theorem upTo (hp : AlikeBelow n p q) (hl : Consumes 0 p) (bound : List Located) :
    AlikeBelow n (upTo p bound) (upTo q bound) := by
  induction bound with
  | nil =>
    intro c hc
    unfold Parser.upTo
    rw [hp c hc]
  | cons t bound ih =>
    intro c hc
    rw [upTo.eq_def, upTo.eq_def q, ← hp c hc]
    rcases hrun : p c with ⟨_ | ⟨a, c'⟩, e⟩
    · rfl
    · have hless := hl c a c' (congrArg Prod.fst hrun)
      dsimp only
      rw [ih c' (by omega)]

theorem itemsUpTo (hp : AlikeBelow n p q) (hl : Consumes 0 p) (bound : List Located) :
    AlikeBelow n (itemsUpTo p bound) (itemsUpTo q bound) := by
  induction bound with
  | nil =>
    intro c hc
    unfold Parser.itemsUpTo
    rw [hp c hc]
    rcases q c with ⟨_ | ⟨a, c'⟩, e⟩
    · rfl
    dsimp only
    rcases symbol .comma c' with ⟨_ | ⟨_, c''⟩, e'⟩ <;> rfl
  | cons t bound ih =>
    intro c hc
    rw [itemsUpTo.eq_def, itemsUpTo.eq_def q, ← hp c hc]
    rcases hrun : p c with ⟨_ | ⟨a, c'⟩, e⟩
    · rfl
    have hless := hl c a c' (congrArg Prod.fst hrun)
    dsimp only
    rcases hcomma : symbol .comma c' with ⟨_ | ⟨_, c''⟩, e'⟩
    · rfl
    have hless' := Consumes.token _ _ c' _ c'' (congrArg Prod.fst hcomma)
    dsimp only
    rw [ih c'' (by omega)]

end AlikeBelow

/-- The parser that allows itself a greater depth than there are tokens. -/
def unlimited (within : Nat → Parser α) : Parser α := fun c => within (c.rest.length + 1) c

section

variable {within : Nat → Parser α} {step : Parser α → Parser α} (hzero : within 0 = Parser.stuck)
  (hsucc : ∀ depth, within (depth + 1) = step (within depth))
  (hstep : ∀ p, Consumes 1 p → Consumes 1 (step p))

include hzero hsucc hstep

theorem consumes_within (depth : Nat) : Consumes 1 (within depth) := by
  induction depth with
  | zero => rw [hzero]; exact Consumes.stuck
  | succ depth ih => rw [hsucc]; exact hstep _ ih

theorem consumes_unlimited : Consumes 1 (unlimited within) :=
  fun c => consumes_within hzero hsucc hstep (c.rest.length + 1) c

variable (hlocal : ∀ p q n, Consumes 1 p → AlikeBelow n p q → AlikeBelow (n + 1) (step p) (step q))

include hlocal

/-- Depths that are no less than the tokens left do not matter. -/
theorem alike_within (n : Nat) : ∀ {depth depth' : Nat}, n ≤ depth → n ≤ depth' →
    AlikeBelow n (within depth) (within depth') := by
  induction n with
  | zero => exact fun _ _ _ hc => absurd hc (Nat.not_lt_zero _)
  | succ n ih =>
    intro depth depth' h h'
    obtain ⟨d, rfl⟩ := Nat.exists_eq_add_of_le' h
    obtain ⟨d', rfl⟩ := Nat.exists_eq_add_of_le' h'
    rw [← Nat.add_assoc, ← Nat.add_assoc, hsucc, hsucc]
    exact hlocal _ _ n (consumes_within hzero hsucc hstep _)
      (ih (Nat.le_add_left n d) (Nat.le_add_left n d'))

theorem unlimited_eq : unlimited within = step (unlimited within) := by
  funext c
  show within (c.rest.length + 1) c = _
  rw [hsucc]
  refine hlocal _ _ c.rest.length (consumes_within hzero hsucc hstep _) (fun c' hc' => ?_) c
    (Nat.lt_succ_self _)
  exact alike_within hzero hsucc hstep hlocal (c'.rest.length + 1) hc' (Nat.le_refl _) c'
    (Nat.lt_succ_self _)

end

end Parser

/-! ### Phrases as parsers -/

section

variable {R R' : Readers} {α : Type}

/-- Every construct has a token whenever it is read. -/
def Readers.Consuming (R : Readers) : Prop := ∀ {α : Type} (n : Nonterminal α), Consumes 1 (R.at n)

/-- What a phrase has at least: a token, unless it is nullable. -/
def Phrase.least (p : Phrase α) : Nat := cond p.nullable 0 1

theorem Phrase.least_of_nullable {p : Phrase α} (h : p.nullable = false) : p.least = 1 := by
  unfold Phrase.least
  rw [h]
  rfl

theorem Phrase.least_seq {β : Type} (p : Phrase α) (q : Phrase β) :
    (Phrase.seq p q).least ≤ p.least + q.least := by
  show cond (p.nullable && q.nullable) 0 1 ≤ cond p.nullable 0 1 + cond q.nullable 0 1
  cases p.nullable <;> cases q.nullable <;> decide

theorem Phrase.least_either (p q : Phrase α) :
    (Phrase.either p q).least ≤ p.least ∧ (Phrase.either p q).least ≤ q.least := by
  show cond (p.nullable || q.nullable) 0 1 ≤ cond p.nullable 0 1 ∧
    cond (p.nullable || q.nullable) 0 1 ≤ cond q.nullable 0 1
  cases p.nullable <;> cases q.nullable <;> decide

theorem Phrase.parser_consumes (hR : R.Consuming) (p : Phrase α) (hadv : p.advancing = true) :
    Consumes p.least (p.parser R) := by
  induction p with
  | fixed m => exact .token _ _
  | name => exact .token _ _
  | value => exact .token _ _
  | map f p ih => exact (ih hadv).bind fun _ => .pure _
  | seq p q ihp ihq =>
    obtain ⟨hp, hq⟩ := Bool.and_eq_true_iff.mp hadv
    exact ((ihp hp).bind fun _ => (ihq hq).bind fun _ => .pure _).mono (p.least_seq q)
  | either p q ihp ihq =>
    obtain ⟨hp, hq⟩ := Bool.and_eq_true_iff.mp hadv
    exact ((ihp hp).mono (p.least_either q).1).either ((ihq hq).mono (p.least_either q).2)
  | optional p ih => exact ((ih hadv).mono (Nat.zero_le _)).optional
  | many p ih =>
    have hp := (ih (Bool.and_eq_true_iff.mp hadv).2).mono (Nat.zero_le _)
    exact fun c => hp.upTo c.rest c
  | items p ih =>
    have hp := (ih (Bool.and_eq_true_iff.mp hadv).2).mono (Nat.zero_le _)
    exact fun c => hp.itemsUpTo c.rest c
  | spanned p ih => exact (ih (Bool.and_eq_true_iff.mp hadv).2).spanned
  | labelled l p ih => exact (ih hadv).labelled _
  | rule n => exact hR n

/-- What is repeated reads a token in each round. -/
theorem Phrase.parser_advances (hR : R.Consuming) {p : Phrase α} (hadv : p.advancing = true)
    (hnull : p.nullable = false) : Consumes 1 (p.parser R) :=
  Phrase.least_of_nullable hnull ▸ p.parser_consumes hR hadv

/-- Phrases read in the same way by two families of parsers. -/
def Phrase.Alike (R R' : Readers) (n : Nat) {α : Type} (p : Phrase α) : Prop :=
  AlikeBelow n (p.parser R) (p.parser R')

/-- The parts of a phrase are read in the same way by both families, so that the phrase is. -/
theorem compositional_alike (hR : R.Consuming) : Compositional (Phrase.Alike R R') where
  mono hnk h c hc := h c (Nat.lt_of_lt_of_le hc hnk)
  fixed _ _ _ _ := rfl
  name _ _ _ := rfl
  value _ _ _ := rfl
  map _ _ h := h.map _
  seq {n k α β p q} hadv hn hp hq := by
    refine hp.bind (p.parser_consumes hR hadv) ?_ fun a => hq.map fun b => (a, b)
    rcases hn with hn | ⟨hnull, hn⟩
    · exact Nat.le_add_right_of_le hn
    · rwa [Phrase.least_of_nullable hnull]
  either hp hq := hp.either hq
  optional h := h.optional
  many hadv hnull h c hc :=
    h.upTo ((Phrase.parser_advances hR hadv hnull).mono (Nat.zero_le 1)) c.rest c hc
  items hadv hnull h c hc :=
    h.itemsUpTo ((Phrase.parser_advances hR hadv hnull).mono (Nat.zero_le 1)) c.rest c hc
  spanned _ _ h := h.spanned
  labelled l _ h := h.labelled l.text

end

/-! ### The parsers of templates -/

/-- The parsers that templates are read with. -/
def readers : Readers := ⟨expr, type, block, classDecl⟩

section

variable {α : Type} {n : Nonterminal α} {R : Parser α → Readers} {w : Nat → Parser α}
  (hzero : w 0 = Parser.stuck) (hsucc : ∀ depth, w (depth + 1) = n.body.parser (R (w depth)))
  (hR : ∀ p, Consumes 1 p → (R p).Consuming)

include hzero hsucc hR

theorem consumes_of_body : Consumes 1 (unlimited w) :=
  consumes_unlimited hzero hsucc fun p hp =>
    Phrase.parser_advances (hR p hp) n.body_advancing n.body_nullable

/-- A parser whose next depth is the right side of a rule is that right side when it has no bound. -/
theorem unlimited_body (hat : ∀ p q k, AlikeBelow k p q →
      ∀ {β : Type} (m : Nonterminal β), AlikeBelow k ((R p).at m) ((R q).at m)) :
    unlimited w = n.body.parser (R (unlimited w)) := by
  refine unlimited_eq hzero hsucc
    (fun p hp => Phrase.parser_advances (hR p hp) n.body_advancing n.body_nullable) ?_
  intro p q k hp hpq
  exact ((compositional_alike (hR p hp)).guarded (hat p q k hpq) n.body n.body_advancing).2
    n.body_guarded

end

/-- The parsers around that of an expression, of a type, of a block and of a class. -/
def aroundExpr (p : Parser Expr) : Readers := ⟨p, stuck, stuck, stuck⟩

def aroundType (p : Parser TypeExpr) : Readers := ⟨expr, p, stuck, stuck⟩

def aroundBlock (p : Parser (List Stmt)) : Readers := ⟨expr, type, p, stuck⟩

def aroundClass (p : Parser Class) : Readers := ⟨expr, type, block, p⟩

theorem exprWithin_body (depth : Nat) :
    exprWithin (depth + 1) = (Nonterminal.body .expr).parser (aroundExpr (exprWithin depth)) := by
  funext c
  exact congrFun (Grammar.parser_operation (aroundExpr (exprWithin depth))).symm c

theorem typeWithin_body (depth : Nat) :
    typeWithin (depth + 1) = (Nonterminal.body .type).parser (aroundType (typeWithin depth)) := by
  funext c
  exact congrFun (Grammar.parser_typeBody (aroundType (typeWithin depth))).symm c

theorem blockWithin_body (depth : Nat) :
    blockWithin (depth + 1) = (Nonterminal.body .block).parser (aroundBlock (blockWithin depth)) := by
  funext c
  exact congrFun (Grammar.parser_blockBody (R := aroundBlock (blockWithin depth)) rfl).symm c

theorem classWithin_body (depth : Nat) :
    classWithin (depth + 1) =
      (Nonterminal.body .classDecl).parser (aroundClass (classWithin depth)) := by
  funext c
  exact congrFun (Grammar.parser_classBody (R := aroundClass (classWithin depth)) rfl rfl).symm c

theorem consuming_aroundExpr (p : Parser Expr) (hp : Consumes 1 p) : (aroundExpr p).Consuming := by
  intro _ m
  cases m
  exacts [hp, .stuck, .stuck, .stuck]

theorem consumes_expr : Consumes 1 expr :=
  consumes_of_body (w := exprWithin) rfl exprWithin_body consuming_aroundExpr

theorem consuming_aroundType (p : Parser TypeExpr) (hp : Consumes 1 p) :
    (aroundType p).Consuming := by
  intro _ m
  cases m
  exacts [consumes_expr, hp, .stuck, .stuck]

theorem consumes_type : Consumes 1 type :=
  consumes_of_body (w := typeWithin) rfl typeWithin_body consuming_aroundType

theorem consuming_aroundBlock (p : Parser (List Stmt)) (hp : Consumes 1 p) :
    (aroundBlock p).Consuming := by
  intro _ m
  cases m
  exacts [consumes_expr, consumes_type, hp, .stuck]

theorem consumes_block : Consumes 1 block :=
  consumes_of_body (w := blockWithin) rfl blockWithin_body consuming_aroundBlock

theorem consuming_aroundClass (p : Parser Class) (hp : Consumes 1 p) :
    (aroundClass p).Consuming := by
  intro _ m
  cases m
  exacts [consumes_expr, consumes_type, consumes_block, hp]

theorem consumes_classDecl : Consumes 1 classDecl :=
  consumes_of_body (w := classWithin) rfl classWithin_body consuming_aroundClass

theorem readers_consuming : readers.Consuming := consuming_aroundClass _ consumes_classDecl

/-- The parser of a construct reads the right side of its rule. -/
theorem readers_at {α : Type} (n : Nonterminal α) : readers.at n = n.body.parser readers := by
  cases n with
  | expr =>
    have h : expr = _ := unlimited_body (w := exprWithin) rfl exprWithin_body consuming_aroundExpr
      fun p q k hpq _ m => by
        cases m
        exacts [hpq, .refl _, .refl _, .refl _]
    exact h.trans ((Grammar.parser_operation _).trans (Grammar.parser_operation readers).symm)
  | type =>
    have h : type = _ := unlimited_body (w := typeWithin) rfl typeWithin_body consuming_aroundType
      fun p q k hpq _ m => by
        cases m
        exacts [.refl _, hpq, .refl _, .refl _]
    exact h.trans ((Grammar.parser_typeBody _).trans (Grammar.parser_typeBody readers).symm)
  | block =>
    have h : block = _ := unlimited_body (w := blockWithin) rfl blockWithin_body
      consuming_aroundBlock fun p q k hpq _ m => by
        cases m
        exacts [.refl _, .refl _, hpq, .refl _]
    exact h.trans ((Grammar.parser_blockBody rfl).trans (Grammar.parser_blockBody rfl).symm)
  | classDecl =>
    exact unlimited_body (w := classWithin) rfl classWithin_body
      consuming_aroundClass fun p q k hpq _ m => by
        cases m
        exacts [.refl _, .refl _, .refl _, hpq]

end ReportTemplate.Syntax
