import ReportTemplate.Proofs.Machine.Raised
import ReportTemplate.Proofs.Program.Resolves
import ReportTemplate.Proofs.Syntax.Nodes

/-!
# ReportTemplate.Proofs.Program.Origins — what a run works on comes from the source

Each expression and statement that a run of a resolved body works on comes from a node of the body's
source, and carries the line on which that node starts.
-/

namespace ReportTemplate.Program

section

variable (S : Surroundings)

/-- A node of the source becomes what a run works on. -/
inductive Origin : Syntax.Node → Machine.Node → Prop
  | value {v : View} {e : Syntax.Expr} {e' : Expr} (h : Resolves S v e e') :
      Origin (.value e) (.value e')
  | condition {v : View} {e : Syntax.Expr} {e' : Expr} (h : Resolves S v e e') :
      Origin (.condition e) (.condition e')
  | bound {v : View} {e : Syntax.Expr} {e' : Expr} (h : Resolves S v e e') :
      Origin (.bound e) (.bound e')
  | stmt {v w : View} {s : Syntax.Stmt} {s' : Stmt} (h : ResolvesStmt S v s s' w) :
      Origin (.stmt s) (.stmt s')

end

variable {S : Surroundings}

theorem ResolvesStmt.line {v w : View} {s : Syntax.Stmt} {s' : Stmt} (h : ResolvesStmt S v s s' w) :
    s'.line = S.lines.line s.span.start := by
  cases h <;> rfl

/-- A node carries its line through the resolution. -/
theorem Origin.line {n : Syntax.Node} {n' : Machine.Node} (h : Origin S n n') :
    n'.line = S.lines.line n.span.start := by
  cases h with
  | stmt h => exact h.line
  | _ h => exact h.line S

/-! ### Lists of trees -/

theorem exists_of_forall₂ {α β : Type} {R : α → β → Prop} {as : List α} {bs : List β}
    (h : List.Forall₂ R as bs) {b : β} (hb : b ∈ bs) : ∃ a ∈ as, R a b := by
  induction h with
  | nil => cases hb
  | cons hR _ ih =>
    rcases List.mem_cons.mp hb with rfl | hb
    · exact ⟨_, List.mem_cons_self, hR⟩
    · obtain ⟨a, ha, hR⟩ := ih hb
      exact ⟨a, List.mem_cons_of_mem _ ha, hR⟩

theorem ResolvesStmts.exists_stmt {ss : List Syntax.Stmt} : ∀ {v w : View} {ts : List Stmt},
    ResolvesStmts S v ss ts w → ∀ t ∈ ts, ∃ s ∈ ss, Origin S (.stmt s) (.stmt t) := by
  induction ss with
  | nil => rintro v w _ ⟨⟩ t ⟨⟩
  | cons s ss ih =>
    rintro v w _ (_ | ⟨head, tail⟩) t ht
    rcases List.mem_cons.mp ht with rfl | ht
    · exact ⟨s, List.mem_cons_self, .stmt head⟩
    · obtain ⟨s', hs', horigin⟩ := ih tail t ht
      exact ⟨s', List.mem_cons_of_mem _ hs', horigin⟩

theorem ResolvesArms.exists_arm {bs : List (Syntax.Expr × List Syntax.Stmt)} :
    ∀ {v w : View} {cs : List (Expr × List Stmt)}, ResolvesArms S v bs cs w → ∀ arm' ∈ cs,
      ∃ arm ∈ bs, Origin S (.condition arm.1) (.condition arm'.1) ∧
        ∀ t ∈ arm'.2, ∃ s ∈ arm.2, Origin S (.stmt s) (.stmt t) := by
  induction bs with
  | nil => rintro v w _ ⟨⟩ arm' ⟨⟩
  | cons b bs ih =>
    rintro v w _ (_ | ⟨test, block, tail⟩) arm' harm
    rcases List.mem_cons.mp harm with rfl | harm
    · exact ⟨_, List.mem_cons_self, .condition test, block.exists_stmt⟩
    · obtain ⟨arm, hmem, horigin⟩ := ih tail arm' harm
      exact ⟨arm, List.mem_cons_of_mem _ hmem, horigin⟩

/-! ### Parts -/

section

variable {f : Machine.Frame} {s t : Machine.State}

/-- What a run does with an expression comes from the parts of the expression. -/
theorem Resolves.part {v : View} {e : Syntax.Expr} {e' : Expr} (h : Resolves S v e e')
    {m' : Machine.Node} (part : Machine.Part f (.value e') s m' t) :
    ∃ m, Syntax.Node.Part (.value e) m ∧ Origin S m m' := by
  cases h with
  | literal => cases part
  | ident => cases part
  | list parts =>
    cases part with
    | item comes =>
      obtain ⟨x, hx, hresolves⟩ := exists_of_forall₂ parts comes.mem
      exact ⟨_, .item hx, .value hresolves⟩
  | unary operand =>
    cases part with
    | operand => exact ⟨_, .operand, .value operand⟩
  | binary left right =>
    cases part with
    | left and or => exact ⟨_, .left and or, .value left⟩
    | right and or => exact ⟨_, .right and or, .value right⟩
    | andLeft => exact ⟨_, .leftTruth (.inl rfl), .condition left⟩
    | andRight => exact ⟨_, .rightTruth (.inl rfl), .condition right⟩
    | orLeft => exact ⟨_, .leftTruth (.inr rfl), .condition left⟩
    | orRight => exact ⟨_, .rightTruth (.inr rfl), .condition right⟩
  | index target place =>
    cases part with
    | target => exact ⟨_, .target, .value target⟩
    | place => exact ⟨_, .place, .value place⟩
  | callLocal parts =>
    cases part with
    | slotArg comes =>
      obtain ⟨x, hx, hresolves⟩ := exists_of_forall₂ parts comes.mem
      exact ⟨_, .callArg hx, .value hresolves⟩
  | callOwn parts =>
    cases part with
    | methodArg comes =>
      obtain ⟨x, hx, hresolves⟩ := exists_of_forall₂ parts comes.mem
      exact ⟨_, .callArg hx, .value hresolves⟩
  | callFunction parts =>
    cases part with
    | functionArg comes =>
      obtain ⟨x, hx, hresolves⟩ := exists_of_forall₂ parts comes.mem
      exact ⟨_, .callArg hx, .value hresolves⟩
  | qualified _ parts =>
    cases part with
    | methodArg comes =>
      obtain ⟨x, hx, hresolves⟩ := exists_of_forall₂ parts comes.mem
      exact ⟨_, .methodArg hx, .value hresolves⟩
  | document _ object parts =>
    cases part with
    | documentReceiver => exact ⟨_, .receiver, .value object⟩
    | documentArg _ comes =>
      obtain ⟨x, hx, hresolves⟩ := exists_of_forall₂ parts comes.mem
      exact ⟨_, .methodArg hx, .value hresolves⟩
  | dynamic _ object parts =>
    cases part with
    | dynamicReceiver => exact ⟨_, .receiver, .value object⟩
    | dynamicArg _ comes =>
      obtain ⟨x, hx, hresolves⟩ := exists_of_forall₂ parts comes.mem
      exact ⟨_, .methodArg hx, .value hresolves⟩
  | receiver _ object parts =>
    cases part with
    | functionArg comes =>
      -- The receiver is the first argument of the function.
      rcases List.mem_cons.mp comes.mem with rfl | hmem
      · exact ⟨_, .receiver, .value object⟩
      · obtain ⟨x, hx, hresolves⟩ := exists_of_forall₂ parts hmem
        exact ⟨_, .methodArg hx, .value hresolves⟩

/-- What a run does with a statement comes from the parts of the statement. -/
theorem ResolvesStmt.part {v w : View} {x : Syntax.Stmt} {x' : Stmt} (h : ResolvesStmt S v x x' w)
    {m' : Machine.Node} (part : Machine.Part f (.stmt x') s m' t) :
    ∃ m, Syntax.Node.Part (.stmt x) m ∧ Origin S m m' := by
  cases h with
  | declare value =>
    cases part with
    | stored => exact ⟨_, .declared, .value value⟩
  | assign value =>
    cases part with
    | stored => exact ⟨_, .assigned, .value value⟩
  | expr value =>
    cases part with
    | evaluated => exact ⟨_, .evaluated, .value value⟩
  | branch arms last =>
    cases part with
    | test comes =>
      obtain ⟨arm, harm, hcond, -⟩ := arms.exists_arm _ comes.mem
      exact ⟨_, .test harm, hcond⟩
    | taken comes _ inner =>
      obtain ⟨arm, harm, -, hbody⟩ := arms.exists_arm _ comes.mem
      obtain ⟨y, hy, horigin⟩ := hbody _ inner.mem
      exact ⟨_, .taken harm hy, horigin⟩
    | otherwise _ inner =>
      cases last with
      | some block =>
        obtain ⟨y, hy, horigin⟩ := block.exists_stmt _ inner.mem
        exact ⟨_, .otherwise hy, horigin⟩
  | loop test block =>
    cases part with
    | loopTest => exact ⟨_, .loopTest, .condition test⟩
    | loopBody _ _ inner =>
      obtain ⟨y, hy, horigin⟩ := block.exists_stmt _ inner.mem
      exact ⟨_, .loopBody hy, horigin⟩
  | forEach values block =>
    cases part with
    | items => exact ⟨_, .items, .value values⟩
    | eachBody _ _ _ _ inner =>
      obtain ⟨y, hy, horigin⟩ := block.exists_stmt _ inner.mem
      exact ⟨_, .eachBody hy, horigin⟩
  | forRange first last block =>
    cases part with
    | start => exact ⟨_, .start, .bound first⟩
    | stop => exact ⟨_, .stop, .bound last⟩
    | rangeBody _ _ _ _ inner =>
      obtain ⟨y, hy, horigin⟩ := block.exists_stmt _ inner.mem
      exact ⟨_, .rangeBody hy, horigin⟩
  | leave => cases part
  | result value =>
    cases part with
    | returned => exact ⟨_, .returned, .value value⟩

theorem Origin.part {n : Syntax.Node} {n' m' : Machine.Node} (h : Origin S n n')
    (part : Machine.Part f n' s m' t) : ∃ m, Syntax.Node.Part n m ∧ Origin S m m' := by
  cases h with
  | value h => exact h.part part
  | condition h =>
    cases part
    exact ⟨_, .condition, .value h⟩
  | bound h =>
    cases part
    exact ⟨_, .bound, .value h⟩
  | stmt h => exact h.part part

/-- What a run comes to from something inside a body comes from a node inside the body. -/
theorem Origin.leads {body : List Syntax.Stmt} {n' m' : Machine.Node}
    (hleads : Machine.Leads f n' s m' t) : ∀ {n : Syntax.Node}, n.Inside body → Origin S n n' →
      ∃ m, Syntax.Node.Inside body m ∧ Origin S m m' := by
  induction hleads with
  | refl => exact fun hn h => ⟨_, hn, h⟩
  | head part _ ih =>
    intro n hn h
    obtain ⟨m, hpart, hm⟩ := h.part part
    exact ih (.part hn hpart) hm

end

/-- **Origins**: what a call of a resolved method works on comes from a node of the method's body in the
source. -/
theorem ResolvesStmts.origin {v w : View} {p : Program} {steps depth : Nat} {m : Method}
    {args : List Value} {world : Machine.World} {n : Machine.Node} {s : Machine.State}
    {body : List Syntax.Stmt} (h : ResolvesStmts S v body m.body w)
    (hreaches : Machine.Reaches p steps depth m args world n s) :
    ∃ n', Syntax.Node.Inside body n' ∧ Origin S n' n := by
  obtain ⟨x, t, hcomes, hleads⟩ := hreaches
  obtain ⟨y, hy, horigin⟩ := h.exists_stmt x hcomes.mem
  exact Origin.leads hleads (.stmt hy) horigin

end ReportTemplate.Program
