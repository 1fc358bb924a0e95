import ReportTemplate.Proofs.Program.InRange

/-!
# ReportTemplate.Proofs.Program.Evaluated — the expressions of a body and what they become

The expressions of a body are listed in the order of the text, each one in front of its parts, with the
names of the locals that are visible where it stands.  The receiver of a call that names a class is not
evaluated, and not listed.  The body that the machine runs has an expression for each of them, in the
same order, and this is what the expression of the source resolves to.
-/

namespace ReportTemplate

/-! ### Bodies of a source -/

namespace Syntax

/-- An expression, with the names of the locals that are visible where it stands. -/
structure Situated where
  visible : List String
  expr : Expr

/-- A name that stands for no local, and so for a class. -/
def Expr.namesClass (visible : List String) : Expr → Bool
  | .ident _ name => decide (name ∉ visible)
  | _ => false

mutual

/-- An expression and its parts that are evaluated. -/
def Expr.evaluated (visible : List String) : Expr → List Situated
  | .literal span value => [⟨visible, .literal span value⟩]
  | .ident span name => [⟨visible, .ident span name⟩]
  | .list span items => ⟨visible, .list span items⟩ :: Expr.allEvaluated visible items
  | .unary span op operand => ⟨visible, .unary span op operand⟩ :: operand.evaluated visible
  | .binary span op left right =>
    ⟨visible, .binary span op left right⟩ :: (left.evaluated visible ++ right.evaluated visible)
  | .call span callee args => ⟨visible, .call span callee args⟩ :: Expr.allEvaluated visible args
  | .method span receiver name args =>
    ⟨visible, .method span receiver name args⟩ ::
      ((if receiver.namesClass visible then [] else receiver.evaluated visible) ++
        Expr.allEvaluated visible args)
  | .index span target place =>
    ⟨visible, .index span target place⟩ :: (target.evaluated visible ++ place.evaluated visible)

def Expr.allEvaluated (visible : List String) : List Expr → List Situated
  | [] => []
  | e :: es => e.evaluated visible ++ Expr.allEvaluated visible es

end

/-- The names that are visible behind a statement. -/
def Stmt.behind (visible : List String) : Stmt → List String
  | .declare _ name _ => name.text :: visible
  | _ => visible

mutual

/-- The expressions of a statement: a `let` is visible behind its value, and a block takes its names with
it. -/
def Stmt.evaluated (visible : List String) : Stmt → List Situated
  | .declare _ _ value | .assign _ _ value | .expr _ value => value.evaluated visible
  | .branch _ branches otherwise =>
    Stmt.armsEvaluated visible branches ++ Stmt.otherwiseEvaluated visible otherwise
  | .loop _ condition body => condition.evaluated visible ++ Stmt.allEvaluated visible body
  | .forEach _ binding items body =>
    items.evaluated visible ++ Stmt.allEvaluated (binding.text :: visible) body
  | .forRange _ binding start stop body =>
    start.evaluated visible ++ (stop.evaluated visible ++
      Stmt.allEvaluated (binding.text :: visible) body)
  | .result _ none => []
  | .result _ (some value) => value.evaluated visible

def Stmt.allEvaluated (visible : List String) : List Stmt → List Situated
  | [] => []
  | s :: ss => s.evaluated visible ++ Stmt.allEvaluated (s.behind visible) ss

def Stmt.armsEvaluated (visible : List String) : List (Expr × List Stmt) → List Situated
  | [] => []
  | (condition, body) :: rest =>
    condition.evaluated visible ++ (Stmt.allEvaluated visible body ++ Stmt.armsEvaluated visible rest)

def Stmt.otherwiseEvaluated (visible : List String) : Option (List Stmt) → List Situated
  | none => []
  | some body => Stmt.allEvaluated visible body

end

/-- The expressions of a method. -/
def Method.evaluated (m : Method) : List Situated :=
  Stmt.allEvaluated (m.params.map fun p => p.name.text).reverse m.body

end Syntax

/-! ### Bodies of a program -/

namespace Program

mutual

/-- An expression and its parts. -/
def Expr.evaluated : Expr → List Expr
  | .const line value => [.const line value]
  | .slot line i => [.slot line i]
  | .list line items => .list line items :: Expr.allEvaluated items
  | .unary line op operand => .unary line op operand :: operand.evaluated
  | .binary line op left right => .binary line op left right :: (left.evaluated ++ right.evaluated)
  | .index line target place => .index line target place :: (target.evaluated ++ place.evaluated)
  | .callMethod line id args => .callMethod line id args :: Expr.allEvaluated args
  | .callFunction line g args => .callFunction line g args :: Expr.allEvaluated args
  | .callSlot line i name args => .callSlot line i name args :: Expr.allEvaluated args
  | .callDocument line m receiver args =>
    .callDocument line m receiver args :: (receiver.evaluated ++ Expr.allEvaluated args)
  | .callDynamic line name receiver args document function =>
    .callDynamic line name receiver args document function ::
      (receiver.evaluated ++ Expr.allEvaluated args)

def Expr.allEvaluated : List Expr → List Expr
  | [] => []
  | e :: es => e.evaluated ++ Expr.allEvaluated es

end

mutual

/-- The expressions of a statement. -/
def Stmt.evaluated : Stmt → List Expr
  | .store _ _ value | .expr _ value => value.evaluated
  | .branch _ branches otherwise => Stmt.armsEvaluated branches ++ Stmt.otherwiseEvaluated otherwise
  | .loop _ condition body => condition.evaluated ++ Stmt.allEvaluated body
  | .forEach _ _ items body => items.evaluated ++ Stmt.allEvaluated body
  | .forRange _ _ start stop body => start.evaluated ++ (stop.evaluated ++ Stmt.allEvaluated body)
  | .result _ none => []
  | .result _ (some value) => value.evaluated

def Stmt.allEvaluated : List Stmt → List Expr
  | [] => []
  | s :: ss => s.evaluated ++ Stmt.allEvaluated ss

def Stmt.armsEvaluated : List (Expr × List Stmt) → List Expr
  | [] => []
  | (condition, body) :: rest =>
    condition.evaluated ++ (Stmt.allEvaluated body ++ Stmt.armsEvaluated rest)

def Stmt.otherwiseEvaluated : Option (List Stmt) → List Expr
  | none => []
  | some body => Stmt.allEvaluated body

end

/-- The expressions of a method. -/
def Method.evaluated (m : Method) : List Expr := Stmt.allEvaluated m.body

open Syntax (Situated)

section

variable {S : Surroundings} {v w : View}

/-! ### Visible names -/

/-- Behind a statement the names are visible that it adds to those in front of it. -/
theorem ResolvesStmt.visible_behind {s : Syntax.Stmt} {t : Stmt} (h : ResolvesStmt S v s t w) :
    w.slots.visible = s.behind v.slots.visible := by
  cases h with
  | declare => exact Scopes.visible_declare _ _ _
  | assign | expr | leave | result => rfl
  | branch arms last => exact congrArg Scopes.visible (last.slots_eq.trans arms.slots_eq)
  | loop _ block => exact congrArg Scopes.visible block.extends.1.leave_slots_eq
  | forEach _ block => exact congrArg Scopes.visible block.binding_slots
  | forRange _ _ block => exact congrArg Scopes.visible block.binding_slots

/-- A receiver that names a class is a name that stands for no local. -/
theorem namesClass_of_receiverType? {e : Syntax.Expr} {type : TypeId}
    (h : Scoped.receiverType? S v.slots e = some type) : e.namesClass v.slots.visible = true := by
  cases e with
  | ident span name =>
    cases hread : v.slots.read? name with
    | none => exact decide_eq_true (Scopes.read?_eq_none_iff.mp hread)
    | some slot =>
      rw [Scoped.receiverType?_local S hread] at h
      cases h
  | _ => cases h

/-- What is evaluated is no name of a class. -/
theorem Resolves.namesClass {e : Syntax.Expr} {e' : Expr} (h : Resolves S v e e') :
    e.namesClass v.slots.visible = false := by
  cases h with
  | ident found =>
    refine decide_eq_false fun hfree => ?_
    rw [Scopes.read?_eq_none_iff.mpr hfree] at found
    cases found
  | _ => rfl

/-! ### What the expressions become -/

variable (S)

/-- What an expression resolves to where some names are visible. -/
def Becomes (site : Situated) (e : Expr) : Prop :=
  ∃ v : View, v.slots.visible = site.visible ∧ Resolves S v site.expr e

variable {S}

theorem Resolves.becomes {e : Syntax.Expr} {e' : Expr} (h : Resolves S v e e') :
    Becomes S ⟨v.slots.visible, e⟩ e' := ⟨v, rfl, h⟩

/-- The parts of a call on what a receiver stands for. -/
theorem evaluated_receiver {receiver : Syntax.Expr} {r' : Expr} (object : Resolves S v receiver r') :
    (if receiver.namesClass v.slots.visible then [] else receiver.evaluated v.slots.visible) =
      receiver.evaluated v.slots.visible := by
  rw [object.namesClass, if_neg Bool.false_ne_true]

mutual

theorem Resolves.evaluated : ∀ (e : Syntax.Expr) {e' : Expr}, Resolves S v e e' →
    List.Forall₂ (Becomes S) (e.evaluated v.slots.visible) e'.evaluated
  | .literal _ _, _, h@(.literal) => .cons h.becomes .nil
  | .ident _ _, _, h@(.ident _) => .cons h.becomes .nil
  | .list _ items, _, h@(.list parts) => .cons h.becomes (Resolves.allEvaluated items parts)
  | .unary _ _ operand, _, h@(.unary part) => .cons h.becomes (Resolves.evaluated operand part)
  | .binary _ _ l r, _, h@(.binary left right) =>
    .cons h.becomes (List.rel_append (Resolves.evaluated l left) (Resolves.evaluated r right))
  | .index _ t p, _, h@(.index target place) =>
    .cons h.becomes (List.rel_append (Resolves.evaluated t target) (Resolves.evaluated p place))
  | .call _ _ args, _, h@(.callLocal parts _) => .cons h.becomes (Resolves.allEvaluated args parts)
  | .call _ _ args, _, h@(.callOwn parts _ _ _) => .cons h.becomes (Resolves.allEvaluated args parts)
  | .call _ _ args, _, h@(.callFunction parts _ _ _ _) =>
    .cons h.becomes (Resolves.allEvaluated args parts)
  | .method _ r _ args, _, h@(.qualified named parts _ _) => by
    refine .cons h.becomes ?_
    rw [namesClass_of_receiverType? named, if_pos rfl, List.nil_append]
    exact Resolves.allEvaluated args parts
  | .method _ r _ args, _, h@(.document _ object parts _ _ _) => by
    refine .cons h.becomes ?_
    rw [evaluated_receiver object]
    exact List.rel_append (Resolves.evaluated r object) (Resolves.allEvaluated args parts)
  | .method _ r _ args, _, h@(.dynamic _ object parts _ _) => by
    refine .cons h.becomes ?_
    rw [evaluated_receiver object]
    exact List.rel_append (Resolves.evaluated r object) (Resolves.allEvaluated args parts)
  | .method _ r _ args, _, h@(.receiver _ object parts _ _ _ _) => by
    refine .cons h.becomes ?_
    rw [evaluated_receiver object]
    exact List.rel_append (Resolves.evaluated r object) (Resolves.allEvaluated args parts)

theorem Resolves.allEvaluated : ∀ (es : List Syntax.Expr) {es' : List Expr},
    List.Forall₂ (Resolves S v) es es' →
      List.Forall₂ (Becomes S) (Syntax.Expr.allEvaluated v.slots.visible es) (Expr.allEvaluated es')
  | [], _, .nil => .nil
  | e :: es, _, .cons head tail =>
    List.rel_append (Resolves.evaluated e head) (Resolves.allEvaluated es tail)

end

mutual

theorem ResolvesStmt.evaluated : ∀ (s : Syntax.Stmt) {v w : View} {t : Stmt}, ResolvesStmt S v s t w →
    List.Forall₂ (Becomes S) (s.evaluated v.slots.visible) t.evaluated
  | .declare _ _ e, _, _, _, .declare value => Resolves.evaluated e value
  | .assign _ _ e, _, _, _, .assign value _ => Resolves.evaluated e value
  | .expr _ e, _, _, _, .expr value => Resolves.evaluated e value
  | .branch _ branches otherwise, _, _, _, .branch arms last => by
    have hlast := ResolvesOtherwise.evaluated otherwise last
    rw [arms.slots_eq] at hlast
    exact List.rel_append (ResolvesArms.evaluated branches arms) hlast
  | .loop _ condition body, _, _, _, .loop test block => by
    have hbody := ResolvesStmts.evaluated body block
    exact List.rel_append (Resolves.evaluated condition test) hbody
  | .forEach _ binding items body, _, _, _, .forEach values block => by
    have hbody := ResolvesStmts.evaluated body block
    rw [View.enter, Scopes.visible_enter, View.declare, Scopes.visible_declare, View.enter,
      Scopes.visible_enter] at hbody
    exact List.rel_append (Resolves.evaluated items values) hbody
  | .forRange _ binding start stop body, _, _, _, .forRange first last block => by
    have hbody := ResolvesStmts.evaluated body block
    rw [View.enter, Scopes.visible_enter, View.declare, Scopes.visible_declare, View.enter,
      Scopes.visible_enter] at hbody
    exact List.rel_append (Resolves.evaluated start first)
      (List.rel_append (Resolves.evaluated stop last) hbody)
  | .result _ none, _, _, _, .leave => .nil
  | .result _ (some e), _, _, _, .result value => Resolves.evaluated e value

theorem ResolvesStmts.evaluated : ∀ (ss : List Syntax.Stmt) {v w : View} {ts : List Stmt},
    ResolvesStmts S v ss ts w →
      List.Forall₂ (Becomes S) (Syntax.Stmt.allEvaluated v.slots.visible ss) (Stmt.allEvaluated ts)
  | [], _, _, _, .nil => .nil
  | s :: ss, _, _, _, .cons head tail => by
    have htail := ResolvesStmts.evaluated ss tail
    rw [head.visible_behind] at htail
    exact List.rel_append (ResolvesStmt.evaluated s head) htail

theorem ResolvesArms.evaluated : ∀ (bs : List (Syntax.Expr × List Syntax.Stmt)) {v w : View}
    {cs : List (Expr × List Stmt)}, ResolvesArms S v bs cs w →
      List.Forall₂ (Becomes S) (Syntax.Stmt.armsEvaluated v.slots.visible bs) (Stmt.armsEvaluated cs)
  | [], _, _, _, .nil => .nil
  | (condition, body) :: bs, _, _, _, .cons test block tail => by
    have htail := ResolvesArms.evaluated bs tail
    rw [block.extends.1.leave_slots_eq] at htail
    exact List.rel_append (Resolves.evaluated condition test)
      (List.rel_append (ResolvesStmts.evaluated body block) htail)

theorem ResolvesOtherwise.evaluated : ∀ (o : Option (List Syntax.Stmt)) {v w : View}
    {p : Option (List Stmt)}, ResolvesOtherwise S v o p w →
      List.Forall₂ (Becomes S) (Syntax.Stmt.otherwiseEvaluated v.slots.visible o)
        (Stmt.otherwiseEvaluated p)
  | none, _, _, _, .none => .nil
  | some body, _, _, _, .some block => by
    have hbody := ResolvesStmts.evaluated body block
    exact hbody

end

end

/-- Behind its parameters the names of a method are those of its parameters. -/
theorem visible_paramsView {m : Pending} (hm : m.Faithful) :
    (paramsView m).slots.visible = (m.declaration.params.map fun p => p.name.text).reverse := by
  have hlength : (m.declaration.params.map fun p => p.name.text).length ≤
      (List.range m.signature.params.length).length := by
    rw [List.length_map, List.length_range]
    exact Nat.le_of_eq hm.length_params.symm
  rw [paramsView, Scoped.parameters, Scopes.visible, List.flatten_singleton, List.map_reverse,
    List.map_fst_zip hlength]

/-- **Expressions**: a method of a program has an expression for each one of its declaration, in the same
order, and this is what that one resolves to. -/
theorem Implements.evaluated {S : Surroundings} {m : Pending} {m' : Method}
    (h : Implements S m m') : List.Forall₂ (Becomes S) m.declaration.evaluated m'.evaluated := by
  obtain ⟨w, hbody, -⟩ := h.body
  have hall := ResolvesStmts.evaluated m.declaration.body hbody
  rwa [View.enter, Scopes.visible_enter, visible_paramsView h.faithful] at hall

end Program

end ReportTemplate
