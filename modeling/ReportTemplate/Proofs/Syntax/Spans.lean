import ReportTemplate.Syntax

/-!
# ReportTemplate.Proofs.Syntax.Spans — the spans of a syntax tree

`Spans P` says that every span in a tree has the property `P`: that of each node and that of each name.
-/

namespace ReportTemplate.Syntax

section

variable (P : Span → Prop)

mutual

/-- Every span in a type has a property. -/
def TypeExpr.Spans : TypeExpr → Prop
  | .named span _ => P span
  | .callback span params => P span ∧ TypeExpr.AllSpans params

def TypeExpr.AllSpans : List TypeExpr → Prop
  | [] => True
  | t :: ts => t.Spans ∧ TypeExpr.AllSpans ts

end

mutual

/-- Every span in an expression has a property. -/
def Expr.Spans : Expr → Prop
  | .literal span _ | .ident span _ => P span
  | .list span items => P span ∧ Expr.AllSpans items
  | .unary span _ operand => P span ∧ operand.Spans
  | .binary span _ left right => P span ∧ left.Spans ∧ right.Spans
  | .call span callee args => P span ∧ P callee.span ∧ Expr.AllSpans args
  | .method span receiver name args =>
    P span ∧ receiver.Spans ∧ P name.span ∧ Expr.AllSpans args
  | .index span target place => P span ∧ target.Spans ∧ place.Spans

def Expr.AllSpans : List Expr → Prop
  | [] => True
  | e :: es => e.Spans ∧ Expr.AllSpans es

end

mutual

/-- Every span in a statement has a property. -/
def Stmt.Spans : Stmt → Prop
  | .declare span name value | .assign span name value => P span ∧ P name.span ∧ value.Spans P
  | .expr span value => P span ∧ value.Spans P
  | .branch span branches otherwise =>
    P span ∧ Stmt.ArmsSpans branches ∧ Stmt.OtherwiseSpans otherwise
  | .loop span cond body => P span ∧ cond.Spans P ∧ Stmt.AllSpans body
  | .forEach span binding items body =>
    P span ∧ P binding.span ∧ items.Spans P ∧ Stmt.AllSpans body
  | .forRange span binding start stop body =>
    P span ∧ P binding.span ∧ start.Spans P ∧ stop.Spans P ∧ Stmt.AllSpans body
  | .result span none => P span
  | .result span (some value) => P span ∧ value.Spans P

def Stmt.AllSpans : List Stmt → Prop
  | [] => True
  | s :: ss => s.Spans ∧ Stmt.AllSpans ss

def Stmt.ArmsSpans : List (Expr × List Stmt) → Prop
  | [] => True
  | (cond, body) :: rest => cond.Spans P ∧ Stmt.AllSpans body ∧ Stmt.ArmsSpans rest

def Stmt.OtherwiseSpans : Option (List Stmt) → Prop
  | none => True
  | some body => Stmt.AllSpans body

end

/-- Every span in a parameter has a property. -/
def Param.Spans (p : Param) : Prop := P p.name.span ∧ p.type.Spans P

/-- Every span in a method has a property. -/
structure Method.Spans (m : Method) : Prop where
  whole : P m.span
  name : P m.name.span
  params : ∀ p ∈ m.params, p.Spans P
  returns : ∀ t ∈ m.returns, t.Spans P
  body : Stmt.AllSpans P m.body

mutual

/-- Every span in a class has a property. -/
def Class.Spans : Class → Prop
  | .mk span name members => P span ∧ P name.span ∧ Class.AllSpans members

def Class.AllSpans : List (Method ⊕ Class) → Prop
  | [] => True
  | .inl m :: members => m.Spans P ∧ Class.AllSpans members
  | .inr c :: members => c.Spans ∧ Class.AllSpans members

end

/-- Every span in a source has a property. -/
def File.Spans (f : File) : Prop := ∀ c ∈ f.classes, c.Spans P

end

/-! ### Lists of trees -/

variable {P : Span → Prop}

theorem TypeExpr.allSpans_iff {ts : List TypeExpr} :
    TypeExpr.AllSpans P ts ↔ ∀ t ∈ ts, t.Spans P := by
  induction ts with
  | nil => exact ⟨fun _ => nofun, fun _ => trivial⟩
  | cons t ts ih => rw [List.forall_mem_cons, ← ih]; rfl

theorem Expr.allSpans_iff {es : List Expr} : Expr.AllSpans P es ↔ ∀ e ∈ es, e.Spans P := by
  induction es with
  | nil => exact ⟨fun _ => nofun, fun _ => trivial⟩
  | cons e es ih => rw [List.forall_mem_cons, ← ih]; rfl

theorem Stmt.allSpans_iff {ss : List Stmt} : Stmt.AllSpans P ss ↔ ∀ s ∈ ss, s.Spans P := by
  induction ss with
  | nil => exact ⟨fun _ => nofun, fun _ => trivial⟩
  | cons s ss ih => rw [List.forall_mem_cons, ← ih]; rfl

theorem Stmt.armsSpans_iff {bs : List (Expr × List Stmt)} :
    Stmt.ArmsSpans P bs ↔ ∀ b ∈ bs, b.1.Spans P ∧ Stmt.AllSpans P b.2 := by
  induction bs with
  | nil => exact ⟨fun _ => nofun, fun _ => trivial⟩
  | cons b bs ih => rw [List.forall_mem_cons, ← ih, and_assoc]; rfl

/-- A member of a class is a method or a class inside it. -/
def Class.MemberSpans (P : Span → Prop) (x : Method ⊕ Class) : Prop :=
  Sum.elim (Method.Spans P) (Class.Spans P) x

theorem Class.allSpans_iff {members : List (Method ⊕ Class)} :
    Class.AllSpans P members ↔ ∀ x ∈ members, Class.MemberSpans P x := by
  induction members with
  | nil => exact ⟨fun _ => nofun, fun _ => trivial⟩
  | cons x members ih =>
    rw [List.forall_mem_cons, ← ih]
    cases x <;> rfl

mutual

theorem Expr.spans_of_forall (h : ∀ span, P span) : ∀ e : Expr, e.Spans P
  | .literal span _ | .ident span _ => h span
  | .list span items => ⟨h span, Expr.allSpans_of_forall h items⟩
  | .unary span _ operand => ⟨h span, Expr.spans_of_forall h operand⟩
  | .binary span _ left right =>
    ⟨h span, Expr.spans_of_forall h left, Expr.spans_of_forall h right⟩
  | .call span callee args => ⟨h span, h callee.span, Expr.allSpans_of_forall h args⟩
  | .method span receiver name args =>
    ⟨h span, Expr.spans_of_forall h receiver, h name.span, Expr.allSpans_of_forall h args⟩
  | .index span target place =>
    ⟨h span, Expr.spans_of_forall h target, Expr.spans_of_forall h place⟩

theorem Expr.allSpans_of_forall (h : ∀ span, P span) : ∀ es : List Expr, Expr.AllSpans P es
  | [] => trivial
  | e :: es => ⟨Expr.spans_of_forall h e, Expr.allSpans_of_forall h es⟩

end

/-! ### The span of a whole tree -/

theorem Expr.Spans.whole {e : Expr} (h : e.Spans P) : P e.span := by
  cases e with
  | literal => exact h
  | ident => exact h
  | _ => exact h.1

theorem Stmt.Spans.whole {s : Stmt} (h : s.Spans P) : P s.span := by
  cases s with
  | result span value =>
    cases value with
    | none => exact h
    | some value => exact h.1
  | _ => exact h.1

theorem Class.Spans.name {c : Class} (h : c.Spans P) : P c.name.span := by
  cases c
  exact h.2.1

end ReportTemplate.Syntax
