import ReportTemplate.Proofs.Syntax.Elements
import ReportTemplate.Proofs.Syntax.Spans

/-!
# ReportTemplate.Proofs.Syntax.Nodes — the nodes of a body

A node is an expression or a statement with what is asked of it.  `Part` says that a node stands directly
inside another one, `Inside` that it stands anywhere inside a body.
-/

namespace ReportTemplate.Syntax

/-- An expression, an expression that is to be a truth value or the bound of a range, or a statement. -/
inductive Node where
  | value (e : Expr)
  | condition (e : Expr)
  | bound (e : Expr)
  | stmt (s : Stmt)

namespace Node

/-- The span of the expression or statement. -/
def span : Node → Span
  | value e | condition e | bound e => e.span
  | stmt s => s.span

/-- The element of the source that is asked for. -/
def element : Node → Element
  | value e | condition e | bound e => .expr e
  | stmt s => .stmt s

theorem span_element (n : Node) : n.element.span = n.span := by
  cases n <;> rfl

/-- Every span in a node has a property. -/
def Spans (P : Span → Prop) : Node → Prop
  | value e | condition e | bound e => e.Spans P
  | stmt s => s.Spans P

/-- The second node stands directly inside the first. -/
inductive Part : Node → Node → Prop
  | condition {e : Expr} : Part (.condition e) (.value e)
  | bound {e : Expr} : Part (.bound e) (.value e)
  | item {span : Span} {items : List Expr} {e : Expr} (mem : e ∈ items) :
      Part (.value (.list span items)) (.value e)
  | operand {span : Span} {op : UnaryOp} {e : Expr} : Part (.value (.unary span op e)) (.value e)
  | left {span : Span} {op : BinaryOp} {l r : Expr} (and : op ≠ .and) (or : op ≠ .or) :
      Part (.value (.binary span op l r)) (.value l)
  | right {span : Span} {op : BinaryOp} {l r : Expr} (and : op ≠ .and) (or : op ≠ .or) :
      Part (.value (.binary span op l r)) (.value r)
  | leftTruth {span : Span} {op : BinaryOp} {l r : Expr} (logical : op = .and ∨ op = .or) :
      Part (.value (.binary span op l r)) (.condition l)
  | rightTruth {span : Span} {op : BinaryOp} {l r : Expr} (logical : op = .and ∨ op = .or) :
      Part (.value (.binary span op l r)) (.condition r)
  | target {span : Span} {e place : Expr} : Part (.value (.index span e place)) (.value e)
  | place {span : Span} {e place : Expr} : Part (.value (.index span e place)) (.value place)
  | callArg {span : Span} {callee : Ident} {args : List Expr} {e : Expr} (mem : e ∈ args) :
      Part (.value (.call span callee args)) (.value e)
  | receiver {span : Span} {r : Expr} {name : Ident} {args : List Expr} :
      Part (.value (.method span r name args)) (.value r)
  | methodArg {span : Span} {r : Expr} {name : Ident} {args : List Expr} {e : Expr}
      (mem : e ∈ args) : Part (.value (.method span r name args)) (.value e)
  | declared {span : Span} {name : Ident} {e : Expr} : Part (.stmt (.declare span name e)) (.value e)
  | assigned {span : Span} {name : Ident} {e : Expr} : Part (.stmt (.assign span name e)) (.value e)
  | evaluated {span : Span} {e : Expr} : Part (.stmt (.expr span e)) (.value e)
  | test {span : Span} {branches : List (Expr × List Stmt)} {otherwise : Option (List Stmt)}
      {arm : Expr × List Stmt} (mem : arm ∈ branches) :
      Part (.stmt (.branch span branches otherwise)) (.condition arm.1)
  | taken {span : Span} {branches : List (Expr × List Stmt)} {otherwise : Option (List Stmt)}
      {arm : Expr × List Stmt} {s : Stmt} (mem : arm ∈ branches) (inner : s ∈ arm.2) :
      Part (.stmt (.branch span branches otherwise)) (.stmt s)
  | otherwise {span : Span} {branches : List (Expr × List Stmt)} {body : List Stmt} {s : Stmt}
      (mem : s ∈ body) : Part (.stmt (.branch span branches (some body))) (.stmt s)
  | loopTest {span : Span} {cond : Expr} {body : List Stmt} :
      Part (.stmt (.loop span cond body)) (.condition cond)
  | loopBody {span : Span} {cond : Expr} {body : List Stmt} {s : Stmt} (mem : s ∈ body) :
      Part (.stmt (.loop span cond body)) (.stmt s)
  | items {span : Span} {binding : Ident} {items : Expr} {body : List Stmt} :
      Part (.stmt (.forEach span binding items body)) (.value items)
  | eachBody {span : Span} {binding : Ident} {items : Expr} {body : List Stmt} {s : Stmt}
      (mem : s ∈ body) : Part (.stmt (.forEach span binding items body)) (.stmt s)
  | start {span : Span} {binding : Ident} {start stop : Expr} {body : List Stmt} :
      Part (.stmt (.forRange span binding start stop body)) (.bound start)
  | stop {span : Span} {binding : Ident} {start stop : Expr} {body : List Stmt} :
      Part (.stmt (.forRange span binding start stop body)) (.bound stop)
  | rangeBody {span : Span} {binding : Ident} {start stop : Expr} {body : List Stmt} {s : Stmt}
      (mem : s ∈ body) : Part (.stmt (.forRange span binding start stop body)) (.stmt s)
  | returned {span : Span} {e : Expr} : Part (.stmt (.result span (some e))) (.value e)

/-- A node stands somewhere inside a body. -/
inductive Inside (body : List Stmt) : Node → Prop
  | stmt {s : Stmt} (mem : s ∈ body) : Inside body (.stmt s)
  | part {n n' : Node} (outer : Inside body n) (part : Part n n') : Inside body n'

variable {P : Span → Prop} {n n' : Node}

theorem Part.spans (h : Part n n') (hn : n.Spans P) : n'.Spans P := by
  cases h with
  | condition => exact hn
  | bound => exact hn
  | item mem => exact Expr.allSpans_iff.mp hn.2 _ mem
  | operand => exact hn.2
  | left => exact hn.2.1
  | right => exact hn.2.2
  | leftTruth => exact hn.2.1
  | rightTruth => exact hn.2.2
  | target => exact hn.2.1
  | place => exact hn.2.2
  | callArg mem => exact Expr.allSpans_iff.mp hn.2.2 _ mem
  | receiver => exact hn.2.1
  | methodArg mem => exact Expr.allSpans_iff.mp hn.2.2.2 _ mem
  | declared => exact hn.2.2
  | assigned => exact hn.2.2
  | evaluated => exact hn.2
  | test mem => exact (Stmt.armsSpans_iff.mp hn.2.1 _ mem).1
  | taken mem inner => exact Stmt.allSpans_iff.mp (Stmt.armsSpans_iff.mp hn.2.1 _ mem).2 _ inner
  | otherwise mem => exact Stmt.allSpans_iff.mp hn.2.2 _ mem
  | loopTest => exact hn.2.1
  | loopBody mem => exact Stmt.allSpans_iff.mp hn.2.2 _ mem
  | items => exact hn.2.2.1
  | eachBody mem => exact Stmt.allSpans_iff.mp hn.2.2.2 _ mem
  | start => exact hn.2.2.1
  | stop => exact hn.2.2.2.1
  | rangeBody mem => exact Stmt.allSpans_iff.mp hn.2.2.2.2 _ mem
  | returned => exact hn.2

/-- What holds of the spans of a body holds of those of a node inside it. -/
theorem Inside.spans {body : List Stmt} (h : Inside body n) (hbody : Stmt.AllSpans P body) :
    n.Spans P := by
  induction h with
  | stmt mem => exact Stmt.allSpans_iff.mp hbody _ mem
  | part _ part ih => exact part.spans ih

/-- What stands directly inside a node is a part of its element, or this element itself. -/
theorem Part.element (h : Part n n') : n'.element = n.element ∨ n'.element ∈ n.element.parts := by
  cases h with
  | condition => exact .inl rfl
  | bound => exact .inl rfl
  | item mem => exact .inr (List.mem_map_of_mem mem)
  | operand => exact .inr List.mem_cons_self
  | left => exact .inr List.mem_cons_self
  | right => exact .inr (List.mem_cons_of_mem _ List.mem_cons_self)
  | leftTruth => exact .inr List.mem_cons_self
  | rightTruth => exact .inr (List.mem_cons_of_mem _ List.mem_cons_self)
  | target => exact .inr List.mem_cons_self
  | place => exact .inr (List.mem_cons_of_mem _ List.mem_cons_self)
  | callArg mem => exact .inr (List.mem_cons_of_mem _ (List.mem_map_of_mem mem))
  | receiver => exact .inr List.mem_cons_self
  | methodArg mem =>
    exact .inr (List.mem_cons_of_mem _ (List.mem_cons_of_mem _ (List.mem_map_of_mem mem)))
  | declared => exact .inr (List.mem_cons_of_mem _ List.mem_cons_self)
  | assigned => exact .inr (List.mem_cons_of_mem _ List.mem_cons_self)
  | evaluated => exact .inr List.mem_cons_self
  | test mem => exact .inr (List.mem_append_left _ (List.mem_flatMap_of_mem mem List.mem_cons_self))
  | taken mem inner =>
    exact .inr (List.mem_append_left _ (List.mem_flatMap_of_mem mem
      (List.mem_cons_of_mem _ (List.mem_map_of_mem inner))))
  | otherwise mem =>
    exact .inr (List.mem_append_right _
      (List.mem_flatMap_of_mem (Option.mem_toList.mpr rfl) (List.mem_map_of_mem mem)))
  | loopTest => exact .inr List.mem_cons_self
  | loopBody mem => exact .inr (List.mem_cons_of_mem _ (List.mem_map_of_mem mem))
  | items => exact .inr (List.mem_cons_of_mem _ List.mem_cons_self)
  | eachBody mem =>
    exact .inr (List.mem_cons_of_mem _ (List.mem_cons_of_mem _ (List.mem_map_of_mem mem)))
  | start => exact .inr (List.mem_cons_of_mem _ List.mem_cons_self)
  | stop => exact .inr (List.mem_cons_of_mem _ (List.mem_cons_of_mem _ List.mem_cons_self))
  | rangeBody mem =>
    exact .inr (List.mem_cons_of_mem _ (List.mem_cons_of_mem _
      (List.mem_cons_of_mem _ (List.mem_map_of_mem mem))))
  | returned => exact .inr List.mem_cons_self

/-- A node inside the body of a method stands in the source where the method does. -/
theorem Inside.has {f : File} {d : Method} (hd : f.Has (.method d)) (h : Inside d.body n) :
    f.Has n.element := by
  induction h with
  | stmt mem =>
    exact hd.part (List.mem_cons_of_mem _
      (List.mem_append_right _ (List.mem_append_right _ (List.mem_map_of_mem mem))))
  | part _ part ih =>
    rcases part.element with heq | hmem
    · rw [heq]
      exact ih
    · exact ih.part hmem

theorem Spans.whole (h : n.Spans P) : P n.span := by
  cases n with
  | stmt s => exact Stmt.Spans.whole h
  | _ => exact Expr.Spans.whole h

end Node

end ReportTemplate.Syntax
