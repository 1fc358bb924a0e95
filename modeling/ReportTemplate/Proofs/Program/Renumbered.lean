import ReportTemplate.Program.Resolution
import ReportTemplate.Proofs.Machine.Renumbered

/-!
# ReportTemplate.Proofs.Program.Renumbered — bodies resolved with methods under other numbers

When the same methods are declared under other numbers, the bodies of methods are resolved in the same
way: the numbers in their calls are the other ones, and what is reported is the same.
-/

namespace ReportTemplate.Program

variable {σ : MethodId → MethodId}

/-- The same classes and methods are declared, the methods under other numbers. -/
structure Declarations.Renumbered (σ : MethodId → MethodId) (d e : Declarations) : Prop where
  types : e.types = d.types
  find : ∀ (owner : TypeId) (name : String),
    e.findMethod? owner name = (d.findMethod? owner name).map σ
  get : ∀ id : MethodId, e.methods[σ id]? = d.methods[id]?

namespace Resolve

/-! ### Values that correspond -/

/-- The second computation does what the first does, and gives a value that corresponds to its value. -/
def Maps {α β : Type} (k : α → β) (x : Resolve α) (y : Resolve β) : Prop :=
  ∀ s, y s = (k (x s).1, (x s).2)

namespace Maps

variable {α β γ δ : Type} {k : α → β} {l : γ → δ} {x : Resolve α} {y : Resolve β}

theorem pure {a : α} {b : β} (h : b = k a) : Maps k (Pure.pure a) (Pure.pure b) := by
  intro s
  rw [h]
  rfl

theorem bind {f : α → Resolve γ} {g : β → Resolve δ} (hx : Maps k x y)
    (hf : ∀ a, Maps l (f a) (g (k a))) : Maps l (x >>= f) (y >>= g) := by
  intro s
  show g (y s).1 (y s).2 = _
  rw [hx s]
  exact hf (x s).1 (x s).2

/-- Both do the same first. -/
theorem after (z : Resolve γ) {f : γ → Resolve α} {g : γ → Resolve β} (hf : ∀ c, Maps k (f c) (g c)) :
    Maps k (z >>= f) (z >>= g) := fun s => hf (z s).1 (z s).2

theorem inScope (hx : Maps k x y) : Maps k (Resolve.inScope x) (Resolve.inScope y) :=
  .after _ fun _ => hx.bind fun _ => .after _ fun _ => .pure rfl

end Maps

/-! ### Calls -/

/-- A resolved expression with other numbers in its calls. -/
def renumbered (σ : MethodId → MethodId) (r : Expr × Ty) : Expr × Ty := (r.1.renumber σ, r.2)

section

variable {S : Surroundings} {e : Declarations} (h : S.declared.Renumbered σ e) (line : Nat)
  (args : List Expr)

theorem maps_refused (code : Diagnostic.Code) (message : String) (span : Span) :
    Maps (renumbered σ) (do
      report code message span
      return unresolved line) (do
      report code message span
      return unresolved line) :=
  .after _ fun _ => .pure rfl

theorem maps_counted (name : String) (wanted found : Nat) (span : Span) {r r' : Expr × Ty}
    (hr : r' = renumbered σ r) :
    Maps (renumbered σ) (do
      if ← checkCount name wanted found span then return r
      return unresolved line) (do
      if ← checkCount name wanted found span then return r'
      return unresolved line) := by
  refine .after _ fun ok => ?_
  cases ok with
  | true => exact .pure hr
  | false => exact .pure rfl

theorem maps_localCall (slot : Slot) (ty : Ty) (callee : Syntax.Ident) :
    Maps (renumbered σ) (localCall line slot ty callee args)
      (localCall line slot ty callee (Expr.renumberAll σ args)) := by
  refine .after _ fun _ => ?_
  split
  · rw [Expr.length_renumberAll]
    exact maps_counted line _ _ _ _ rfl
  · exact .pure rfl
  · exact maps_refused line _ _ _

theorem maps_documentCall (receiver : Expr) (method : Syntax.Ident) :
    Maps (renumbered σ) (documentCall S line receiver method args)
      (documentCall { S with declared := e } line (receiver.renumber σ) method
        (Expr.renumberAll σ args)) := by
  unfold documentCall
  rw [Expr.length_renumberAll]
  dsimp only
  split
  · exact maps_counted line _ _ _ _ rfl
  · exact maps_refused line _ _ _

theorem maps_dynamicCall (receiver : Expr) (method : Syntax.Ident) :
    Maps (renumbered σ) (dynamicCall S line receiver method args)
      (dynamicCall { S with declared := e } line (receiver.renumber σ) method
        (Expr.renumberAll σ args)) := by
  unfold dynamicCall
  rw [Expr.length_renumberAll]
  dsimp only
  split
  · exact maps_refused line _ _ _
  · split
    · exact maps_refused line _ _ _
    · exact .pure rfl

theorem maps_receiverCall (receiver : Expr) (ty : Ty) (method : Syntax.Ident) :
    Maps (renumbered σ) (receiverCall S line receiver ty method args)
      (receiverCall { S with declared := e } line (receiver.renumber σ) ty method
        (Expr.renumberAll σ args)) := by
  unfold receiverCall
  rw [Expr.length_renumberAll]
  dsimp only
  split
  · exact maps_counted line _ _ _ _ rfl
  · exact maps_refused line _ _ _

theorem maps_methodCall (receiver : Expr) (ty : Ty) (method : Syntax.Ident) :
    Maps (renumbered σ) (methodCall S line receiver ty method args)
      (methodCall { S with declared := e } line (receiver.renumber σ) ty method
        (Expr.renumberAll σ args)) := by
  unfold methodCall
  split
  · exact maps_documentCall line args receiver method
  · exact maps_dynamicCall line args receiver method
  · exact maps_receiverCall line args receiver _ method

include h

theorem maps_staticCall (id : MethodId) (shown : String) (span : Span) :
    Maps (renumbered σ) (staticCall S line id shown args span)
      (staticCall { S with declared := e } line (σ id) shown (Expr.renumberAll σ args) span) := by
  unfold staticCall
  rw [h.get, Expr.length_renumberAll]
  split
  · exact .pure rfl
  · split
    · exact maps_refused line _ _ _
    · exact maps_counted line _ _ _ _ rfl

theorem maps_plainCall (callee : Syntax.Ident) :
    Maps (renumbered σ) (plainCall S line callee args)
      (plainCall { S with declared := e } line callee (Expr.renumberAll σ args)) := by
  unfold plainCall
  rw [h.find, Expr.length_renumberAll]
  cases S.declared.findMethod? S.owner callee.text with
  | some id => exact maps_staticCall h line args id _ _
  | none =>
    dsimp only [Option.map_none]
    split
    · exact maps_counted line _ _ _ _ rfl
    · exact maps_refused line _ _ _

theorem maps_qualifiedCall (type : TypeId) (typeName : String) (method : Syntax.Ident) :
    Maps (renumbered σ) (qualifiedCall S line type typeName method args)
      (qualifiedCall { S with declared := e } line type typeName method
        (Expr.renumberAll σ args)) := by
  unfold qualifiedCall
  rw [h.find]
  cases S.declared.findMethod? type method.text with
  | some id => exact maps_staticCall h line args id _ _
  | none => exact maps_refused line _ _ _

end

/-! ### Expressions and statements -/

section

variable {S : Surroundings} {e : Declarations}

theorem receiverType?_renumber (h : S.declared.Renumbered σ e) (x : Syntax.Expr) :
    receiverType? { S with declared := e } x = receiverType? S x := by
  unfold receiverType? Declarations.findType?
  rw [h.types]

mutual

theorem maps_expr (h : S.declared.Renumbered σ e) : ∀ x : Syntax.Expr,
    Maps (renumbered σ) (expr S x) (expr { S with declared := e } x)
  | .literal _ _ => .pure rfl
  | .ident _ name => .after (lookup name) fun found => by
    cases found with
    | some found => exact .after _ fun _ => .pure rfl
    | none => exact maps_refused _ _ _ _
  | .list _ items => (maps_exprs h items).bind fun _ => .pure rfl
  | .unary _ _ operand => (maps_expr h operand).bind fun _ => .pure rfl
  | .binary _ _ left right =>
    (maps_expr h left).bind fun _ => (maps_expr h right).bind fun _ => .pure rfl
  | .index _ target place =>
    (maps_expr h target).bind fun _ => (maps_expr h place).bind fun _ => .pure rfl
  | .call _ callee args => by
    refine (maps_exprs h args).bind fun args => .after (lookup callee.text) fun found => ?_
    cases found with
    | some found => exact maps_localCall _ args found.1 found.2 callee
    | none => exact maps_plainCall h _ args callee
  | .method _ receiver method args => by
    unfold expr
    rw [receiverType?_renumber h]
    refine .after (receiverType? S receiver) fun found => ?_
    cases found with
    | some found =>
      exact (maps_exprs h args).bind fun args => maps_qualifiedCall h _ args found.1 found.2 method
    | none =>
      exact (maps_expr h receiver).bind fun r => (maps_exprs h args).bind fun args =>
        maps_methodCall _ args r.1 r.2 method

theorem maps_exprs (h : S.declared.Renumbered σ e) : ∀ xs : List Syntax.Expr,
    Maps (Expr.renumberAll σ) (exprs S xs) (exprs { S with declared := e } xs)
  | [] => .pure rfl
  | x :: xs => (maps_expr h x).bind fun _ => (maps_exprs h xs).bind fun _ => .pure rfl

end

theorem maps_assign (line : Nat) (name : Syntax.Ident) (value : Expr) (ty : Ty) :
    Maps (Stmt.renumber σ) (assign line name value ty) (assign line name (value.renumber σ) ty) := by
  refine .after _ fun found => ?_
  cases found with
  | none => exact .after _ fun _ => .pure rfl
  | some found =>
    dsimp only
    split
    · exact .after _ fun _ => .pure rfl
    · exact .pure rfl

/-- A block behind a binding of its own. -/
theorem maps_binding (name : String) (ty : Ty) (span : Span) {x y : Resolve (List Stmt)}
    (hx : Maps (Stmt.renumberAll σ) x y) :
    Maps (Prod.map id (Stmt.renumberAll σ)) (inScope do
      let slot ← declare name ty span false
      let body ← inScope x
      return (slot, body)) (inScope do
      let slot ← declare name ty span false
      let body ← inScope y
      return (slot, body)) :=
  .inScope (.after _ fun _ => hx.inScope.bind fun _ => .pure rfl)

mutual

theorem maps_stmt (h : S.declared.Renumbered σ e) : ∀ s : Syntax.Stmt,
    Maps (Stmt.renumber σ) (stmt S s) (stmt { S with declared := e } s)
  | .declare _ _ value => (maps_expr h value).bind fun _ => .after _ fun _ => .pure rfl
  | .assign _ _ value => (maps_expr h value).bind fun _ => maps_assign _ _ _ _
  | .expr _ value => (maps_expr h value).bind fun _ => .pure rfl
  | .branch _ branches otherwise =>
    (maps_arms h branches).bind fun _ => (maps_otherwiseArm h otherwise).bind fun _ => .pure rfl
  | .loop _ condition body =>
    (maps_expr h condition).bind fun _ => (maps_stmts h .open body).inScope.bind fun _ => .pure rfl
  | .forEach _ _ items body =>
    (maps_expr h items).bind fun _ => (maps_binding _ _ _ (maps_stmts h .open body)).bind fun _ =>
      .pure rfl
  | .forRange _ _ start stop body =>
    (maps_expr h start).bind fun _ => (maps_expr h stop).bind fun _ =>
      (maps_binding _ _ _ (maps_stmts h .open body)).bind fun _ => .pure rfl
  | .result _ none => .pure rfl
  | .result _ (some value) => (maps_expr h value).bind fun _ => .pure rfl

theorem maps_stmts (h : S.declared.Renumbered σ e) :
    ∀ (reached : Reached) (ss : List Syntax.Stmt),
    Maps (Stmt.renumberAll σ) (stmts S reached ss) (stmts { S with declared := e } reached ss)
  | _, [] => .pure rfl
  | reached, s :: ss => .after (reach reached s.span) fun reached =>
    (maps_stmt h s).bind fun _ => (maps_stmts h (reached.after s) ss).bind fun _ => .pure rfl

theorem maps_arms (h : S.declared.Renumbered σ e) : ∀ bs : List (Syntax.Expr × List Syntax.Stmt),
    Maps (Stmt.renumberArms σ) (arms S bs) (arms { S with declared := e } bs)
  | [] => .pure rfl
  | (condition, body) :: rest =>
    (maps_expr h condition).bind fun _ => (maps_stmts h .open body).inScope.bind fun _ =>
      (maps_arms h rest).bind fun _ => .pure rfl

theorem maps_otherwiseArm (h : S.declared.Renumbered σ e) : ∀ o : Option (List Syntax.Stmt),
    Maps (Stmt.renumberOtherwise σ) (otherwiseArm S o) (otherwiseArm { S with declared := e } o)
  | none => .pure rfl
  | some body => (maps_stmts h .open body).inScope.bind fun _ => .pure rfl

end

theorem maps_body (h : S.declared.Renumbered σ e) (m : Pending) :
    Maps (Stmt.renumberAll σ) (body S m) (body { S with declared := e } m) :=
  .after _ fun _ => (maps_stmts h .open m.declaration.body).inScope

end

end Resolve

/-- **Bodies** are resolved to the same calls under other numbers, with the same reports. -/
theorem resolveMethod_renumber {d e : Declarations} (h : d.Renumbered σ e) (refs : ReferenceSet)
    (lines : LineIndex) (m : Pending) : resolveMethod refs lines e m =
      ((resolveMethod refs lines d m).1.renumber σ, (resolveMethod refs lines d m).2) := by
  have hbody := Resolve.maps_body (S := ⟨refs, lines, d, m.owner⟩) h m {}
  unfold resolveMethod
  rw [hbody]
  rfl

end ReportTemplate.Program
