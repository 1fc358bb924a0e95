import ReportTemplate.Proofs.Program.Declared

/-!
# ReportTemplate.Proofs.Program.Resolution — bodies without an error are resolved

Each computation of `Resolve` clears into the form that `Resolves` and `ResolvesStmt` describe, and the
static type that it computes is `typeOf`.
-/

namespace ReportTemplate.Program

open Scoped (typeOf returnType calledType methodType)

theorem Declarations.exists_of_findMethod? {d : Declarations} {owner : TypeId} {name : String}
    {id : MethodId} (h : d.findMethod? owner name = some id) :
    ∃ m, d.methods[id]? = some m ∧ m.owner = owner ∧ m.signature.name = name := by
  obtain ⟨hlt, hm, -⟩ := List.findIdx?_eq_some_iff_getElem.mp h
  simp only [Bool.and_eq_true, decide_eq_true_eq] at hm
  exact ⟨d.methods[id], List.getElem?_eq_getElem hlt, hm.1, hm.2⟩

namespace Resolve

variable (S : Surroundings)

/-! ### Calls -/

section Calls

variable (line : Nat) (args : List Expr)

theorem clears_staticCall {id : MethodId} {m : Pending} (hm : S.declared.methods[id]? = some m)
    (shown : String) (span : Span) :
    Clears (staticCall S line id shown args span) fun v r w => w = v ∧ Callable S id args ∧
      r = (.callMethod line id args, returnType S (some id)) := by
  have htype : returnType S (some id) = m.signature.returns := by
    simp only [returnType, hm, Option.map_some, Option.getD_some]
  unfold staticCall
  split
  next h =>
    rw [hm] at h
    cases h
  next m' h =>
    rw [hm] at h
    obtain rfl := Option.some.inj h
    split
    · exact clears_refused rfl _ span _ _
    next hstatic =>
      refine (clears_counted _ _ _ span _ _).mono ?_
      rintro v r w ⟨hw, hcount, hr⟩
      exact ⟨hw, ⟨m, hm, by simpa using hstatic, hcount⟩, by rw [htype, hr]⟩

theorem clears_localCall (slot : Slot) (ty : Ty) (callee : Syntax.Ident) :
    Clears (localCall line slot ty callee args) fun v r w => w = v ∧
      r = (.callSlot line slot callee.text args, calledType ty) := by
  unfold localCall
  refine (Clears.bind (R := fun _ v r w => w = v ∧
    r = (.callSlot line slot callee.text args, calledType ty)) (clears_use slot) fun _ => ?_).mono ?_
  · split
    · exact (clears_counted _ _ _ callee.span _ _).mono fun _ _ _ h => ⟨h.1, h.2.2⟩
    · exact (Clears.pure _).mono fun _ _ _ h => ⟨h.2, h.1⟩
    · exact clears_refused rfl _ callee.span _ _
  · rintro v r w ⟨_, u, rfl, h⟩
    exact h

/-- A call of a method of a class under a name. -/
def MethodForm (owner : TypeId) (name : String) (r : Expr × Ty) : Prop :=
  ∃ id, S.declared.findMethod? owner name = some id ∧ Callable S id args ∧
    r = (.callMethod line id args, returnType S (some id))

theorem clears_plainCall (callee : Syntax.Ident) :
    Clears (plainCall S line callee args) fun v r w => w = v ∧
      (MethodForm S line args S.owner callee.text r ∨
        S.declared.findMethod? S.owner callee.text = none ∧ ∃ g,
          S.refs.function? callee.text = some g ∧ g.params = args.length ∧
            r = (.callFunction line g args, .any)) := by
  unfold plainCall
  split
  next id hid =>
    obtain ⟨m, hm, -⟩ := Declarations.exists_of_findMethod? hid
    exact (clears_staticCall S line args hm callee.text callee.span).mono fun _ _ _ h =>
      ⟨h.1, .inl ⟨id, hid, h.2⟩⟩
  next hid =>
    split
    next g hg =>
      exact (clears_counted _ _ _ callee.span _ _).mono fun _ _ _ h =>
        ⟨h.1, .inr ⟨hid, g, hg, h.2⟩⟩
    next => exact clears_refused rfl _ callee.span _ _

theorem clears_qualifiedCall (type : TypeId) (typeName : String) (method : Syntax.Ident) :
    Clears (qualifiedCall S line type typeName method args) fun v r w => w = v ∧
      MethodForm S line args type method.text r := by
  unfold qualifiedCall
  split
  next id hid =>
    obtain ⟨m, hm, -⟩ := Declarations.exists_of_findMethod? hid
    exact (clears_staticCall S line args hm _ method.span).mono fun _ _ _ h =>
      ⟨h.1, id, hid, h.2⟩
  next => exact clears_refused rfl _ method.span _ _

/-- A call of a method of a receiver of a static type. -/
inductive ReceiverForm (receiver : Expr) (name : String) : Ty → Expr × Ty → Prop
  | document {m : DocumentMethod} (found : S.refs.documentMethod? name = some m)
      (count : m.params = args.length) :
      ReceiverForm receiver name .document (.callDocument line m receiver args, .void)
  | dynamic (found : (documentFor S name args).isSome ∨ (functionFor S name args).isSome) :
      ReceiverForm receiver name .any (.callDynamic line name receiver args
        (documentFor S name args) (functionFor S name args), .any)
  | function {ty : Ty} {g : Function} (noDocument : ty ≠ .document) (static : ty ≠ .any)
      (found : S.refs.function? name = some g) (count : g.params - 1 = args.length) :
      ReceiverForm receiver name ty (.callFunction line g (receiver :: args), .any)

theorem clears_documentCall (receiver : Expr) (method : Syntax.Ident) :
    Clears (documentCall S line receiver method args) fun v r w => w = v ∧
      ReceiverForm S line args receiver method.text .document r := by
  unfold documentCall
  split
  next m hm =>
    refine (clears_counted _ _ _ method.span _ _).mono ?_
    rintro v r w ⟨hw, hcount, rfl⟩
    exact ⟨hw, .document hm hcount⟩
  next => exact clears_refused rfl _ method.span _ _

theorem clears_dynamicCall (receiver : Expr) (method : Syntax.Ident) :
    Clears (dynamicCall S line receiver method args) fun v r w => w = v ∧
      ReceiverForm S line args receiver method.text .any r := by
  unfold dynamicCall
  dsimp only
  split
  · exact clears_refused rfl _ method.span _ _
  · split
    · exact clears_refused rfl _ method.span _ _
    next h =>
      refine (Clears.pure _).mono ?_
      rintro v r w ⟨rfl, hw⟩
      refine ⟨hw, .dynamic ?_⟩
      simp only [Bool.and_eq_true, Option.isNone_iff_eq_none, not_and_or,
        ← Option.isSome_iff_ne_none] at h
      exact h

theorem clears_receiverCall {ty : Ty} (noDocument : ty ≠ .document) (static : ty ≠ .any)
    (receiver : Expr) (method : Syntax.Ident) :
    Clears (receiverCall S line receiver ty method args) fun v r w => w = v ∧
      ReceiverForm S line args receiver method.text ty r := by
  unfold receiverCall
  split
  next g hg =>
    refine (clears_counted _ _ _ method.span _ _).mono ?_
    rintro v r w ⟨hw, hcount, rfl⟩
    exact ⟨hw, .function noDocument static hg hcount⟩
  next => exact clears_refused rfl _ method.span _ _

theorem clears_methodCall (receiver : Expr) (ty : Ty) (method : Syntax.Ident) :
    Clears (methodCall S line receiver ty method args) fun v r w => w = v ∧
      ReceiverForm S line args receiver method.text ty r := by
  unfold methodCall
  split
  · exact clears_documentCall S line args receiver method
  · exact clears_dynamicCall S line args receiver method
  next hdocument hany => exact clears_receiverCall S line args hdocument hany receiver method

end Calls

theorem clears_receiverType? (e : Syntax.Expr) :
    Clears (receiverType? S e) fun v r w => w = v ∧
      r.map Prod.fst = Scoped.receiverType? S v.slots e ∧
      Scoped.receiverType? S v.types e = Scoped.receiverType? S v.slots e := by
  cases e with
  | ident span name =>
    unfold receiverType?
    refine (Clears.bind (R := fun found v r w => w = v ∧ r.map Prod.fst =
      found.elim (S.declared.findType? name) fun _ => none) (clears_lookup name) fun found => ?_).mono ?_
    · cases found with
      | none =>
        refine (Clears.pure _).mono ?_
        rintro v r w ⟨rfl, hw⟩
        refine ⟨hw, ?_⟩
        cases S.declared.findType? name <;> rfl
      | some p =>
        refine (Clears.pure _).mono ?_
        rintro v r w ⟨rfl, hw⟩
        exact ⟨hw, rfl⟩
    · rintro v r w ⟨found, u, ⟨rfl, hfound⟩, rfl, hr⟩
      refine ⟨rfl, ?_⟩
      cases found with
      | none =>
        obtain ⟨hslots, htypes⟩ := hfound
        rw [Scoped.receiverType?_free S hslots, Scoped.receiverType?_free S htypes]
        exact ⟨hr, rfl⟩
      | some p =>
        obtain ⟨hslots, htypes⟩ := hfound
        rw [Scoped.receiverType?_local S hslots, Scoped.receiverType?_local S htypes]
        exact ⟨hr, rfl⟩
  | _ =>
    refine (Clears.pure none).mono ?_
    rintro v r w ⟨rfl, hw⟩
    exact ⟨hw, rfl, rfl⟩

/-! ### Expressions -/

theorem clears_called (line : Nat) (args : List Expr) (callee : Syntax.Ident) :
    ∀ found : Option (Slot × Ty), Clears
      (match found with
        | some (slot, ty) => localCall line slot ty callee args
        | none => plainCall S line callee args)
      fun v r w => w = v ∧ match found with
        | some (slot, ty) => r = (.callSlot line slot callee.text args, calledType ty)
        | none => MethodForm S line args S.owner callee.text r ∨
            S.declared.findMethod? S.owner callee.text = none ∧ ∃ g,
              S.refs.function? callee.text = some g ∧ g.params = args.length ∧
                r = (.callFunction line g args, .any)
  | some (slot, ty) => clears_localCall line args slot ty callee
  | none => clears_plainCall S line args callee

/-- What resolving an expression comes to. -/
def ExprForm (e : Syntax.Expr) (v : View) (r : Expr × Ty) (w : View) : Prop :=
  w = v ∧ Resolves S v e r.1 ∧ r.2 = typeOf S v.types e

/-- What resolving expressions comes to. -/
def ExprsForm (es : List Syntax.Expr) (v : View) (rs : List Expr) (w : View) : Prop :=
  w = v ∧ List.Forall₂ (Resolves S v) es rs

mutual

theorem clears_expr : ∀ e : Syntax.Expr, Clears (expr S e) (ExprForm S e)
  | .literal span value => by
    refine (Clears.pure _).mono ?_
    rintro v r w ⟨rfl, rfl⟩
    exact ⟨rfl, .literal, rfl⟩
  | .ident span name => by
    unfold expr
    refine (Clears.bind (R := fun found v r w => ∃ slot ty, found = some (slot, ty) ∧ w = v ∧
      r = (.slot (S.lines.line span.start) slot, ty)) (clears_lookup name) fun found => ?_).mono ?_
    · rcases found with _ | ⟨slot, ty⟩
      · exact clears_refused rfl _ span _ _
      · refine ((clears_use slot).bind fun _ => .pure _).mono ?_
        rintro v r w ⟨_, u, rfl, rfl, rfl⟩
        exact ⟨slot, ty, rfl, rfl, rfl⟩
    · rintro v r w ⟨_, u, ⟨rfl, hfound⟩, slot, ty, rfl, rfl, rfl⟩
      obtain ⟨hslot, htype⟩ := hfound
      refine ⟨rfl, .ident hslot, ?_⟩
      show ty = (w.types.read? name).getD .any
      rw [htype, Option.getD_some]
  | .list span items => by
    refine ((clears_exprs items).bind fun rs => .pure _).mono ?_
    rintro v r w ⟨rs, u, ⟨rfl, hparts⟩, rfl, rfl⟩
    exact ⟨rfl, .list hparts, rfl⟩
  | .unary span op operand => by
    refine ((clears_expr operand).bind fun r => .pure _).mono ?_
    rintro v r w ⟨p, u, ⟨rfl, hpart, htype⟩, rfl, rfl⟩
    exact ⟨rfl, .unary hpart, congrArg (unaryType op) htype⟩
  | .binary span op left right => by
    refine ((clears_expr left).bind fun p => (clears_expr right).bind fun q => .pure _).mono ?_
    rintro v r w ⟨p, u, ⟨rfl, hleft, hl⟩, q, u', ⟨rfl, hright, hr⟩, rfl, rfl⟩
    exact ⟨rfl, .binary hleft hright, congrArg₂ (binaryType op) hl hr⟩
  | .index span target place => by
    refine ((clears_expr target).bind fun p => (clears_expr place).bind fun q => .pure _).mono ?_
    rintro v r w ⟨p, u, ⟨rfl, htarget, -⟩, q, u', ⟨rfl, hplace, -⟩, rfl, rfl⟩
    exact ⟨rfl, .index htarget hplace, rfl⟩
  | .call span callee args => by
    have hcall := fun rs : List Expr => Clears.bind (clears_lookup callee.text) fun found =>
      clears_called S (S.lines.line span.start) rs callee found
    refine ((clears_exprs args).bind hcall).mono ?_
    rintro v r w ⟨rs, u, ⟨rfl, hparts⟩, found, u', ⟨rfl, hfound⟩, rfl, hform⟩
    refine ⟨rfl, ?_⟩
    rcases found with _ | ⟨slot, ty⟩
    · obtain ⟨hslots, htypes⟩ := hfound
      have htype : typeOf S w.types (.call span callee args) =
          returnType S (S.declared.findMethod? S.owner callee.text) := by
        simp only [typeOf, htypes]
      rw [htype]
      rcases hform with ⟨id, hid, hcallable, rfl⟩ | ⟨hid, g, hg, hcount, rfl⟩
      · exact ⟨.callOwn hparts hslots hid hcallable, by rw [hid]⟩
      · exact ⟨.callFunction hparts hslots hid hg hcount, by rw [hid]; rfl⟩
    · obtain ⟨hslots, htypes⟩ := hfound
      have htype : typeOf S w.types (.call span callee args) = calledType ty := by
        simp only [typeOf, htypes]
      obtain rfl : r = (.callSlot (S.lines.line span.start) slot callee.text rs, calledType ty) :=
        hform
      exact ⟨.callLocal hparts hslots, htype.symm⟩
  | .method span receiver method args => by
    unfold expr
    refine (Clears.bind (R := fun type v r w => w = v ∧ match type with
      | some (type, _) => ∃ rs, List.Forall₂ (Resolves S v) args rs ∧
          MethodForm S (S.lines.line span.start) rs type method.text r
      | none => ∃ p rs, Resolves S v receiver p ∧ List.Forall₂ (Resolves S v) args rs ∧
          ReceiverForm S (S.lines.line span.start) rs p method.text (typeOf S v.types receiver) r)
      (clears_receiverType? S receiver) fun type => ?_).mono ?_
    · rcases type with _ | ⟨type, typeName⟩
      · refine ((clears_expr receiver).bind fun p => (clears_exprs args).bind fun rs =>
          clears_methodCall S (S.lines.line span.start) rs p.1 p.2 method).mono ?_
        rintro v r w ⟨p, u, ⟨rfl, hpart, htype⟩, rs, u', ⟨rfl, hparts⟩, rfl, hform⟩
        rw [htype] at hform
        exact ⟨rfl, p.1, rs, hpart, hparts, hform⟩
      · refine ((clears_exprs args).bind fun rs =>
          clears_qualifiedCall S (S.lines.line span.start) rs type typeName method).mono ?_
        rintro v r w ⟨rs, u, ⟨rfl, hparts⟩, rfl, hform⟩
        exact ⟨rfl, rs, hparts, hform⟩
    · rintro v r w ⟨type, u, ⟨rfl, hnamed, hsame⟩, rfl, hform⟩
      refine ⟨rfl, ?_⟩
      rcases type with _ | ⟨type, typeName⟩
      · have hnone : Scoped.receiverType? S w.slots receiver = none := hnamed.symm
        obtain ⟨p, rs, hpart, hparts, hform⟩ := hform
        have htype : typeOf S w.types (.method span receiver method args) =
            methodType (typeOf S w.types receiver) := by
          simp only [typeOf, hsame, hnone]
        rw [htype]
        generalize hty : typeOf S w.types receiver = ty at hform
        cases hform with
        | document found count => exact ⟨.document hnone hpart hparts hty found count, rfl⟩
        | dynamic found => exact ⟨.dynamic hnone hpart hparts hty found, rfl⟩
        | function noDocument static found count =>
          rw [← hty] at noDocument static
          refine ⟨.receiver hnone hpart hparts noDocument static found count, ?_⟩
          rw [hty] at noDocument
          cases ty <;> first | rfl | exact absurd rfl noDocument
      · have hsome : Scoped.receiverType? S w.slots receiver = some type := hnamed.symm
        obtain ⟨rs, hparts, id, hid, hcallable, rfl⟩ := hform
        have htype : typeOf S w.types (.method span receiver method args) =
            returnType S (some id) := by
          simp only [typeOf, hsame, hsome, hid]
        exact ⟨.qualified hsome hparts hid hcallable, htype.symm⟩

theorem clears_exprs : ∀ es : List Syntax.Expr, Clears (exprs S es) (ExprsForm S es)
  | [] => by
    refine (Clears.pure _).mono ?_
    rintro v r w ⟨rfl, rfl⟩
    exact ⟨rfl, .nil⟩
  | e :: es => by
    refine ((clears_expr e).bind fun p => (clears_exprs es).bind fun ps => .pure _).mono ?_
    rintro v r w ⟨p, u, ⟨rfl, hhead, -⟩, ps, u', ⟨rfl, htail⟩, rfl, rfl⟩
    exact ⟨rfl, .cons hhead htail⟩

end

/-! ### Statements -/

/-- A block in a scope of its own. -/
theorem clears_block {body : List Syntax.Stmt}
    (h : Clears (stmts S .open body) fun v ts w => ResolvesStmts S v body ts w) :
    Clears (inScope (stmts S .open body)) fun v ts u =>
      ∃ w, ResolvesStmts S v.enter body ts w ∧ u = w.leave :=
  clears_inScope h fun _ _ _ hbody => hbody.extends.1

/-- The block of a `for`, in the scope of its binding. -/
theorem clears_binding {body : List Syntax.Stmt}
    (h : Clears (stmts S .open body) fun v ts w => ResolvesStmts S v body ts w)
    (name : String) (ty : Ty) (span : Span) :
    Clears (inScope do
        let slot ← declare name ty span false
        let body ← inScope (stmts S .open body)
        return (slot, body))
      fun v r u => ∃ w, ResolvesStmts S (v.enter.declare name ty).enter body r.2 w ∧
        r.1 = v.size ∧ u = w.leave.leave := by
  have hinner := (clears_declare name ty span false).bind fun slot =>
    (clears_block S h).bind fun ts => .pure (slot, ts)
  refine (clears_inScope hinner ?_).mono ?_
  · rintro v _ _ ⟨_, _, ⟨-, rfl⟩, _, _, ⟨_, hbody, rfl⟩, -, rfl⟩
    exact (View.Extends.declare v name ty).trans hbody.extends.1.block
  · rintro v _ _ ⟨_, ⟨_, _, ⟨rfl, rfl⟩, _, _, ⟨w, hbody, rfl⟩, rfl, rfl⟩, rfl⟩
    exact ⟨w, hbody, rfl, rfl⟩

mutual

theorem clears_stmt : ∀ s : Syntax.Stmt, Clears (stmt S s) fun v t w => ResolvesStmt S v s t w
  | .declare span name value => by
    refine ((clears_expr S value).bind fun p => (clears_declare _ _ _ _).bind fun slot =>
      .pure _).mono ?_
    rintro v t w ⟨p, u, ⟨rfl, hvalue, htype⟩, slot, u', ⟨rfl, rfl⟩, rfl, rfl⟩
    rw [htype]
    exact .declare hvalue
  | .assign span name value => by
    refine ((clears_expr S value).bind fun p => clears_assign _ name p.1 p.2).mono ?_
    rintro v t w ⟨p, u, ⟨rfl, hvalue, htype⟩, slot, hslot, rfl, rfl⟩
    rw [htype]
    exact .assign hvalue hslot
  | .expr span value => by
    refine ((clears_expr S value).bind fun p => .pure _).mono ?_
    rintro v t w ⟨p, u, ⟨rfl, hvalue, -⟩, rfl, rfl⟩
    exact .expr hvalue
  | .branch span branches otherwise => by
    refine ((clears_arms branches).bind fun bs => (clears_otherwiseArm otherwise).bind fun o =>
      .pure _).mono ?_
    rintro v t w ⟨bs, u, harms, o, u', hlast, rfl, rfl⟩
    exact .branch harms hlast
  | .loop span condition body => by
    refine ((clears_expr S condition).bind fun p => (clears_block S (clears_stmts body .open)).bind
      fun ts => .pure _).mono ?_
    rintro v t w ⟨p, u, ⟨rfl, htest, -⟩, ts, u', ⟨w', hblock, rfl⟩, rfl, rfl⟩
    exact .loop htest hblock
  | .forEach span binding items body => by
    refine ((clears_expr S items).bind fun p =>
      (clears_binding S (clears_stmts body .open) binding.text .any binding.span).bind
        fun r => .pure _).mono ?_
    rintro v t w ⟨p, u, ⟨rfl, hvalues, -⟩, ⟨_, ts⟩, u', ⟨w', hblock, rfl, rfl⟩, rfl, rfl⟩
    exact .forEach hvalues hblock
  | .forRange span binding start stop body => by
    refine ((clears_expr S start).bind fun p => (clears_expr S stop).bind fun q =>
      (clears_binding S (clears_stmts body .open) binding.text .int binding.span).bind
        fun r => .pure _).mono ?_
    rintro v t w ⟨p, u, ⟨rfl, hfirst, -⟩, q, u₁, ⟨rfl, hlast, -⟩, ⟨_, ts⟩, u₂,
      ⟨w', hblock, rfl, rfl⟩, rfl, rfl⟩
    exact .forRange hfirst hlast hblock
  | .result span none => by
    refine (Clears.pure _).mono ?_
    rintro v t w ⟨rfl, rfl⟩
    exact .leave
  | .result span (some value) => by
    refine ((clears_expr S value).bind fun p => .pure _).mono ?_
    rintro v t w ⟨p, u, ⟨rfl, hvalue, -⟩, rfl, rfl⟩
    exact .result hvalue

theorem clears_stmts : ∀ (ss : List Syntax.Stmt) (reached : Reached),
    Clears (stmts S reached ss) fun v ts w => ResolvesStmts S v ss ts w
  | [], _ => by
    refine (Clears.pure _).mono ?_
    rintro v ts w ⟨rfl, rfl⟩
    exact .nil
  | s :: ss, reached => by
    refine ((clears_reach reached s.span).bind fun reached => (clears_stmt s).bind fun t =>
      (clears_stmts ss (reached.after s)).bind fun ts => .pure _).mono ?_
    rintro v r w ⟨_, u, rfl, t, u₁, hhead, ts, u₂, htail, rfl, rfl⟩
    exact .cons hhead htail

theorem clears_arms : ∀ bs : List (Syntax.Expr × List Syntax.Stmt),
    Clears (arms S bs) fun v cs w => ResolvesArms S v bs cs w
  | [] => by
    refine (Clears.pure _).mono ?_
    rintro v ts w ⟨rfl, rfl⟩
    exact .nil
  | (condition, body) :: rest => by
    refine ((clears_expr S condition).bind fun p => (clears_block S (clears_stmts body .open)).bind
      fun ts => (clears_arms rest).bind fun cs => .pure _).mono ?_
    rintro v r w ⟨p, u, ⟨rfl, htest, -⟩, ts, u₁, ⟨w', hblock, rfl⟩, cs, u₂, htail, rfl, rfl⟩
    exact .cons htest hblock htail

theorem clears_otherwiseArm : ∀ o : Option (List Syntax.Stmt),
    Clears (otherwiseArm S o) fun v p w => ResolvesOtherwise S v o p w
  | none => by
    refine (Clears.pure _).mono ?_
    rintro v ts w ⟨rfl, rfl⟩
    exact .none
  | some body => by
    refine ((clears_block S (clears_stmts body .open)).bind fun ts => .pure _).mono ?_
    rintro v r w ⟨ts, u, ⟨w', hblock, rfl⟩, rfl, rfl⟩
    exact .some hblock

end

/-! ### Methods -/

/-- Parameters take the next slots, in their order. -/
theorem clears_params (ps : List ((String × Ty) × Syntax.Param)) :
    Clears (params ps) fun v _ w => ∀ slots types, v.slots = [slots] → v.types = [types] →
      w = ⟨[((ps.map fun p => p.1.1).zip (List.range' v.size ps.length)).reverse ++ slots],
        [(ps.map Prod.fst).reverse ++ types], v.size + ps.length⟩ := by
  induction ps with
  | nil =>
    refine (Clears.pure ()).mono ?_
    rintro ⟨_, _, _⟩ _ w ⟨-, rfl⟩ slots types rfl rfl
    rfl
  | cons p ps ih =>
    refine ((clears_declare p.1.1 p.1.2 p.2.name.span false).bind fun _ => ih).mono ?_
    rintro ⟨_, _, n⟩ _ w ⟨_, _, ⟨-, rfl⟩, hrest⟩ slots types rfl rfl
    obtain rfl := hrest ((p.1.1, n) :: slots) (p.1 :: types) rfl rfl
    simp only [List.map_cons, List.length_cons, List.range'_succ, List.zip_cons_cons,
      List.reverse_cons, List.append_assoc, List.singleton_append]
    rw [Nat.add_comm ps.length 1, ← Nat.add_assoc]
    rfl

end Resolve

/-- The view behind the parameters of a method. -/
def paramsView (m : Pending) : View :=
  ⟨Scoped.parameters m (List.range m.signature.params.length),
    Scoped.parameters m (m.signature.params.map Prod.snd), m.signature.params.length⟩

theorem zip_map_fst_map_snd {α β : Type} (ps : List (α × β)) :
    (ps.map Prod.fst).zip (ps.map Prod.snd) = ps := by
  rw [List.zip_map', List.map_id']

theorem paramsView_good {m : Pending} (hm : m.Faithful) : (paramsView m).Good := by
  have hall : (paramsView m).slots.all = (List.range m.signature.params.length).reverse := by
    unfold paramsView Scoped.parameters
    rw [Scopes.all_cons, Scopes.all_nil, List.append_nil, List.map_reverse, List.map_snd_zip]
    rw [List.length_range, List.length_map]
    exact Nat.le_of_eq hm.length_params
  refine ⟨?_, fun slot hslot => ?_⟩
  · rw [hall]
    exact List.pairwise_reverse.mpr (List.nodup_range.imp fun h => h.symm)
  · rw [hall, List.mem_reverse, List.mem_range] at hslot
    exact hslot

theorem Resolve.clears_paramsView {m : Pending} (hm : m.Faithful) :
    Clears (Resolve.params (m.signature.params.zip m.declaration.params)) fun v _ w =>
      v = ⟨[[]], [[]], 0⟩ → w = paramsView m := by
  have hlength := hm.length_params
  have hfst : (m.signature.params.zip m.declaration.params).map Prod.fst = m.signature.params :=
    List.map_fst_zip (Nat.le_of_eq hlength)
  have hnames : (m.signature.params.zip m.declaration.params).map (fun p => p.1.1) =
      m.declaration.params.map fun p => p.name.text := by
    rw [← hm.params]
    conv_rhs => rw [← hfst, List.map_map]
    rfl
  have hzip : (m.signature.params.zip m.declaration.params).length = m.signature.params.length := by
    rw [List.length_zip, hlength, Nat.min_self]
  refine (Resolve.clears_params _).mono ?_
  rintro v _ w h rfl
  rw [h [] [] rfl rfl, hnames, hfst, hzip, List.append_nil, List.append_nil, Nat.zero_add,
    ← List.range_eq_range']
  unfold paramsView Scoped.parameters
  rw [← hm.params, zip_map_fst_map_snd]

theorem view_at_start : View.At ⟨[[]], [[]], 0⟩ {} :=
  ⟨rfl, rfl, .cons .nil .nil, List.nodup_nil, fun _ h => absurd h List.not_mem_nil⟩

/-- **Resolved bodies**: when nothing but warnings is reported in a method, its body resolves behind its
parameters, and its frame has a slot for every local. -/
theorem resolveMethod_clean {refs : ReferenceSet} {lines : LineIndex} {declared : Declarations}
    {m : Pending} (hm : m.Faithful) (h : Clean (resolveMethod refs lines declared m).2) :
    (paramsView m).Good ∧ ∃ w, ResolvesStmts ⟨refs, lines, declared, m.owner⟩ (paramsView m).enter
      m.declaration.body (resolveMethod refs lines declared m).1.body w ∧
        (resolveMethod refs lines declared m).1.frameSize = w.size := by
  refine ⟨paramsView_good hm, ?_⟩
  have hbody := (Resolve.clears_paramsView hm).bind fun _ =>
    Resolve.clears_block ⟨refs, lines, declared, m.owner⟩
      (Resolve.clears_stmts _ m.declaration.body .open)
  obtain ⟨-, hview⟩ := hbody {} h
  obtain ⟨_, ⟨_, w, hparams, w', hblock, rfl⟩, hat⟩ := hview _ view_at_start
  rw [hparams rfl] at hblock
  exact ⟨w', hblock, hat.size⟩

/-! ### Programs -/

section

variable {refs : ReferenceSet} {lines : LineIndex} {file : Syntax.File}

theorem clean_declarations (h : Clean (resolve refs lines file).2) :
    Clean (declarations refs file).found := (clean_append.mp h).1

theorem clean_method (h : Clean (resolve refs lines file).2) {id : MethodId} {m : Pending}
    (hm : (declarations refs file).methods[id]? = some m) :
    Clean (resolveMethod refs lines (declarations refs file) m).2 := by
  intro d hd
  refine (clean_append.mp h).2 d (List.mem_flatMap.mpr ⟨_, ?_, hd⟩)
  exact List.mem_map_of_mem (List.mem_of_getElem? hm)

theorem getElem?_resolve {id : MethodId} {m : Pending}
    (hm : (declarations refs file).methods[id]? = some m) :
    (resolve refs lines file).1.methods[id]? =
      some (resolveMethod refs lines (declarations refs file) m).1 := by
  show (((declarations refs file).methods.map
    (resolveMethod refs lines (declarations refs file))).map Prod.fst)[id]? = _
  rw [List.getElem?_map, List.getElem?_map, hm]
  rfl

end

end ReportTemplate.Program
