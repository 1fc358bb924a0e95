import ReportTemplate.Proofs.Program.Pruned
import ReportTemplate.Proofs.Program.SameNames
import ReportTemplate.Proofs.Program.Untyped
import ReportTemplate.Proofs.Scoped.Meaning

/-!
# ReportTemplate.Proofs.Scoped.DeadCode — a source and the pruned source mean the same

What stands behind a `return` can give other static types to the locals around it.  Where no name is both a
function and a document method, a method call does not depend on them: `looseCall` is what it comes to.  So
the interpreter does with a source what it does with the pruned source, from block to block, but for the
causes of failures.
-/

namespace ReportTemplate

namespace Scoped

open Machine (Agrees EndsAlike Flow)
open Program (Clean Declarations MethodId Pending Resolves ResolvesArms ResolvesOtherwise ResolvesStmt
  ResolvesStmts View declarations paramsView resolve)
open Syntax.Stmt (prunedAll prunedArms prunedOtherwise)

/-! ### Frames -/

/-- The calls that two frames make agree. -/
inductive CallsAgree : Option Call → Option Call → Prop
  | none : CallsAgree none none
  | some {c d : Call} (agree : ∀ id args, Agrees (c id args) (d id args)) :
      CallsAgree (some c) (some d)

/-- The frame for the pruned source, with the calls that are made there. -/
def Frame.pruned (f : Frame) (call? : Option Call) : Frame :=
  { f with env := { f.env with declared := f.env.declared.pruned }, call? := call? }

section

variable {α : Type}

theorem agrees_primitive {m n : Machine.Exec α} (h : Agrees m n) :
    Agrees (primitive m) (primitive n) := by
  intro s
  have hend := h ⟨#[], s.world.left⟩
  unfold primitive
  generalize m _ = r at hend ⊢
  generalize n _ = r' at hend ⊢
  cases hend with
  | ok a t => exact .ok a _
  | error alike t => exact .error alike _

theorem agrees_inWorld {m n : EStateM Machine.Halt World α} (h : Agrees m n) :
    Agrees (inWorld m) (inWorld n) := by
  intro s
  have hend := h s.world
  unfold inWorld
  generalize m s.world = r at hend ⊢
  generalize n s.world = r' at hend ⊢
  cases hend with
  | ok a w => exact .ok a _
  | error alike w => exact .error alike _

theorem agrees_fail (f : Frame) (line : Nat) (cause cause' : Machine.Cause) :
    Agrees (fail f line cause : Exec α) (fail f line cause') :=
  agrees_primitive (Machine.agrees_fail ⟨rfl, rfl, .none⟩ line cause cause')

theorem agrees_attempt (f : Frame) (line : Nat) (cause cause' : Refusal → Machine.Cause)
    (r : Except Refusal α) : Agrees (attempt f line cause r) (attempt f line cause' r) :=
  agrees_primitive (Machine.agrees_attempt ⟨rfl, rfl, .none⟩ line cause cause' r)

theorem agrees_inScope {x y : Exec α} (h : Agrees x y) : Agrees (inScope x) (inScope y) :=
  (Agrees.refl _).bind fun _ => h.follow _

end

/-! ### Calls -/

section

variable {f : Frame} {c : Option Call} (line : Nat)

section

variable (hcalls : CallsAgree f.call? c)

include hcalls

theorem agrees_callMethod (args : List Value) (id : Option MethodId) :
    Agrees (callMethod f line args id) (callMethod (f.pruned c) line args id) := by
  cases id with
  | none => exact .refl _
  | some id =>
    cases f with
    | mk env method steps call? =>
      cases hcalls with
      | none => exact .refl _
      | some agree => exact agrees_inWorld (agree id args)

theorem agrees_plainCall (name : String) (args : List Value) :
    Agrees (plainCall f line name args) (plainCall (f.pruned c) line name args) := by
  have hfind : (f.pruned c).env.declared.findMethod? (f.pruned c).env.owner name =
      f.env.declared.findMethod? f.env.owner name := Declarations.findMethod?_pruned ..
  unfold plainCall
  rw [hfind]
  split
  · exact agrees_callMethod line hcalls args _
  · exact .refl _

end

variable (f)

/-- A method call without a look at static types: of the document method of a name if there is one, else
of the function. -/
def looseCall (name : String) (receiver : Value) (args : List Value) : Exec Value :=
  match f.env.refs.documentMethod? name with
  | some m =>
    if receiver.isDocument then primitive (Machine.callDocument f.machine line m.name m args)
    else fail f line (.refused (.expected "Document" receiver.kind))
  | none => callFunction f line (receiver :: args) (f.env.refs.function? name)

variable {f} {name : String} (receiver : Value) (args : List Value)

theorem methodCall_document {m : DocumentMethod} (hm : f.env.refs.documentMethod? name = some m) :
    methodCall f line .document name receiver args = looseCall f line name receiver args := by
  unfold methodCall looseCall
  rw [hm]

theorem methodCall_function (hnone : f.env.refs.documentMethod? name = none) {ty : Ty}
    (hdocument : ty ≠ .document) (hany : ty ≠ .any) :
    methodCall f line ty name receiver args = looseCall f line name receiver args := by
  unfold methodCall looseCall
  rw [hnone]
  cases ty <;> trivial

variable {args}

/-- On a receiver of which nothing is known the document method or the function that fits is called. -/
theorem agrees_methodCall_any (hapart : f.env.refs.Apart) {args' : List Program.Expr}
    (hlength : args.length = args'.length)
    (hfound : (Program.documentFor f.env name args').isSome ∨
      (Program.functionFor f.env name args').isSome) :
    Agrees (methodCall f line .any name receiver args) (looseCall f line name receiver args) := by
  have hany : methodCall f line .any name receiver args =
      primitive (Machine.callDynamic f.machine line name receiver args
        (Program.documentFor f.env name args') (Program.functionFor f.env name args')) := by
    unfold methodCall Program.documentFor Program.functionFor
    rw [hlength]
  obtain ⟨hdocument, hfunction⟩ := Program.dynamic_found hapart hfound
  rw [hdocument, hfunction] at hfound hany
  rw [hany]
  unfold looseCall Machine.callDynamic
  cases hm : f.env.refs.documentMethod? name with
  | some m =>
    rw [hapart.function?_none hm]
    cases receiver.isDocument with
    | true => exact agrees_primitive (Machine.agrees_callDocument ⟨rfl, rfl, .none⟩ line _ _ _ _)
    | false => exact agrees_fail f line _ _
  | none =>
    cases hg : f.env.refs.function? name with
    | some g => exact agrees_attempt f line _ _ _
    | none => simp [hm, hg] at hfound

end

/-! ### Receivers -/

section

variable {S : Program.Surroundings} {v w : View} {receiver : Syntax.Expr} {span : Span}
  {method : Syntax.Ident} {args : List Syntax.Expr} {e : Program.Expr}

theorem receiverType?_names (h : w.slots.names = v.slots.names) (e : Syntax.Expr) :
    receiverType? S w.slots e = receiverType? S v.slots e := by
  cases e with
  | ident span name =>
    have hiff := Scopes.read?_none_iff h name
    unfold receiverType?
    cases hw : w.slots.read? name <;> cases hv : v.slots.read? name <;> simp_all
  | _ => rfl

/-- The receiver that names a class is a name without a local. -/
theorem ident_of_receiverType? {type : Program.TypeId} (h : receiverType? S v.slots receiver = some type) :
    ∃ span name, receiver = .ident span name ∧ v.slots.read? name = none := by
  cases receiver with
  | ident span name =>
    refine ⟨span, name, rfl, ?_⟩
    cases hname : v.slots.read? name with
    | none => rfl
    | some slot =>
      rw [receiverType?_local S hname] at h
      cases h
  | _ => cases h

theorem typeOf_class (hv : v.Balanced) {type : Program.TypeId}
    (h : receiverType? S v.slots receiver = some type) : typeOf S v.types receiver = .any := by
  obtain ⟨span, name, rfl, hname⟩ := ident_of_receiverType? h
  rw [typeOf, (Scopes.read?_none_iff hv name).mpr hname]
  rfl

theorem call_parts {callee : Syntax.Ident} (h : Resolves S v (.call span callee args) e) :
    ∃ args', List.Forall₂ (Resolves S v) args args' := by
  cases h with
  | callLocal parts | callOwn parts | callFunction parts => exact ⟨_, parts⟩

theorem method_parts (h : Resolves S v (.method span receiver method args) e) :
    ∃ args', List.Forall₂ (Resolves S v) args args' := by
  cases h with
  | qualified _ parts | document _ _ parts | dynamic _ _ parts | receiver _ _ parts =>
    exact ⟨_, parts⟩

theorem method_object (h : Resolves S v (.method span receiver method args) e)
    (hnone : receiverType? S v.slots receiver = none) : ∃ r, Resolves S v receiver r := by
  cases h with
  | qualified named =>
    rw [hnone] at named
    cases named
  | document _ object | dynamic _ object | receiver _ object => exact ⟨_, object⟩

variable {f : Frame} {c : Option Call}

/-- A resolved method call does not depend on static types. -/
theorem agrees_loose (hapart : f.env.refs.Apart)
    (h : Resolves f.env v (.method span receiver method args) e)
    (hnone : receiverType? f.env v.slots receiver = none) (line : Nat) (r : Value) {vs : List Value}
    (hvs : vs.length = args.length) :
    Agrees (methodCall f line (typeOf f.env v.types receiver) method.text r vs)
      (looseCall f line method.text r vs) := by
  cases h with
  | qualified named =>
    rw [hnone] at named
    cases named
  | document _ _ _ static found =>
    rw [static, methodCall_document line r vs found]
    exact .refl _
  | dynamic _ _ parts static found =>
    rw [static]
    exact agrees_methodCall_any line r hapart (hvs.trans parts.length_eq) found
  | receiver _ _ _ noDocument static found =>
    rw [methodCall_function line r vs (hapart.documentMethod?_none found) noDocument static]
    exact .refl _

/-- A method call whose receiver has come to name a local at run time. -/
theorem agrees_methodCall (hapart : f.env.refs.Apart) (h : v.SameNames w) {e' : Program.Expr}
    (hv : Resolves f.env v (.method span receiver method args) e)
    (hw : Resolves (f.pruned c).env w (.method span receiver method args) e') (line : Nat) (r : Value)
    {vs : List Value} (hvs : vs.length = args.length) :
    Agrees (methodCall f line (typeOf f.env v.types receiver) method.text r vs)
      (methodCall (f.pruned c) line (typeOf (f.pruned c).env w.types receiver) method.text r vs) := by
  have hclass : receiverType? (f.pruned c).env w.slots receiver =
      receiverType? f.env v.slots receiver := receiverType?_names h.names receiver
  cases hreceiver : receiverType? f.env v.slots receiver with
  | some type =>
    rw [typeOf_class h.left hreceiver, typeOf_class h.right (hclass.trans hreceiver)]
    exact .refl _
  | none =>
    exact (agrees_loose hapart hv hreceiver line r hvs).trans
      (agrees_loose (f := f.pruned c) hapart hw (hclass.trans hreceiver) line r hvs).symm

end

/-! ### Expressions -/

theorem length_evalAll (f : Frame) (types : Scopes Ty) (es : List Syntax.Expr) :
    ∀ {s : State} {vs : List Value} {t : State}, evalAll f types es s = .ok vs t →
      vs.length = es.length := by
  induction es with
  | nil =>
    intro s vs t h
    cases h
    rfl
  | cons e es ih =>
    intro s vs t h
    have h : EStateM.bind (eval f types e) (fun v => EStateM.bind (evalAll f types es) fun vs =>
      EStateM.pure (v :: vs)) s = .ok vs t := h
    unfold EStateM.bind at h
    cases hv : eval f types e s with
    | error k u => simp [hv] at h
    | ok v u =>
      cases hvs : evalAll f types es u with
      | error k u' => simp [hv, hvs] at h
      | ok vs' u' =>
        simp only [hv, hvs] at h
        cases h
        rw [List.length_cons, List.length_cons, ih hvs]

section

variable {f : Frame} {c : Option Call} {v w : View}

mutual

theorem agrees_eval (hcalls : CallsAgree f.call? c) (hapart : f.env.refs.Apart) (h : v.SameNames w) :
    ∀ (e : Syntax.Expr) {e₁ e₂ : Program.Expr}, Resolves f.env v e e₁ →
      Resolves (f.pruned c).env w e e₂ →
        Agrees (eval f v.types e) (eval (f.pruned c) w.types e)
  | .literal _ _, _, _, _, _ => .refl _
  | .ident _ _, _, _, _, _ => .refl _
  | .list _ items, _, _, .list parts, .list parts' =>
    (agrees_evalAll hcalls hapart h items parts parts').follow _
  | .unary _ _ operand, _, _, .unary part, .unary part' =>
    (agrees_eval hcalls hapart h operand part part').follow _
  | .binary _ op l r, _, _, .binary left right, .binary left' right' => by
    have hleft := agrees_eval hcalls hapart h l left left'
    have hright := agrees_eval hcalls hapart h r right right'
    cases op
    case and =>
      refine hleft.bind fun a => (Agrees.refl _).bind fun b => ?_
      cases b with
      | true => exact hright.follow _
      | false => exact .refl _
    case or =>
      refine hleft.bind fun a => (Agrees.refl _).bind fun b => ?_
      cases b with
      | true => exact .refl _
      | false => exact hright.follow _
    all_goals exact hleft.bind fun _ => hright.follow _
  | .index _ t p, _, _, .index target place, .index target' place' =>
    (agrees_eval hcalls hapart h t target target').bind fun _ =>
      (agrees_eval hcalls hapart h p place place').follow _
  | .call span callee args, _, _, hv, hw => by
    obtain ⟨_, parts⟩ := call_parts hv
    obtain ⟨_, parts'⟩ := call_parts hw
    refine (agrees_evalAll hcalls hapart h args parts parts').bind fun vs =>
      (Agrees.refl get).bind fun s => ?_
    split
    · exact .refl _
    · exact agrees_plainCall _ hcalls callee.text vs
  | .method span receiver method args, _, _, hv, hw => by
    obtain ⟨_, parts⟩ := method_parts hv
    obtain ⟨_, parts'⟩ := method_parts hw
    have hargs := agrees_evalAll hcalls hapart h args parts parts'
    have hreceiver : Agrees (eval f v.types receiver) (eval (f.pruned c) w.types receiver) := by
      cases hclass : receiverType? f.env v.slots receiver with
      | some type =>
        obtain ⟨_, _, rfl, -⟩ := ident_of_receiverType? hclass
        exact .refl _
      | none =>
        obtain ⟨_, object⟩ := method_object hv hclass
        obtain ⟨_, object'⟩ := method_object hw ((receiverType?_names h.names receiver).trans hclass)
        exact agrees_eval hcalls hapart h receiver object object'
    rw [eval_method, eval_method]
    refine (Agrees.refl get).bind fun s => ?_
    -- Which names have locals at run time decides, on both sides in the same way.
    show Agrees (evalMethod f v.types span receiver method args (receiverType? f.env s.scopes receiver))
      (evalMethod (f.pruned c) w.types span receiver method args
        (receiverType? f.env s.scopes receiver))
    cases receiverType? f.env s.scopes receiver with
    | some type =>
      refine hargs.bind fun vs => ?_
      rw [show (f.pruned c).env.declared.findMethod? type method.text =
        f.env.declared.findMethod? type method.text from Declarations.findMethod?_pruned ..]
      exact agrees_callMethod _ hcalls vs _
    | none =>
      exact hreceiver.bind fun r => hargs.bind_of (length_evalAll f v.types args) fun vs hvs =>
        agrees_methodCall hapart h hv hw _ r hvs

theorem agrees_evalAll (hcalls : CallsAgree f.call? c) (hapart : f.env.refs.Apart)
    (h : v.SameNames w) : ∀ (es : List Syntax.Expr) {es₁ es₂ : List Program.Expr},
      List.Forall₂ (Resolves f.env v) es es₁ → List.Forall₂ (Resolves (f.pruned c).env w) es es₂ →
        Agrees (evalAll f v.types es) (evalAll (f.pruned c) w.types es)
  | [], _, _, _, _ => .refl _
  | e :: es, _, _, .cons head tail, .cons head' tail' =>
    (agrees_eval hcalls hapart h e head head').bind fun _ =>
      (agrees_evalAll hcalls hapart h es tail tail').follow _

end

theorem agrees_condition (hcalls : CallsAgree f.call? c) (hapart : f.env.refs.Apart)
    (h : v.SameNames w) {e : Syntax.Expr} {e₁ e₂ : Program.Expr} (hv : Resolves f.env v e e₁)
    (hw : Resolves (f.pruned c).env w e e₂) :
    Agrees (condition f v.types e) (condition (f.pruned c) w.types e) :=
  (agrees_eval hcalls hapart h e hv hw).follow _

end

/-! ### Statements -/

theorem agrees_loopWhile {x y : Exec Bool} {body body' : Exec Flow} (hxy : Agrees x y)
    (hbody : Agrees body body') (n : Nat) : Agrees (loopWhile x body n) (loopWhile y body' n) := by
  induction n with
  | zero => exact .refl _
  | succ n ih =>
    refine hxy.bind fun b => ?_
    cases b with
    | false => exact .refl _
    | true =>
      refine hbody.bind fun flow => ?_
      cases flow with
      | next => exact ih
      | returned v => exact .refl _

theorem agrees_loopOver (name : String) {body body' : Exec Flow} (hbody : Agrees body body')
    (vs : List Value) : Agrees (loopOver name body vs) (loopOver name body' vs) := by
  induction vs with
  | nil => exact .refl _
  | cons v vs ih =>
    refine (agrees_inScope ((Agrees.refl _).bind fun _ => hbody)).bind fun flow => ?_
    cases flow with
    | next => exact ih
    | returned v => exact .refl _

/-- Nothing behind a `return` is run. -/
theorem execAll_result (f : Frame) (types : Scopes Ty) {s : Syntax.Stmt} (hs : s.isResult = true)
    (ss : List Syntax.Stmt) : execAll f types (s :: ss) = exec f types s := by
  cases s with
  | result span value => cases value <;> simp [execAll, exec]
  | _ => cases hs

section

variable {f : Frame} {c : Option Call}

mutual

theorem agrees_exec (hcalls : CallsAgree f.call? c) (hapart : f.env.refs.Apart) :
    ∀ (s : Syntax.Stmt) {v w v' w' : View} {t u : Program.Stmt}, v.SameNames w →
      ResolvesStmt f.env v s t v' → ResolvesStmt (f.pruned c).env w s.pruned u w' →
        Agrees (exec f v.types s) (exec (f.pruned c) w.types s.pruned)
  | .declare _ _ e, _, _, _, _, _, _, h, .declare value, .declare value' =>
    (agrees_eval hcalls hapart h e value value').follow _
  | .assign _ _ e, _, _, _, _, _, _, h, .assign value _, .assign value' _ =>
    (agrees_eval hcalls hapart h e value value').follow _
  | .expr _ e, _, _, _, _, _, _, h, .expr value, .expr value' =>
    (agrees_eval hcalls hapart h e value value').follow _
  | .branch _ branches otherwise, _, _, _, _, _, _, h, .branch arms last, .branch arms' last' => by
    have hlast := agrees_execOtherwise hcalls hapart otherwise (h.arms arms arms') last last'
    rw [arms.extends.2, arms'.extends.2] at hlast
    exact agrees_execArms hcalls hapart branches h arms arms' hlast
  | .loop _ _ body, _, _, _, _, _, _, h, .loop test block, .loop test' block' =>
    agrees_loopWhile (agrees_condition hcalls hapart h test test')
      (agrees_inScope (agrees_execAll hcalls hapart body h.enter block block')) f.steps
  | .forEach _ binding items body, _, _, _, _, _, _, h, .forEach values block,
      .forEach values' block' =>
    (agrees_eval hcalls hapart h items values values').bind fun _ => (Agrees.refl _).bind fun vs =>
      agrees_loopOver binding.text (agrees_inScope
        (agrees_execAll hcalls hapart body (h.enter.declare binding.text _ _).enter block block')) vs
  | .forRange _ binding start stop body, _, _, _, _, _, _, h, .forRange first last block,
      .forRange first' last' block' =>
    (agrees_eval hcalls hapart h start first first').bind fun _ => (Agrees.refl _).bind fun _ =>
      (agrees_eval hcalls hapart h stop last last').bind fun _ => (Agrees.refl _).bind fun _ =>
        agrees_loopOver binding.text (agrees_inScope
          (agrees_execAll hcalls hapart body (h.enter.declare binding.text _ _).enter block block')) _
  | .result _ none, _, _, _, _, _, _, _, _, _ => .refl _
  | .result _ (some e), _, _, _, _, _, _, h, .result value, .result value' =>
    (agrees_eval hcalls hapart h e value value').follow _

theorem agrees_execAll (hcalls : CallsAgree f.call? c) (hapart : f.env.refs.Apart) :
    ∀ (ss : List Syntax.Stmt) {v w v' w' : View} {ts us : List Program.Stmt}, v.SameNames w →
      ResolvesStmts f.env v ss ts v' → ResolvesStmts (f.pruned c).env w (prunedAll ss) us w' →
        Agrees (execAll f v.types ss) (execAll (f.pruned c) w.types (prunedAll ss))
  | [], _, _, _, _, _, _, _, _, _ => .refl _
  | s :: ss, v, w, _, _, _, _, h, .cons head tail, hw => by
    by_cases hs : s.isResult = true
    · have hself : s.pruned = s := by cases s <;> first | rfl | cases hs
      have hpruned : prunedAll (s :: ss) = [s.pruned] := by rw [prunedAll, if_pos hs, hself]
      rw [hpruned] at hw ⊢
      cases hw with
      | cons head' _ =>
        have hexec := agrees_exec hcalls hapart s h head head'
        rwa [execAll_result f _ hs, execAll_result _ _ (by rwa [hself])]
    · have hpruned : prunedAll (s :: ss) = s.pruned :: prunedAll ss := by rw [prunedAll, if_neg hs]
      rw [hpruned] at hw ⊢
      cases hw with
      | cons head' tail' =>
        have hrest := agrees_execAll hcalls hapart ss (h.behind head head') tail tail'
        rw [head.extends.2, head'.extends.2] at hrest
        refine (agrees_exec hcalls hapart s h head head').bind fun flow => ?_
        cases flow with
        | next => exact hrest
        | returned r => exact .refl _

theorem agrees_execArms (hcalls : CallsAgree f.call? c) (hapart : f.env.refs.Apart) :
    ∀ (bs : List (Syntax.Expr × List Syntax.Stmt)) {v w v' w' : View}
      {cs ds : List (Program.Expr × List Program.Stmt)}, v.SameNames w →
      ResolvesArms f.env v bs cs v' → ResolvesArms (f.pruned c).env w (prunedArms bs) ds w' →
        ∀ {x y : Exec Flow}, Agrees x y →
          Agrees (execArms f v.types bs x) (execArms (f.pruned c) w.types (prunedArms bs) y)
  | [], _, _, _, _, _, _, _, _, _, _, _, hlast => hlast
  | (_, body) :: rest, v, w, _, _, _, _, h, .cons (w := v₁) test block tail,
      .cons (w := w₁) test' block' tail', x, y, hlast => by
    have hrest := agrees_execArms hcalls hapart rest (h.block block block') tail tail' hlast
    have htypes : v₁.leave.types = (afterAll f.env v.types.enter body).leave :=
      congrArg Scopes.leave block.extends.2
    have htypes' : w₁.leave.types =
        (afterAll (f.pruned c).env w.types.enter (prunedAll body)).leave :=
      congrArg Scopes.leave block'.extends.2
    rw [htypes, htypes'] at hrest
    refine (agrees_condition hcalls hapart h test test').bind fun b => ?_
    cases b with
    | true => exact agrees_inScope (agrees_execAll hcalls hapart body h.enter block block')
    | false => exact hrest

theorem agrees_execOtherwise (hcalls : CallsAgree f.call? c) (hapart : f.env.refs.Apart) :
    ∀ (o : Option (List Syntax.Stmt)) {v w v' w' : View} {p q : Option (List Program.Stmt)},
      v.SameNames w → ResolvesOtherwise f.env v o p v' →
        ResolvesOtherwise (f.pruned c).env w (prunedOtherwise o) q w' →
          Agrees (execOtherwise f v.types o) (execOtherwise (f.pruned c) w.types (prunedOtherwise o))
  | none, _, _, _, _, _, _, _, _, _ => .refl _
  | some body, _, _, _, _, _, _, h, .some block, .some block' =>
    agrees_inScope (agrees_execAll hcalls hapart body h.enter block block')

end

end

/-! ### Methods -/

theorem names_parameters {α β : Type} (m : Pending) {xs : List α} {ys : List β}
    (h : xs.length = ys.length) : (parameters m xs).names = (parameters m ys).names := by
  have hzip {γ : Type} (names : List String) (zs : List γ) :
      (names.zip zs).map Prod.fst = names.take zs.length := by
    induction names generalizing zs with
    | nil => simp
    | cons name names ih => cases zs <;> simp [ih]
  simp [parameters, Scopes.names, List.map_reverse, hzip, h]

theorem balanced_paramsView (m : Pending) : (paramsView m).Balanced := by
  refine names_parameters m ?_
  rw [List.length_map, List.length_range]

/-- Bodies that end alike give what the calls of their methods give. -/
theorem endsAlike_of_body : ∀ {r r' : EStateM.Result Machine.Halt State Flow}, EndsAlike r r' →
    EndsAlike
      (match r with
        | .ok flow s => .ok flow.value s.world
        | .error k s => .error k s.world : EStateM.Result Machine.Halt World Value)
      (match r' with
        | .ok flow s => .ok flow.value s.world
        | .error k s => .error k s.world)
  | _, _, .ok flow s => .ok flow.value s.world
  | _, _, .error alike s => .error alike s.world

section

variable {refs : ReferenceSet} {lines : LineIndex} {file : Syntax.File}

theorem agrees_run (hapart : refs.Apart) (hclean : Clean (resolve refs lines file).2)
    (hpruned : Clean (resolve refs lines file.pruned).2) (steps : Nat) {c d : Option Call}
    (hcalls : CallsAgree c d) (id : MethodId) (args : List Value) :
    Agrees (run (templateOf refs lines file) steps c id args)
      (run (templateOf refs lines file.pruned) steps d id args) := by
  intro world
  have htemplate : templateOf refs lines file.pruned =
      ⟨refs, lines, (declarations refs file).pruned⟩ := by
    rw [templateOf, Program.declarations_pruned]
  rw [htemplate]
  unfold run
  dsimp only [templateOf]
  rw [Declarations.getElem?_pruned]
  cases hm : (declarations refs file).methods[id]? with
  | none => exact .refl _
  | some m =>
    have hm' : (declarations refs file.pruned).methods[id]? = some m.pruned := by
      rw [Program.declarations_pruned, Declarations.getElem?_pruned, hm, Option.map_some]
    obtain ⟨hfaithful, -⟩ :=
      (Program.declarations_clean (Program.clean_declarations hclean)).2 id m hm
    obtain ⟨hfaithful', -⟩ :=
      (Program.declarations_clean (Program.clean_declarations hpruned)).2 id m.pruned hm'
    obtain ⟨-, v, hbody, -⟩ :=
      Program.resolveMethod_clean hfaithful (Program.clean_method hclean hm)
    obtain ⟨-, w, hbody', -⟩ :=
      Program.resolveMethod_clean hfaithful' (Program.clean_method hpruned hm')
    rw [Program.declarations_pruned] at hbody'
    have hnames : (paramsView m).SameNames (paramsView m.pruned) :=
      ⟨balanced_paramsView m, balanced_paramsView m.pruned, rfl⟩
    have hbodies := agrees_inScope (agrees_execAll
      (f := ⟨⟨refs, lines, declarations refs file, m.owner⟩,
        (templateOf refs lines file).qualifiedName m, steps, c⟩)
      hcalls hapart m.declaration.body hnames.enter hbody hbody')
    exact endsAlike_of_body (hbodies ⟨parameters m args, world⟩)

/-- **What stands behind a `return` does not matter** for the meaning of a source. -/
theorem agrees_invoke (hapart : refs.Apart) (hclean : Clean (resolve refs lines file).2)
    (hpruned : Clean (resolve refs lines file.pruned).2) (steps : Nat) :
    ∀ (depth : Nat) (id : MethodId) (args : List Value),
      Agrees (invoke (templateOf refs lines file) steps depth id args)
        (invoke (templateOf refs lines file.pruned) steps depth id args)
  | 0 => agrees_run hapart hclean hpruned steps .none
  | depth + 1 =>
    agrees_run hapart hclean hpruned steps (.some (agrees_invoke hapart hclean hpruned steps depth))

end

end Scoped

end ReportTemplate
