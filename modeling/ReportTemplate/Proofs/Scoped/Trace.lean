import ReportTemplate.Proofs.Scoped.Interpreter
import ReportTemplate.Proofs.Scoped.Follows
import ReportTemplate.Proofs.Syntax.Calls

/-!
# ReportTemplate.Proofs.Scoped.Trace — the log holds what reached it

Only a call of the log appends to the log, one entry if its arguments are a line, a text and a value.
So the log of a run is what it began with and the entries of the calls that reached it, in their order;
each of these calls was made by a call of the syntax tree, whose literals are among its arguments.
-/

namespace ReportTemplate.Scoped

open Machine (Halt Flow LogEntry)
open Program (MethodId)

/-! ### What a run leaves -/

/-- The entry that a call leaves in the log. -/
def entryOf (r : Reached) : Option LogEntry :=
  match r.args with
  | [.int n, .str text, v] => some ⟨n, text, v⟩
  | _ => none

/-- A value that an expression may have: a literal has its own. -/
def MayBe (e : Syntax.Expr) (v : Value) : Prop :=
  ∀ (span : Span) (l : Syntax.Literal), e = .literal span l → v = (Program.Resolve.literal l).1

section

variable (P : Syntax.Ident → List Syntax.Expr → Prop) (log : List LogEntry)

/-- A call that some call of the syntax tree makes. -/
def MadeBy (r : Reached) : Prop := ∃ args, P r.callee args ∧ List.Forall₂ MayBe args r.args

/-- The log of a run that began with a log, behind calls that calls of the tree made. -/
structure Recorded (w : World) : Prop where
  made : ∀ r ∈ w.reached, MadeBy P r
  entries : w.left.log.toList = log ++ w.reached.filterMap entryOf

/-- Moreover each of the calls left an entry. -/
structure Complete (w : World) : Prop extends Recorded P log w where
  complete : ∀ r ∈ w.reached, (entryOf r).isSome

variable {σ α : Type}

/-- How a computation may end: a failure may come from a call that left no entry. -/
def Ends (world : σ → World) (Q : α → Prop) : EStateM.Result Halt σ α → Prop
  | .ok a s => Complete P log (world s) ∧ Q a
  | .error _ s => Recorded P log (world s)

/-- A computation inside a call that only appends to the log what its calls of the log leave there. -/
def Keeps (x : Exec α) (Q : α → Prop) : Prop :=
  ∀ s, Complete P log s.world → Ends P log State.world Q (x s)

/-- A call of a method that does so. -/
def CallKeeps (c : Call) : Prop := ∀ (method : MethodId) (args : List Value) (w : World),
  Complete P log w → Ends P log id (fun _ => True) (c method args w)

end

variable {P : Syntax.Ident → List Syntax.Expr → Prop} {log : List LogEntry} {α β : Type}

namespace Keeps

variable {x : Exec α} {Q : α → Prop} {R : β → Prop}

theorem mono {Q' : α → Prop} (h : Keeps P log x Q) (hQ : ∀ a, Q a → Q' a) : Keeps P log x Q' := by
  intro s hs
  have hx := h s hs
  generalize x s = r at hx ⊢
  cases r with
  | ok a t => exact ⟨hx.1, hQ a hx.2⟩
  | error _ _ => exact hx

theorem pure {a : α} (h : Q a) : Keeps P log (Pure.pure a) Q := fun _ hs => ⟨hs, h⟩

theorem bind {f : α → Exec β} (hx : Keeps P log x Q) (hf : ∀ a, Q a → Keeps P log (f a) R) :
    Keeps P log (x >>= f) R := by
  intro s hs
  have hfirst := hx s hs
  show Ends P log State.world R (EStateM.bind x f s)
  unfold EStateM.bind
  generalize x s = r at hfirst ⊢
  cases r with
  | ok a t => exact hf a hfirst.2 t hfirst.1
  | error _ _ => exact hfirst

theorem get : Keeps P log (MonadState.get : Exec State) fun _ => True := fun _ hs => ⟨hs, trivial⟩

theorem throw (h : Halt) : Keeps P log (MonadExcept.throw h : Exec α) Q := fun _ hs => hs.toRecorded

/-- What happens to the scopes alone does not show in the log. -/
theorem modifyScopes (k : Scopes Value → Scopes Value) :
    Keeps P log (modify fun s => { s with scopes := k s.scopes }) fun _ => True :=
  fun _ hs => ⟨hs, trivial⟩

end Keeps

/-! ### Computations of the machine -/

/-- A computation that leaves the log alone. -/
def Quiet (x : Machine.Exec α) : Prop := ∀ s, match x s with
  | .ok _ t | .error _ t => t.world.log = s.world.log

namespace Quiet

theorem pure (a : α) : Quiet (Pure.pure a) := fun _ => rfl

theorem bind {x : Machine.Exec α} {f : α → Machine.Exec β} (hx : Quiet x) (hf : ∀ a, Quiet (f a)) :
    Quiet (x >>= f) := by
  intro s
  have hfirst := hx s
  show match EStateM.bind x f s with
    | .ok _ t | .error _ t => t.world.log = s.world.log
  unfold EStateM.bind
  generalize x s = r at hfirst ⊢
  cases r with
  | ok a t =>
    have hlater := hf a t
    dsimp only at hfirst ⊢
    generalize f a t = r at hlater ⊢
    cases r with
    | ok b u => exact hlater.trans hfirst
    | error k u => exact hlater.trans hfirst
  | error k t => exact hfirst

variable (f : Machine.Frame) (line : Nat)

theorem fail (cause : Machine.Cause) : Quiet (Machine.fail f line cause : Machine.Exec α) :=
  fun _ => rfl

theorem attempt (cause : Refusal → Machine.Cause) (r : Except Refusal α) :
    Quiet (Machine.attempt f line cause r) := by
  cases r with
  | ok a => exact .pure a
  | error r => exact .fail f line (cause r)

theorem truth (v : Value) : Quiet (Machine.truth f line v) := by
  unfold Machine.truth
  split
  · exact .pure _
  · exact .fail f line _

theorem bound (v : Value) : Quiet (Machine.bound f line v) := by
  unfold Machine.bound
  split
  · exact .pure _
  · exact .fail f line _

theorem callDocument (name : String) (m : DocumentMethod) (args : List Value) :
    Quiet (Machine.callDocument f line name m args) := by
  refine (Quiet.attempt f line _ _).bind fun block => ?_
  have hmodify : Quiet (modify fun s : Machine.State =>
      { s with world := { s.world with document := s.world.document.add block } }) := fun _ => rfl
  exact hmodify.bind fun _ => .pure _

theorem callDynamic (name : String) (receiver : Value) (args : List Value)
    (document : Option DocumentMethod) (function : Option Function) :
    Quiet (Machine.callDynamic f line name receiver args document function) := by
  unfold Machine.callDynamic
  split
  · exact .callDocument f line name _ args
  · split
    · exact .attempt f line _ _
    · exact .fail f line _

end Quiet

theorem keeps_primitive {x : Machine.Exec α} (h : Quiet x) :
    Keeps P log (primitive x) fun _ => True := by
  intro s hs
  have hquiet := h ⟨#[], s.world.left⟩
  unfold primitive
  generalize x ⟨#[], s.world.left⟩ = r at hquiet ⊢
  have hentries {t : Machine.State} (ht : t.world.log = s.world.left.log) :
      t.world.log.toList = log ++ s.world.reached.filterMap entryOf := by
    rw [ht]
    exact hs.entries
  cases r with
  | ok a t => exact ⟨⟨⟨hs.made, hentries hquiet⟩, hs.complete⟩, trivial⟩
  | error k t => exact ⟨hs.made, hentries hquiet⟩

theorem keeps_load (name : String) : Keeps P log (load name) fun _ => True := by
  refine Keeps.get.bind fun s _ => ?_
  split
  · exact .pure trivial
  · exact .throw _

theorem keeps_declare (name : String) (v : Value) : Keeps P log (declare name v) fun _ => True :=
  .modifyScopes _

theorem keeps_assign (name : String) (v : Value) : Keeps P log (assign name v) fun _ => True := by
  intro s hs
  unfold assign
  rw [run_bind_ok (rfl : (get : Exec State) s = .ok s s)]
  cases s.scopes.read? name with
  | some _ => exact ⟨hs, trivial⟩
  | none => exact hs.toRecorded

theorem keeps_inScope {x : Exec α} {Q : α → Prop} (h : Keeps P log x Q) :
    Keeps P log (inScope x) Q :=
  (Keeps.modifyScopes _).bind fun _ _ => h.bind fun _ hQ => (Keeps.modifyScopes _).bind fun _ _ =>
    .pure hQ

/-! ### Calls -/

section Calls

variable {f : Frame} (line : Nat)

theorem callLog_some {F : Machine.Frame} {callee : Syntax.Ident} {vs : List Value} {e : LogEntry}
    (h : entryOf ⟨callee, vs⟩ = some e) (name : String) (s : Machine.State) :
    Machine.callLog F line name vs s =
      .ok .null { s with world := { s.world with log := s.world.log.push e } } := by
  unfold entryOf at h
  split at h
  · next n text v hargs =>
    obtain rfl : vs = [.int n, .str text, v] := hargs
    obtain rfl := Option.some.inj h
    rfl
  · cases h

theorem callLog_none {F : Machine.Frame} {callee : Syntax.Ident} {vs : List Value}
    (h : entryOf ⟨callee, vs⟩ = none) (name : String) (s : Machine.State) :
    ∃ k, Machine.callLog F line name vs s = .error k s := by
  unfold Machine.callLog
  split
  · cases h
  · exact ⟨_, rfl⟩

theorem filterMap_concat {β γ : Type} (g : β → Option γ) (l : List β) (b : β) :
    (l ++ [b]).filterMap g = l.filterMap g ++ (g b).toList := by
  rw [List.filterMap_append]
  cases hb : g b with
  | none => rw [List.filterMap_cons_none hb]; rfl
  | some c => rw [List.filterMap_cons_some hb]; rfl

/-- A call of the log leaves its entry, and fails when there is none. -/
theorem keeps_callValue {callee : Syntax.Ident} {args : List Syntax.Expr} {vs : List Value}
    (hcallee : P callee args) (hargs : List.Forall₂ MayBe args vs) (v : Value) :
    Keeps P log (callValue f line callee vs v) fun _ => True := by
  cases v with
  | log =>
    intro s hs
    have hmade : ∀ r ∈ s.world.reached ++ [⟨callee, vs⟩], MadeBy P r := by
      intro r hr
      rcases List.mem_append.mp hr with hr | hr
      · exact hs.made r hr
      · rw [List.mem_singleton.mp hr]
        exact ⟨args, hcallee, hargs⟩
    have hfilter := filterMap_concat entryOf s.world.reached ⟨callee, vs⟩
    have hrun : callValue f line callee vs .log s = primitive
      (Machine.callLog f.machine line callee.text vs)
      { s with world := { s.world with reached := s.world.reached ++ [⟨callee, vs⟩] } } := rfl
    rw [hrun]
    unfold primitive
    dsimp only
    cases hentry : entryOf ⟨callee, vs⟩ with
    | some e =>
      rw [hentry] at hfilter
      rw [callLog_some line hentry]
      refine ⟨⟨⟨hmade, ?_⟩, fun r hr => ?_⟩, trivial⟩
      · show (s.world.left.log.push e).toList = _
        rw [hfilter, Array.toList_push, hs.entries, List.append_assoc]
        rfl
      · rcases List.mem_append.mp hr with hr | hr
        · exact hs.complete r hr
        · rw [List.mem_singleton.mp hr, hentry]
          rfl
    | none =>
      rw [hentry] at hfilter
      obtain ⟨k, hk⟩ := callLog_none (F := f.machine) line hentry callee.text
        ⟨#[], s.world.left⟩
      rw [hk]
      refine ⟨hmade, ?_⟩
      show s.world.left.log.toList = _
      rw [hfilter, hs.entries]
      simp
  | _ => exact keeps_primitive (.fail _ line _)

theorem keeps_inWorld {x : EStateM Halt World Value}
    (h : ∀ w, Complete P log w → Ends P log id (fun _ => True) (x w)) :
    Keeps P log (inWorld x) fun _ => True := by
  intro s hs
  have hx := h s.world hs
  unfold inWorld
  generalize x s.world = r at hx ⊢
  cases r with
  | ok a w => exact hx
  | error k w => exact hx

variable (hcalls : ∀ call ∈ f.call?, CallKeeps P log call)

include hcalls

theorem keeps_callMethod (args : List Value) (method : Option MethodId) :
    Keeps P log (callMethod f line args method) fun _ => True := by
  unfold callMethod
  split
  · next id =>
    split
    · next call hcall => exact keeps_inWorld fun w hw => hcalls call hcall id args w hw
    · exact keeps_primitive (.fail _ line _)
  · exact .throw _

omit hcalls in
theorem keeps_callFunction (args : List Value) (g : Option Function) :
    Keeps P log (callFunction f line args g) fun _ => True := by
  unfold callFunction
  split
  · exact keeps_primitive (.attempt _ line _ _)
  · exact .throw _

theorem keeps_plainCall (name : String) (args : List Value) :
    Keeps P log (plainCall f line name args) fun _ => True := by
  unfold plainCall
  split
  · exact keeps_callMethod line hcalls args _
  · exact keeps_callFunction line args _

omit hcalls in
theorem keeps_methodCall (ty : Ty) (name : String) (receiver : Value) (args : List Value) :
    Keeps P log (methodCall f line ty name receiver args) fun _ => True := by
  unfold methodCall
  split
  · split
    · split
      · exact keeps_primitive (.callDocument _ line _ _ _)
      · exact keeps_primitive (.fail _ line _)
    · exact .throw _
  · exact keeps_primitive (.callDynamic _ line _ _ _ _ _)
  · exact keeps_callFunction line _ _

end Calls

/-! ### Expressions -/

section

variable {f : Frame}

theorem keeps_attempt {α : Type} (line : Nat) (cause : Refusal → Machine.Cause)
    (r : Except Refusal α) : Keeps P log (attempt f line cause r) fun _ => True :=
  keeps_primitive (.attempt _ line cause r)

theorem keeps_truth (line : Nat) (v : Value) :
    Keeps P log (primitive (Machine.truth f.machine line v)) fun _ => True :=
  keeps_primitive (.truth _ line v)

theorem keeps_bound (line : Nat) (v : Value) :
    Keeps P log (primitive (Machine.bound f.machine line v)) fun _ => True :=
  keeps_primitive (.bound _ line v)

mutual

theorem keeps_eval (hcalls : ∀ call ∈ f.call?, CallKeeps P log call) (types : Scopes Ty) :
    ∀ e : Syntax.Expr, e.Calls P → Keeps P log (eval f types e) (MayBe e)
  | .literal _ value, _ => by
    refine .pure ?_
    rintro _ l ⟨rfl, rfl⟩
    rfl
  | .ident _ name, _ => (keeps_load name).mono fun _ _ _ _ h => nomatch h
  | .list _ items, he => by
    have hitems := keeps_evalAll hcalls types items he
    exact hitems.bind fun _ _ => .pure fun _ _ h => nomatch h
  | .unary span op operand, he => by
    have hoperand := keeps_eval hcalls types operand he
    refine Keeps.mono (Q := fun _ => True) ?_ fun _ _ _ _ h => nomatch h
    exact hoperand.bind fun _ _ => keeps_attempt _ _ _
  | .binary span op left right, he => by
    have hleft := keeps_eval hcalls types left he.1
    have hright := keeps_eval hcalls types right he.2
    have hlast : Keeps P log (do
        let v ← eval f types right
        let b ← primitive (Machine.truth f.machine (f.line right.span) v)
        return Value.bool b : Exec Value) fun _ => True :=
      hright.bind fun v _ => (keeps_truth _ v).bind fun _ _ => .pure trivial
    refine Keeps.mono (Q := fun _ => True) ?_ fun _ _ _ _ h => nomatch h
    -- The right operand of a logical operator is evaluated only if the left one leaves it open.
    cases op
    case and =>
      refine hleft.bind fun v _ => (keeps_truth _ v).bind fun b _ => ?_
      cases b with
      | true => exact hlast
      | false => exact .pure trivial
    case or =>
      refine hleft.bind fun v _ => (keeps_truth _ v).bind fun b _ => ?_
      cases b with
      | true => exact .pure trivial
      | false => exact hlast
    all_goals exact hleft.bind fun _ _ => hright.bind fun _ _ => keeps_attempt _ _ _
  | .index span target place, he => by
    have htarget := keeps_eval hcalls types target he.1
    have hplace := keeps_eval hcalls types place he.2
    refine Keeps.mono (Q := fun _ => True) ?_ fun _ _ _ _ h => nomatch h
    exact htarget.bind fun _ _ => hplace.bind fun _ _ => keeps_attempt _ _ _
  | .call span callee args, he => by
    have hargs := keeps_evalAll hcalls types args he.2
    refine Keeps.mono (Q := fun _ => True) ?_ fun _ _ _ _ h => nomatch h
    refine hargs.bind fun vs hvs => ?_
    refine Keeps.get.bind fun s _ => ?_
    split
    · exact keeps_callValue _ he.1 hvs _
    · exact keeps_plainCall _ hcalls _ vs
  | .method span receiver method args, he => by
    have hreceiver := keeps_eval hcalls types receiver he.1
    have hargs := keeps_evalAll hcalls types args he.2
    refine Keeps.mono (Q := fun _ => True) ?_ fun _ _ _ _ h => nomatch h
    refine Keeps.get.bind fun s _ => ?_
    split
    · exact hargs.bind fun vs _ => keeps_callMethod _ hcalls vs _
    · exact hreceiver.bind fun r _ => hargs.bind fun vs _ => keeps_methodCall _ _ _ r vs

theorem keeps_evalAll (hcalls : ∀ call ∈ f.call?, CallKeeps P log call) (types : Scopes Ty) :
    ∀ es : List Syntax.Expr, Syntax.Expr.AllCalls P es →
      Keeps P log (evalAll f types es) (List.Forall₂ MayBe es)
  | [], _ => .pure .nil
  | e :: es, he => by
    have hfirst := keeps_eval hcalls types e he.1
    have hrest := keeps_evalAll hcalls types es he.2
    exact hfirst.bind fun _ hv => hrest.bind fun _ hvs => .pure (.cons hv hvs)

end

theorem keeps_condition (hcalls : ∀ call ∈ f.call?, CallKeeps P log call) (types : Scopes Ty)
    {e : Syntax.Expr} (he : e.Calls P) :
    Keeps P log (condition f types e) fun _ => True :=
  (keeps_eval hcalls types e he).bind fun v _ => keeps_truth _ v

/-! ### Statements -/

section Loops

variable {c : Exec Bool} {body : Exec Flow}

theorem keeps_loopWhile (hc : Keeps P log c fun _ => True) (hbody : Keeps P log body fun _ => True)
    (n : Nat) : Keeps P log (loopWhile c body n) fun _ => True := by
  induction n with
  | zero => exact .throw _
  | succ n ih =>
    refine hc.bind fun b _ => ?_
    cases b with
    | false => exact .pure trivial
    | true =>
      refine hbody.bind fun flow _ => ?_
      cases flow with
      | next => exact ih
      | returned v => exact .pure trivial

theorem keeps_loopOver (name : String) (hbody : Keeps P log body fun _ => True) (vs : List Value) :
    Keeps P log (loopOver name body vs) fun _ => True := by
  induction vs with
  | nil => exact .pure trivial
  | cons v vs ih =>
    have hdeclare : Keeps P log (declare name v) fun _ => True := keeps_declare name v
    refine (keeps_inScope (hdeclare.bind fun _ _ => hbody)).bind fun flow _ => ?_
    cases flow with
    | next => exact ih
    | returned v => exact .pure trivial

end Loops

mutual

theorem keeps_exec (hcalls : ∀ call ∈ f.call?, CallKeeps P log call) (types : Scopes Ty) :
    ∀ s : Syntax.Stmt, s.Calls P → Keeps P log (exec f types s) fun _ => True
  | .declare _ _ value, hs => by
    have hvalue := keeps_eval hcalls types value hs
    exact hvalue.bind fun v _ => (keeps_declare _ v).bind fun _ _ => .pure trivial
  | .assign _ _ value, hs => by
    have hvalue := keeps_eval hcalls types value hs
    exact hvalue.bind fun v _ => (keeps_assign _ v).bind fun _ _ => .pure trivial
  | .expr _ value, hs => by
    have hvalue := keeps_eval hcalls types value hs
    exact hvalue.bind fun _ _ => .pure trivial
  | .branch _ branches otherwise, hs => by
    have hlast := keeps_execOtherwise hcalls (afterArms f.env types branches) otherwise hs.2
    exact keeps_execArms hcalls types branches hs.1 hlast
  | .loop _ _ body, hs => by
    have hcond := keeps_condition hcalls types hs.1
    have hbody := keeps_execAll hcalls types.enter body hs.2
    exact keeps_loopWhile hcond (keeps_inScope hbody) _
  | .forEach _ _ items body, hs => by
    have hitems := keeps_eval hcalls types items hs.1
    refine hitems.bind fun _ _ => ?_
    refine (keeps_attempt _ _ _).bind fun vs _ => ?_
    exact keeps_loopOver _ (keeps_inScope (keeps_execAll hcalls _ body hs.2)) vs
  | .forRange _ _ start stop body, hs => by
    have hstart := keeps_eval hcalls types start hs.1
    have hstop := keeps_eval hcalls types stop hs.2.1
    refine hstart.bind fun a _ => (keeps_bound _ a).bind fun _ _ => ?_
    refine hstop.bind fun b _ => (keeps_bound _ b).bind fun _ _ => ?_
    exact keeps_loopOver _ (keeps_inScope (keeps_execAll hcalls _ body hs.2.2)) _
  | .result _ none, _ => .pure trivial
  | .result _ (some value), hs => by
    have hvalue := keeps_eval hcalls types value hs
    exact hvalue.bind fun _ _ => .pure trivial

theorem keeps_execAll (hcalls : ∀ call ∈ f.call?, CallKeeps P log call) (types : Scopes Ty) :
    ∀ ss : List Syntax.Stmt, Syntax.Stmt.AllCalls P ss →
      Keeps P log (execAll f types ss) fun _ => True
  | [], _ => .pure trivial
  | s :: ss, hs => by
    have hfirst := keeps_exec hcalls types s hs.1
    refine hfirst.bind fun flow _ => ?_
    cases flow with
    | next => exact keeps_execAll hcalls _ ss hs.2
    | returned v => exact .pure trivial

theorem keeps_execArms (hcalls : ∀ call ∈ f.call?, CallKeeps P log call) (types : Scopes Ty) :
    ∀ bs : List (Syntax.Expr × List Syntax.Stmt), Syntax.Stmt.ArmsCalls P bs →
      ∀ {otherwise : Exec Flow}, Keeps P log otherwise (fun _ => True) →
        Keeps P log (execArms f types bs otherwise) fun _ => True
  | [], _, _, hlast => hlast
  | (cond, body) :: rest, hs, _, hlast => by
    have hcond := keeps_condition hcalls types hs.1
    refine hcond.bind fun b _ => ?_
    cases b with
    | true => exact keeps_inScope (keeps_execAll hcalls _ body hs.2.1)
    | false => exact keeps_execArms hcalls _ rest hs.2.2 hlast

theorem keeps_execOtherwise (hcalls : ∀ call ∈ f.call?, CallKeeps P log call) (types : Scopes Ty) :
    ∀ o : Option (List Syntax.Stmt), Syntax.Stmt.OtherwiseCalls P o →
      Keeps P log (execOtherwise f types o) fun _ => True
  | none, _ => .pure trivial
  | some body, hs => by
    have hbody := keeps_execAll hcalls types.enter body hs
    exact keeps_inScope hbody

end

end

/-! ### Methods -/

section

variable {t : Template} (hbodies : ∀ m ∈ t.declared.methods, Syntax.Stmt.AllCalls P m.declaration.body)

include hbodies

theorem callKeeps_run (steps : Nat) {call? : Option Call} (hcalls : ∀ call ∈ call?, CallKeeps P log call) :
    CallKeeps P log (run t steps call?) := by
  intro method args w hw
  unfold run
  cases hm : t.declared.methods[method]? with
  | none => exact hw.toRecorded
  | some m =>
    have hbody := keeps_inScope (keeps_execAll
      (f := ⟨t.surroundings m.owner, t.qualifiedName m, steps, call?⟩) hcalls
      (Scopes.enter (parameters m (m.signature.params.map Prod.snd))) m.declaration.body
      (hbodies m (List.mem_of_getElem? hm))) ⟨parameters m args, w⟩ hw
    dsimp only
    generalize inScope _ _ = r at hbody ⊢
    cases r with
    | ok flow s => exact ⟨hbody.1, trivial⟩
    | error k s => exact hbody

/-- **The log of a call**: it is what the log was before and an entry for each call that reached it, in
their order, unless the last of them failed. -/
theorem callKeeps_invoke (steps : Nat) : ∀ depth : Nat, CallKeeps P log (invoke t steps depth)
  | 0 => callKeeps_run hbodies steps fun _ h => nomatch h
  | depth + 1 => by
    refine callKeeps_run hbodies steps fun call hcall => ?_
    obtain rfl := Option.some.inj hcall
    exact callKeeps_invoke steps depth

end

end ReportTemplate.Scoped
