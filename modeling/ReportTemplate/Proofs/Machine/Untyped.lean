import ReportTemplate.Machine

/-!
# ReportTemplate.Proofs.Machine.Untyped — calls without static types

A method call on a receiver whose static type is known does what a call does whose receiver shows its type
at run time only.  `untyped` forgets how a method call was resolved as far as that follows from the static
type, and the runs of a program and of its untyped form agree but for the causes of failures.
-/

namespace ReportTemplate

namespace Program

/-! ### Untyped programs -/

/-- A call of a document method on a receiver that shows its type at run time, and a call of a function
on a receiver that is no document for certain. -/
def Expr.dynamic (line : Nat) (name : String) (receiver : Expr) (args : List Expr) :
    Option DocumentMethod → Option Function → Expr
  | none, some g => .callFunction line g (receiver :: args)
  | document, function => .callDynamic line name receiver args document function

mutual

/-- An expression whose calls do not depend on static types. -/
def Expr.untyped : Expr → Expr
  | .const line v => .const line v
  | .slot line i => .slot line i
  | .list line items => .list line (Expr.untypedAll items)
  | .unary line op operand => .unary line op operand.untyped
  | .binary line op left right => .binary line op left.untyped right.untyped
  | .index line target place => .index line target.untyped place.untyped
  | .callMethod line id args => .callMethod line id (Expr.untypedAll args)
  | .callFunction line g args => .callFunction line g (Expr.untypedAll args)
  | .callSlot line i name args => .callSlot line i name (Expr.untypedAll args)
  | .callDocument line m receiver args =>
    .callDynamic line m.name receiver.untyped (Expr.untypedAll args) (some m) none
  | .callDynamic line name receiver args document function =>
    .dynamic line name receiver.untyped (Expr.untypedAll args) document function

def Expr.untypedAll : List Expr → List Expr
  | [] => []
  | e :: es => e.untyped :: Expr.untypedAll es

end

mutual

def Stmt.untyped : Stmt → Stmt
  | .store line slot value => .store line slot value.untyped
  | .expr line value => .expr line value.untyped
  | .branch line branches otherwise =>
    .branch line (Stmt.untypedArms branches) (Stmt.untypedOtherwise otherwise)
  | .loop line cond body => .loop line cond.untyped (Stmt.untypedAll body)
  | .forEach line slot items body => .forEach line slot items.untyped (Stmt.untypedAll body)
  | .forRange line slot start stop body =>
    .forRange line slot start.untyped stop.untyped (Stmt.untypedAll body)
  | .result line none => .result line none
  | .result line (some value) => .result line (some value.untyped)

def Stmt.untypedAll : List Stmt → List Stmt
  | [] => []
  | s :: ss => s.untyped :: Stmt.untypedAll ss

def Stmt.untypedArms : List (Expr × List Stmt) → List (Expr × List Stmt)
  | [] => []
  | (cond, body) :: rest => (cond.untyped, Stmt.untypedAll body) :: Stmt.untypedArms rest

def Stmt.untypedOtherwise : Option (List Stmt) → Option (List Stmt)
  | none => none
  | some body => some (Stmt.untypedAll body)

end

end Program

/-- A signature without types. -/
def Signature.untyped (s : Signature) : Signature :=
  { s with params := s.params.map fun p => (p.1, .any), returns := .any }

namespace Program

def Method.untyped (m : Method) : Method :=
  { m with signature := m.signature.untyped, body := Stmt.untypedAll m.body }

/-- A program whose calls do not depend on static types. -/
def untyped (p : Program) : Program := { p with methods := p.methods.map Method.untyped }

theorem Expr.line_untyped (e : Expr) : e.untyped.line = e.line := by
  cases e with
  | callDynamic line name receiver args document function =>
    cases document <;> cases function <;> rfl
  | _ => rfl

end Program

namespace Machine

open Program (Expr Stmt)

/-! ### Runs that agree -/

/-- Two runs halt for the same reason, but for the cause of a failure. -/
inductive Halt.Alike : Halt → Halt → Prop
  | failed (method : String) (line : Nat) (cause cause' : Cause) :
      Alike (.failed ⟨method, line, cause⟩) (.failed ⟨method, line, cause'⟩)
  | outOfSteps : Alike .outOfSteps .outOfSteps
  | broken : Alike .broken .broken

theorem Halt.Alike.refl : ∀ k : Halt, k.Alike k
  | .failed ⟨method, line, cause⟩ => .failed method line cause cause
  | .outOfSteps => .outOfSteps
  | .broken => .broken

theorem Halt.Alike.symm {k k' : Halt} (h : k.Alike k') : k'.Alike k := by
  cases h with
  | failed method line cause cause' => exact .failed method line cause' cause
  | outOfSteps => exact .outOfSteps
  | broken => exact .broken

theorem Halt.Alike.trans {k k' k'' : Halt} (h : k.Alike k') (h' : k'.Alike k'') : k.Alike k'' := by
  cases h <;> cases h' <;> constructor

/-- Two runs end alike: with the same value, or for the same reason, and in the same state. -/
inductive EndsAlike {σ α : Type} : EStateM.Result Halt σ α → EStateM.Result Halt σ α → Prop
  | ok (a : α) (s : σ) : EndsAlike (.ok a s) (.ok a s)
  | error {k k' : Halt} (alike : k.Alike k') (s : σ) : EndsAlike (.error k s) (.error k' s)

section

variable {σ α : Type} {r r' r'' : EStateM.Result Halt σ α}

theorem EndsAlike.refl : ∀ r : EStateM.Result Halt σ α, EndsAlike r r
  | .ok a s => .ok a s
  | .error k s => .error (.refl k) s

theorem EndsAlike.symm (h : EndsAlike r r') : EndsAlike r' r := by
  cases h with
  | ok a s => exact .ok a s
  | error alike s => exact .error alike.symm s

theorem EndsAlike.trans (h : EndsAlike r r') (h' : EndsAlike r' r'') : EndsAlike r r'' := by
  cases h with
  | ok a s => exact h'
  | error alike s =>
    cases h' with
    | error alike' _ => exact .error (alike.trans alike') s

end

/-- Two computations end alike from every state. -/
def Agrees {σ α : Type} (x y : EStateM Halt σ α) : Prop := ∀ s, EndsAlike (x s) (y s)

namespace Agrees

variable {σ α β : Type} {x y z : EStateM Halt σ α}

theorem refl (x : EStateM Halt σ α) : Agrees x x := fun s => .refl (x s)

theorem symm (h : Agrees x y) : Agrees y x := fun s => (h s).symm

theorem trans (h : Agrees x y) (h' : Agrees y z) : Agrees x z := fun s => (h s).trans (h' s)

/-- What follows has to agree on the values only that there can be. -/
theorem bind_of {P : α → Prop} {g h : α → EStateM Halt σ β} (hx : Agrees x y)
    (hP : ∀ {s a t}, x s = .ok a t → P a) (hg : ∀ a, P a → Agrees (g a) (h a)) :
    Agrees (x >>= g) (y >>= h) := by
  intro s
  have hfirst := hx s
  show EndsAlike (EStateM.bind x g s) (EStateM.bind y h s)
  unfold EStateM.bind
  cases hr : x s with
  | ok a t =>
    rw [hr] at hfirst
    generalize y s = r at hfirst ⊢
    cases hfirst
    exact hg a (hP hr) t
  | error k t =>
    rw [hr] at hfirst
    generalize y s = r at hfirst ⊢
    cases hfirst with
    | error alike _ => exact .error alike t

theorem bind {g h : α → EStateM Halt σ β} (hx : Agrees x y) (hg : ∀ a, Agrees (g a) (h a)) :
    Agrees (x >>= g) (y >>= h) :=
  hx.bind_of (P := fun _ => True) (fun _ => trivial) fun a _ => hg a

theorem follow (hx : Agrees x y) (g : α → EStateM Halt σ β) : Agrees (x >>= g) (y >>= g) :=
  hx.bind fun a => .refl (g a)

end Agrees

/-- The calls that two frames make agree. -/
inductive CallsAgree : Option Call → Option Call → Prop
  | none : CallsAgree none none
  | some {c d : Call} (agree : ∀ id args, Agrees (c id args) (d id args)) :
      CallsAgree (some c) (some d)

/-- Frames of one method, whose calls agree. -/
structure FramesAgree (f g : Frame) : Prop where
  method : g.method = f.method
  steps : g.steps = f.steps
  calls : CallsAgree f.call? g.call?

section

variable {α : Type} {f g : Frame} (h : FramesAgree f g) (line : Nat)

include h

/-- Failures on a line of one method. -/
theorem agrees_fail (cause cause' : Cause) :
    Agrees (fail f line cause : Exec α) (fail g line cause') := by
  intro s
  unfold fail
  rw [h.method]
  exact .error (.failed f.method line cause cause') s

theorem agrees_attempt (cause cause' : Refusal → Cause) (r : Except Refusal α) :
    Agrees (attempt f line cause r) (attempt g line cause' r) := by
  cases r with
  | ok a => exact .refl _
  | error why => exact agrees_fail h line _ _

theorem agrees_truth (v : Value) : Agrees (truth f line v) (truth g line v) := by
  unfold truth
  split
  · exact .refl _
  · exact agrees_fail h line _ _

theorem agrees_bound (v : Value) : Agrees (bound f line v) (bound g line v) := by
  unfold bound
  split
  · exact .refl _
  · exact agrees_fail h line _ _

theorem agrees_callLog (name : String) (args : List Value) :
    Agrees (callLog f line name args) (callLog g line name args) := by
  unfold callLog
  split
  · exact .refl _
  · exact agrees_fail h line _ _

theorem agrees_callDocument (name name' : String) (m : DocumentMethod) (args : List Value) :
    Agrees (callDocument f line name m args) (callDocument g line name' m args) :=
  (agrees_attempt h line _ _ _).follow _

theorem agrees_callDynamic (name : String) (v : Value) (args : List Value)
    (document : Option DocumentMethod) (function : Option Function) :
    Agrees (callDynamic f line name v args document function)
      (callDynamic g line name v args document function) := by
  unfold callDynamic
  split
  · exact agrees_callDocument h line _ _ _ _
  · split
    · exact agrees_attempt h line _ _ _
    · exact agrees_fail h line _ _

omit h in
theorem agrees_inWorld {m n : EStateM Halt World α} (hmn : Agrees m n) :
    Agrees (inWorld m) (inWorld n) := by
  intro s
  have hend := hmn s.world
  unfold inWorld
  generalize m s.world = r at hend ⊢
  generalize n s.world = r' at hend ⊢
  cases hend with
  | ok a w => exact .ok a _
  | error alike w => exact .error alike _

/-- A document method on a receiver of that static type, and on one that shows its type now. -/
theorem agrees_callDocument_dynamic (m : DocumentMethod) (v : Value) (args : List Value) :
    Agrees (if v.isDocument then callDocument f line m.name m args
        else fail f line (.refused (.expected "Document" v.kind)))
      (callDynamic g line m.name v args (some m) none) := by
  unfold callDynamic
  cases v.isDocument with
  | true => exact agrees_callDocument h line _ _ _ _
  | false => exact agrees_fail h line _ _

end

/-- A receiver in front of the arguments is evaluated first. -/
theorem evalAll_cons_bind {α : Type} (f : Frame) (e : Expr) (es : List Expr)
    (k : List Value → Exec α) :
    evalAll f (e :: es) >>= k = eval f e >>= fun v => evalAll f es >>= fun vs => k (v :: vs) := by
  simp only [evalAll, bind_assoc, pure_bind]

/-! ### Expressions and statements -/

section

variable {f g : Frame}

/-- What a method call comes to when its receiver and arguments agree. -/
theorem agrees_dynamic (h : FramesAgree f g) (line : Nat) (name : String) {r r' : Expr}
    {args args' : List Expr} (hr : Agrees (eval f r) (eval g r'))
    (hargs : Agrees (evalAll f args) (evalAll g args')) (document : Option DocumentMethod)
    (function : Option Function) :
    Agrees (eval f (.callDynamic line name r args document function))
      (eval g (.dynamic line name r' args' document function)) := by
  have hkept : Agrees (eval f (.callDynamic line name r args document function))
      (eval g (.callDynamic line name r' args' document function)) :=
    hr.bind fun v => hargs.bind fun vs => agrees_callDynamic h line name v vs document function
  cases document with
  | some m => exact hkept
  | none =>
    cases function with
    | none => exact hkept
    | some fn =>
      -- The function is called on the receiver whatever that is.
      have hcall : eval g (.dynamic line name r' args' none (some fn)) =
          eval g r' >>= fun v => evalAll g args' >>= fun vs =>
            attempt g line (.refusedBy fn.name) (fn.call (v :: vs)) :=
        evalAll_cons_bind g r' args' _
      rw [hcall]
      exact hr.bind fun v => hargs.bind fun vs => agrees_attempt h line _ _ _

mutual

theorem agrees_eval (h : FramesAgree f g) : ∀ e : Expr, Agrees (eval f e) (eval g e.untyped)
  | .const _ _ => .refl _
  | .slot _ _ => .refl _
  | .list _ items => (agrees_evalAll h items).follow _
  | .unary line _ operand => (agrees_eval h operand).bind fun _ => agrees_attempt h line _ _ _
  | .binary line op left right => by
    have hleft := agrees_eval h left
    have hright := agrees_eval h right
    have htruth : ∀ (e : Expr) (v : Value),
        Agrees (truth f e.line v) (truth g e.untyped.line v) := by
      intro e v
      rw [Expr.line_untyped]
      exact agrees_truth h e.line v
    have hlast : Agrees
        (eval f right >>= fun v => truth f right.line v >>= fun b => pure (Value.bool b))
        (eval g right.untyped >>= fun v => truth g right.untyped.line v >>= fun b =>
          pure (Value.bool b)) :=
      hright.bind fun v => (htruth right v).follow _
    cases op
    case and =>
      refine hleft.bind fun v => (htruth left v).bind fun b => ?_
      cases b with
      | true => exact hlast
      | false => exact .refl _
    case or =>
      refine hleft.bind fun v => (htruth left v).bind fun b => ?_
      cases b with
      | true => exact .refl _
      | false => exact hlast
    all_goals exact hleft.bind fun _ => hright.bind fun _ => agrees_attempt h line _ _ _
  | .index line target place =>
    (agrees_eval h target).bind fun _ => (agrees_eval h place).bind fun _ =>
      agrees_attempt h line _ _ _
  | .callMethod line id args => by
    refine (agrees_evalAll h args).bind fun vs => ?_
    have hcalls := h.calls
    generalize f.call? = c at hcalls ⊢
    generalize g.call? = d at hcalls ⊢
    cases hcalls with
    | none => exact agrees_fail h line _ _
    | some agree => exact agrees_inWorld (agree id vs)
  | .callFunction line fn args => (agrees_evalAll h args).bind fun _ => agrees_attempt h line _ _ _
  | .callSlot line slot name args => by
    refine (agrees_evalAll h args).bind fun vs => (Agrees.refl (load slot)).bind fun v => ?_
    cases v
    case log => exact agrees_callLog h line name vs
    all_goals exact agrees_fail h line _ _
  | .callDocument line m receiver args =>
    (agrees_eval h receiver).bind fun v => (agrees_evalAll h args).bind fun vs =>
      agrees_callDocument_dynamic h line m v vs
  | .callDynamic line name receiver args document function =>
    agrees_dynamic h line name (agrees_eval h receiver) (agrees_evalAll h args) document function

theorem agrees_evalAll (h : FramesAgree f g) : ∀ es : List Expr,
    Agrees (evalAll f es) (evalAll g (Expr.untypedAll es))
  | [] => .refl _
  | e :: es => (agrees_eval h e).bind fun _ => (agrees_evalAll h es).follow _

end

theorem agrees_condition (h : FramesAgree f g) (e : Expr) :
    Agrees (condition f e) (condition g e.untyped) := by
  unfold condition
  rw [Expr.line_untyped]
  exact (agrees_eval h e).bind fun v => agrees_truth h e.line v

theorem agrees_loopWhile {c d : Exec Bool} {body body' : Exec Flow} (hc : Agrees c d)
    (hbody : Agrees body body') (n : Nat) :
    Agrees (loopWhile c body n) (loopWhile d body' n) := by
  induction n with
  | zero => exact .refl _
  | succ n ih =>
    refine hc.bind fun b => ?_
    cases b with
    | false => exact .refl _
    | true =>
      refine hbody.bind fun flow => ?_
      cases flow with
      | next => exact ih
      | returned v => exact .refl _

theorem agrees_loopOver (slot : Program.Slot) {body body' : Exec Flow} (hbody : Agrees body body')
    (vs : List Value) : Agrees (loopOver slot body vs) (loopOver slot body' vs) := by
  induction vs with
  | nil => exact .refl _
  | cons v vs ih =>
    refine (Agrees.refl (store slot v)).bind fun _ => hbody.bind fun flow => ?_
    cases flow with
    | next => exact ih
    | returned v => exact .refl _

theorem agrees_loopCount (slot : Program.Slot) {body body' : Exec Flow} (hbody : Agrees body body')
    (i : Int) (n : Nat) : Agrees (loopCount slot body i n) (loopCount slot body' i n) := by
  induction n generalizing i with
  | zero => exact .refl _
  | succ n ih =>
    refine (Agrees.refl (store slot _)).bind fun _ => hbody.bind fun flow => ?_
    cases flow with
    | next => exact ih (i + 1)
    | returned v => exact .refl _

/-- The bound of a range, and what follows it. -/
theorem agrees_bounded (h : FramesAgree f g) {α : Type} (e : Expr) {k l : Int64 → Exec α}
    (hkl : ∀ n, Agrees (k n) (l n)) :
    Agrees (eval f e >>= fun v => bound f e.line v >>= k)
      (eval g e.untyped >>= fun v => bound g e.untyped.line v >>= l) := by
  rw [Expr.line_untyped]
  exact (agrees_eval h e).bind fun v => (agrees_bound h e.line v).bind hkl

mutual

theorem agrees_exec (h : FramesAgree f g) : ∀ s : Stmt, Agrees (exec f s) (exec g s.untyped)
  | .store _ slot value => (agrees_eval h value).follow _
  | .expr _ value => (agrees_eval h value).follow _
  | .branch _ branches otherwise =>
    agrees_execArms h branches (agrees_execOtherwise h otherwise)
  | .loop _ cond body => by
    rw [Stmt.untyped, exec, exec, h.steps]
    exact agrees_loopWhile (agrees_condition h cond) (agrees_execAll h body) f.steps
  | .forEach line slot items body =>
    (agrees_eval h items).bind fun v => (agrees_attempt h line _ _ v.items).bind fun vs =>
      agrees_loopOver slot (agrees_execAll h body) vs
  | .forRange _ slot start stop body =>
    agrees_bounded h start fun _ => agrees_bounded h stop fun _ =>
      agrees_loopCount slot (agrees_execAll h body) _ _
  | .result _ none => .refl _
  | .result _ (some value) => (agrees_eval h value).follow _

theorem agrees_execAll (h : FramesAgree f g) : ∀ ss : List Stmt,
    Agrees (execAll f ss) (execAll g (Stmt.untypedAll ss))
  | [] => .refl _
  | s :: ss => by
    refine (agrees_exec h s).bind fun flow => ?_
    cases flow with
    | next => exact agrees_execAll h ss
    | returned v => exact .refl _

theorem agrees_execArms (h : FramesAgree f g) : ∀ (bs : List (Expr × List Stmt))
    {last last' : Exec Flow}, Agrees last last' →
      Agrees (execArms f bs last) (execArms g (Stmt.untypedArms bs) last')
  | [], _, _, hlast => hlast
  | (cond, body) :: rest, _, _, hlast => by
    refine (agrees_condition h cond).bind fun b => ?_
    cases b with
    | true => exact agrees_execAll h body
    | false => exact agrees_execArms h rest hlast

theorem agrees_execOtherwise (h : FramesAgree f g) : ∀ o : Option (List Stmt),
    Agrees (execOtherwise f o) (execOtherwise g (Stmt.untypedOtherwise o))
  | none => .refl _
  | some body => agrees_execAll h body

end

end

/-! ### Methods -/

/-- Bodies that end alike give what the calls of their methods give. -/
theorem endsAlike_of_body : ∀ {r r' : EStateM.Result Halt State Flow}, EndsAlike r r' →
    EndsAlike
      (match r with
        | .ok flow s => .ok flow.value s.world
        | .error k s => .error k s.world : EStateM.Result Halt World Value)
      (match r' with
        | .ok flow s => .ok flow.value s.world
        | .error k s => .error k s.world)
  | _, _, .ok flow s => .ok flow.value s.world
  | _, _, .error alike s => .error alike s.world

theorem agrees_run (p : Program) (steps : Nat) {c d : Option Call} (hcalls : CallsAgree c d)
    (id : Program.MethodId) (args : List Value) :
    Agrees (run p steps c id args) (run p.untyped steps d id args) := by
  intro world
  have hmethods : p.untyped.methods[id]? = (p.methods[id]?).map Program.Method.untyped :=
    List.getElem?_map
  unfold run
  rw [hmethods]
  cases hm : p.methods[id]? with
  | none => exact .refl _
  | some m =>
    have hframes : FramesAgree ⟨p.qualifiedName m, steps, c⟩
        ⟨p.untyped.qualifiedName m.untyped, steps, d⟩ := ⟨rfl, rfl, hcalls⟩
    have hbody := agrees_execAll hframes m.body ⟨frameOf m.frameSize args, world⟩
    exact endsAlike_of_body hbody

/-- **Static types do not matter at run time**: a program and its untyped form run alike. -/
theorem agrees_invoke (p : Program) (steps : Nat) : ∀ (depth : Nat) (id : Program.MethodId)
    (args : List Value), Agrees (invoke p steps depth id args) (invoke p.untyped steps depth id args)
  | 0 => agrees_run p steps .none
  | depth + 1 => agrees_run p steps (.some (agrees_invoke p steps depth))

end Machine

end ReportTemplate
