import ReportTemplate.Proofs.Program.Resolution
import ReportTemplate.Proofs.Scoped.Follows

/-!
# ReportTemplate.Proofs.Scoped.Simulation — slots keep the meaning of names

A resolved expression or statement simulates its syntax tree: `simulates_eval` and `simulates_exec` go
through the forms of `Resolves` and `ResolvesStmt`.  A call of a method is then the same for the machine
and the interpreter, by induction on the calls that may be nested in it.
-/

namespace ReportTemplate.Scoped

open Machine (Halt Flow)
open Program (Slot Surroundings Declarations Pending MethodId View Resolves ResolvesStmt ResolvesStmts
  ResolvesArms ResolvesOtherwise Callable documentFor functionFor)

/-! ### Frames -/

/-- Two results of calls are the same, but for the calls of the log that the interpreter counts. -/
def SameResult : EStateM.Result Halt Machine.World Value → EStateM.Result Halt World Value → Prop :=
  Follows (fun _ left right => left = right.left) fun left right => left = right.left

/-- Calls of declared methods with as many arguments as they have parameters end alike. -/
def SameCall (declared : Declarations) (c : Machine.Call) (d : Call) : Prop :=
  ∀ (id : MethodId) (m : Pending) (args : List Value) (w : World),
    declared.methods[id]? = some m → args.length = m.signature.params.length →
    SameResult (c id args w.left) (d id args w)

inductive SameCalls (declared : Declarations) : Option Machine.Call → Option Call → Prop
  | none : SameCalls declared none none
  | some {c : Machine.Call} {d : Call} (same : SameCall declared c d) :
      SameCalls declared (some c) (some d)

/-- What stays fixed during a call is the same. -/
structure SameFrame (F : Machine.Frame) (f : Frame) : Prop where
  method : F.method = f.machine.method
  steps : F.steps = f.steps
  calls : SameCalls f.env.declared F.call? f.call?

theorem receiverType?_aligned {ι α : Type} {C : ι → α → Prop} {is : Scopes ι} {xs : Scopes α}
    (h : Aligned C is xs) (S : Surroundings) (e : Syntax.Expr) :
    receiverType? S xs e = receiverType? S is e := by
  cases e with
  | ident span name =>
    rcases h.read? name with ⟨h₁, h₂⟩ | ⟨i, a, h₁, h₂, -⟩
    · rw [receiverType?_free S h₁, receiverType?_free S h₂]
    · rw [receiverType?_local S h₁, receiverType?_local S h₂]
  | _ => rfl

section

variable {F : Machine.Frame} {f : Frame} (h : SameFrame F f) {v : View} {size : Nat}

theorem Simulates.assuming {α : Type} {p : Prop} {P : Machine.State → State → Prop}
    {x : Machine.Exec α} {y : Exec α} {Q : α → Machine.State → State → Prop}
    (hx : p → Simulates P x y Q) : Simulates (fun t u => p ∧ P t u) x y Q :=
  fun t u hP => hx hP.1 t u hP.2

/-! ### Calls -/

section Calls

variable {slots : Scopes Slot}

theorem simulates_inWorld {x : EStateM Halt Machine.World Value} {y : EStateM Halt World Value}
    (hx : ∀ w : World, SameResult (x w.left) (y w)) :
    Simulates (Sim slots size) (Machine.inWorld x) (inWorld y) fun _ => Sim slots size := by
  rintro ⟨locals, w⟩ ⟨scopes, w'⟩ hsim
  obtain rfl : w = w'.left := hsim.world
  have hresult := hx w'
  unfold Machine.inWorld inWorld
  dsimp only
  generalize x w'.left = r at hresult ⊢
  generalize y w' = s at hresult ⊢
  cases hresult with
  | ok states => exact .ok ⟨states, hsim.size, hsim.values⟩
  | error sound states => exact .error sound states

include h

variable (line : Nat)

theorem simulates_callMethod {args : List Program.Expr} {vs : List Value} {id : MethodId}
    (hcallable : Callable f.env id args) (hlength : vs.length = args.length) :
    Simulates (Sim slots size)
      (match F.call? with
        | some call => Machine.inWorld (call id vs)
        | none => Machine.fail F line .tooDeep)
      (callMethod f line vs (some id)) fun _ => Sim slots size := by
  unfold callMethod
  have hcalls := h.calls
  generalize F.call? = c at hcalls ⊢
  generalize f.call? = d at hcalls ⊢
  cases hcalls with
  | none => exact simulates_primitive (.fail h.method line _)
  | some same =>
    obtain ⟨m, hm, -, hcount⟩ := hcallable
    exact simulates_inWorld fun w => same id m vs w hm (hlength.trans hcount.symm)

theorem simulates_callValue (callee : Syntax.Ident) (args : List Value) (value : Value) :
    Simulates (Sim slots size)
      (match value with
        | .log => Machine.callLog F line callee.text args
        | v => Machine.fail F line (.notCallable callee.text v.kind))
      (callValue f line callee args value) fun _ => Sim slots size := by
  cases value with
  | log =>
    intro t u hsim
    exact simulates_primitive (.callLog h.method line callee.text args) t
      { u with world := { u.world with reached := u.world.reached ++ [⟨callee, args⟩] } }
      ⟨hsim.world, hsim.size, hsim.values⟩
  | _ => exact simulates_primitive (.fail h.method line _)

theorem simulates_callLocal {callee : Syntax.Ident} {slot : Slot} (vs : List Value)
    (hslot : slots.read? callee.text = some slot) :
    Simulates (Sim slots size)
      (do
        match ← Machine.load slot with
        | .log => Machine.callLog F line callee.text vs
        | v => Machine.fail F line (.notCallable callee.text v.kind))
      (do
        match (← get).scopes.read? callee.text with
        | some v => callValue f line callee vs v
        | none => plainCall f line callee.text vs) fun _ => Sim slots size := by
  intro t u hsim
  obtain ⟨v, hread, hlocal⟩ := hsim.values.exists_of_read? hslot
  have hget : (do
      match (← get).scopes.read? callee.text with
      | some v => callValue f line callee vs v
      | none => plainCall f line callee.text vs : Exec Value) u =
      (match u.scopes.read? callee.text with
        | some v => callValue f line callee vs v
        | none => plainCall f line callee.text vs) u := rfl
  rw [run_bind_ok (Machine.load_eq hlocal), hget, hread]
  exact simulates_callValue h line callee vs v t u hsim

omit h in
/-- A call of a name that is no local. -/
theorem simulates_callFree {callee : Syntax.Ident} {vs : List Value} {x : Machine.Exec Value}
    (hfree : slots.read? callee.text = none)
    (hx : Simulates (Sim slots size) x (plainCall f line callee.text vs) fun _ => Sim slots size) :
    Simulates (Sim slots size) x
      (do
        match (← get).scopes.read? callee.text with
        | some v => callValue f line callee vs v
        | none => plainCall f line callee.text vs) fun _ => Sim slots size := by
  intro t u hsim
  have hread := hsim.values.read?_none hfree
  have hget : (do
      match (← get).scopes.read? callee.text with
      | some v => callValue f line callee vs v
      | none => plainCall f line callee.text vs : Exec Value) u =
      (match u.scopes.read? callee.text with
        | some v => callValue f line callee vs v
        | none => plainCall f line callee.text vs) u := rfl
  rw [hget, hread]
  exact hx t u hsim

theorem simulates_plainMethod {name : String} {args : List Program.Expr} {vs : List Value}
    {id : MethodId} (hid : f.env.declared.findMethod? f.env.owner name = some id)
    (hcallable : Callable f.env id args) (hlength : vs.length = args.length) :
    Simulates (Sim slots size)
      (match F.call? with
        | some call => Machine.inWorld (call id vs)
        | none => Machine.fail F line .tooDeep)
      (plainCall f line name vs) fun _ => Sim slots size := by
  unfold plainCall
  rw [hid]
  exact simulates_callMethod h line hcallable hlength

theorem simulates_plainFunction {name : String} {g : Function} (vs : List Value)
    (hid : f.env.declared.findMethod? f.env.owner name = none)
    (hg : f.env.refs.function? name = some g) :
    Simulates (Sim slots size) (Machine.attempt F line (.refusedBy g.name) (g.call vs))
      (plainCall f line name vs) fun _ => Sim slots size := by
  unfold plainCall
  rw [hid, hg]
  exact simulates_primitive (.attempt h.method line _ _)

omit h in
/-- A method call looks first whether its receiver names a class. -/
theorem simulates_receiver {receiver : Syntax.Expr} {x : Machine.Exec Value}
    {g : Option Program.TypeId → Exec Value}
    (hx : Simulates (Sim slots size) x (g (receiverType? f.env slots receiver))
      fun _ => Sim slots size) :
    Simulates (Sim slots size) x (do g (receiverType? f.env (← get).scopes receiver))
      fun _ => Sim slots size := by
  intro t u hsim
  have hget : (do g (receiverType? f.env (← get).scopes receiver) : Exec Value) u =
      g (receiverType? f.env u.scopes receiver) u := rfl
  rw [hget, receiverType?_aligned hsim.values]
  exact hx t u hsim

theorem simulates_document {name : String} {m : DocumentMethod} (r : Value) (vs : List Value)
    (hm : f.env.refs.documentMethod? name = some m) :
    Simulates (Sim slots size)
      (if r.isDocument then Machine.callDocument F line m.name m vs
        else Machine.fail F line (.refused (.expected "Document" r.kind)))
      (methodCall f line .document name r vs) fun _ => Sim slots size := by
  unfold methodCall
  simp only [hm]
  split
  · exact simulates_primitive (.callDocument h.method line m.name m vs)
  · exact simulates_primitive (.fail h.method line _)

theorem simulates_dynamic {name : String} {args : List Program.Expr} {vs : List Value}
    (hlength : vs.length = args.length) (r : Value) :
    Simulates (Sim slots size)
      (Machine.callDynamic F line name r vs (documentFor f.env name args)
        (functionFor f.env name args))
      (methodCall f line .any name r vs) fun _ => Sim slots size := by
  unfold methodCall documentFor functionFor
  rw [hlength]
  exact simulates_primitive (.callDynamic h.method line name r vs _ _)

theorem simulates_function {name : String} {ty : Ty} {g : Function} (noDocument : ty ≠ .document)
    (static : ty ≠ .any) (hg : f.env.refs.function? name = some g) (r : Value) (vs : List Value) :
    Simulates (Sim slots size) (Machine.attempt F line (.refusedBy g.name) (g.call (r :: vs)))
      (methodCall f line ty name r vs) fun _ => Sim slots size := by
  have hcall : methodCall f line ty name r vs =
      callFunction f line (r :: vs) (f.env.refs.function? name) := by
    cases ty <;> first | rfl | exact absurd rfl noDocument | exact absurd rfl static
  rw [hcall, hg]
  exact simulates_primitive (.attempt h.method line _ _)

end Calls

/-! ### Expressions -/

/-- A method call whose receiver may name a class. -/
def evalMethod (f : Frame) (types : Scopes Ty) (span : Span) (receiver : Syntax.Expr)
    (method : Syntax.Ident) (args : List Syntax.Expr) : Option Program.TypeId → Exec Value
  | some type => do
    let vs ← evalAll f types args
    callMethod f (f.line span) vs (f.env.declared.findMethod? type method.text)
  | none => do
    let r ← eval f types receiver
    let vs ← evalAll f types args
    methodCall f (f.line span) (typeOf f.env types receiver) method.text r vs

theorem eval_method (f : Frame) (types : Scopes Ty) (span : Span) (receiver : Syntax.Expr)
    (method : Syntax.Ident) (args : List Syntax.Expr) :
    eval f types (.method span receiver method args) = (do
      evalMethod f types span receiver method args
        (receiverType? f.env (← get).scopes receiver)) := rfl

/-- A function with a receiver evaluates the receiver first. -/
theorem eval_callFunction_cons (F : Machine.Frame) (line : Nat) (g : Function) (r : Program.Expr)
    (args : List Program.Expr) :
    Machine.eval F (.callFunction line g (r :: args)) = (do
      let v ← Machine.eval F r
      let vs ← Machine.evalAll F args
      Machine.attempt F line (.refusedBy g.name) (g.call (v :: vs))) := by
  simp only [Machine.eval, Machine.evalAll, bind_assoc, pure_bind]

section

include h

/-- The truth value of what an expression gave. -/
theorem simulates_truth {e : Syntax.Expr} {e' : Program.Expr} (he : Resolves f.env v e e')
    (value : Value) :
    Simulates (Sim v.slots size) (Machine.truth F e'.line value)
      (primitive (Machine.truth f.machine (f.line e.span) value)) fun _ => Sim v.slots size := by
  rw [he.line]
  exact simulates_primitive (.truth h.method _ value)

theorem simulates_bound {e : Syntax.Expr} {e' : Program.Expr} (he : Resolves f.env v e e')
    (value : Value) :
    Simulates (Sim v.slots size) (Machine.bound F e'.line value)
      (primitive (Machine.bound f.machine (f.line e.span) value)) fun _ => Sim v.slots size := by
  rw [he.line]
  exact simulates_primitive (.bound h.method _ value)

end

mutual

theorem simulates_eval (h : SameFrame F f) : ∀ (e : Syntax.Expr) {e' : Program.Expr},
    Resolves f.env v e e' →
    Simulates (Sim v.slots size) (Machine.eval F e') (eval f v.types e) fun _ => Sim v.slots size
  | .literal _ _, _, .literal => .pure fun _ _ hsim => hsim
  | .ident _ _, _, .ident found => simulates_load found
  | .list _ items, _, .list parts => by
    have hitems := simulates_evalAll h items parts
    exact hitems.bind fun _ => .pure fun _ _ hsim => hsim.2
  | .unary _ _ operand, _, .unary part => by
    have hoperand := simulates_eval h operand part
    exact hoperand.bind fun _ => simulates_primitive (.attempt h.method _ _ _)
  | .binary span op l r, _, .binary left right => by
    have hleft := simulates_eval h l left
    have hright := simulates_eval h r right
    have hstrict := hleft.bind fun a => hright.bind fun b =>
      simulates_primitive (.attempt h.method (f.line span) .refused (Value.binary op a b))
    have hlast := hright.bind fun b => (simulates_truth h right b).bind fun b =>
      Simulates.pure (a := Value.bool b) (Q := fun _ => Sim v.slots size) fun _ _ hsim => hsim
    -- The right operand of a logical operator is evaluated only if the left one leaves it open.
    cases op
    case and =>
      refine hleft.bind fun a => (simulates_truth h left a).bind fun b => ?_
      cases b with
      | true => exact hlast
      | false => exact .pure fun _ _ hsim => hsim
    case or =>
      refine hleft.bind fun a => (simulates_truth h left a).bind fun b => ?_
      cases b with
      | true => exact .pure fun _ _ hsim => hsim
      | false => exact hlast
    all_goals exact hstrict
  | .index _ t p, _, .index target place => by
    have htarget := simulates_eval h t target
    have hplace := simulates_eval h p place
    refine htarget.bind fun _ => hplace.bind fun _ => ?_
    exact simulates_primitive (.attempt h.method _ _ _)
  | .call _ callee args, _, .callLocal parts found => by
    refine (simulates_evalAll h args parts).bind fun vs => .assuming fun _ => ?_
    exact simulates_callLocal h _ vs found
  | .call _ callee args, _, .callOwn parts free found callable => by
    refine (simulates_evalAll h args parts).bind fun vs => .assuming fun hlength => ?_
    exact simulates_callFree _ free (simulates_plainMethod h _ found callable hlength)
  | .call _ callee args, _, .callFunction parts free noMethod found _ => by
    refine (simulates_evalAll h args parts).bind fun vs => .assuming fun _ => ?_
    exact simulates_callFree _ free (simulates_plainFunction h _ vs noMethod found)
  | .method span receiver method args, _, .qualified named parts found callable => by
    rw [eval_method]
    refine simulates_receiver ?_
    rw [named]
    simp only [evalMethod, found]
    refine (simulates_evalAll h args parts).bind fun vs => .assuming fun hlength => ?_
    exact simulates_callMethod h _ callable hlength
  | .method span receiver method args, _, .document noType object parts static found _ => by
    rw [eval_method]
    refine simulates_receiver ?_
    rw [noType]
    simp only [evalMethod, static]
    refine (simulates_eval h receiver object).bind fun r => ?_
    refine (simulates_evalAll h args parts).bind fun vs => .assuming fun _ => ?_
    exact simulates_document h _ r vs found
  | .method span receiver method args, _, .dynamic noType object parts static _ => by
    rw [eval_method]
    refine simulates_receiver ?_
    rw [noType]
    simp only [evalMethod, static]
    refine (simulates_eval h receiver object).bind fun r => ?_
    refine (simulates_evalAll h args parts).bind fun vs => .assuming fun hlength => ?_
    exact simulates_dynamic h _ hlength r
  | .method span receiver method args, _, .receiver noType object parts noDocument static found _ => by
    rw [eval_method, eval_callFunction_cons]
    refine simulates_receiver ?_
    rw [noType]
    refine (simulates_eval h receiver object).bind fun r => ?_
    refine (simulates_evalAll h args parts).bind fun vs => .assuming fun _ => ?_
    exact simulates_function h _ noDocument static found r vs

theorem simulates_evalAll (h : SameFrame F f) : ∀ (es : List Syntax.Expr) {es' : List Program.Expr},
    List.Forall₂ (Resolves f.env v) es es' →
    Simulates (Sim v.slots size) (Machine.evalAll F es') (evalAll f v.types es)
      fun vs t u => vs.length = es'.length ∧ Sim v.slots size t u
  | [], _, .nil => .pure fun _ _ hsim => ⟨rfl, hsim⟩
  | e :: es, _, .cons head tail => by
    refine (simulates_eval h e head).bind fun _ => ?_
    refine (simulates_evalAll h es tail).bind fun _ => .assuming fun hlength => ?_
    exact .pure fun _ _ hsim => ⟨congrArg (· + 1) hlength, hsim⟩

end

/-! ### Loops -/

section Loops

variable {slots : Scopes Slot}

theorem simulates_loopWhile {c : Machine.Exec Bool} {d : Exec Bool} {x : Machine.Exec Flow}
    {y : Exec Flow} (hc : Simulates (Sim slots size) c d fun _ => Sim slots size)
    (hx : Simulates (Sim slots size) x y (After slots size)) (n : Nat) :
    Simulates (Sim slots size) (Machine.loopWhile c x n) (loopWhile d y n) (After slots size) := by
  induction n with
  | zero => exact fun t u hsim => .error (by simp) hsim.world
  | succ n ih =>
    refine hc.bind fun b => ?_
    cases b with
    | true => exact simulates_next hx ih
    | false => exact .pure fun _ _ hsim => hsim

/-- One round of a loop over values. -/
theorem simulates_round {slot : Slot} (hslot : slot < size) (hfresh : slot ∉ slots.all)
    {name : String} {x : Machine.Exec Flow} {y : Exec Flow}
    (hx : Simulates (Sim (slots.enter.declare name slot) size) x y
      (After (slots.enter.declare name slot) size)) (a : Value) :
    Simulates (Sim slots size) (do Machine.store slot a; x) (inScope do declare name a; y)
      (After slots size) := by
  refine simulates_inScope (Scopes.leave_declare name slot slots.enter) ?_
  have hfresh : slot ∉ slots.enter.all := hfresh
  exact (simulates_declare hslot hfresh name a).bind fun _ => hx

theorem simulates_loopOver {slot : Slot} (hslot : slot < size) (hfresh : slot ∉ slots.all)
    {name : String} {x : Machine.Exec Flow} {y : Exec Flow}
    (hx : Simulates (Sim (slots.enter.declare name slot) size) x y
      (After (slots.enter.declare name slot) size)) (vs : List Value) :
    Simulates (Sim slots size) (Machine.loopOver slot x vs) (loopOver name y vs)
      (After slots size) := by
  induction vs with
  | nil => exact .pure fun _ _ hsim => hsim
  | cons a vs ih =>
    have hround := simulates_next (simulates_round hslot hfresh hx a) ih
    rw [bind_assoc] at hround
    exact hround

theorem simulates_loopCount {slot : Slot} (hslot : slot < size) (hfresh : slot ∉ slots.all)
    {name : String} {x : Machine.Exec Flow} {y : Exec Flow}
    (hx : Simulates (Sim (slots.enter.declare name slot) size) x y
      (After (slots.enter.declare name slot) size)) (n : Nat) (i : Int) :
    Simulates (Sim slots size) (Machine.loopCount slot x i n) (loopOver name y (integersFrom i n))
      (After slots size) := by
  induction n generalizing i with
  | zero => exact .pure fun _ _ hsim => hsim
  | succ n ih =>
    have hround := simulates_next (simulates_round hslot hfresh hx (.int (Int64.ofInt i)))
      (ih (i + 1))
    rw [bind_assoc] at hround
    exact hround

end Loops

/-! ### Statements -/

/-- Behind a `for` the names have the slots that they had; its binding had a slot of its own. -/
theorem binding_slots {S : Surroundings} {w : View} {name : String} {ty : Ty}
    {body : List Syntax.Stmt} {ts : List Program.Stmt}
    (block : ResolvesStmts S (v.enter.declare name ty).enter body ts w) (hsize : w.size ≤ size) :
    w.leave.leave.slots = v.slots ∧ v.size < size :=
  ⟨block.binding_slots,
    Nat.lt_of_lt_of_le (Nat.lt_succ_self v.size) (Nat.le_trans block.extends.1.size_le hsize)⟩

theorem simulates_condition (h : SameFrame F f) {e : Syntax.Expr} {e' : Program.Expr}
    (he : Resolves f.env v e e') :
    Simulates (Sim v.slots size) (Machine.condition F e') (condition f v.types e)
      fun _ => Sim v.slots size :=
  (simulates_eval h e he).bind fun a => simulates_truth h he a

mutual

theorem simulates_exec (h : SameFrame F f) : ∀ (s : Syntax.Stmt) {v w : View} {t : Program.Stmt},
    ResolvesStmt f.env v s t w → v.Good → w.size ≤ size →
    Simulates (Sim v.slots size) (Machine.exec F t) (exec f v.types s) (After w.slots size)
  | .declare _ name e, v, _, _, .declare value, hv, hsize => by
    have hfresh : v.size ∉ v.slots.all := fun hmem => Nat.lt_irrefl _ (hv.lt_size _ hmem)
    refine (simulates_eval h e value).bind fun a => ?_
    exact (simulates_declare hsize hfresh name.text a).bind fun _ => .pure fun _ _ hsim => hsim
  | .assign _ name e, v, _, _, .assign value found, hv, hsize => by
    have hslot := Nat.lt_of_lt_of_le (hv.lt_size _ (Scopes.mem_of_read? found)) hsize
    refine (simulates_eval h e value).bind fun a => ?_
    exact (simulates_assign found hslot hv.nodup a).bind fun _ => .pure fun _ _ hsim => hsim
  | .expr _ e, _, _, _, .expr value, _, _ =>
    (simulates_eval h e value).bind fun _ => .pure fun _ _ hsim => hsim
  | .branch _ branches otherwise, v, w, _, .branch arms last, hv, hsize => by
    obtain ⟨hext, htypes⟩ := arms.extends
    have hle := Nat.le_trans last.extends.1.size_le hsize
    have hlast := simulates_execOtherwise h otherwise last (hext.good hv) hsize
    rw [htypes, last.slots_eq, arms.slots_eq] at hlast
    rw [last.slots_eq, arms.slots_eq]
    exact simulates_execArms h branches arms hv hle hlast
  | .loop _ cond body, v, _, _, .loop (w := w) test block, hv, hsize => by
    have hslots : w.leave.slots = v.slots := block.extends.1.leave_slots_eq
    have hbody := simulates_execAll h body block hv.enter hsize
    rw [hslots]
    have hloop := simulates_loopWhile (simulates_condition h test)
      (simulates_inScope hslots hbody) F.steps
    rw [h.steps] at hloop
    show Simulates _ (Machine.loopWhile _ _ F.steps) _ _
    rw [h.steps]
    exact hloop
  | .forEach span binding items body, v, _, _, .forEach (w := w) values block, hv, hsize => by
    obtain ⟨hslots, hlt⟩ := binding_slots block hsize
    have hfresh : v.size ∉ v.slots.all := fun hmem => Nat.lt_irrefl _ (hv.lt_size _ hmem)
    have hbody := simulates_execAll h body block (hv.enter.declare binding.text .any).enter hsize
    have hround := simulates_inScope block.extends.1.leave_slots_eq hbody
    rw [hslots]
    refine (simulates_eval h items values).bind fun a => ?_
    refine (simulates_primitive (.attempt h.method _ _ _)).bind fun vs => ?_
    exact simulates_loopOver hlt hfresh hround vs
  | .forRange span binding start stop body, v, _, _, .forRange (w := w) first last block, hv,
      hsize => by
    obtain ⟨hslots, hlt⟩ := binding_slots block hsize
    have hfresh : v.size ∉ v.slots.all := fun hmem => Nat.lt_irrefl _ (hv.lt_size _ hmem)
    have hbody := simulates_execAll h body block (hv.enter.declare binding.text .int).enter hsize
    have hround := simulates_inScope block.extends.1.leave_slots_eq hbody
    rw [hslots]
    refine (simulates_eval h start first).bind fun a => (simulates_bound h first a).bind fun a => ?_
    refine (simulates_eval h stop last).bind fun b => (simulates_bound h last b).bind fun b => ?_
    exact simulates_loopCount hlt hfresh hround _ _
  | .result _ none, _, _, _, .leave, _, _ => .pure fun _ _ hsim => hsim.world
  | .result _ (some e), _, _, _, .result value, _, _ =>
    (simulates_eval h e value).bind fun _ => .pure fun _ _ hsim => hsim.world

theorem simulates_execAll (h : SameFrame F f) : ∀ (ss : List Syntax.Stmt) {v w : View}
    {ts : List Program.Stmt}, ResolvesStmts f.env v ss ts w → v.Good → w.size ≤ size →
    Simulates (Sim v.slots size) (Machine.execAll F ts) (execAll f v.types ss) (After w.slots size)
  | [], _, _, _, .nil, _, _ => .pure fun _ _ hsim => hsim
  | s :: ss, _, _, _, .cons head tail, hv, hsize => by
    obtain ⟨hhead, htypes⟩ := head.extends
    have hle := Nat.le_trans tail.extends.1.size_le hsize
    have hrest := simulates_execAll h ss tail (hhead.good hv) hsize
    rw [htypes] at hrest
    exact simulates_next (simulates_exec h s head hv hle) hrest

theorem simulates_execArms (h : SameFrame F f) : ∀ (bs : List (Syntax.Expr × List Syntax.Stmt))
    {v w : View} {cs : List (Program.Expr × List Program.Stmt)}, ResolvesArms f.env v bs cs w →
    v.Good → w.size ≤ size → ∀ {x : Machine.Exec Flow} {y : Exec Flow},
    Simulates (Sim v.slots size) x y (After v.slots size) →
    Simulates (Sim v.slots size) (Machine.execArms F cs x) (execArms f v.types bs y)
      (After v.slots size)
  | [], _, _, _, .nil, _, _, _, _, hlast => hlast
  | (cond, body) :: rest, v, _, _, .cons (w := w) test block tail, hv, hsize, x, y, hlast => by
    obtain ⟨hext, htypes⟩ := block.extends
    have hslots : w.leave.slots = v.slots := hext.leave_slots_eq
    have hle := Nat.le_trans tail.extends.1.size_le hsize
    refine (simulates_condition h test).bind fun b => ?_
    cases b with
    | true => exact simulates_inScope hslots (simulates_execAll h body block hv.enter hle)
    | false =>
      rw [← hslots] at hlast
      have hrest := simulates_execArms h rest tail (hext.block.good hv) hsize hlast
      have hleave : w.leave.types = (afterAll f.env v.types.enter body).leave :=
        congrArg Scopes.leave htypes
      rw [hslots, hleave] at hrest
      exact hrest

theorem simulates_execOtherwise (h : SameFrame F f) : ∀ (o : Option (List Syntax.Stmt)) {v w : View}
    {p : Option (List Program.Stmt)}, ResolvesOtherwise f.env v o p w → v.Good → w.size ≤ size →
    Simulates (Sim v.slots size) (Machine.execOtherwise F p) (execOtherwise f v.types o)
      (After w.slots size)
  | none, _, _, _, .none, _, _ => .pure fun _ _ hsim => hsim
  | some body, v, _, _, .some (w := w) block, hv, hsize => by
    have hslots : w.leave.slots = v.slots := block.extends.1.leave_slots_eq
    rw [hslots]
    exact simulates_inScope hslots (simulates_execAll h body block hv.enter hsize)

end

end

end ReportTemplate.Scoped
