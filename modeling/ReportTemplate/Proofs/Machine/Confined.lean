import ReportTemplate.Proofs.Machine.Slots

/-!
# ReportTemplate.Proofs.Machine.Confined — runs that stay within a property of values

When the operations of the language and the constants and functions of a program keep a property of values,
every value that a run computes or stores has it.  A document or a log that the property excludes is never
reached, so it stays as it was.
-/

namespace ReportTemplate

variable {V : Value → Prop}

/-- The operations of the language give values with a property for such values. -/
structure Value.Closed (V : Value → Prop) : Prop where
  null : V .null
  bool (b : Bool) : V (.bool b)
  int (n : Int64) : V (.int n)
  unary {op : Syntax.UnaryOp} {v r : Value} (hv : V v) (h : Value.unary op v = .ok r) : V r
  binary {op : Syntax.BinaryOp} {a b r : Value} (ha : V a) (hb : V b)
    (h : Value.binary op a b = .ok r) : V r
  index {target place r : Value} (ht : V target) (h : Value.index target place = .ok r) : V r
  items {v : Value} {vs : List Value} (hv : V v) (h : v.items = .ok vs) : ∀ x ∈ vs, V x

/-- A function gives values with a property for such values. -/
def Function.Closed (V : Value → Prop) (g : Function) : Prop :=
  ∀ args r, (∀ a ∈ args, V a) → g.call args = .ok r → V r

namespace Program

section

variable (V : Value → Prop)

mutual

/-- The constants, lists and functions of an expression keep a property of values. -/
def Expr.Closed : Expr → Prop
  | .const _ v => V v
  | .slot _ _ => True
  | .list _ items =>
    (∀ vs : List Value, vs.length = items.length → (∀ v ∈ vs, V v) → V (.list vs)) ∧
      Expr.AllClosed items
  | .unary _ _ operand => operand.Closed
  | .binary _ _ left right => left.Closed ∧ right.Closed
  | .index _ target place => target.Closed ∧ place.Closed
  | .callMethod _ _ args | .callSlot _ _ _ args => Expr.AllClosed args
  | .callFunction _ g args => g.Closed V ∧ Expr.AllClosed args
  | .callDocument _ _ receiver args => receiver.Closed ∧ Expr.AllClosed args
  | .callDynamic _ _ receiver args _ function =>
    (∀ g ∈ function, g.Closed V) ∧ receiver.Closed ∧ Expr.AllClosed args

def Expr.AllClosed : List Expr → Prop
  | [] => True
  | e :: es => e.Closed ∧ Expr.AllClosed es

end

mutual

/-- The constants, lists and functions of a statement keep a property of values. -/
def Stmt.Closed : Stmt → Prop
  | .store _ _ value | .expr _ value => value.Closed V
  | .branch _ branches otherwise => Stmt.ArmsClosed branches ∧ Stmt.OtherwiseClosed otherwise
  | .loop _ cond body => cond.Closed V ∧ Stmt.AllClosed body
  | .forEach _ _ items body => items.Closed V ∧ Stmt.AllClosed body
  | .forRange _ _ start stop body => start.Closed V ∧ stop.Closed V ∧ Stmt.AllClosed body
  | .result _ none => True
  | .result _ (some value) => value.Closed V

def Stmt.AllClosed : List Stmt → Prop
  | [] => True
  | s :: ss => s.Closed ∧ Stmt.AllClosed ss

def Stmt.ArmsClosed : List (Expr × List Stmt) → Prop
  | [] => True
  | (cond, body) :: rest => cond.Closed V ∧ Stmt.AllClosed body ∧ Stmt.ArmsClosed rest

def Stmt.OtherwiseClosed : Option (List Stmt) → Prop
  | none => True
  | some body => Stmt.AllClosed body

end

/-- The constants, lists and functions of a program keep a property of values. -/
def Closed (p : Program) : Prop := ∀ m ∈ p.methods, Stmt.AllClosed V m.body

end

end Program

namespace Machine

open Program (Expr Stmt Slot MethodId)

/-! ### Computations -/

/-- What a property excludes is as it was. -/
structure Untouched (V : Value → Prop) (w w' : World) : Prop where
  document : ¬ V .document → w'.document = w.document
  log : ¬ V .log → w'.log = w.log

theorem Untouched.refl (w : World) : Untouched V w w := ⟨fun _ => rfl, fun _ => rfl⟩

theorem Untouched.trans {w w' w'' : World} (h : Untouched V w w') (h' : Untouched V w' w'') :
    Untouched V w w'' :=
  ⟨fun hno => (h'.document hno).trans (h.document hno), fun hno => (h'.log hno).trans (h.log hno)⟩

/-- The slots with a value have values with a property. -/
def SlotsHold (V : Value → Prop) (locals : Array (Option Value)) : Prop :=
  ∀ (i : Nat) (v : Value), locals[i]? = some (some v) → V v

variable {α β : Type}

/-- How a computation ends that began in a world. -/
def EndsWithin (V : Value → Prop) (Q : α → Prop) (w : World) : EStateM.Result Halt State α → Prop
  | .ok a s => SlotsHold V s.locals ∧ Untouched V w s.world ∧ Q a
  | .error _ s => Untouched V w s.world

/-- A computation that keeps the slots within a property, does not touch what it excludes, and whose
result is as told. -/
def Confined (V : Value → Prop) (x : Exec α) (Q : α → Prop) : Prop :=
  ∀ s, SlotsHold V s.locals → EndsWithin V Q s.world (x s)

/-- How a call of a method ends. -/
def CallEndsWithin (V : Value → Prop) (w : World) : EStateM.Result Halt World Value → Prop
  | .ok v w' => V v ∧ Untouched V w w'
  | .error _ w' => Untouched V w w'

/-- A call that gives values with a property for such values, and does not touch what it excludes. -/
def CallConfined (V : Value → Prop) (c : Call) : Prop :=
  ∀ (id : MethodId) (args : List Value) (w : World), (∀ a ∈ args, V a) →
    CallEndsWithin V w (c id args w)

namespace Confined

variable {x : Exec α} {Q : α → Prop} {R : β → Prop}

theorem pure {a : α} (h : Q a) : Confined V (Pure.pure a) Q := fun _ hs => ⟨hs, .refl _, h⟩

theorem bind {f : α → Exec β} (hx : Confined V x Q) (hf : ∀ a, Q a → Confined V (f a) R) :
    Confined V (x >>= f) R := by
  intro s hs
  have hfirst := hx s hs
  show EndsWithin V R s.world (EStateM.bind x f s)
  unfold EStateM.bind
  generalize x s = r at hfirst ⊢
  cases r with
  | error _ _ => exact hfirst
  | ok a t =>
    obtain ⟨hlocals, hworld, ha⟩ := hfirst
    have hlater := hf a ha t hlocals
    dsimp only
    generalize f a t = r at hlater ⊢
    cases r with
    | ok b u => exact ⟨hlater.1, hworld.trans hlater.2.1, hlater.2.2⟩
    | error _ u => exact hworld.trans hlater

theorem throw (h : Halt) : Confined V (MonadExcept.throw h : Exec α) Q := fun _ _ => .refl _

end Confined

/-! ### Slots, failures and calls -/

section

variable {f : Frame} (line : Nat)

theorem confined_fail (cause : Cause) {Q : α → Prop} : Confined V (fail f line cause) Q := .throw _

theorem confined_attempt (cause : Refusal → Cause) {r : Except Refusal α} {Q : α → Prop}
    (h : ∀ a, r = .ok a → Q a) : Confined V (attempt f line cause r) Q := by
  cases r with
  | ok a => exact .pure (h a rfl)
  | error r => exact confined_fail line _

theorem confined_load (slot : Slot) : Confined V (load slot) V := by
  intro s hs
  by_cases hslot : ∃ v, s.locals[slot]? = some (some v)
  · obtain ⟨v, hv⟩ := hslot
    rw [load_eq hv]
    exact ⟨hs, .refl _, hs slot v hv⟩
  · rw [load_broken fun v hv => hslot ⟨v, hv⟩]
    exact Untouched.refl _

theorem confined_store (slot : Slot) {v : Value} (hv : V v) :
    Confined V (store slot v) fun _ => True := by
  intro s hs
  by_cases hslot : slot < s.locals.size
  · rw [store_eq hslot]
    refine ⟨fun i u hget => ?_, .refl _, trivial⟩
    rw [Array.getElem?_setIfInBounds] at hget
    split at hget
    · obtain rfl := Option.some.inj (Option.some.inj hget)
      exact hv
    · exact hs i u hget
  · rw [store_broken hslot]
    exact Untouched.refl _

theorem confined_callLog (hlog : V .log) (hnull : V .null) (name : String) (args : List Value) :
    Confined V (callLog f line name args) V := by
  unfold callLog
  split
  next n text v =>
    intro s hs
    exact ⟨hs, ⟨fun _ => rfl, fun hno => absurd hlog hno⟩, hnull⟩
  next => exact confined_fail line _

theorem confined_callDocument (hdocument : V .document) (hnull : V .null) (name : String)
    (m : DocumentMethod) (args : List Value) : Confined V (callDocument f line name m args) V := by
  refine (confined_attempt (Q := fun _ => True) line _ fun _ _ => trivial).bind fun block _ => ?_
  intro s hs
  exact ⟨hs, ⟨fun hno => absurd hdocument hno, fun _ => rfl⟩, hnull⟩

theorem confined_callDynamic (hnull : V .null) (name : String) {receiver : Value} (hr : V receiver)
    {args : List Value} (hargs : ∀ a ∈ args, V a) (document : Option DocumentMethod)
    {function : Option Function} (hfunction : ∀ g ∈ function, g.Closed V) :
    Confined V (callDynamic f line name receiver args document function) V := by
  unfold callDynamic
  split
  next m hdocument =>
    cases receiver with
    | document => exact confined_callDocument line hr hnull name m args
    | _ => cases hdocument
  next =>
    cases function with
    | some g =>
      have hall : ∀ a ∈ receiver :: args, V a := List.forall_mem_cons.mpr ⟨hr, hargs⟩
      exact confined_attempt line _ fun r h => hfunction g rfl _ r hall h
    | none => exact confined_fail line _

theorem confined_truth (v : Value) : Confined V (truth f line v) fun _ => True := by
  unfold truth
  split
  · exact .pure trivial
  · exact confined_fail line _

theorem confined_bound (v : Value) : Confined V (bound f line v) fun _ => True := by
  unfold bound
  split
  · exact .pure trivial
  · exact confined_fail line _

theorem confined_inWorld {c : Call} (hc : CallConfined V c) (id : MethodId) {args : List Value}
    (hargs : ∀ a ∈ args, V a) : Confined V (inWorld (c id args)) V := by
  intro s hs
  have hend := hc id args s.world hargs
  unfold inWorld
  generalize c id args s.world = r at hend ⊢
  cases r with
  | ok v w => exact ⟨hs, hend.2, hend.1⟩
  | error k w => exact hend

end

/-! ### Expressions and statements -/

section

variable {f : Frame}

mutual

theorem confined_eval (hV : Value.Closed V) (hcalls : ∀ call ∈ f.call?, CallConfined V call) :
    ∀ e : Expr, e.Closed V → Confined V (eval f e) V
  | .const _ _, he => .pure he
  | .slot _ slot, _ => confined_load slot
  | .list _ items, he => by
    have hitems := confined_evalAll hV hcalls items he.2
    refine hitems.bind fun vs hvs => .pure ?_
    exact he.1 vs hvs.1 hvs.2
  | .unary line _ operand, he => by
    have hoperand := confined_eval hV hcalls operand he
    exact hoperand.bind fun _ hv => confined_attempt line _ fun _ h => hV.unary hv h
  | .binary line op left right, he => by
    have hleft := confined_eval hV hcalls left he.1
    have hright := confined_eval hV hcalls right he.2
    have hlast : Confined V (do
        let v ← eval f right
        let b ← truth f right.line v
        return Value.bool b : Exec Value) V :=
      hright.bind fun v _ => (confined_truth _ v).bind fun b _ => .pure (hV.bool b)
    -- The right operand of a logical operator is evaluated only if the left one leaves it open.
    cases op
    case and =>
      refine hleft.bind fun v _ => (confined_truth _ v).bind fun b _ => ?_
      cases b with
      | true => exact hlast
      | false => exact .pure (hV.bool false)
    case or =>
      refine hleft.bind fun v _ => (confined_truth _ v).bind fun b _ => ?_
      cases b with
      | true => exact .pure (hV.bool true)
      | false => exact hlast
    all_goals
      exact hleft.bind fun _ ha => hright.bind fun _ hb =>
        confined_attempt line _ fun _ h => hV.binary ha hb h
  | .index line target place, he => by
    have htarget := confined_eval hV hcalls target he.1
    have hplace := confined_eval hV hcalls place he.2
    exact htarget.bind fun _ ht => hplace.bind fun _ _ =>
      confined_attempt line _ fun _ h => hV.index ht h
  | .callMethod line method args, he => by
    have hargs := confined_evalAll hV hcalls args he
    refine hargs.bind fun vs hvs => ?_
    split
    next call hcall => exact confined_inWorld (hcalls call hcall) method hvs.2
    next => exact confined_fail line _
  | .callFunction line g args, he => by
    have hargs := confined_evalAll hV hcalls args he.2
    exact hargs.bind fun vs hvs => confined_attempt line _ fun r h => he.1 vs r hvs.2 h
  | .callSlot line slot name args, he => by
    have hargs := confined_evalAll hV hcalls args he
    refine hargs.bind fun vs _ => (confined_load slot).bind fun v hv => ?_
    split
    next => exact confined_callLog line hv hV.null name vs
    next => exact confined_fail line _
  | .callDocument line method receiver args, he => by
    have hreceiver := confined_eval hV hcalls receiver he.1
    have hargs := confined_evalAll hV hcalls args he.2
    refine hreceiver.bind fun r hr => hargs.bind fun vs _ => ?_
    split
    next hdocument =>
      cases r with
      | document => exact confined_callDocument line hr hV.null method.name method vs
      | _ => cases hdocument
    next => exact confined_fail line _
  | .callDynamic line name receiver args document function, he => by
    have hreceiver := confined_eval hV hcalls receiver he.2.1
    have hargs := confined_evalAll hV hcalls args he.2.2
    exact hreceiver.bind fun r hr => hargs.bind fun vs hvs =>
      confined_callDynamic line hV.null name hr hvs.2 document he.1

/-- Each of the values has the property, and there are as many as expressions. -/
theorem confined_evalAll (hV : Value.Closed V) (hcalls : ∀ call ∈ f.call?, CallConfined V call) :
    ∀ es : List Expr, Expr.AllClosed V es →
      Confined V (evalAll f es) fun vs => vs.length = es.length ∧ ∀ v ∈ vs, V v
  | [], _ => .pure ⟨rfl, nofun⟩
  | e :: es, he => by
    have hfirst := confined_eval hV hcalls e he.1
    have hrest := confined_evalAll hV hcalls es he.2
    refine hfirst.bind fun v hv => hrest.bind fun vs hvs => .pure ⟨?_, ?_⟩
    · rw [List.length_cons, hvs.1, List.length_cons]
    · exact List.forall_mem_cons.mpr ⟨hv, hvs.2⟩

end

theorem confined_condition (hV : Value.Closed V) (hcalls : ∀ call ∈ f.call?, CallConfined V call)
    {e : Expr} (he : e.Closed V) :
    Confined V (condition f e) fun _ => True :=
  (confined_eval hV hcalls e he).bind fun v _ => confined_truth _ v

/-- A block that returns gives a value with the property. -/
def FlowHolds (V : Value → Prop) : Flow → Prop
  | .next => True
  | .returned v => V v

theorem confined_loopWhile {c : Exec Bool} {body : Exec Flow} (hc : Confined V c fun _ => True)
    (hbody : Confined V body (FlowHolds V)) (n : Nat) :
    Confined V (loopWhile c body n) (FlowHolds V) := by
  induction n with
  | zero => exact .throw _
  | succ n ih =>
    refine hc.bind fun b _ => ?_
    cases b with
    | false => exact .pure trivial
    | true =>
      refine hbody.bind fun flow hflow => ?_
      cases flow with
      | next => exact ih
      | returned v => exact .pure hflow

theorem confined_loopOver (slot : Slot) {body : Exec Flow} (hbody : Confined V body (FlowHolds V))
    {vs : List Value} (hvs : ∀ v ∈ vs, V v) : Confined V (loopOver slot body vs) (FlowHolds V) := by
  induction vs with
  | nil => exact .pure trivial
  | cons v vs ih =>
    obtain ⟨hv, hvs⟩ := List.forall_mem_cons.mp hvs
    refine (confined_store slot hv).bind fun _ _ => hbody.bind fun flow hflow => ?_
    cases flow with
    | next => exact ih hvs
    | returned v => exact .pure hflow

theorem confined_loopCount (hV : Value.Closed V) (slot : Slot) {body : Exec Flow}
    (hbody : Confined V body (FlowHolds V)) (i : Int) (n : Nat) :
    Confined V (loopCount slot body i n) (FlowHolds V) := by
  induction n generalizing i with
  | zero => exact .pure trivial
  | succ n ih =>
    refine (confined_store slot (hV.int _)).bind fun _ _ => hbody.bind fun flow hflow => ?_
    cases flow with
    | next => exact ih (i + 1)
    | returned v => exact .pure hflow

mutual

theorem confined_exec (hV : Value.Closed V) (hcalls : ∀ call ∈ f.call?, CallConfined V call) :
    ∀ s : Stmt, s.Closed V → Confined V (exec f s) (FlowHolds V)
  | .store _ slot value, hs => by
    have hvalue := confined_eval hV hcalls value hs
    exact hvalue.bind fun _ hv => (confined_store slot hv).bind fun _ _ => .pure trivial
  | .expr _ value, hs => by
    have hvalue := confined_eval hV hcalls value hs
    exact hvalue.bind fun _ _ => .pure trivial
  | .branch _ branches otherwise, hs =>
    confined_execArms hV hcalls branches hs.1 (confined_execOtherwise hV hcalls otherwise hs.2)
  | .loop _ cond body, hs =>
    confined_loopWhile (confined_condition hV hcalls hs.1) (confined_execAll hV hcalls body hs.2) _
  | .forEach line slot items body, hs => by
    have hitems := confined_eval hV hcalls items hs.1
    have hbody := confined_execAll hV hcalls body hs.2
    refine hitems.bind fun v hv => ?_
    exact (confined_attempt line _ fun _ h => hV.items hv h).bind fun vs hvs =>
      confined_loopOver slot hbody hvs
  | .forRange _ slot start stop body, hs => by
    have hstart := confined_eval hV hcalls start hs.1
    have hstop := confined_eval hV hcalls stop hs.2.1
    have hbody := confined_execAll hV hcalls body hs.2.2
    refine hstart.bind fun a _ => (confined_bound _ a).bind fun _ _ => ?_
    refine hstop.bind fun b _ => (confined_bound _ b).bind fun _ _ => ?_
    exact confined_loopCount hV slot hbody _ _
  | .result _ none, _ => .pure hV.null
  | .result _ (some value), hs => by
    have hvalue := confined_eval hV hcalls value hs
    exact hvalue.bind fun _ hv => .pure hv

theorem confined_execAll (hV : Value.Closed V) (hcalls : ∀ call ∈ f.call?, CallConfined V call) :
    ∀ ss : List Stmt, Stmt.AllClosed V ss → Confined V (execAll f ss) (FlowHolds V)
  | [], _ => .pure trivial
  | s :: ss, hs => by
    have hfirst := confined_exec hV hcalls s hs.1
    refine hfirst.bind fun flow hflow => ?_
    cases flow with
    | next => exact confined_execAll hV hcalls ss hs.2
    | returned v => exact .pure hflow

theorem confined_execArms (hV : Value.Closed V) (hcalls : ∀ call ∈ f.call?, CallConfined V call) :
    ∀ bs : List (Expr × List Stmt), Stmt.ArmsClosed V bs → ∀ {otherwise : Exec Flow},
      Confined V otherwise (FlowHolds V) → Confined V (execArms f bs otherwise) (FlowHolds V)
  | [], _, _, hlast => hlast
  | (cond, body) :: rest, hs, _, hlast => by
    have hcond := confined_condition hV hcalls hs.1
    refine hcond.bind fun b _ => ?_
    cases b with
    | true => exact confined_execAll hV hcalls body hs.2.1
    | false => exact confined_execArms hV hcalls rest hs.2.2 hlast

theorem confined_execOtherwise (hV : Value.Closed V) (hcalls : ∀ call ∈ f.call?, CallConfined V call) :
    ∀ o : Option (List Stmt), Stmt.OtherwiseClosed V o →
      Confined V (execOtherwise f o) (FlowHolds V)
  | none, _ => .pure trivial
  | some body, hs => confined_execAll hV hcalls body hs

end

end

/-! ### Methods -/

theorem slotsHold_frameOf (size : Nat) {args : List Value} (hargs : ∀ a ∈ args, V a) :
    SlotsHold V (frameOf size args) := by
  intro i v hv
  unfold frameOf at hv
  rw [List.getElem?_toArray] at hv
  rcases List.mem_append.mp (List.mem_of_getElem? hv) with hmem | hmem
  · obtain ⟨a, ha, hav⟩ := List.mem_map.mp hmem
    obtain rfl := Option.some.inj hav
    exact hargs a ha
  · cases List.eq_of_mem_replicate hmem

theorem callConfined_run (hV : Value.Closed V) {p : Program} (hp : p.Closed V) (steps : Nat)
    {call? : Option Call} (hcalls : ∀ call ∈ call?, CallConfined V call) :
    CallConfined V (run p steps call?) := by
  intro id args w hargs
  unfold run
  cases hm : p.methods[id]? with
  | none => exact Untouched.refl w
  | some m =>
    have hbody := confined_execAll (f := ⟨p.qualifiedName m, steps, call?⟩) hV hcalls m.body
      (hp m (List.mem_of_getElem? hm)) ⟨frameOf m.frameSize args, w⟩ (slotsHold_frameOf _ hargs)
    dsimp only
    generalize execAll _ _ _ = r at hbody ⊢
    cases r with
    | error k s => exact hbody
    | ok flow s =>
      refine ⟨?_, hbody.2.1⟩
      cases flow with
      | next => exact hV.null
      | returned v => exact hbody.2.2

/-- **Confinement**: a run of a program that keeps a property of values, on arguments with the property,
gives a value with it, and leaves a document or a log that the property excludes as it was. -/
theorem callConfined_invoke (hV : Value.Closed V) {p : Program} (hp : p.Closed V) (steps : Nat) :
    ∀ depth : Nat, CallConfined V (invoke p steps depth)
  | 0 => callConfined_run hV hp steps fun _ h => nomatch h
  | depth + 1 => by
    refine callConfined_run hV hp steps fun call hcall => ?_
    obtain rfl := Option.some.inj hcall
    exact callConfined_invoke hV hp steps depth

end Machine

end ReportTemplate
