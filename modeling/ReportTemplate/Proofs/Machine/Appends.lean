import ReportTemplate.Proofs.Machine.Safety
import ReportTemplate.Proofs.Machine.Slots

/-!
# ReportTemplate.Proofs.Machine.Appends — runs do not look at what they append to

A run adds to the document and to the log and never reads them: from any world it ends as from the empty
one, and what it leaves there stands behind what was there before.  More steps change nothing about a run
that ends without using up the steps it has.
-/

namespace ReportTemplate

namespace Document

/-- The text that a block adds stands behind what is there. -/
theorem foldl_line (s : String) (bs : List Block) :
    bs.foldl (fun s b => s ++ b.line ++ "\n") s =
      s ++ bs.foldl (fun s b => s ++ b.line ++ "\n") "" := by
  induction bs generalizing s with
  | nil => exact String.append_empty.symm
  | cons b bs ih =>
    rw [List.foldl_cons, List.foldl_cons, ih, ih ("" ++ b.line ++ "\n"), String.empty_append,
      ← String.append_assoc, ← String.append_assoc]

theorem text_append (a b : Array Block) : (mk (a ++ b)).text = (mk a).text ++ (mk b).text := by
  unfold text
  rw [Array.foldl_append, ← Array.foldl_toList, foldl_line, Array.foldl_toList]

end Document

namespace Machine

open Program (Expr Stmt Slot MethodId)

/-! ### Worlds -/

/-- What is in one world, and behind it what is in another. -/
instance : Append World := ⟨fun w g => ⟨⟨w.document.blocks ++ g.document.blocks⟩, w.log ++ g.log⟩⟩

namespace World

variable (u v w : World)

@[simp]
theorem blocks_append : (v ++ w).document.blocks = v.document.blocks ++ w.document.blocks := rfl

@[simp]
theorem log_append : (v ++ w).log = v.log ++ w.log := rfl

@[simp]
theorem append_empty : w ++ ({} : World) = w := by
  show World.mk ⟨w.document.blocks ++ #[]⟩ (w.log ++ #[]) = w
  rw [Array.append_empty, Array.append_empty]

theorem append_assoc : u ++ v ++ w = u ++ (v ++ w) := by
  show World.mk ⟨_ ++ _ ++ _⟩ (_ ++ _ ++ _) = World.mk ⟨_ ++ (_ ++ _)⟩ (_ ++ (_ ++ _))
  rw [Array.append_assoc, Array.append_assoc]

end World

/-- The same slots, with a world in front of the one there. -/
def State.onto (w : World) (s : State) : State := { s with world := w ++ s.world }

variable {σ α β : Type}

/-- The same end, in another state. -/
def inState (k : σ → σ) : EStateM.Result Halt σ α → EStateM.Result Halt σ α
  | .ok a s => .ok a (k s)
  | .error h s => .error h (k s)

/-- A computation that did not use up its steps. -/
def InTime (r : EStateM.Result Halt σ α) : Prop := ∀ s, r ≠ .error .outOfSteps s

theorem inTime_error {h : Halt} {s : σ} :
    InTime (.error h s : EStateM.Result Halt σ α) ↔ h ≠ .outOfSteps := by
  constructor
  · rintro htime rfl
    exact htime s rfl
  · rintro hother t ⟨⟩
    exact hother rfl

theorem inTime_inState {k : σ → σ} {r : EStateM.Result Halt σ α} :
    InTime (inState k r) ↔ InTime r := by
  cases r with
  | ok a s => exact ⟨fun _ => nofun, fun _ => nofun⟩
  | error h s => exact inTime_error.trans inTime_error.symm

theorem inState_inState (j k : σ → σ) (r : EStateM.Result Halt σ α) :
    inState j (inState k r) = inState (fun s => j (k s)) r := by
  cases r <;> rfl

theorem State.onto_onto (v w : World) :
    (fun s => State.onto v (State.onto w s)) = State.onto (v ++ w) := by
  funext s
  show State.mk _ _ = State.mk _ _
  rw [World.append_assoc]
  rfl

/-! ### Computations -/

/-- From any world one computation does what it does from the empty one, and so does another one if the
first does not use up its steps. -/
def Lasts (x y : Exec α) : Prop := ∀ locals w,
  x ⟨locals, w⟩ = inState (State.onto w) (x ⟨locals, {}⟩) ∧
  (InTime (x ⟨locals, {}⟩) → y ⟨locals, w⟩ = inState (State.onto w) (x ⟨locals, {}⟩))

/-- Two ways to call a method, of which the second has more steps. -/
def CallLasts (c d : Call) : Prop := ∀ id args w,
  c id args w = inState (w ++ ·) (c id args {}) ∧
  (InTime (c id args {}) → d id args w = inState (w ++ ·) (c id args {}))

namespace Lasts

variable {x y : Exec α}

/-- A computation that needs no steps lasts as long as itself. -/
theorem same (h : ∀ locals w, x ⟨locals, w⟩ = inState (State.onto w) (x ⟨locals, {}⟩)) : Lasts x x :=
  fun locals w => ⟨h locals w, fun _ => h locals w⟩

theorem pure (a : α) : Lasts (Pure.pure a) (Pure.pure a) := by
  refine .same fun locals w => ?_
  show EStateM.Result.ok a (State.mk locals w) = .ok a ⟨locals, w ++ {}⟩
  rw [World.append_empty]

theorem throw (h : Halt) : Lasts (MonadExcept.throw h : Exec α) (MonadExcept.throw h) := by
  refine .same fun locals w => ?_
  show EStateM.Result.error h (State.mk locals w) = .error h ⟨locals, w ++ {}⟩
  rw [World.append_empty]

theorem bind {f g : α → Exec β} (hx : Lasts x y) (hf : ∀ a, Lasts (f a) (g a)) :
    Lasts (x >>= f) (y >>= g) := by
  intro locals w
  obtain ⟨hfirst, hlonger⟩ := hx locals w
  show EStateM.bind x f _ = inState _ (EStateM.bind x f _) ∧
    (InTime (EStateM.bind x f _) → EStateM.bind y g _ = inState _ (EStateM.bind x f _))
  unfold EStateM.bind
  rw [hfirst]
  cases hend : x ⟨locals, {}⟩ with
  | error k s =>
    rw [hend] at hlonger
    refine ⟨rfl, fun htime => ?_⟩
    rw [hlonger (inTime_error.mpr (inTime_error.mp htime))]
    rfl
  | ok a s =>
    rw [hend] at hlonger
    obtain ⟨later, v⟩ := s
    have hends : inState (State.onto (w ++ v)) (f a ⟨later, {}⟩) =
        inState (State.onto w) (f a ⟨later, v⟩) := by
      rw [(hf a later v).1, inState_inState, State.onto_onto]
    refine ⟨(hf a later (w ++ v)).1.trans hends, fun htime => ?_⟩
    have hshort : InTime (f a ⟨later, {}⟩) := by
      have htime : InTime (f a ⟨later, v⟩) := htime
      rw [(hf a later v).1] at htime
      exact inTime_inState.mp htime
    rw [hlonger nofun]
    exact ((hf a later (w ++ v)).2 hshort).trans hends

end Lasts

/-! ### Slots, failures and calls -/

section

variable (f : Frame) (line : Nat)

theorem lasts_fail (cause : Cause) : Lasts (fail f line cause : Exec α) (fail f line cause) := .throw _

theorem lasts_attempt (cause : Refusal → Cause) (r : Except Refusal α) :
    Lasts (attempt f line cause r) (attempt f line cause r) := by
  cases r with
  | ok a => exact .pure a
  | error r => exact lasts_fail f line _

theorem lasts_load (slot : Slot) : Lasts (load slot) (load slot) := by
  refine .same fun locals w => ?_
  by_cases hslot : ∃ v, locals[slot]? = some (some v)
  · obtain ⟨v, hv⟩ := hslot
    rw [load_eq (s := ⟨locals, w⟩) hv, load_eq (s := ⟨locals, {}⟩) hv]
    exact (Lasts.pure v locals w).1
  · have hnone : ∀ v, locals[slot]? ≠ some (some v) := fun v hv => hslot ⟨v, hv⟩
    rw [load_broken (s := ⟨locals, w⟩) hnone, load_broken (s := ⟨locals, {}⟩) hnone]
    exact (Lasts.throw Halt.broken locals w).1

theorem lasts_store (slot : Slot) (v : Value) : Lasts (store slot v) (store slot v) := by
  refine .same fun locals w => ?_
  by_cases hslot : slot < locals.size
  · rw [store_eq (s := ⟨locals, w⟩) hslot, store_eq (s := ⟨locals, {}⟩) hslot]
    exact (Lasts.pure () (locals.setIfInBounds slot (some v)) w).1
  · rw [store_broken (s := ⟨locals, w⟩) hslot, store_broken (s := ⟨locals, {}⟩) hslot]
    exact (Lasts.throw Halt.broken locals w).1

/-- What a computation adds to the world stands behind what is there. -/
theorem lasts_modify (g : World) :
    Lasts (modify fun s => { s with world := s.world ++ g })
      (modify fun s => { s with world := s.world ++ g }) := by
  refine .same fun locals w => ?_
  show EStateM.Result.ok () (State.mk locals (w ++ g)) = .ok () ⟨locals, w ++ ({} ++ g)⟩
  rw [← World.append_assoc, World.append_empty]

theorem lasts_callLog (name : String) (args : List Value) :
    Lasts (callLog f line name args) (callLog f line name args) := by
  unfold callLog
  split
  next n text v =>
    exact (lasts_modify ⟨{}, #[⟨n, text, v⟩]⟩).bind fun _ => .pure _
  next => exact lasts_fail f line _

theorem lasts_callDocument (name : String) (m : DocumentMethod) (args : List Value) :
    Lasts (callDocument f line name m args) (callDocument f line name m args) := by
  refine (lasts_attempt f line _ _).bind fun block => ?_
  exact (lasts_modify ⟨⟨#[block]⟩, #[]⟩).bind fun _ => .pure _

theorem lasts_callDynamic (name : String) (receiver : Value) (args : List Value)
    (document : Option DocumentMethod) (function : Option Function) :
    Lasts (callDynamic f line name receiver args document function)
      (callDynamic f line name receiver args document function) := by
  unfold callDynamic
  split
  next m _ => exact lasts_callDocument f line name m args
  next =>
    cases function with
    | some g => exact lasts_attempt f line _ _
    | none => exact lasts_fail f line _

theorem lasts_truth (v : Value) : Lasts (truth f line v) (truth f line v) := by
  unfold truth
  split
  · exact .pure _
  · exact lasts_fail f line _

theorem lasts_bound (v : Value) : Lasts (bound f line v) (bound f line v) := by
  unfold bound
  split
  · exact .pure _
  · exact lasts_fail f line _

end

theorem lasts_inWorld {c d : Call} (h : CallLasts c d) (id : MethodId) (args : List Value) :
    Lasts (inWorld (c id args)) (inWorld (d id args)) := by
  intro locals w
  obtain ⟨hblind, hlonger⟩ := h id args w
  unfold inWorld
  dsimp only
  rw [hblind]
  cases hend : c id args {} with
  | ok v g =>
    rw [hend] at hlonger
    refine ⟨rfl, fun _ => ?_⟩
    rw [hlonger nofun]
    rfl
  | error k g =>
    rw [hend] at hlonger
    refine ⟨rfl, fun htime => ?_⟩
    rw [hlonger (inTime_error.mpr (inTime_error.mp htime))]
    rfl

/-! ### Expressions and statements -/

/-- The same call with other steps, and with another way to call a method. -/
def Frame.lengthen (f : Frame) (steps : Nat) (call? : Option Call) : Frame := ⟨f.method, steps, call?⟩

section

variable {f : Frame} {steps : Nat} {call? : Option Call}

/-- A call of a method, unless the calls are nested as deep as they may be. -/
theorem lasts_callMethod (f : Frame) (line : Nat) (id : MethodId) (args : List Value)
    {c? d? : Option Call} : Option.Rel CallLasts c? d? →
    Lasts (match c? with
      | some call => inWorld (call id args)
      | none => fail f line .tooDeep)
    (match d? with
      | some call => inWorld (call id args)
      | none => fail f line .tooDeep)
  | .some h => lasts_inWorld h id args
  | .none => lasts_fail f line _

mutual

theorem lasts_eval (steps : Nat) (hcalls : Option.Rel CallLasts f.call? call?) :
    ∀ e : Expr, Lasts (eval f e) (eval (f.lengthen steps call?) e)
  | .const _ v => .pure v
  | .slot _ slot => lasts_load slot
  | .list _ items => by
    have hitems := lasts_evalAll steps hcalls items
    exact hitems.bind fun vs => .pure _
  | .unary line op operand => by
    have hoperand := lasts_eval steps hcalls operand
    exact hoperand.bind fun _ => lasts_attempt f line _ _
  | .binary line op left right => by
    have hleft := lasts_eval steps hcalls left
    have hright := lasts_eval steps hcalls right
    have hlast : Lasts
        (do let v ← eval f right
            let b ← truth f right.line v
            return Value.bool b : Exec Value)
        (do let v ← eval (f.lengthen steps call?) right
            let b ← truth f right.line v
            return Value.bool b) :=
      hright.bind fun v => (lasts_truth f _ v).bind fun b => .pure _
    -- The right operand of a logical operator is evaluated only if the left one leaves it open.
    cases op
    case and =>
      refine hleft.bind fun v => (lasts_truth f _ v).bind fun b => ?_
      cases b with
      | true => exact hlast
      | false => exact .pure _
    case or =>
      refine hleft.bind fun v => (lasts_truth f _ v).bind fun b => ?_
      cases b with
      | true => exact .pure _
      | false => exact hlast
    all_goals exact hleft.bind fun _ => hright.bind fun _ => lasts_attempt f line _ _
  | .index line target place => by
    have htarget := lasts_eval steps hcalls target
    have hplace := lasts_eval steps hcalls place
    exact htarget.bind fun _ => hplace.bind fun _ => lasts_attempt f line _ _
  | .callMethod line method args => by
    have hargs := lasts_evalAll steps hcalls args
    exact hargs.bind fun vs => lasts_callMethod f line method vs hcalls
  | .callFunction line g args => by
    have hargs := lasts_evalAll steps hcalls args
    exact hargs.bind fun vs => lasts_attempt f line _ _
  | .callSlot line slot name args => by
    have hargs := lasts_evalAll steps hcalls args
    refine hargs.bind fun vs => (lasts_load slot).bind fun v => ?_
    cases v with
    | log => exact lasts_callLog f line name vs
    | _ => exact lasts_fail f line _
  | .callDocument line method receiver args => by
    have hreceiver := lasts_eval steps hcalls receiver
    have hargs := lasts_evalAll steps hcalls args
    refine hreceiver.bind fun r => hargs.bind fun vs => ?_
    cases r with
    | document => exact lasts_callDocument f line _ method vs
    | _ => exact lasts_fail f line _
  | .callDynamic line name receiver args document function => by
    have hreceiver := lasts_eval steps hcalls receiver
    have hargs := lasts_evalAll steps hcalls args
    exact hreceiver.bind fun r => hargs.bind fun vs =>
      lasts_callDynamic f line name r vs document function

theorem lasts_evalAll (steps : Nat) (hcalls : Option.Rel CallLasts f.call? call?) :
    ∀ es : List Expr, Lasts (evalAll f es) (evalAll (f.lengthen steps call?) es)
  | [] => .pure _
  | e :: es => by
    have hfirst := lasts_eval steps hcalls e
    have hrest := lasts_evalAll steps hcalls es
    exact hfirst.bind fun v => hrest.bind fun vs => .pure _

end

theorem lasts_condition (steps : Nat) (hcalls : Option.Rel CallLasts f.call? call?) (e : Expr) :
    Lasts (condition f e) (condition (f.lengthen steps call?) e) :=
  (lasts_eval steps hcalls e).bind fun v => lasts_truth f _ v

section

variable {c d : Exec Bool} {x y : Exec Flow}

/-- This is where steps are used up: a loop that ends in time takes its rounds with more steps, too. -/
theorem lasts_loopWhile (hc : Lasts c d) (hx : Lasts x y) {m n : Nat} (h : m ≤ n) :
    Lasts (loopWhile c x m) (loopWhile d y n) := by
  induction m generalizing n with
  | zero =>
    intro locals w
    exact ⟨(Lasts.throw Halt.outOfSteps locals w).1, fun htime => absurd rfl (inTime_error.mp htime)⟩
  | succ m ih =>
    obtain ⟨n, rfl⟩ := Nat.exists_eq_succ_of_ne_zero (Nat.ne_zero_of_lt h)
    refine hc.bind fun b => ?_
    cases b with
    | false => exact .pure _
    | true =>
      refine hx.bind fun flow => ?_
      cases flow with
      | next => exact ih (Nat.le_of_succ_le_succ h)
      | returned v => exact .pure _

theorem lasts_loopOver (slot : Slot) (hx : Lasts x y) (vs : List Value) :
    Lasts (loopOver slot x vs) (loopOver slot y vs) := by
  induction vs with
  | nil => exact .pure _
  | cons v vs ih =>
    refine (lasts_store slot v).bind fun _ => hx.bind fun flow => ?_
    cases flow with
    | next => exact ih
    | returned v => exact .pure _

theorem lasts_loopCount (slot : Slot) (hx : Lasts x y) (i : Int) (n : Nat) :
    Lasts (loopCount slot x i n) (loopCount slot y i n) := by
  induction n generalizing i with
  | zero => exact .pure _
  | succ n ih =>
    refine (lasts_store slot _).bind fun _ => hx.bind fun flow => ?_
    cases flow with
    | next => exact ih (i + 1)
    | returned v => exact .pure _

end

mutual

theorem lasts_exec (hcalls : Option.Rel CallLasts f.call? call?) (hsteps : f.steps ≤ steps) :
    ∀ s : Stmt, Lasts (exec f s) (exec (f.lengthen steps call?) s)
  | .store _ slot value => by
    have hvalue := lasts_eval steps hcalls value
    exact hvalue.bind fun v => (lasts_store slot v).bind fun _ => .pure _
  | .expr _ value => by
    have hvalue := lasts_eval steps hcalls value
    exact hvalue.bind fun _ => .pure _
  | .branch _ branches otherwise =>
    lasts_execArms hcalls hsteps branches (lasts_execOtherwise hcalls hsteps otherwise)
  | .loop _ cond body =>
    lasts_loopWhile (lasts_condition steps hcalls cond) (lasts_execAll hcalls hsteps body) hsteps
  | .forEach line slot items body => by
    have hitems := lasts_eval steps hcalls items
    have hbody := lasts_execAll hcalls hsteps body
    exact hitems.bind fun v => (lasts_attempt f line _ _).bind fun vs =>
      lasts_loopOver slot hbody vs
  | .forRange _ slot start stop body => by
    have hstart := lasts_eval steps hcalls start
    have hstop := lasts_eval steps hcalls stop
    have hbody := lasts_execAll hcalls hsteps body
    refine hstart.bind fun a => (lasts_bound f _ a).bind fun a => ?_
    refine hstop.bind fun b => (lasts_bound f _ b).bind fun b => ?_
    exact lasts_loopCount slot hbody _ _
  | .result _ none => .pure _
  | .result _ (some value) => by
    have hvalue := lasts_eval steps hcalls value
    exact hvalue.bind fun v => .pure _

theorem lasts_execAll (hcalls : Option.Rel CallLasts f.call? call?) (hsteps : f.steps ≤ steps) :
    ∀ ss : List Stmt, Lasts (execAll f ss) (execAll (f.lengthen steps call?) ss)
  | [] => .pure _
  | s :: ss => by
    have hfirst := lasts_exec hcalls hsteps s
    refine hfirst.bind fun flow => ?_
    cases flow with
    | next => exact lasts_execAll hcalls hsteps ss
    | returned v => exact .pure _

theorem lasts_execArms (hcalls : Option.Rel CallLasts f.call? call?) (hsteps : f.steps ≤ steps) :
    ∀ (bs : List (Expr × List Stmt)) {x y : Exec Flow}, Lasts x y →
      Lasts (execArms f bs x) (execArms (f.lengthen steps call?) bs y)
  | [], _, _, hlast => hlast
  | (cond, body) :: rest, _, _, hlast => by
    have hcond := lasts_condition steps hcalls cond
    refine hcond.bind fun b => ?_
    cases b with
    | true => exact lasts_execAll hcalls hsteps body
    | false => exact lasts_execArms hcalls hsteps rest hlast

theorem lasts_execOtherwise (hcalls : Option.Rel CallLasts f.call? call?) (hsteps : f.steps ≤ steps) :
    ∀ o : Option (List Stmt), Lasts (execOtherwise f o) (execOtherwise (f.lengthen steps call?) o)
  | none => .pure _
  | some body => lasts_execAll hcalls hsteps body

end

end

/-! ### Methods -/

theorem callLasts_run (p : Program) {m n : Nat} (h : m ≤ n) {c? d? : Option Call}
    (hcalls : Option.Rel CallLasts c? d?) : CallLasts (run p m c?) (run p n d?) := by
  intro id args w
  unfold run
  cases p.methods[id]? with
  | none =>
    dsimp only [inState]
    rw [World.append_empty]
    exact ⟨rfl, fun _ => rfl⟩
  | some method =>
    obtain ⟨hblind, hlonger⟩ := lasts_execAll (f := ⟨p.qualifiedName method, m, c?⟩) hcalls h
      method.body (frameOf method.frameSize args) w
    dsimp only [Frame.lengthen] at hlonger ⊢
    rw [hblind]
    cases hend : execAll ⟨p.qualifiedName method, m, c?⟩ method.body
        ⟨frameOf method.frameSize args, {}⟩ with
    | ok flow s =>
      rw [hend] at hlonger
      refine ⟨rfl, fun _ => ?_⟩
      rw [hlonger nofun]
      rfl
    | error k s =>
      rw [hend] at hlonger
      refine ⟨rfl, fun htime => ?_⟩
      rw [hlonger (inTime_error.mpr (inTime_error.mp htime))]
      rfl

theorem callLasts_invoke (p : Program) {m n : Nat} (h : m ≤ n) :
    ∀ depth : Nat, CallLasts (invoke p m depth) (invoke p n depth)
  | 0 => callLasts_run p h .none
  | depth + 1 => callLasts_run p h (.some (callLasts_invoke p h depth))

section

variable {p : Program} {m n depth : Nat} {id : MethodId} {args : List Value}

/-- A run from any world is the run from the empty one, behind what is there. -/
theorem invoke_onto (p : Program) (steps depth : Nat) (id : MethodId) (args : List Value) (w : World) :
    invoke p steps depth id args w = inState (w ++ ·) (invoke p steps depth id args {}) :=
  (callLasts_invoke p (Nat.le_refl steps) depth id args w).1

/-- Whether a run ends in time does not depend on the world. -/
theorem inTime_invoke {w : World} :
    InTime (invoke p m depth id args w) ↔ InTime (invoke p m depth id args {}) := by
  rw [invoke_onto]
  exact inTime_inState

/-- More steps change nothing about a run that ends in time. -/
theorem invoke_longer {w : World} (h : InTime (invoke p m depth id args w)) (hmn : m ≤ n) :
    invoke p n depth id args w = invoke p m depth id args w := by
  rw [invoke_onto p m depth id args w]
  exact (callLasts_invoke p hmn depth id args w).2 (inTime_invoke.mp h)

/-- Runs from one world that end in time end alike. -/
theorem InTime.unique {w : World} (hm : InTime (invoke p m depth id args w))
    (hn : InTime (invoke p n depth id args w)) :
    invoke p m depth id args w = invoke p n depth id args w := by
  rcases Nat.le_total m n with h | h
  · exact (invoke_longer hm h).symm
  · exact invoke_longer hn h

end

/-- The end of a computation with a result, in a state. -/
def endIn : Except Halt α → σ → EStateM.Result Halt σ α
  | .ok a, s => .ok a s
  | .error h, s => .error h s

theorem eq_endIn (r : EStateM.Result Halt σ α) : ∃ result s, r = endIn result s := by
  cases r with
  | ok a s => exact ⟨.ok a, s, rfl⟩
  | error h s => exact ⟨.error h, s, rfl⟩

theorem inState_endIn (k : σ → σ) (result : Except Halt α) (s : σ) :
    inState k (endIn result s) = endIn result (k s) := by
  cases result <;> rfl

/-- **Runs only append, whatever is there**: a method of a program that compiles, on some arguments, has a
result, blocks and entries of its own.  If the method ends at all, from some world and with some steps,
then from every world and with that many steps or more it ends with this result, these blocks behind those
of the document and these entries behind those of the log.  A failure takes nothing back.  The text of the
document has the text of the blocks behind it. -/
theorem invoke_appends {refs : ReferenceSet} {policy : WarningPolicy} {source : List Char}
    {c : Compiled} (h : Program.compile refs policy source = .ok c) (depth : Nat) (id : MethodId)
    (args : List Value) :
    ∃ (result : Except Halt Value) (blocks : Array Block) (entries : Array LogEntry),
      result ≠ .error .outOfSteps ∧
      (∀ m, c.program.methods[id]? = some m → args.length = m.signature.params.length →
        result ≠ .error .broken) ∧
      ∀ (steps : Nat) (world : World), InTime (invoke c.program steps depth id args world) →
        ∀ (more : Nat) (start : World), steps ≤ more →
          ∃ final : World, invoke c.program more depth id args start = endIn result final ∧
            final.document.blocks = start.document.blocks ++ blocks ∧
            final.log = start.log ++ entries ∧
            final.document.text = start.document.text ++ (Document.mk blocks).text := by
  by_cases hends : ∃ steps, InTime (invoke c.program steps depth id args {})
  · obtain ⟨steps₀, htime₀⟩ := hends
    obtain ⟨result, g, hresult⟩ := eq_endIn (invoke c.program steps₀ depth id args {})
    refine ⟨result, g.document.blocks, g.log, ?_, fun m hm hargs => ?_, ?_⟩
    · rintro rfl
      exact htime₀ g hresult
    · rintro rfl
      obtain ⟨file, -, hprogram, hclean⟩ := Program.compile_ok h
      rw [hprogram] at hm hresult
      obtain ⟨m', hm', himplements⟩ := Program.implements_of_getElem? hclean hm
      rw [himplements.signature] at hargs
      exact invoke_not_broken hclean hm' (Nat.le_of_eq hargs.symm) steps₀ depth {} g hresult
    · intro steps world htime more start hmore
      have htime := inTime_invoke.mp htime
      have hstart := invoke_longer (inTime_invoke.mpr htime) hmore (w := start)
      refine ⟨start ++ g, ?_, start.blocks_append g, start.log_append g, Document.text_append _ _⟩
      rw [hstart, invoke_onto, htime.unique htime₀, hresult, inState_endIn]
  · refine ⟨.ok .null, #[], #[], nofun, fun _ _ _ => nofun, fun steps world htime => ?_⟩
    exact absurd ⟨steps, inTime_invoke.mp htime⟩ hends

theorem invoke_appends_counting :
    ∃ c v, Program.compile countingRefs {} counting = .ok c ∧ ∀ start : World, ∃ final,
      invoke c.program 0 0 0 [.document, .null] start = .ok v final ∧
      final.log = start.log ∧ final.document.text = start.document.text ++ "0\n1\n" := by
  obtain ⟨c, v, w, hc, hrun, hblocks, hlog⟩ := counting_run
  obtain ⟨result, blocks, entries, -, -, hall⟩ := invoke_appends hc 0 0 [.document, .null]
  have htime : InTime (invoke c.program 0 0 0 [.document, .null] {}) := by
    rw [hrun]
    exact nofun
  -- The run from the empty world says what the result, the blocks and the entries are.
  obtain ⟨w', hend, hblocks', hentries', -⟩ := hall 0 {} htime 0 {} (Nat.le_refl 0)
  rw [hrun] at hend
  cases result with
  | error k => cases hend
  | ok v' =>
    obtain ⟨rfl, rfl⟩ := EStateM.Result.ok.inj hend
    have hempty : entries = #[] := by
      rw [Array.isEmpty_iff.mp hlog] at hentries'
      exact (hentries'.trans Array.empty_append).symm
    have htwo : blocks = #[.paragraph "0", .paragraph "1"] := by
      rw [hblocks] at hblocks'
      exact (hblocks'.trans Array.empty_append).symm
    refine ⟨c, v, hc, fun start => ?_⟩
    obtain ⟨final, hend, -, hentries, htext⟩ := hall 0 {} htime 0 start (Nat.le_refl 0)
    refine ⟨final, hend, ?_, ?_⟩
    · rw [hentries, hempty, Array.append_empty]
    · rw [htext, htwo]
      rfl

end Machine

end ReportTemplate
