import ReportTemplate.Proofs.Machine.Counting
import ReportTemplate.Proofs.Machine.Halts

/-!
# ReportTemplate.Proofs.Machine.Depth — the depth of the calls

The counting machine does what the machine does.  At each moment of a run its counter shows the number of
active frames, each call leaves the counter as it found it, and a call is refused exactly in the deepest
frame that there may be.
-/

namespace ReportTemplate.Counting

open Machine (Halt Flow World Cause maxCallDepth)
open Program (Expr Stmt Slot MethodId)

/-! ### What a record tells -/

/-- The counter shows the number of active frames, and a call that has ended leaves it as found. -/
structure Moment.Counted (x : Moment) : Prop where
  depth : x.depth = x.frames.length
  bounded : x.depth ≤ maxCallDepth
  restored : ∀ found, x.event = .leaves found → x.depth = found

/-- A method is about to be called, on a line of another method, in the deepest frame. -/
structure Moment.TooDeep (x : Moment) (method : String) (line : Nat) : Prop where
  deepest : x.frames.length = maxCallDepth
  method : x.frames.head? = some method
  calls : ∃ id args, x.event = .calls line id args

/-- A call on a line of a method would be nested too deep. -/
def deepHalt (method : String) (line : Nat) : Halt := .failed ⟨method, line, .tooDeep⟩

/-- What the moments tell of a computation that ends, with a halt unless it has a value. -/
structure Tells (moments : List Moment) (halt? : Option Halt) : Prop where
  counted : ∀ x ∈ moments, x.Counted
  tooDeep : ∀ method line,
    halt? = some (deepHalt method line) ↔ ∃ x ∈ moments, x.TooDeep method line

namespace Tells

variable {xs ys : List Moment} {k : Option Halt}

theorem nil (hk : ∀ method line, k ≠ some (deepHalt method line)) : Tells [] k where
  counted := fun _ hx => nomatch hx
  tooDeep := fun method line => iff_of_false (hk method line) fun ⟨_, hx, _⟩ => nomatch hx

/-- A moment with no refused call. -/
theorem single {x : Moment} (hcounted : x.Counted)
    (hx : ∀ method line, ¬ x.TooDeep method line) : Tells [x] none where
  counted := fun _ hmem => List.mem_singleton.mp hmem ▸ hcounted
  tooDeep := fun method line =>
    iff_of_false nofun fun ⟨_, hmem, hdeep⟩ => hx method line (List.mem_singleton.mp hmem ▸ hdeep)

/-- No call is refused in a computation with a value. -/
theorem none_tooDeep (hxs : Tells xs none) (method : String) (line : Nat) :
    ¬ ∃ x ∈ xs, x.TooDeep method line := fun h => nomatch (hxs.tooDeep method line).mpr h

theorem exists_append (method : String) (line : Nat) :
    (∃ x ∈ xs ++ ys, x.TooDeep method line) ↔
      (∃ x ∈ xs, x.TooDeep method line) ∨ ∃ x ∈ ys, x.TooDeep method line := by
  simp only [List.mem_append, or_and_right, exists_or]

/-- What comes behind a computation with a value decides how both together end. -/
theorem append (hxs : Tells xs none) (hys : Tells ys k) : Tells (xs ++ ys) k where
  counted := List.forall_mem_append.mpr ⟨hxs.counted, hys.counted⟩
  tooDeep := fun method line => by
    rw [exists_append, hys.tooDeep method line]
    exact (or_iff_right (hxs.none_tooDeep method line)).symm

/-- A record that ends in moments with no refused call. -/
theorem concat (hxs : Tells xs k) (hys : Tells ys none) : Tells (xs ++ ys) k where
  counted := List.forall_mem_append.mpr ⟨hxs.counted, hys.counted⟩
  tooDeep := fun method line => by
    rw [exists_append, hxs.tooDeep method line]
    exact (or_iff_left (hys.none_tooDeep method line)).symm

end Tells

/-! ### The two machines -/

/-- Moments that a run adds to its record. -/
def Meter.record (m : Meter) (new : List Moment) : Meter := { m with moments := m.moments ++ new }

theorem Meter.record_nil (m : Meter) : m.record [] = m := by
  unfold Meter.record
  rw [List.append_nil]

theorem Meter.record_record (m : Meter) (xs ys : List Moment) :
    (m.record xs).record ys = m.record (xs ++ ys) := by
  unfold Meter.record
  rw [List.append_assoc]

section

variable {σ α β : Type}

/-- Why a computation has no value. -/
def halt? : EStateM.Result Halt σ α → Option Halt
  | .ok _ _ => none
  | .error k _ => some k

/-- From a meter at some depth on, a computation of the counting machine does what one of the machine
does; it leaves the counter as it is, and adds moments to the record that tell how it ends. -/
def Meets (depth : Nat) (x : EStateM Halt (σ × Meter) α) (y : EStateM Halt σ α) : Prop :=
  ∀ s m, m.depth = depth →
    ∃ new, x (s, m) = beside (m.record new) (y s) ∧ Tells new (halt? (y s))

/-- A computation that is not refused for the depth of the calls. -/
def Shallow (y : EStateM Halt σ α) : Prop :=
  ∀ s t method line, y s ≠ .error (deepHalt method line) t

variable {depth : Nat} {x : EStateM Halt (σ × Meter) α} {y : EStateM Halt σ α}

theorem Shallow.meets (h : Shallow y) : Meets depth (lift y) y := by
  intro s m _
  refine ⟨[], ?_, .nil fun method line hk => ?_⟩
  · rw [Meter.record_nil]
    rfl
  · cases hy : y s with
    | ok a t =>
      rw [hy] at hk
      cases hk
    | error k t =>
      rw [hy] at hk
      cases hk
      exact h s t method line hy

theorem Shallow.pure (a : α) : Shallow (Pure.pure a : EStateM Halt σ α) := fun _ _ _ _ h => nomatch h

theorem Meets.value (a : α) : Meets depth (Pure.pure a) (Pure.pure a : EStateM Halt σ α) :=
  (Shallow.pure a).meets

theorem Meets.bind {g : α → EStateM Halt (σ × Meter) β} {h : α → EStateM Halt σ β}
    (hx : Meets depth x y) (hg : ∀ a, Meets depth (g a) (h a)) :
    Meets depth (x >>= g) (y >>= h) := by
  intro s m hm
  obtain ⟨new, hrun, htells⟩ := hx s m hm
  show ∃ new, EStateM.bind x g (s, m) = beside (m.record new) (EStateM.bind y h s) ∧
    Tells new (halt? (EStateM.bind y h s))
  unfold EStateM.bind
  rw [hrun]
  cases hy : y s with
  | error k t =>
    rw [hy] at htells
    exact ⟨new, rfl, htells⟩
  | ok a t =>
    rw [hy] at htells
    obtain ⟨later, hlater, htells'⟩ := hg a t (m.record new) hm
    exact ⟨new ++ later, by rw [← Meter.record_record]; exact hlater, htells.append htells'⟩

end

/-! ### Operations that make no calls -/

section

variable {α β : Type}

theorem Shallow.bind {y : Machine.Exec α} {g : α → Machine.Exec β} (hy : Shallow y)
    (hg : ∀ a, Shallow (g a)) : Shallow (y >>= g) := by
  intro s t method line h
  rcases Machine.bind_error h with hfirst | ⟨a, u, -, hlater⟩
  · exact hy s t method line hfirst
  · exact hg a u t method line hlater

variable (f : Frame) (call? : Option Machine.Call) (line : Nat)

theorem shallow_fail (cause : Cause) (hcause : cause ≠ .tooDeep) :
    Shallow (Machine.fail (f.bare call?) line cause : Machine.Exec α) := by
  intro s t method line' h
  cases h
  exact hcause rfl

theorem shallow_attempt {cause : Refusal → Cause} (hcause : ∀ why, cause why ≠ .tooDeep)
    (r : Except Refusal α) : Shallow (Machine.attempt (f.bare call?) line cause r) := by
  cases r with
  | ok a => exact nofun
  | error why => exact shallow_fail f call? line (cause why) (hcause why)

theorem shallow_refused (r : Except Refusal α) :
    Shallow (Machine.attempt (f.bare call?) line .refused r) :=
  shallow_attempt f call? line (fun why => (nofun : Cause.refused why ≠ .tooDeep)) r

theorem shallow_refusedBy (name : String) (r : Except Refusal α) :
    Shallow (Machine.attempt (f.bare call?) line (.refusedBy name) r) :=
  shallow_attempt f call? line (fun why => (nofun : Cause.refusedBy name why ≠ .tooDeep)) r

theorem shallow_truth (v : Value) : Shallow (Machine.truth (f.bare call?) line v) := by
  unfold Machine.truth
  split
  · exact nofun
  · exact shallow_fail f call? line (.notACondition _) nofun

theorem shallow_bound (v : Value) : Shallow (Machine.bound (f.bare call?) line v) := by
  unfold Machine.bound
  split
  · exact nofun
  · exact shallow_fail f call? line (.refused _) nofun

theorem shallow_load (slot : Slot) : Shallow (Machine.load slot) :=
  fun _ _ _ _ h => nomatch Machine.load_error h

theorem shallow_store (slot : Slot) (v : Value) : Shallow (Machine.store slot v) :=
  fun _ _ _ _ h => nomatch Machine.store_error h

theorem shallow_callLog (name : String) (args : List Value) :
    Shallow (Machine.callLog (f.bare call?) line name args) := by
  unfold Machine.callLog
  split
  · exact nofun
  · exact shallow_fail f call? line (.notLogged _ _) nofun

theorem shallow_callDocument (name : String) (m : DocumentMethod) (args : List Value) :
    Shallow (Machine.callDocument (f.bare call?) line name m args) :=
  (shallow_refusedBy f call? line name _).bind fun _ => fun _ _ _ _ h => nomatch h

theorem shallow_callDynamic (name : String) (v : Value) (args : List Value)
    (document : Option DocumentMethod) (function : Option Function) :
    Shallow (Machine.callDynamic (f.bare call?) line name v args document function) := by
  unfold Machine.callDynamic
  split
  · exact shallow_callDocument f call? line name _ args
  · split
    · exact shallow_refusedBy f call? line name _
    · exact shallow_fail f call? line (.noMethod _ _) nofun

end

/-! ### Expressions and statements -/

/-- The calls that may be made in a frame, by its depth. -/
inductive Frame.Within (f : Frame) : Option Machine.Call → Prop
  | deepest (full : f.active.length = maxCallDepth) : Within f none
  | inner {c : Machine.Call} (room : f.active.length < maxCallDepth)
      (meets : ∀ id args, Meets f.active.length (f.call id args) (c id args)) : Within f (some c)

section

variable {f : Frame} {call? : Option Machine.Call}

theorem Frame.Within.le (h : f.Within call?) : f.active.length ≤ maxCallDepth := by
  cases h with
  | deepest full => omega
  | inner room meets => omega

/-- A moment of a frame with the counter at its depth. -/
theorem Frame.Within.counted (h : f.Within call?) {event : Event}
    (hevent : ∀ found, event ≠ .leaves found) : Moment.Counted ⟨f.active, f.active.length, event⟩ where
  depth := rfl
  bounded := h.le
  restored := fun found hleaves => absurd hleaves (hevent found)

/-- To work on something is to do what it takes. -/
theorem Meets.works {α : Type} {x : Exec α} {y : Machine.Exec α} (h : f.Within call?)
    (hx : Meets f.active.length x y) (line : Nat) :
    Meets f.active.length (note f (.works line) >>= fun _ => x) y := by
  intro s m hm
  have hnote : Tells [⟨f.active, f.active.length, .works line⟩] none :=
    .single (h.counted nofun) fun _ _ hdeep => nomatch hdeep.calls
  obtain ⟨new, hrun, htells⟩ := hx s (m.record [⟨f.active, f.active.length, .works line⟩]) hm
  refine ⟨_, ?_, hnote.append htells⟩
  rw [← Meter.record_record, ← hrun, ← hm]
  rfl

theorem Meets.inWorld {α : Type} {depth : Nat} {x : EStateM Halt (World × Meter) α}
    {y : EStateM Halt World α} (h : Meets depth x y) :
    Meets depth (inWorld x) (Machine.inWorld y) := by
  intro s m hm
  obtain ⟨new, hrun, htells⟩ := h s.world m hm
  refine ⟨new, ?_, ?_⟩
  · unfold Counting.inWorld Machine.inWorld
    simp only [hrun]
    cases y s.world <;> rfl
  · unfold Machine.inWorld
    cases hy : y s.world with
    | ok a w => rwa [hy] at htells
    | error k w => rwa [hy] at htells

/-- What a call looks at. -/
theorem callMethod_eq (f : Frame) (line : Nat) (id : MethodId) (args : List Value)
    (s : Machine.State) (m : Meter) :
    callMethod f line id args (s, m) =
      (if maxCallDepth ≤ m.depth then lift (Machine.fail (f.bare none) line .tooDeep)
        else inWorld (f.call id args))
        (s, m.record [⟨f.active, m.depth, .calls line id args⟩]) := rfl

/-- A call is refused in the deepest frame, and only there. -/
theorem meets_callMethod (h : f.Within call?) (line : Nat) (id : MethodId) (args : List Value) :
    Meets f.active.length (callMethod f line id args)
      (match (f.bare call?).call? with
      | some c => Machine.inWorld (c id args)
      | none => Machine.fail (f.bare call?) line .tooDeep) := by
  intro s m hm
  have hcounted : Moment.Counted ⟨f.active, f.active.length, .calls line id args⟩ := h.counted nofun
  rw [callMethod_eq, hm]
  cases h with
  | deepest full =>
    rw [if_pos (Nat.le_of_eq full.symm)]
    refine ⟨[⟨f.active, f.active.length, .calls line id args⟩], rfl, ?_, fun method line' => ?_⟩
    · intro x hx
      rwa [List.mem_singleton.mp hx]
    · constructor
      · intro hhalt
        cases hhalt
        exact ⟨_, List.mem_singleton_self _, full, rfl, id, args, rfl⟩
      · rintro ⟨x, hx, hdeep⟩
        obtain rfl := List.mem_singleton.mp hx
        obtain ⟨_, _, hcalls⟩ := hdeep.calls
        cases hcalls
        cases hdeep.method
        rfl
  | inner room meets =>
    have hshallow : ∀ method line', ¬ Moment.TooDeep
        ⟨f.active, f.active.length, .calls line id args⟩ method line' :=
      fun _ _ hdeep => absurd hdeep.deepest (Nat.ne_of_lt room)
    rw [if_neg (by omega)]
    obtain ⟨new, hrun, htells⟩ := (meets id args).inWorld s
      (m.record [⟨f.active, f.active.length, .calls line id args⟩]) hm
    rw [Meter.record_record] at hrun
    exact ⟨_, hrun, (Tells.single hcounted hshallow).append htells⟩

mutual

theorem meets_eval (h : f.Within call?) : ∀ e : Expr,
    Meets f.active.length (eval f e) (Machine.eval (f.bare call?) e)
  | .const line v => (Meets.value v).works h line
  | .slot line slot => (shallow_load slot).meets.works h line
  | .list line items => ((meets_evalAll h items).bind fun vs => .value (Value.list vs)).works h line
  | .unary line _ operand =>
    ((meets_eval h operand).bind fun _ => (shallow_refused f call? line _).meets).works h line
  | .binary line op left right => by
    have hleft := meets_eval h left
    have hright := meets_eval h right
    -- A logical operator looks at its operands as conditions, any other one at their values.
    have hfirst : ∀ {g : Bool → Exec Value} {g' : Bool → Machine.Exec Value},
        (∀ b, Meets f.active.length (g b) (g' b)) → Meets f.active.length
          (eval f left >>= fun v => lift (Machine.truth (f.bare none) left.line v) >>= g)
          (Machine.eval (f.bare call?) left >>= fun v =>
            Machine.truth (f.bare call?) left.line v >>= g') := fun hg =>
      hleft.bind fun v => (shallow_truth f call? left.line v).meets.bind hg
    have hlast : Meets f.active.length
        (eval f right >>= fun v => lift (Machine.truth (f.bare none) right.line v) >>= fun b =>
          pure (Value.bool b))
        (Machine.eval (f.bare call?) right >>= fun v =>
          Machine.truth (f.bare call?) right.line v >>= fun b => pure (Value.bool b)) :=
      hright.bind fun v => (shallow_truth f call? right.line v).meets.bind fun b => .value (Value.bool b)
    have hother : ∀ op, Meets f.active.length
        (eval f left >>= fun a => eval f right >>= fun b =>
          lift (Machine.attempt (f.bare none) line .refused (Value.binary op a b)))
        (Machine.eval (f.bare call?) left >>= fun a => Machine.eval (f.bare call?) right >>= fun b =>
          Machine.attempt (f.bare call?) line .refused (Value.binary op a b)) := fun op =>
      hleft.bind fun a => hright.bind fun b => (shallow_refused f call? line (Value.binary op a b)).meets
    cases op
    case and =>
      refine (hfirst fun b => ?_).works h line
      cases b with
      | true => exact hlast
      | false => exact .value _
    case or =>
      refine (hfirst fun b => ?_).works h line
      cases b with
      | true => exact .value _
      | false => exact hlast
    all_goals exact (hother _).works h line
  | .index line target place =>
    ((meets_eval h target).bind fun _ => (meets_eval h place).bind fun _ =>
      (shallow_refused f call? line _).meets).works h line
  | .callMethod line id args =>
    ((meets_evalAll h args).bind fun vs => meets_callMethod h line id vs).works h line
  | .callFunction line fn args =>
    ((meets_evalAll h args).bind fun _ => (shallow_refusedBy f call? line fn.name _).meets).works h line
  | .callSlot line slot name args => by
    refine ((meets_evalAll h args).bind fun vs => (shallow_load slot).meets.bind fun v => ?_).works h line
    cases v
    case log => exact (shallow_callLog f call? line name vs).meets
    all_goals exact (shallow_fail f call? line (.notCallable _ _) nofun).meets
  | .callDocument line m receiver args => by
    refine ((meets_eval h receiver).bind fun v => (meets_evalAll h args).bind fun vs => ?_).works h line
    split
    · exact (shallow_callDocument f call? line m.name m vs).meets
    · exact (shallow_fail f call? line (.refused _) nofun).meets
  | .callDynamic line name receiver args document function =>
    ((meets_eval h receiver).bind fun v => (meets_evalAll h args).bind fun vs =>
      (shallow_callDynamic f call? line name v vs document function).meets).works h line

theorem meets_evalAll (h : f.Within call?) : ∀ es : List Expr,
    Meets f.active.length (evalAll f es) (Machine.evalAll (f.bare call?) es)
  | [] => .value []
  | e :: es => (meets_eval h e).bind fun v => (meets_evalAll h es).bind fun vs => .value (v :: vs)

end

theorem meets_condition (h : f.Within call?) (e : Expr) :
    Meets f.active.length (condition f e) (Machine.condition (f.bare call?) e) :=
  (meets_eval h e).bind fun v => (shallow_truth f call? e.line v).meets

/-! ### Loops -/

section

variable {depth : Nat} {body : Exec Flow} {body' : Machine.Exec Flow} (hbody : Meets depth body body')

include hbody

/-- A round of a loop, and the rounds behind it unless it returns a value. -/
theorem Meets.round {rest : Exec Flow} {rest' : Machine.Exec Flow} (hrest : Meets depth rest rest') :
    Meets depth
      (body >>= fun
        | .next => rest
        | .returned v => pure (.returned v))
      (body' >>= fun
        | .next => rest'
        | .returned v => pure (.returned v)) := by
  refine hbody.bind fun flow => ?_
  cases flow with
  | next => exact hrest
  | returned v => exact .value (Flow.returned v)

theorem meets_loopWhile {cond : Exec Bool} {cond' : Machine.Exec Bool}
    (hcond : Meets depth cond cond') (n : Nat) :
    Meets depth (loopWhile cond body n) (Machine.loopWhile cond' body' n) := by
  induction n with
  | zero =>
    have hsteps : Shallow (throw .outOfSteps : Machine.Exec Flow) := fun _ _ _ _ h => nomatch h
    exact hsteps.meets
  | succ n ih =>
    refine hcond.bind fun b => ?_
    cases b with
    | false => exact .value Flow.next
    | true => exact hbody.round ih

theorem meets_loopOver (slot : Slot) (vs : List Value) :
    Meets depth (loopOver slot body vs) (Machine.loopOver slot body' vs) := by
  induction vs with
  | nil => exact .value Flow.next
  | cons v vs ih => exact (shallow_store slot v).meets.bind fun _ => hbody.round ih

theorem meets_loopCount (slot : Slot) (i : Int) (n : Nat) :
    Meets depth (loopCount slot body i n) (Machine.loopCount slot body' i n) := by
  induction n generalizing i with
  | zero => exact .value Flow.next
  | succ n ih => exact (shallow_store slot _).meets.bind fun _ => hbody.round (ih (i + 1))

end

mutual

theorem meets_exec (h : f.Within call?) : ∀ x : Stmt,
    Meets f.active.length (exec f x) (Machine.exec (f.bare call?) x)
  | .store line slot value =>
    ((meets_eval h value).bind fun v => (shallow_store slot v).meets.bind fun _ =>
      .value Flow.next).works h line
  | .expr line value => ((meets_eval h value).bind fun _ => .value Flow.next).works h line
  | .branch line branches otherwise =>
    (meets_execArms h branches (meets_execOtherwise h otherwise)).works h line
  | .loop line cond body =>
    (meets_loopWhile (meets_execAll h body) (meets_condition h cond) f.steps).works h line
  | .forEach line slot items body =>
    ((meets_eval h items).bind fun v => (shallow_refused f call? line v.items).meets.bind fun vs =>
      meets_loopOver (meets_execAll h body) slot vs).works h line
  | .forRange line slot start stop body =>
    ((meets_eval h start).bind fun v => (shallow_bound f call? start.line v).meets.bind fun a =>
      (meets_eval h stop).bind fun w => (shallow_bound f call? stop.line w).meets.bind fun b =>
        meets_loopCount (meets_execAll h body) slot a.toInt (b.toInt - a.toInt).toNat).works h line
  | .result line none => (Meets.value (Flow.returned .null)).works h line
  | .result line (some value) =>
    ((meets_eval h value).bind fun v => .value (Flow.returned v)).works h line

theorem meets_execAll (h : f.Within call?) : ∀ xs : List Stmt,
    Meets f.active.length (execAll f xs) (Machine.execAll (f.bare call?) xs)
  | [] => .value Flow.next
  | x :: xs => (meets_exec h x).round (meets_execAll h xs)

theorem meets_execArms (h : f.Within call?) : ∀ (arms : List (Expr × List Stmt)) {x : Exec Flow}
    {y : Machine.Exec Flow}, Meets f.active.length x y →
      Meets f.active.length (execArms f arms x) (Machine.execArms (f.bare call?) arms y)
  | [], _, _, hxy => hxy
  | (cond, body) :: arms, _, _, hxy => by
    refine (meets_condition h cond).bind fun b => ?_
    cases b with
    | true => exact meets_execAll h body
    | false => exact meets_execArms h arms hxy

theorem meets_execOtherwise (h : f.Within call?) : ∀ body : Option (List Stmt),
    Meets f.active.length (execOtherwise f body) (Machine.execOtherwise (f.bare call?) body)
  | none => .value Flow.next
  | some body => meets_execAll h body

end

end

/-! ### Calls -/

section

variable (active callers : List String) (found : Meter) (new : List Moment)

/-- What a call adds to the record around what its body adds. -/
def bracket : List Moment :=
  ⟨active, found.depth + 1, .enters⟩ :: (new ++ [⟨callers, found.depth, .leaves found.depth⟩])

theorem Meter.leave_record :
    ((found.enter active).record new).leave callers found =
      found.record (bracket active callers found new) := by
  unfold leave enter note record bracket
  simp only [List.append_assoc, List.cons_append, List.nil_append, Nat.add_sub_cancel]

end

section

variable {p : Program} {steps : Nat} {callers : List String}

/-- The moments around a body that the depth of the calls allows. -/
theorem Tells.bracket {f : Frame} {call? : Option Machine.Call} (h : f.Within call?) {found : Meter}
    (hfound : found.depth = f.callers.length) {new : List Moment} {k : Option Halt}
    (hnew : Tells new k) : Tells (bracket f.active f.callers found new) k := by
  have hactive : f.active.length = f.callers.length + 1 := List.length_cons
  have hle := h.le
  have henters : Tells [⟨f.active, found.depth + 1, .enters⟩] none := by
    refine .single ?_ fun _ _ hdeep => nomatch hdeep.calls
    rw [hfound, ← hactive]
    exact h.counted nofun
  have hleaves : Tells [⟨f.callers, found.depth, .leaves found.depth⟩] none :=
    .single ⟨hfound, by show found.depth ≤ maxCallDepth; omega, fun _ hdepth => by cases hdepth; rfl⟩
      fun _ _ hdeep => nomatch hdeep.calls
  exact henters.append (hnew.concat hleaves)

/-- A call of a method goes one frame deeper, and leaves the counter as it found it however the body
ends. -/
theorem meets_run {inner : List String → Call} {call? : Option Machine.Call}
    (hbody : ∀ name, Frame.Within ⟨name, steps, callers, inner (name :: callers)⟩ call?)
    (id : MethodId) (args : List Value) :
    Meets callers.length (run p steps inner callers id args) (Machine.run p steps call? id args) := by
  intro world found hfound
  unfold run Machine.run
  cases hm : p.methods[id]? with
  | none => exact ⟨[], by rw [Meter.record_nil]; rfl, .nil nofun⟩
  | some m =>
    have hdepth : (found.enter (p.qualifiedName m :: callers)).depth =
        (p.qualifiedName m :: callers).length := congrArg (· + 1) hfound
    obtain ⟨new, hrun, htells⟩ := meets_execAll (hbody (p.qualifiedName m)) m.body
      ⟨Machine.frameOf m.frameSize args, world⟩ _ hdepth
    have hcall := htells.bracket (hbody (p.qualifiedName m)) hfound
    refine ⟨bracket (p.qualifiedName m :: callers) callers found new, ?_⟩
    simp only [hrun, Frame.bare] at hcall ⊢
    generalize Machine.execAll _ m.body _ = r at hcall ⊢
    rw [← Meter.leave_record]
    cases r with
    | ok flow s => exact ⟨rfl, hcall⟩
    | error k s => exact ⟨rfl, hcall⟩

/-- By induction on the depth to which calls may still be nested: the frame of the last one is the deepest,
where no call is made and so no level is needed. -/
theorem meets_invoke (spare : Nat) {depth : Nat} (hroom : callers.length + depth + 1 = maxCallDepth)
    (id : MethodId) (args : List Value) :
    Meets callers.length (invoke p steps (depth + 1 + spare) callers id args)
      (Machine.invoke p steps depth id args) := by
  induction depth generalizing callers id args with
  | zero =>
    rw [Nat.zero_add, Nat.add_comm]
    exact meets_run (fun name => .deepest hroom) id args
  | succ depth ih =>
    have hlevel : depth + 1 + 1 + spare = (depth + 1 + spare) + 1 := by omega
    rw [hlevel]
    have hroom' : ∀ name : String, (name :: callers).length + depth + 1 = maxCallDepth := by
      intro name
      rw [List.length_cons]
      omega
    refine meets_run (fun name => .inner ?_ fun id args => ih (hroom' name) id args) id args
    show callers.length + 1 < maxCallDepth
    omega

end

/-- A method that calls another one twice, for an argument and on it. -/
def twice : Program where
  types := []
  methods := [
    ⟨⟨"outer", true, [], .any⟩, 0, 0,
      [.result 1 (some (.callMethod 1 1 [.callMethod 1 1 [.const 1 .null]]))]⟩,
    ⟨⟨"inner", true, [("x", .any)], .any⟩, 0, 1, []⟩]

example : (match invoke twice 0 maxCallDepth [] 0 [] ({}, {}) with
    | .ok _ (_, m) => m.moments.map Moment.depth
    | .error _ _ => []) = [1, 1, 1, 1, 1, 1, 2, 1, 1, 2, 1, 0] := rfl

/-- A method that calls itself without end. -/
def forever : Program where
  types := []
  methods := [⟨⟨"forever", true, [("n", .any)], .any⟩, 0, 1,
    [.result 1 (some (.callMethod 1 0 [.slot 1 0]))]⟩]

example (v : Value) (w : World) :
    Machine.invoke forever 0 10 0 [v] w = .error (deepHalt ".forever" 1) w := rfl

end ReportTemplate.Counting

namespace ReportTemplate

open Counting (Moment beside halt? deepHalt)

/-- A run of an entry point as the counting machine tells it, at any level that is no less than the depth
to which calls may be nested.  It ends as the machine does, with the counter at zero; the counter shows
the number of active frames throughout; and the run fails for the depth of its calls just if it comes to
a call in the deepest frame. -/
theorem EntryPoint.depth_counted (e : EntryPoint) (steps spare : Nat) (directory : String)
    (world : Machine.World) :
    ∃ moments : List Moment,
      e.count steps (Machine.maxCallDepth + spare) directory world =
          beside ⟨0, moments⟩ (e.invoke steps directory world) ∧
        (∀ x ∈ moments, x.Counted) ∧
        ∀ method line, halt? (e.invoke steps directory world) = some (deepHalt method line) ↔
          ∃ x ∈ moments, x.TooDeep method line := by
  have hmeets : Counting.Meets ([] : List String).length
      (Counting.invoke e.program steps (Machine.maxCallDepth + spare) [] e.id (e.args directory))
      (Machine.invoke e.program steps (Machine.maxCallDepth - 1) e.id (e.args directory)) :=
    Counting.meets_invoke spare rfl e.id (e.args directory)
  obtain ⟨moments, hrun, htells⟩ := hmeets world {} rfl
  exact ⟨moments, hrun, htells.counted, htells.tooDeep⟩

end ReportTemplate
