import ReportTemplate.Proofs.Machine.Halts

/-!
# ReportTemplate.Proofs.Machine.Raised — every halt is raised by one node of the innermost call

Unless a program is broken, a run that gives no value halts at a node of the body of a method: the way
to it goes through the calls that are active.  A failure names the method of the innermost call and the
line of the node.
-/

namespace ReportTemplate.Machine

open Program (Expr Stmt MethodId Method)

section

variable {f : Frame} {k : Halt}

/-! ### Expressions -/

mutual

theorem halted_eval (hk : k ≠ .broken) : ∀ (e : Expr) {s t : State},
    eval f e s = .error k t → Halted f (.value e) s k t
  | .const _ _, _, _, h => nomatch h
  | .slot _ _, _, _, h => absurd (load_error h) hk
  | .list _ items, _, _, h => by
    rcases bind_error h with hitems | ⟨vs, u, -, hlater⟩
    · obtain ⟨e, u, hcomes, hhalted⟩ := halted_evalAll hk items hitems
      exact (Part.item hcomes).halted hhalted
    · cases hlater
  | .unary _ _ e, _, _, h => by
    rcases bind_error h with hpart | ⟨v, u, hv, hlater⟩
    · exact Part.operand.halted (halted_eval hk e hpart)
    · obtain ⟨why, hrefused, rfl, rfl⟩ := attempt_error hlater
      exact (Stops.unary hv hrefused).halted
  | .binary line op l r, s, t, h => by
    have hleft : ∀ {u}, eval f l s = .error k u → Halted f (.value l) s k u := halted_eval hk l
    have hright : ∀ {u w}, eval f r u = .error k w → Halted f (.value r) u k w := halted_eval hk r
    -- A logical operator looks at its operands as conditions, any other one at their values.
    have hother : op ≠ .and → op ≠ .or →
        (eval f l >>= fun a => eval f r >>= fun b => attempt f line .refused (Value.binary op a b)) s =
          .error k t → Halted f (.value (.binary line op l r)) s k t := by
      intro hand hor h
      rcases bind_error h with hpart | ⟨a, u, ha, h⟩
      · exact (Part.left hand hor).halted (hleft hpart)
      rcases bind_error h with hpart | ⟨b, w, hb, h⟩
      · exact (Part.right hand hor ⟨a, ha⟩).halted (hright hpart)
      · obtain ⟨why, hrefused, rfl, rfl⟩ := attempt_error h
        exact (Stops.binary hand hor ha hb hrefused).halted
    have hlast : ∀ {u}, (condition f r >>= fun b => pure (Value.bool b)) u = .error k t →
        Halted f (.condition r) u k t := by
      intro u h
      rcases bind_error h with hpart | ⟨b, w, -, h⟩
      · exact halted_condition hright hpart
      · cases h
    cases op
    case and =>
      rw [eval_and] at h
      rcases bind_error h with hpart | ⟨b, u, hb, h⟩
      · exact Part.andLeft.halted (halted_condition hleft hpart)
      cases b with
      | false => cases h
      | true => exact (Part.andRight hb).halted (hlast h)
    case or =>
      rw [eval_or] at h
      rcases bind_error h with hpart | ⟨b, u, hb, h⟩
      · exact Part.orLeft.halted (halted_condition hleft hpart)
      cases b with
      | true => cases h
      | false => exact (Part.orRight hb).halted (hlast h)
    all_goals exact hother nofun nofun h
  | .index _ e place, _, _, h => by
    rcases bind_error h with hpart | ⟨a, u, ha, h⟩
    · exact Part.target.halted (halted_eval hk e hpart)
    rcases bind_error h with hpart | ⟨b, w, hb, h⟩
    · exact (Part.place ⟨a, ha⟩).halted (halted_eval hk place hpart)
    · obtain ⟨why, hrefused, rfl, rfl⟩ := attempt_error h
      exact (Stops.index ha hb hrefused).halted
  | .callMethod line id args, s, t, h => by
    rcases bind_error h with hargs | ⟨vs, u, hvs, h⟩
    · obtain ⟨e, u, hcomes, hhalted⟩ := halted_evalAll hk args hargs
      exact (Part.methodArg hcomes).halted hhalted
    cases hc : f.call? with
    | some c =>
      rw [hc] at h
      obtain ⟨w, hcall, rfl⟩ := inWorld_error h
      exact ⟨_, s, .refl, .callee (.callMethod hvs) hc hcall⟩
    | none =>
      rw [hc] at h
      obtain ⟨rfl, rfl⟩ := fail_error h
      exact (Stops.tooDeep hvs hc).halted
  | .callFunction _ g args, _, _, h => by
    rcases bind_error h with hargs | ⟨vs, u, hvs, h⟩
    · obtain ⟨e, u, hcomes, hhalted⟩ := halted_evalAll hk args hargs
      exact (Part.functionArg hcomes).halted hhalted
    · obtain ⟨why, hrefused, rfl, rfl⟩ := attempt_error h
      exact (Stops.function hvs hrefused).halted
  | .callSlot _ slot _ args, _, _, h => by
    rcases bind_error h with hargs | ⟨vs, u, hvs, h⟩
    · obtain ⟨e, u, hcomes, hhalted⟩ := halted_evalAll hk args hargs
      exact (Part.slotArg hcomes).halted hhalted
    rcases bind_error h with hload | ⟨v, w, hv, h⟩
    · exact absurd (load_error hload) hk
    obtain ⟨hslot, rfl⟩ := load_ok hv
    cases v
    case log =>
      obtain ⟨hother, rfl, rfl⟩ := callLog_error h
      exact (Stops.notLogged hvs hslot hother).halted
    all_goals
      obtain ⟨rfl, rfl⟩ := fail_error h
      exact (Stops.notCallable hvs hslot nofun).halted
  | .callDocument _ m r args, _, _, h => by
    rcases bind_error h with hpart | ⟨v, u, hv, h⟩
    · exact Part.documentReceiver.halted (halted_eval hk r hpart)
    rcases bind_error h with hargs | ⟨vs, w, hvs, h⟩
    · obtain ⟨e, z, hcomes, hhalted⟩ := halted_evalAll hk args hargs
      exact (Part.documentArg ⟨v, hv⟩ hcomes).halted hhalted
    cases hdocument : v.isDocument with
    | true =>
      rw [if_pos hdocument] at h
      obtain ⟨why, hrefused, rfl, rfl⟩ := callDocument_error h
      exact (Stops.document hv hvs hdocument hrefused).halted
    | false =>
      rw [if_neg (Bool.eq_false_iff.mp hdocument)] at h
      obtain ⟨rfl, rfl⟩ := fail_error h
      exact (Stops.notDocument hv hvs hdocument).halted
  | .callDynamic line name r args document function, _, _, h => by
    rcases bind_error h with hpart | ⟨v, u, hv, h⟩
    · exact Part.dynamicReceiver.halted (halted_eval hk r hpart)
    rcases bind_error h with hargs | ⟨vs, w, hvs, h⟩
    · obtain ⟨e, z, hcomes, hhalted⟩ := halted_evalAll hk args hargs
      exact (Part.dynamicArg ⟨v, hv⟩ hcomes).halted hhalted
    rcases callDynamic_error h with ⟨m, why, rfl, hdocument, hrefused, rfl, rfl⟩ |
      ⟨hother, ⟨g, why, rfl, hrefused, rfl, rfl⟩ | ⟨rfl, rfl, rfl⟩⟩
    · exact (Stops.dynamicDocument hv hvs hdocument hrefused).halted
    · exact (Stops.dynamicFunction hv hvs hother hrefused).halted
    · exact (Stops.noMethod hv hvs hother).halted

theorem halted_evalAll (hk : k ≠ .broken) : ∀ (es : List Expr) {s t : State}, evalAll f es s = .error k t →
    HaltedAmong f es s k t
  | [], _, _, h => nomatch h
  | e :: es, s, t, h => by
    rcases bind_error h with hfirst | ⟨v, u, hv, h⟩
    · exact ⟨e, s, .head, halted_eval hk e hfirst⟩
    rcases bind_error h with hrest | ⟨vs, w, -, h⟩
    · obtain ⟨e', w, hcomes, hhalted⟩ := halted_evalAll hk es hrest
      exact ⟨e', w, hcomes.tail ⟨v, hv⟩, hhalted⟩
    · cases h

end

/-! ### Loops -/

/-- A loop on a condition halts in a round, or has used up its steps. -/
theorem halted_loopWhile (hk : k ≠ .broken) {cond : Expr} {body : List Stmt}
    (hbody : ∀ {s t}, execAll f body s = .error k t → HaltedIn f body s k t) (line : Nat) :
    ∀ (n m : Nat) {s₀ s t : State}, m + n = f.steps →
      Through (Turns f cond body) (List.replicate m ()) s₀ s →
      loopWhile (condition f cond) (execAll f body) n s = .error k t →
      Halted f (.stmt (.loop line cond body)) s₀ k t
  | 0, m, s₀, s, t, hsteps, hrounds, h => by
    cases h
    have hm : m = f.steps := hsteps
    rw [hm] at hrounds
    exact (Stops.outOfSteps hrounds).halted
  | n + 1, m, s₀, s, t, hsteps, hrounds, h => by
    rcases bind_error h with htest | ⟨b, u, hb, h⟩
    · exact (Part.loopTest hrounds).halted (halted_condition (halted_eval hk cond) htest)
    cases b with
    | false => cases h
    | true =>
      rcases bind_error h with hround | ⟨flow, w, hflow, h⟩
      · obtain ⟨x, z, hcomes, hhalted⟩ := hbody hround
        exact (Part.loopBody hrounds hb hcomes).halted hhalted
      cases flow with
      | returned v => cases h
      | next =>
        have hmore : Through (Turns f cond body) (List.replicate (m + 1) ()) s₀ w := by
          rw [List.replicate_succ']
          exact hrounds.append (.cons ⟨u, hb, hflow⟩ .nil)
        exact halted_loopWhile hk hbody line n (m + 1) (by omega) hmore h

/-- A loop over values halts in the round of one of them. -/
theorem halted_loopOver (hk : k ≠ .broken) {slot : Program.Slot} {body : List Stmt}
    (hbody : ∀ {s t}, execAll f body s = .error k t → HaltedIn f body s k t) :
    ∀ {vs : List Value} {s t : State}, loopOver slot (execAll f body) vs s = .error k t →
      ∃ w u u' x z, ComesTo (Visits f slot body) vs s w u ∧ store slot w u = .ok () u' ∧
        ComesTo (Executes f) body u' x z ∧ Halted f (.stmt x) z k t
  | [], _, _, h => nomatch h
  | v :: vs, s, t, h => by
    rcases bind_error h with hstore | ⟨_, u, hu, h⟩
    · exact absurd (store_error hstore) hk
    rcases bind_error h with hround | ⟨flow, w, hflow, h⟩
    · obtain ⟨x, z, hcomes, hhalted⟩ := hbody hround
      exact ⟨v, s, u, x, z, .head, hu, hcomes, hhalted⟩
    cases flow with
    | returned v => cases h
    | next =>
      obtain ⟨v', u₁, u₂, x, z, hvisits, hstored, hcomes, hhalted⟩ := halted_loopOver hk hbody h
      exact ⟨v', u₁, u₂, x, z, hvisits.tail ⟨u, hu, hflow⟩, hstored, hcomes, hhalted⟩

/-! ### Statements -/

mutual

theorem halted_exec (hk : k ≠ .broken) : ∀ (x : Stmt) {s t : State},
    exec f x s = .error k t → Halted f (.stmt x) s k t
  | .store _ slot e, _, _, h => by
    rcases bind_error h with hpart | ⟨v, u, -, h⟩
    · exact Part.stored.halted (halted_eval hk e hpart)
    rcases bind_error h with hstore | ⟨_, w, -, h⟩
    · exact absurd (store_error hstore) hk
    · cases h
  | .expr _ e, _, _, h => by
    rcases bind_error h with hpart | ⟨v, u, -, h⟩
    · exact Part.evaluated.halted (halted_eval hk e hpart)
    · cases h
  | .branch line branches otherwise, s, t, h => by
    rcases halted_execArms hk branches h with ⟨arm, u, hcomes, hhalted⟩ |
      ⟨arm, u, w, x, z, hcomes, hholds, hinner, hhalted⟩ | ⟨u, hskipped, hlast⟩
    · exact (Part.test hcomes).halted hhalted
    · exact (Part.taken hcomes hholds hinner).halted hhalted
    · cases otherwise with
      | none => cases hlast
      | some body =>
        obtain ⟨x, z, hinner, hhalted⟩ := halted_execAll hk body hlast
        exact (Part.otherwise hskipped hinner).halted hhalted
  | .loop line cond body, _, _, h =>
    halted_loopWhile hk (halted_execAll hk body) line f.steps 0 (Nat.zero_add _) .nil h
  | .forEach line slot items body, _, _, h => by
    rcases bind_error h with hpart | ⟨v, u, hv, h⟩
    · exact Part.items.halted (halted_eval hk items hpart)
    rcases bind_error h with hitems | ⟨vs, w, hvs, hrounds⟩
    · obtain ⟨why, hrefused, rfl, rfl⟩ := attempt_error hitems
      exact (Stops.items hv hrefused).halted
    · obtain ⟨hvalues, rfl⟩ := attempt_ok hvs
      obtain ⟨v', u₁, u₂, x, z, hvisits, hstored, hcomes, hhalted⟩ :=
        halted_loopOver hk (halted_execAll hk body) hrounds
      exact (Part.eachBody hv hvalues hvisits hstored hcomes).halted hhalted
  | .forRange line slot start stop body, _, _, h => by
    rcases halted_bound (halted_eval hk start) h with hstart | ⟨a, u, ha, h⟩
    · exact Part.start.halted hstart
    rcases halted_bound (halted_eval hk stop) h with hstop | ⟨b, w, hb, h⟩
    · exact (Part.stop ha).halted hstop
    · rw [loopCount_eq_loopOver] at h
      obtain ⟨v', u₁, u₂, x, z, hvisits, hstored, hcomes, hhalted⟩ :=
        halted_loopOver hk (halted_execAll hk body) h
      exact (Part.rangeBody ha hb hvisits hstored hcomes).halted hhalted
  | .result _ none, _, _, h => nomatch h
  | .result _ (some e), _, _, h => by
    rcases bind_error h with hpart | ⟨v, u, -, h⟩
    · exact Part.returned.halted (halted_eval hk e hpart)
    · cases h

theorem halted_execAll (hk : k ≠ .broken) : ∀ (ss : List Stmt) {s t : State}, execAll f ss s = .error k t →
    HaltedIn f ss s k t
  | [], _, _, h => nomatch h
  | x :: ss, s, t, h => by
    rcases bind_error h with hfirst | ⟨flow, u, hflow, h⟩
    · exact ⟨x, s, .head, halted_exec hk x hfirst⟩
    cases flow with
    | returned v => cases h
    | next =>
      obtain ⟨y, w, hcomes, hhalted⟩ := halted_execAll hk ss h
      exact ⟨y, w, hcomes.tail hflow, hhalted⟩

/-- A row of arms halts at a condition, in the block of the condition that holds, or behind all of
them. -/
theorem halted_execArms (hk : k ≠ .broken) : ∀ (bs : List (Expr × List Stmt))
    {otherwise : Exec Flow} {s t : State}, execArms f bs otherwise s = .error k t →
    (∃ arm u, ComesTo (Skips f) bs s arm u ∧ Halted f (.condition arm.1) u k t) ∨
      (∃ arm u w x z, ComesTo (Skips f) bs s arm u ∧ condition f arm.1 u = .ok true w ∧
        ComesTo (Executes f) arm.2 w x z ∧ Halted f (.stmt x) z k t) ∨
      ∃ u, Through (Skips f) bs s u ∧ otherwise u = .error k t
  | [], _, s, _, h => .inr (.inr ⟨s, .nil, h⟩)
  | (cond, body) :: rest, _, s, t, h => by
    rcases bind_error h with htest | ⟨b, u, hb, h⟩
    · exact .inl ⟨(cond, body), s, .head, halted_condition (halted_eval hk cond) htest⟩
    cases b with
    | true =>
      obtain ⟨x, z, hinner, hhalted⟩ := halted_execAll hk body h
      exact .inr (.inl ⟨(cond, body), s, u, x, z, .head, hb, hinner, hhalted⟩)
    | false =>
      rcases halted_execArms hk rest h with ⟨arm, w, hcomes, hhalted⟩ |
        ⟨arm, w, w', x, z, hcomes, hholds, hinner, hhalted⟩ | ⟨w, hskipped, hlast⟩
      · exact .inl ⟨arm, w, hcomes.tail hb, hhalted⟩
      · exact .inr (.inl ⟨arm, w, w', x, z, hcomes.tail hb, hholds, hinner, hhalted⟩)
      · exact .inr (.inr ⟨w, .cons hb hskipped, hlast⟩)

end

end

/-! ### The calls that are active -/

section

variable (p : Program) (steps : Nat)

/-- How a method is called where `depth` more calls may be nested. -/
def callAt : Nat → Option Call
  | 0 => none
  | depth + 1 => some (invoke p steps depth)

/-- The frame of a call of a method under which `depth` more calls may be nested. -/
def frameAt (depth : Nat) (m : Method) : Frame := ⟨p.qualifiedName m, steps, callAt p steps depth⟩

theorem invoke_eq_run (depth : Nat) : invoke p steps depth = run p steps (callAt p steps depth) := by
  cases depth <;> rfl

/-- A call of a method comes to work on something inside the body of the method. -/
def Reaches (depth : Nat) (m : Method) (args : List Value) (w : World) (n : Node) (s : State) :
    Prop :=
  ∃ x t, ComesTo (Executes (frameAt p steps depth m)) m.body ⟨frameOf m.frameSize args, w⟩ x t ∧
    Leads (frameAt p steps depth m) (.stmt x) t n s

/-- A call of a method halts at something inside the body of a method, which is the innermost one of
the calls that are active. -/
inductive Raised : Nat → MethodId → List Value → World → Method → Node → Halt → World → Prop
  | own {depth : Nat} {id : MethodId} {args : List Value} {w : World} {m : Method} {n : Node}
      {s t : State} {k : Halt} (method : p.methods[id]? = some m)
      (reaches : Reaches p steps depth m args w n s)
      (stops : Stops (frameAt p steps depth m) n s k t) :
      Raised depth id args w m n k t.world
  | callee {depth : Nat} {id : MethodId} {args : List Value} {w : World} {m : Method} {n : Node}
      {s t : State} {id' : MethodId} {args' : List Value} {m' : Method} {n' : Node} {k : Halt}
      {w' : World} (method : p.methods[id]? = some m)
      (reaches : Reaches p steps (depth + 1) m args w n s)
      (enters : Enters (frameAt p steps (depth + 1) m) n s id' args' t)
      (inner : Raised depth id' args' t.world m' n' k w') :
      Raised (depth + 1) id args w m' n' k w'

end

section

variable {p : Program} {steps : Nat}

/-- **Where a run halts**: unless a program is broken, a call that gives no value halts at something
inside the body of the innermost call. -/
theorem raised_of_invoke {k : Halt} (hk : k ≠ .broken) :
    ∀ (depth : Nat) {id : MethodId} {args : List Value} {w w' : World},
      invoke p steps depth id args w = .error k w' →
        ∃ m n, Raised p steps depth id args w m n k w' := by
  intro depth
  induction depth using Nat.strongRecOn with
  | ind depth ih =>
    intro id args w w' h
    rw [invoke_eq_run] at h
    unfold run at h
    cases hm : p.methods[id]? with
    | none =>
      rw [hm] at h
      cases h
      exact absurd rfl hk
    | some m =>
      rw [hm] at h
      dsimp only at h
      split at h
      next => cases h
      next k' t hbody =>
        cases h
        obtain ⟨x, s, hcomes, n, u, hleads, hends⟩ :=
          halted_execAll (f := frameAt p steps depth m) hk m.body hbody
        have hreaches : Reaches p steps depth m args w n u := ⟨x, s, hcomes, hleads⟩
        cases hends with
        | own stops => exact ⟨m, n, .own hm hreaches stops⟩
        | callee enters call halts =>
          cases depth with
          | zero => cases call
          | succ depth =>
            cases call
            obtain ⟨m', n', hinner⟩ := ih depth (Nat.lt_succ_self depth) halts
            exact ⟨m', n', .callee hm hreaches enters hinner⟩

/-- A failure names the line of what has halted, and the method of its frame. -/
theorem Stops.place {f : Frame} {n : Node} {s t : State} {g : Failure}
    (h : Stops f n s (.failed g) t) : g.method = f.method ∧ g.line = n.line := by
  generalize hk : Halt.failed g = k at h
  cases h <;> cases hk <;> exact ⟨rfl, rfl⟩

/-- Only a loop on a condition runs out of steps. -/
theorem Stops.loop {f : Frame} {n : Node} {s t : State} (h : Stops f n s .outOfSteps t) :
    ∃ line cond body, n = .stmt (.loop line cond body) := by
  generalize hk : Halt.outOfSteps = k at h
  cases h <;> cases hk
  exact ⟨_, _, _, rfl⟩

/-- What has halted lies in the body of a method of the program. -/
theorem Raised.innermost {depth : Nat} {id : MethodId} {args : List Value} {w w' : World}
    {m : Method} {n : Node} {k : Halt} (h : Raised p steps depth id args w m n k w') :
    ∃ (d : Nat) (id' : MethodId) (args' : List Value) (start : World) (s t : State),
      p.methods[id']? = some m ∧ Reaches p steps d m args' start n s ∧
        Stops (frameAt p steps d m) n s k t := by
  induction h with
  | own method reaches stops => exact ⟨_, _, _, _, _, _, method, reaches, stops⟩
  | callee _ _ _ _ ih => exact ih

/-- A failure names the innermost method and the line of what has halted there. -/
theorem Raised.place {depth : Nat} {id : MethodId} {args : List Value} {w w' : World}
    {m : Method} {n : Node} {g : Failure} (h : Raised p steps depth id args w m n (.failed g) w') :
    g.method = p.qualifiedName m ∧ g.line = n.line := by
  obtain ⟨d, id', args', start, s, t, -, -, hstops⟩ := h.innermost
  exact hstops.place

end

end ReportTemplate.Machine
