import ReportTemplate.Proofs.Machine.Confined
import ReportTemplate.Proofs.Machine.Raised

/-!
# ReportTemplate.Proofs.Machine.Within — what a run holds on its way

`Confined` speaks of what the functions of a program would give for any arguments.  Here only those
calls count that a run makes.  When the literals, lists and library functions on the way of a run supply
values with a property, out of values with it, then the run holds such values only, wherever it comes to:
in the slots, and as the value of the expression that is evaluated next.
-/

namespace ReportTemplate.Machine

open Program (Expr Stmt Slot MethodId Method)

variable {V : Value → Prop}

/-! ### Computations from one state -/

/-- What a computation yields when it gives a value. -/
def Yields {α : Type} (V : Value → Prop) (Q : α → Prop) (x : Exec α) (s : State) : Prop :=
  ∀ a t, x s = .ok a t → Q a ∧ SlotsHold V t.locals

namespace Yields

variable {α β : Type} {x : Exec α} {Q : α → Prop} {R : β → Prop} {s : State}

theorem pure {a : α} (hs : SlotsHold V s.locals) (ha : Q a) : Yields V Q (Pure.pure a) s := by
  rintro b t ⟨⟩
  exact ⟨ha, hs⟩

theorem bind {g : α → Exec β} (h : Yields V Q x s)
    (hg : ∀ a t, x s = .ok a t → Q a → SlotsHold V t.locals → Yields V R (g a) t) :
    Yields V R (x >>= g) s := by
  intro b u hrun
  obtain ⟨a, t, hx, hrest⟩ := bind_ok hrun
  obtain ⟨ha, ht⟩ := h a t hx
  exact hg a t hx ha ht b u hrest

end Yields

/-- A confined computation does so from every state. -/
theorem Confined.yields {α : Type} {x : Exec α} {Q : α → Prop} (h : Confined V x Q) {s : State}
    (hs : SlotsHold V s.locals) : Yields V Q x s := by
  intro a t hx
  have hend := h s hs
  rw [hx] at hend
  exact ⟨hend.2.2, hend.1⟩

/-! ### What a run is supplied with -/

section

variable (f : Frame)

/-- A literal, a list or a library function supplies a value, out of some values. -/
inductive Supplies : Node → State → Option Function → List Value → Value → Prop
  | const {line : Nat} {v : Value} {s : State} : Supplies (.value (.const line v)) s none [] v
  | list {line : Nat} {items : List Expr} {vs : List Value} {s t : State}
      (parts : evalAll f items s = .ok vs t) :
      Supplies (.value (.list line items)) s none vs (.list vs)
  | function {line : Nat} {g : Function} {args : List Expr} {vs : List Value} {r : Value}
      {s t : State} (parts : evalAll f args s = .ok vs t) (given : g.call vs = .ok r) :
      Supplies (.value (.callFunction line g args)) s (some g) vs r
  | dynamic {line : Nat} {name : String} {document : Option DocumentMethod} {g : Function}
      {r : Expr} {args : List Expr} {v : Value} {vs : List Value} {result : Value} {s t u : State}
      (receiver : eval f r s = .ok v t) (parts : evalAll f args t = .ok vs u)
      (other : document = none ∨ v.isDocument = false) (given : g.call (v :: vs) = .ok result) :
      Supplies (.value (.callDynamic line name r args document (some g))) s (some g) (v :: vs) result

/-- From something on, a run is supplied with values that have a property, and so do the calls of
methods give. -/
structure Kept (V : Value → Prop) (n : Node) (s : State) : Prop where
  supplied {n' : Node} {s' : State} {o : Option Function} {vs : List Value} {r : Value}
    (leads : Leads f n s n' s') (supplies : Supplies f n' s' o vs r) (hvs : ∀ v ∈ vs, V v) : V r
  returned {n' : Node} {s' t : State} {id : MethodId} {vs : List Value} {c : Call} {r : Value}
    {w : World} (leads : Leads f n s n' s') (enters : Enters f n' s' id vs t)
    (call : f.call? = some c) (returns : c id vs t.world = .ok r w) (hvs : ∀ v ∈ vs, V v) : V r

variable {f}

theorem Kept.part {n n' : Node} {s s' : State} (h : Kept f V n s) (part : Part f n s n' s') :
    Kept f V n' s' where
  supplied leads := h.supplied (.head part leads)
  returned leads := h.returned (.head part leads)

/-- What is supplied is the value that a run evaluates. -/
theorem Supplies.eval {n : Node} {s : State} {o : Option Function} {vs : List Value} {r : Value}
    (h : Supplies f n s o vs r) : ∃ e t, n = .value e ∧ Machine.eval f e s = .ok r t := by
  have hrun {α β : Type} {x : Exec α} {g : α → Exec β} {s t : State} {a : α}
      (hx : x s = .ok a t) : (x >>= g) s = g a t := by
    show EStateM.bind x g s = g a t
    unfold EStateM.bind
    rw [hx]
  cases h with
  | const => exact ⟨_, s, rfl, rfl⟩
  | @list _ _ _ _ t parts => exact ⟨_, t, rfl, by rw [Machine.eval, hrun parts]; rfl⟩
  | @function _ _ _ _ _ _ t parts given =>
    exact ⟨_, t, rfl, by rw [Machine.eval, hrun parts, given]; rfl⟩
  | @dynamic line name document g _ _ v vs _ _ _ u receiver parts other given =>
    have hcall : callDynamic f line name v vs document (some g) =
        attempt f line (.refusedBy name) (g.call (v :: vs)) := by
      rcases other with rfl | hother
      · rfl
      · unfold callDynamic
        rw [hother]
        cases document <;> rfl
    exact ⟨_, u, rfl, by rw [Machine.eval, hrun receiver, hrun parts, hcall, given]; rfl⟩

end

section

variable {f : Frame}

/-- Each of some expressions keeps a property where a run comes to it. -/
def AllKept (f : Frame) (V : Value → Prop) (es : List Expr) (s : State) : Prop :=
  ∀ e u, ComesTo (Evaluates f) es s e u → Kept f V (.value e) u

/-- Each of some statements keeps a property where a run comes to it. -/
def BlockKept (f : Frame) (V : Value → Prop) (ss : List Stmt) (s : State) : Prop :=
  ∀ x u, ComesTo (Executes f) ss s x u → Kept f V (.stmt x) u

/-! ### Expressions -/

theorem yields_condition {e : Expr} {s : State} (he : Yields V V (eval f e) s) :
    Yields V (fun _ => True) (condition f e) s :=
  he.bind fun v _ _ _ ht => (confined_truth _ v).yields ht

mutual

theorem yields_eval (hV : Value.Closed V) : ∀ (e : Expr) {s : State}, Kept f V (.value e) s →
    SlotsHold V s.locals → Yields V V (eval f e) s
  | .const _ _, _, hk, hs => .pure hs (hk.supplied .refl .const nofun)
  | .slot _ slot, _, _, hs => (confined_load slot).yields hs
  | .list _ items, _, hk, hs => by
    have hitems := yields_evalAll hV items (fun _ _ hcomes => hk.part (.item hcomes)) hs
    exact hitems.bind fun vs t hrun hvs ht => .pure ht (hk.supplied .refl (.list hrun) hvs)
  | .unary line _ operand, _, hk, hs => by
    have hoperand := yields_eval hV operand (hk.part .operand) hs
    exact hoperand.bind fun v t _ hv ht =>
      (confined_attempt line _ fun _ h => hV.unary hv h).yields ht
  | .binary line op l r, s, hk, hs => by
    have hleft : ∀ {u}, Kept f V (.value l) u → SlotsHold V u.locals → Yields V V (eval f l) u :=
      yields_eval hV l
    have hright : ∀ {u}, Kept f V (.value r) u → SlotsHold V u.locals → Yields V V (eval f r) u :=
      yields_eval hV r
    -- A logical operator looks at its operands as conditions, any other one at their values.
    have hother : op ≠ .and → op ≠ .or → Yields V V
        (eval f l >>= fun a => eval f r >>= fun b => attempt f line .refused (Value.binary op a b))
        s := by
      intro hand hor
      refine (hleft (hk.part (.left hand hor)) hs).bind fun a t ha hva ht => ?_
      refine (hright (hk.part (.right hand hor ⟨a, ha⟩)) ht).bind fun b u _ hvb hu => ?_
      exact (confined_attempt line _ fun _ h => hV.binary hva hvb h).yields hu
    have hfirst : Kept f V (.condition l) s → Yields V (fun _ => True) (condition f l) s :=
      fun hk => yields_condition (hleft (hk.part .condition) hs)
    have hlast : ∀ {u}, Kept f V (.condition r) u → SlotsHold V u.locals →
        Yields V V (condition f r >>= fun b => pure (Value.bool b)) u := fun hk hu =>
      (yields_condition (hright (hk.part .condition) hu)).bind fun b _ _ _ ht =>
        .pure ht (hV.bool b)
    cases op
    case and =>
      rw [eval_and]
      refine (hfirst (hk.part .andLeft)).bind fun b t hb _ ht => ?_
      cases b with
      | true => exact hlast (hk.part (.andRight hb)) ht
      | false => exact .pure ht (hV.bool false)
    case or =>
      rw [eval_or]
      refine (hfirst (hk.part .orLeft)).bind fun b t hb _ ht => ?_
      cases b with
      | true => exact .pure ht (hV.bool true)
      | false => exact hlast (hk.part (.orRight hb)) ht
    all_goals exact hother nofun nofun
  | .index line target place, _, hk, hs => by
    refine (yields_eval hV target (hk.part .target) hs).bind fun a t ha hva ht => ?_
    refine (yields_eval hV place (hk.part (.place ⟨a, ha⟩)) ht).bind fun b u _ _ hu => ?_
    exact (confined_attempt line _ fun _ h => hV.index hva h).yields hu
  | .callMethod line id args, _, hk, hs => by
    have hargs := yields_evalAll hV args (fun _ _ hcomes => hk.part (.methodArg hcomes)) hs
    refine hargs.bind fun vs t hrun hvs ht => ?_
    split
    next c hcall =>
      intro r u hend
      obtain ⟨w, hc, rfl⟩ := inWorld_ok hend
      exact ⟨hk.returned .refl (.callMethod hrun) hcall hc hvs, ht⟩
    next => exact (confined_fail line _).yields ht
  | .callFunction line g args, _, hk, hs => by
    have hargs := yields_evalAll hV args (fun _ _ hcomes => hk.part (.functionArg hcomes)) hs
    refine hargs.bind fun vs t hrun hvs ht => (confined_attempt line _ fun r h => ?_).yields ht
    exact hk.supplied .refl (.function hrun h) hvs
  | .callSlot line slot name args, _, hk, hs => by
    have hargs := yields_evalAll hV args (fun _ _ hcomes => hk.part (.slotArg hcomes)) hs
    refine hargs.bind fun vs t _ _ ht => ?_
    refine ((confined_load slot).yields ht).bind fun v u _ hv hu => ?_
    split
    next => exact (confined_callLog line hv hV.null name vs).yields hu
    next => exact (confined_fail line _).yields hu
  | .callDocument line method receiver args, _, hk, hs => by
    refine (yields_eval hV receiver (hk.part .documentReceiver) hs).bind fun r t hr hvr ht => ?_
    have hargs := yields_evalAll hV args (fun _ _ hcomes => hk.part (.documentArg ⟨r, hr⟩ hcomes)) ht
    refine hargs.bind fun vs u _ _ hu => ?_
    split
    next hdocument =>
      cases r with
      | document => exact (confined_callDocument line hvr hV.null method.name method vs).yields hu
      | _ => cases hdocument
    next => exact (confined_fail line _).yields hu
  | .callDynamic line name receiver args document function, _, hk, hs => by
    refine (yields_eval hV receiver (hk.part .dynamicReceiver) hs).bind fun r t hr hvr ht => ?_
    have hargs := yields_evalAll hV args (fun _ _ hcomes => hk.part (.dynamicArg ⟨r, hr⟩ hcomes)) ht
    refine hargs.bind fun vs u hrun hvs hu => ?_
    unfold callDynamic
    split
    next m hdocument =>
      cases r with
      | document => exact (confined_callDocument line hvr hV.null name m vs).yields hu
      | _ => cases hdocument
    next document _ _ hvalue =>
      cases function with
      | none => exact (confined_fail line _).yields hu
      | some g =>
        have hother : document = none ∨ r.isDocument = false := by
          cases document with
          | none => exact .inl rfl
          | some m => exact .inr (Bool.eq_false_iff.mpr (hvalue m rfl))
        have hall : ∀ v ∈ r :: vs, V v := List.forall_mem_cons.mpr ⟨hvr, hvs⟩
        refine (confined_attempt line _ fun v h => ?_).yields hu
        exact hk.supplied .refl (.dynamic hr hrun hother h) hall

theorem yields_evalAll (hV : Value.Closed V) : ∀ (es : List Expr) {s : State}, AllKept f V es s →
    SlotsHold V s.locals → Yields V (fun vs => ∀ v ∈ vs, V v) (evalAll f es) s
  | [], _, _, hs => .pure hs nofun
  | e :: es, _, hk, hs => by
    refine (yields_eval hV e (hk _ _ .head) hs).bind fun v t hv hvv ht => ?_
    have hrest := yields_evalAll hV es (fun _ _ hcomes => hk _ _ (hcomes.tail ⟨v, hv⟩)) ht
    exact hrest.bind fun vs u _ hvs hu => .pure hu (List.forall_mem_cons.mpr ⟨hvv, hvs⟩)

end

/-! ### Loops -/

section

variable {body : List Stmt}
  (hbody : ∀ {s}, BlockKept f V body s → SlotsHold V s.locals →
    Yields V (FlowHolds V) (execAll f body) s)

include hbody

/-- The rounds behind those that have been run. -/
theorem yields_loopWhile (hV : Value.Closed V) {line : Nat} {cond : Expr} {s₀ : State}
    (hk : Kept f V (.stmt (.loop line cond body)) s₀) :
    ∀ (n m : Nat) {s : State}, Through (Turns f cond body) (List.replicate m ()) s₀ s →
      SlotsHold V s.locals →
      Yields V (FlowHolds V) (loopWhile (condition f cond) (execAll f body) n) s
  | 0, _, _, _, _ => fun _ _ hrun => nomatch hrun
  | n + 1, m, s, hrounds, hs => by
    have hcond := yields_eval hV cond ((hk.part (.loopTest hrounds)).part .condition) hs
    refine (yields_condition hcond).bind fun b t hb _ ht => ?_
    cases b with
    | false => exact .pure ht trivial
    | true =>
      refine (hbody (fun _ _ hcomes => hk.part (.loopBody hrounds hb hcomes)) ht).bind
        fun flow u hflow hv hu => ?_
      cases flow with
      | returned v => exact .pure hu hv
      | next =>
        have hmore : Through (Turns f cond body) (List.replicate (m + 1) ()) s₀ u := by
          rw [List.replicate_succ']
          exact hrounds.append (.cons ⟨t, hb, hflow⟩ .nil)
        exact yields_loopWhile hV hk n (m + 1) hmore hu

theorem yields_loopOver {slot : Slot} : ∀ {vs : List Value} {s : State},
    (∀ {w u u'}, ComesTo (Visits f slot body) vs s w u → store slot w u = .ok () u' →
      BlockKept f V body u') → (∀ v ∈ vs, V v) → SlotsHold V s.locals →
        Yields V (FlowHolds V) (loopOver slot (execAll f body) vs) s
  | [], _, _, _, hs => .pure hs trivial
  | v :: vs, s, hk, hvs, hs => by
    obtain ⟨hv, hvs⟩ := List.forall_mem_cons.mp hvs
    refine ((confined_store slot hv).yields hs).bind fun _ t ht _ hheld => ?_
    refine (hbody (hk .head ht) hheld).bind fun flow u hflow hvalue hu => ?_
    cases flow with
    | returned w => exact .pure hu hvalue
    | next =>
      exact yields_loopOver (fun hcomes => hk (hcomes.tail ⟨t, ht, hflow⟩)) hvs hu

end

theorem rangeValues_hold (hV : Value.Closed V) (a b : Int64) : ∀ v ∈ rangeValues a b, V v := by
  intro v hv
  obtain ⟨i, -, rfl⟩ := List.mem_map.mp hv
  exact hV.int _

/-- The bound of a range, and what follows it. -/
theorem yields_bound {β : Type} {e : Expr} {g : Int64 → Exec β} {R : β → Prop} {s : State}
    (he : Yields V V (eval f e) s)
    (hg : ∀ n t, Bounds f e s n t → SlotsHold V t.locals → Yields V R (g n) t) :
    Yields V R (eval f e >>= fun v => bound f e.line v >>= g) s := by
  refine he.bind fun v t hv _ ht => ?_
  refine ((confined_bound _ v).yields ht).bind fun n u hn _ _ => ?_
  obtain ⟨rfl, rfl⟩ := bound_ok hn
  exact hg n _ hv ht

/-! ### Statements -/

mutual

theorem yields_exec (hV : Value.Closed V) : ∀ (x : Stmt) {s : State}, Kept f V (.stmt x) s →
    SlotsHold V s.locals → Yields V (FlowHolds V) (exec f x) s
  | .store _ slot e, _, hk, hs => by
    refine (yields_eval hV e (hk.part .stored) hs).bind fun v t _ hv ht => ?_
    exact ((confined_store slot hv).yields ht).bind fun _ _ _ _ hu => .pure hu trivial
  | .expr _ e, _, hk, hs =>
    (yields_eval hV e (hk.part .evaluated) hs).bind fun _ _ _ _ ht => .pure ht trivial
  | .branch _ branches otherwise, _, hk, hs => by
    refine yields_execArms hV branches (fun hcomes => hk.part (.test hcomes))
      (fun hcomes holds _ _ inner => hk.part (.taken hcomes holds inner)) (fun hskipped hu => ?_) hs
    cases otherwise with
    | none => exact .pure hu trivial
    | some body => exact yields_execAll hV body (fun _ _ inner => hk.part (.otherwise hskipped inner)) hu
  | .loop _ _ body, _, hk, hs => yields_loopWhile (yields_execAll hV body) hV hk _ 0 .nil hs
  | .forEach line slot items body, _, hk, hs => by
    refine (yields_eval hV items (hk.part .items) hs).bind fun v t hv hvv ht => ?_
    refine ((confined_attempt line _ fun _ h => hV.items hvv h).yields ht).bind
      fun vs u hvs hheld hu => ?_
    obtain ⟨hvalues, rfl⟩ := attempt_ok hvs
    exact yields_loopOver (yields_execAll hV body)
      (fun hcomes hround _ _ inner => hk.part (.eachBody hv hvalues hcomes hround inner)) hheld hu
  | .forRange line slot start stop body, _, hk, hs => by
    refine yields_bound (yields_eval hV start ((hk.part .start).part .bound) hs) fun a t ha ht => ?_
    refine yields_bound (yields_eval hV stop ((hk.part (.stop ha)).part .bound) ht)
      fun b u hb hu => ?_
    rw [loopCount_eq_loopOver]
    exact yields_loopOver (yields_execAll hV body)
      (fun hcomes hround _ _ inner => hk.part (.rangeBody ha hb hcomes hround inner))
      (rangeValues_hold hV a b) hu
  | .result _ none, _, _, hs => .pure hs hV.null
  | .result _ (some e), _, hk, hs =>
    (yields_eval hV e (hk.part .returned) hs).bind fun _ _ _ hv ht => .pure ht hv

theorem yields_execAll (hV : Value.Closed V) : ∀ (ss : List Stmt) {s : State}, BlockKept f V ss s →
    SlotsHold V s.locals → Yields V (FlowHolds V) (execAll f ss) s
  | [], _, _, hs => .pure hs trivial
  | x :: ss, _, hk, hs => by
    refine (yields_exec hV x (hk _ _ .head) hs).bind fun flow t hflow hv ht => ?_
    cases flow with
    | returned v => exact .pure ht hv
    | next => exact yields_execAll hV ss (fun _ _ hcomes => hk _ _ (hcomes.tail hflow)) ht

theorem yields_execArms (hV : Value.Closed V) : ∀ (bs : List (Expr × List Stmt)) {s : State}
    {otherwise : Exec Flow},
    (∀ {arm u}, ComesTo (Skips f) bs s arm u → Kept f V (.condition arm.1) u) →
    (∀ {arm u w}, ComesTo (Skips f) bs s arm u → condition f arm.1 u = .ok true w →
      BlockKept f V arm.2 w) →
    (∀ {u}, Through (Skips f) bs s u → SlotsHold V u.locals →
      Yields V (FlowHolds V) otherwise u) →
    SlotsHold V s.locals → Yields V (FlowHolds V) (execArms f bs otherwise) s
  | [], _, _, _, _, hlast, hs => hlast .nil hs
  | (cond, body) :: rest, _, _, htests, hbodies, hlast, hs => by
    have hcond := yields_eval hV cond ((htests .head).part .condition) hs
    refine (yields_condition hcond).bind fun b t hb _ ht => ?_
    cases b with
    | true => exact yields_execAll hV body (hbodies .head hb) ht
    | false =>
      exact yields_execArms hV rest (fun hcomes => htests (hcomes.tail hb))
        (fun hcomes => hbodies (hcomes.tail hb)) (fun hskipped => hlast (.cons hb hskipped)) ht

end

/-! ### On the way -/

section

variable {ι : Type} {does : ι → State → State → Prop} {xs : List ι} {x : ι} {s t : State}

/-- What is done for each item, where a run comes to it, keeps the slots within a property. -/
theorem Through.slotsHold (h : Through does xs s t)
    (hdoes : ∀ y u w, ComesTo does xs s y u → does y u w → SlotsHold V u.locals → SlotsHold V w.locals)
    (hs : SlotsHold V s.locals) : SlotsHold V t.locals := by
  induction h with
  | nil => exact hs
  | cons first _ ih =>
    exact ih (fun y u w hcomes => hdoes y u w (hcomes.tail first)) (hdoes _ _ _ .head first hs)

theorem ComesTo.slotsHold (h : ComesTo does xs s x t)
    (hdoes : ∀ y u w, ComesTo does xs s y u → does y u w → SlotsHold V u.locals → SlotsHold V w.locals)
    (hs : SlotsHold V s.locals) : SlotsHold V t.locals := by
  obtain ⟨before, behind, rfl, hthrough⟩ := h
  exact hthrough.slotsHold (fun y u w hcomes => hdoes y u w (hcomes.append _)) hs

/-- Where a run comes to a round of a loop it has gone through the rounds before. -/
theorem through_of_comesTo {does : Unit → State → State → Prop} {n : Nat} {u : Unit}
    (h : ComesTo does (List.replicate n ()) s u t) : ∃ m, Through does (List.replicate m ()) s t := by
  obtain ⟨before, -, -, hthrough⟩ := h
  have hbefore : before = List.replicate before.length () := List.eq_replicate_of_mem fun _ _ => rfl
  exact ⟨before.length, hbefore ▸ hthrough⟩

end

section

variable (hV : Value.Closed V)

include hV

theorem Kept.evaluated {e : Expr} {s t : State} (hk : Kept f V (.value e) s)
    (hs : SlotsHold V s.locals) (h : Evaluates f e s t) : SlotsHold V t.locals := by
  obtain ⟨v, hv⟩ := h
  exact (yields_eval hV e hk hs v t hv).2

theorem Kept.tested {e : Expr} {b : Bool} {s t : State} (hk : Kept f V (.condition e) s)
    (hs : SlotsHold V s.locals) (h : condition f e s = .ok b t) : SlotsHold V t.locals :=
  (yields_condition (yields_eval hV e (hk.part .condition) hs) b t h).2

theorem AllKept.slotsHold {es : List Expr} {e : Expr} {s t : State} (hk : AllKept f V es s)
    (h : ComesTo (Evaluates f) es s e t) (hs : SlotsHold V s.locals) : SlotsHold V t.locals :=
  h.slotsHold (fun y u _ hcomes hdoes hu => (hk y u hcomes).evaluated hV hu hdoes) hs

theorem BlockKept.slotsHold {ss : List Stmt} {x : Stmt} {s t : State} (hk : BlockKept f V ss s)
    (h : ComesTo (Executes f) ss s x t) (hs : SlotsHold V s.locals) : SlotsHold V t.locals :=
  h.slotsHold (fun y u w hcomes hdoes hu => (yields_exec hV y (hk y u hcomes) hu _ w hdoes).2) hs

/-- A round of a loop over values comes to a statement of the body. -/
theorem round_slotsHold {slot : Slot} {body : List Stmt} {vs : List Value} {w : Value} {x : Stmt}
    {s t u z : State}
    (hk : ∀ {w u u'}, ComesTo (Visits f slot body) vs s w u → store slot w u = .ok () u' →
      BlockKept f V body u')
    (hvs : ∀ v ∈ vs, V v) (hs : SlotsHold V s.locals) (comes : ComesTo (Visits f slot body) vs s w t)
    (round : store slot w t = .ok () u) (inner : ComesTo (Executes f) body u x z) :
    SlotsHold V z.locals := by
  have ht : SlotsHold V t.locals := by
    refine comes.slotsHold (fun y u w hcomes hdoes hu => ?_) hs
    obtain ⟨u', hstore, hround⟩ := hdoes
    have hu' := ((confined_store slot (hvs y hcomes.mem)).yields hu _ _ hstore).2
    exact (yields_execAll hV body (hk hcomes hstore) hu' _ w hround).2
  have hu := ((confined_store slot (hvs w comes.mem)).yields ht _ _ round).2
  exact (hk comes round).slotsHold hV inner hu

/-- The rounds of a loop on a condition. -/
theorem Kept.turned {line : Nat} {cond : Expr} {body : List Stmt} {k : Nat} {s t : State}
    (hk : Kept f V (.stmt (.loop line cond body)) s) (hs : SlotsHold V s.locals)
    (h : Through (Turns f cond body) (List.replicate k ()) s t) : SlotsHold V t.locals := by
  refine h.slotsHold (fun _ u w hcomes hturns hu => ?_) hs
  obtain ⟨m, hrounds⟩ := through_of_comesTo hcomes
  obtain ⟨v, htest, hround⟩ := hturns
  have hv := (hk.part (.loopTest hrounds)).tested hV hu htest
  have hbody : BlockKept f V body v := fun _ _ hinner => hk.part (.loopBody hrounds htest hinner)
  exact (yields_execAll hV body hbody hv _ w hround).2

/-- The slots on the way from what a run works on to a part of it. -/
theorem Part.slotsHold {n n' : Node} {s s' : State} (h : Part f n s n' s') (hk : Kept f V n s)
    (hs : SlotsHold V s.locals) : SlotsHold V s'.locals := by
  cases h with
  | item comes => exact AllKept.slotsHold hV (fun _ _ hcomes => hk.part (.item hcomes)) comes hs
  | right and or first => exact (hk.part (.left and or)).evaluated hV hs first
  | andRight first => exact (hk.part .andLeft).tested hV hs first
  | orRight first => exact (hk.part .orLeft).tested hV hs first
  | place first => exact (hk.part .target).evaluated hV hs first
  | methodArg comes =>
    exact AllKept.slotsHold hV (fun _ _ hcomes => hk.part (.methodArg hcomes)) comes hs
  | functionArg comes =>
    exact AllKept.slotsHold hV (fun _ _ hcomes => hk.part (.functionArg hcomes)) comes hs
  | slotArg comes =>
    exact AllKept.slotsHold hV (fun _ _ hcomes => hk.part (.slotArg hcomes)) comes hs
  | documentArg first comes =>
    have ht := (hk.part .documentReceiver).evaluated hV hs first
    exact AllKept.slotsHold hV (fun _ _ hcomes => hk.part (.documentArg first hcomes)) comes ht
  | dynamicArg first comes =>
    have ht := (hk.part .dynamicReceiver).evaluated hV hs first
    exact AllKept.slotsHold hV (fun _ _ hcomes => hk.part (.dynamicArg first hcomes)) comes ht
  | test comes =>
    exact comes.slotsHold (fun _ _ _ hcomes hskips hu => (hk.part (.test hcomes)).tested hV hu hskips) hs
  | taken comes holds inner =>
    have ht := comes.slotsHold
      (fun _ _ _ hcomes hskips hu => (hk.part (.test hcomes)).tested hV hu hskips) hs
    have hu := (hk.part (.test comes)).tested hV ht holds
    exact BlockKept.slotsHold hV (fun _ _ hinner => hk.part (.taken comes holds hinner)) inner hu
  | otherwise skipped inner =>
    have ht := skipped.slotsHold
      (fun _ _ _ hcomes hskips hu => (hk.part (.test hcomes)).tested hV hu hskips) hs
    exact BlockKept.slotsHold hV (fun _ _ hinner => hk.part (.otherwise skipped hinner)) inner ht
  | loopTest rounds => exact hk.turned hV hs rounds
  | loopBody rounds holds inner =>
    have ht := hk.turned hV hs rounds
    have hu := (hk.part (.loopTest rounds)).tested hV ht holds
    exact BlockKept.slotsHold hV (fun _ _ hinner => hk.part (.loopBody rounds holds hinner)) inner hu
  | eachBody first values comes round inner =>
    obtain ⟨hv, ht⟩ := yields_eval hV _ (hk.part .items) hs _ _ first
    exact round_slotsHold hV
      (fun hcomes hround _ _ hinner => hk.part (.eachBody first values hcomes hround hinner))
      (hV.items hv values) ht comes round inner
  | stop first => exact ((hk.part .start).part .bound).evaluated hV hs ⟨_, first⟩
  | rangeBody first last comes round inner =>
    have ht := ((hk.part .start).part .bound).evaluated hV hs ⟨_, first⟩
    have hu := ((hk.part (.stop first)).part .bound).evaluated hV ht ⟨_, last⟩
    exact round_slotsHold hV
      (fun hcomes hround _ _ hinner => hk.part (.rangeBody first last hcomes hround hinner))
      (rangeValues_hold hV _ _) hu comes round inner
  | _ => exact hs

/-- The slots on the way from what a run works on to something inside it. -/
theorem Leads.slotsHold {n n' : Node} {s s' : State} (h : Leads f n s n' s') (hk : Kept f V n s)
    (hs : SlotsHold V s.locals) : SlotsHold V s'.locals := by
  induction h with
  | refl => exact hs
  | head part _ ih => exact ih (hk.part part) (part.slotsHold hV hk hs)

/-- The arguments of a call of a method. -/
theorem Enters.hold {n : Node} {s t : State} {id : MethodId} {args : List Value}
    (h : Enters f n s id args t) (hk : Kept f V n s) (hs : SlotsHold V s.locals) :
    ∀ a ∈ args, V a := by
  cases h with
  | callMethod parts =>
    exact (yields_evalAll hV _ (fun _ _ hcomes => hk.part (.methodArg hcomes)) hs _ _ parts).1

end

end

/-! ### Calls -/

section

variable (p : Program) (steps : Nat)

/-- A call of a method passes a place: it comes to it itself, or one of the calls does that are made in
the course of it.  The method is the one whose body the place is in, and `d` more calls may be nested
there. -/
inductive Passes : Nat → MethodId → List Value → World → Nat → Method → Node → State → Prop
  | here {depth : Nat} {id : MethodId} {args : List Value} {w : World} {m : Method} {n : Node}
      {s : State} (method : p.methods[id]? = some m) (reaches : Reaches p steps depth m args w n s) :
      Passes depth id args w depth m n s
  | inner {depth d : Nat} {id id' : MethodId} {args args' : List Value} {w : World} {m m' : Method}
      {n n' : Node} {s s' t : State} (method : p.methods[id]? = some m)
      (reaches : Reaches p steps (depth + 1) m args w n s)
      (enters : Enters (frameAt p steps (depth + 1) m) n s id' args' t)
      (rest : Passes depth id' args' t.world d m' n' s') : Passes (depth + 1) id args w d m' n' s'

/-- A run is supplied with values that have a property, wherever it passes. -/
structure Supplied (V : Value → Prop) (depth : Nat) (id : MethodId) (args : List Value) (w : World) :
    Prop where
  value {d : Nat} {m : Method} {n : Node} {s : State} {o : Option Function} {vs : List Value}
    {r : Value} (passes : Passes p steps depth id args w d m n s)
    (supplies : Supplies (frameAt p steps d m) n s o vs r) (hvs : ∀ v ∈ vs, V v) : V r

/-- A run holds values with a property only, wherever it passes: in the slots, and as the value of the
expression that is evaluated next. -/
structure HoldsThroughout (V : Value → Prop) (depth : Nat) (id : MethodId) (args : List Value)
    (w : World) : Prop where
  slots {d : Nat} {m : Method} {n : Node} {s : State}
    (passes : Passes p steps depth id args w d m n s) : SlotsHold V s.locals
  value {d : Nat} {m : Method} {e : Expr} {s t : State} {v : Value}
    (passes : Passes p steps depth id args w d m (.value e) s)
    (value : eval (frameAt p steps d m) e s = .ok v t) : V v

/-- A call on values with a property that is supplied with such values gives one. -/
def Returns (V : Value → Prop) (depth : Nat) : Prop :=
  ∀ (id : MethodId) (args : List Value) (w w' : World) (v : Value), (∀ a ∈ args, V a) →
    Supplied p steps V depth id args w → invoke p steps depth id args w = .ok v w' → V v

end

section

variable {p : Program} {steps : Nat}

/-- Something inside what a call comes to. -/
theorem Reaches.leads {depth : Nat} {m : Method} {args : List Value} {w : World} {n n' : Node}
    {s s' : State} (h : Reaches p steps depth m args w n s)
    (hleads : Leads (frameAt p steps depth m) n s n' s') : Reaches p steps depth m args w n' s' := by
  obtain ⟨x, t, hcomes, hfirst⟩ := h
  exact ⟨x, t, hcomes, hfirst.trans hleads⟩

/-- The body that a place is in. -/
theorem Passes.reaches {depth d : Nat} {id : MethodId} {args : List Value} {w : World} {m : Method}
    {n : Node} {s : State} (h : Passes p steps depth id args w d m n s) :
    ∃ (id' : MethodId) (args' : List Value) (w' : World),
      p.methods[id']? = some m ∧ Reaches p steps d m args' w' n s := by
  induction h with
  | here method reaches => exact ⟨_, _, _, method, reaches⟩
  | inner _ _ _ _ ih => exact ih

section

variable {depth : Nat} {id : MethodId} {args : List Value} {w : World}

/-- The calls that a call makes are supplied as it is itself. -/
theorem Supplied.inner {m : Method} {n : Node} {s t : State} {id' : MethodId} {args' : List Value}
    (h : Supplied p steps V (depth + 1) id args w) (hm : p.methods[id]? = some m)
    (hreaches : Reaches p steps (depth + 1) m args w n s)
    (henters : Enters (frameAt p steps (depth + 1) m) n s id' args' t) :
    Supplied p steps V depth id' args' t.world where
  value passes := h.value (.inner hm hreaches henters passes)

/-- Where a call comes to, it keeps a property if the calls that it makes give values with it. -/
theorem Supplied.kept {m : Method} (h : Supplied p steps V depth id args w)
    (hm : p.methods[id]? = some m) (hcalls : ∀ d < depth, Returns p steps V d)
    {n : Node} {s : State} (hreaches : Reaches p steps depth m args w n s) :
    Kept (frameAt p steps depth m) V n s where
  supplied leads := h.value (.here hm (hreaches.leads leads))
  returned leads enters call returns hvs := by
    cases depth with
    | zero => cases call
    | succ depth =>
      cases call
      have hinner := h.inner hm (hreaches.leads leads) enters
      exact hcalls depth (Nat.lt_succ_self depth) _ _ _ _ _ hvs hinner returns

end

variable (hV : Value.Closed V)

include hV

theorem returns_supplied (depth : Nat) : Returns p steps V depth := by
  induction depth using Nat.strongRecOn with
  | ind depth ih =>
    intro id args w w' v hargs hsupplied hrun
    rw [invoke_eq_run] at hrun
    unfold run at hrun
    cases hm : p.methods[id]? with
    | none => rw [hm] at hrun; cases hrun
    | some m =>
      rw [hm] at hrun
      have hblock : BlockKept (frameAt p steps depth m) V m.body ⟨frameOf m.frameSize args, w⟩ :=
        fun x t hcomes => hsupplied.kept hm ih ⟨x, t, hcomes, .refl⟩
      have hbody := yields_execAll hV m.body hblock (slotsHold_frameOf _ hargs)
      dsimp only at hrun
      split at hrun
      next flow s hexec =>
        cases hrun
        have hflow := (hbody flow s hexec).1
        cases flow with
        | next => exact hV.null
        | returned v => exact hflow
      next => cases hrun

section

variable {depth d : Nat} {id : MethodId} {args : List Value} {w : World} {m : Method} {n : Node}
  {s : State}

/-- Where a call comes to, it keeps the property, and the slots have values with it. -/
theorem Reaches.kept (h : Reaches p steps depth m args w n s) (hm : p.methods[id]? = some m)
    (hsupplied : Supplied p steps V depth id args w) (hargs : ∀ a ∈ args, V a) :
    Kept (frameAt p steps depth m) V n s ∧ SlotsHold V s.locals := by
  have hcalls : ∀ d < depth, Returns p steps V d := fun d _ => returns_supplied hV d
  obtain ⟨x, t, hcomes, hleads⟩ := h
  have hblock : BlockKept (frameAt p steps depth m) V m.body ⟨frameOf m.frameSize args, w⟩ :=
    fun y u hy => hsupplied.kept hm hcalls ⟨y, u, hy, .refl⟩
  have ht := hblock.slotsHold hV hcomes (slotsHold_frameOf _ hargs)
  exact ⟨hsupplied.kept hm hcalls ⟨x, t, hcomes, hleads⟩,
    hleads.slotsHold hV (hblock x t hcomes) ht⟩

/-- Wherever a run passes, it keeps the property, and the slots have values with it. -/
theorem Passes.kept (h : Passes p steps depth id args w d m n s)
    (hsupplied : Supplied p steps V depth id args w) (hargs : ∀ a ∈ args, V a) :
    Kept (frameAt p steps d m) V n s ∧ SlotsHold V s.locals := by
  induction h with
  | here method reaches => exact reaches.kept hV method hsupplied hargs
  | inner method reaches enters _ ih =>
    -- The arguments of the inner call are values that the outer one has come to.
    obtain ⟨hk, hs⟩ := reaches.kept hV method hsupplied hargs
    exact ih (hsupplied.inner method reaches enters) (enters.hold hV hk hs)

end

/-- **On the way**: a run on values with a property that is supplied with such values, wherever it
passes, holds such values only. -/
theorem Supplied.holds {depth : Nat} {id : MethodId} {args : List Value} {w : World}
    (h : Supplied p steps V depth id args w) (hargs : ∀ a ∈ args, V a) :
    HoldsThroughout p steps V depth id args w where
  slots passes := (passes.kept hV h hargs).2
  value passes hv := by
    obtain ⟨hk, hs⟩ := passes.kept hV h hargs
    exact (yields_eval hV _ hk hs _ _ hv).1

end

end ReportTemplate.Machine
