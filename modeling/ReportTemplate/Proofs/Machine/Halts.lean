import ReportTemplate.Proofs.Machine.Slots

/-!
# ReportTemplate.Proofs.Machine.Halts — where a run halts

A run that gives no value halts at one expression or statement: the one whose parts have been evaluated
and whose own operation is refused, or the loop that has used up its steps.  It belongs to the body of
the innermost call.  `Raised` says which one it is, by the way that the run takes to it.
-/

namespace ReportTemplate.Machine

open Program (Expr Stmt MethodId Method)

/-! ### The way of a run -/

/-- What a run works on: an expression, an expression that is to be a truth value or the bound of a
range, or a statement. -/
inductive Node where
  | value (e : Expr)
  | condition (e : Expr)
  | bound (e : Expr)
  | stmt (s : Stmt)

def Node.line : Node → Nat
  | value e | condition e | bound e => e.line
  | stmt s => s.line

section

variable {ι : Type} (does : ι → State → State → Prop)

/-- Something is done for each of some items in order. -/
inductive Through : List ι → State → State → Prop
  | nil {s : State} : Through [] s s
  | cons {x : ι} {xs : List ι} {s t u : State} (first : does x s t) (rest : Through xs t u) :
      Through (x :: xs) s u

/-- Something has been done for the items in front of one. -/
def ComesTo (xs : List ι) (s : State) (x : ι) (t : State) : Prop :=
  ∃ before behind, xs = before ++ x :: behind ∧ Through does before s t

variable {does} {x y : ι} {xs : List ι} {s t u : State}

theorem ComesTo.head : ComesTo does (x :: xs) s x s := ⟨[], xs, rfl, .nil⟩

theorem ComesTo.tail (first : does x s t) (h : ComesTo does xs t y u) :
    ComesTo does (x :: xs) s y u := by
  obtain ⟨before, behind, rfl, hrest⟩ := h
  exact ⟨x :: before, behind, rfl, .cons first hrest⟩

theorem ComesTo.append (h : ComesTo does xs s x t) (ys : List ι) : ComesTo does (xs ++ ys) s x t := by
  obtain ⟨before, behind, rfl, hthrough⟩ := h
  exact ⟨before, behind ++ ys, by rw [List.append_assoc, List.cons_append], hthrough⟩

theorem Through.append {ys : List ι} (h : Through does xs s t) (hys : Through does ys t u) :
    Through does (xs ++ ys) s u := by
  induction h with
  | nil => exact hys
  | cons first _ ih => exact .cons first (ih hys)

theorem ComesTo.mem (h : ComesTo does xs s x t) : x ∈ xs := by
  obtain ⟨before, behind, rfl, -⟩ := h
  exact List.mem_append_right _ List.mem_cons_self

end

section

variable (f : Frame)

/-- An expression has been evaluated. -/
def Evaluates (e : Expr) (s t : State) : Prop := ∃ v, eval f e s = .ok v t

/-- A statement has been executed, and the next one follows. -/
def Executes (x : Stmt) (s t : State) : Prop := exec f x s = .ok .next t

/-- The condition of an arm does not hold. -/
def Skips (arm : Expr × List Stmt) (s t : State) : Prop := condition f arm.1 s = .ok false t

/-- A round of a loop on a condition has been run. -/
def Turns (cond : Expr) (body : List Stmt) (_ : Unit) (s u : State) : Prop :=
  ∃ t, condition f cond s = .ok true t ∧ execAll f body t = .ok .next u

/-- A round of a loop over values has been run. -/
def Visits (slot : Program.Slot) (body : List Stmt) (v : Value) (s u : State) : Prop :=
  ∃ t, store slot v s = .ok () t ∧ execAll f body t = .ok .next u

/-- The integer that bounds a range has been evaluated. -/
def Bounds (e : Expr) (s : State) (n : Int64) (t : State) : Prop := eval f e s = .ok (.int n) t

/-- The integers of a range, as the values of a loop. -/
def rangeValues (a b : Int64) : List Value :=
  (List.range (b.toInt - a.toInt).toNat).map fun (i : Nat) => .int (Int64.ofInt (a.toInt + i))

/-- A run that works on something in one state works in another state on a part of it. -/
inductive Part : Node → State → Node → State → Prop
  | condition {e : Expr} {s : State} : Part (.condition e) s (.value e) s
  | bound {e : Expr} {s : State} : Part (.bound e) s (.value e) s
  | item {line : Nat} {items : List Expr} {e : Expr} {s t : State}
      (comes : ComesTo (Evaluates f) items s e t) : Part (.value (.list line items)) s (.value e) t
  | operand {line : Nat} {op : Syntax.UnaryOp} {e : Expr} {s : State} :
      Part (.value (.unary line op e)) s (.value e) s
  | left {line : Nat} {op : Syntax.BinaryOp} {l r : Expr} {s : State} (and : op ≠ .and)
      (or : op ≠ .or) : Part (.value (.binary line op l r)) s (.value l) s
  | right {line : Nat} {op : Syntax.BinaryOp} {l r : Expr} {s t : State} (and : op ≠ .and)
      (or : op ≠ .or) (first : Evaluates f l s t) :
      Part (.value (.binary line op l r)) s (.value r) t
  | andLeft {line : Nat} {l r : Expr} {s : State} :
      Part (.value (.binary line .and l r)) s (.condition l) s
  | andRight {line : Nat} {l r : Expr} {s t : State} (first : condition f l s = .ok true t) :
      Part (.value (.binary line .and l r)) s (.condition r) t
  | orLeft {line : Nat} {l r : Expr} {s : State} :
      Part (.value (.binary line .or l r)) s (.condition l) s
  | orRight {line : Nat} {l r : Expr} {s t : State} (first : condition f l s = .ok false t) :
      Part (.value (.binary line .or l r)) s (.condition r) t
  | target {line : Nat} {e place : Expr} {s : State} :
      Part (.value (.index line e place)) s (.value e) s
  | place {line : Nat} {e place : Expr} {s t : State} (first : Evaluates f e s t) :
      Part (.value (.index line e place)) s (.value place) t
  | methodArg {line : Nat} {id : MethodId} {args : List Expr} {e : Expr} {s t : State}
      (comes : ComesTo (Evaluates f) args s e t) :
      Part (.value (.callMethod line id args)) s (.value e) t
  | functionArg {line : Nat} {g : Function} {args : List Expr} {e : Expr} {s t : State}
      (comes : ComesTo (Evaluates f) args s e t) :
      Part (.value (.callFunction line g args)) s (.value e) t
  | slotArg {line : Nat} {slot : Program.Slot} {name : String} {args : List Expr} {e : Expr}
      {s t : State} (comes : ComesTo (Evaluates f) args s e t) :
      Part (.value (.callSlot line slot name args)) s (.value e) t
  | documentReceiver {line : Nat} {m : DocumentMethod} {r : Expr} {args : List Expr} {s : State} :
      Part (.value (.callDocument line m r args)) s (.value r) s
  | documentArg {line : Nat} {m : DocumentMethod} {r : Expr} {args : List Expr} {e : Expr}
      {s t u : State} (first : Evaluates f r s t) (comes : ComesTo (Evaluates f) args t e u) :
      Part (.value (.callDocument line m r args)) s (.value e) u
  | dynamicReceiver {line : Nat} {name : String} {r : Expr} {args : List Expr}
      {document : Option DocumentMethod} {function : Option Function} {s : State} :
      Part (.value (.callDynamic line name r args document function)) s (.value r) s
  | dynamicArg {line : Nat} {name : String} {r : Expr} {args : List Expr}
      {document : Option DocumentMethod} {function : Option Function} {e : Expr} {s t u : State}
      (first : Evaluates f r s t) (comes : ComesTo (Evaluates f) args t e u) :
      Part (.value (.callDynamic line name r args document function)) s (.value e) u
  | stored {line : Nat} {slot : Program.Slot} {e : Expr} {s : State} :
      Part (.stmt (.store line slot e)) s (.value e) s
  | evaluated {line : Nat} {e : Expr} {s : State} : Part (.stmt (.expr line e)) s (.value e) s
  | test {line : Nat} {branches : List (Expr × List Stmt)} {otherwise : Option (List Stmt)}
      {arm : Expr × List Stmt} {s t : State} (comes : ComesTo (Skips f) branches s arm t) :
      Part (.stmt (.branch line branches otherwise)) s (.condition arm.1) t
  | taken {line : Nat} {branches : List (Expr × List Stmt)} {otherwise : Option (List Stmt)}
      {arm : Expr × List Stmt} {x : Stmt} {s t u w : State}
      (comes : ComesTo (Skips f) branches s arm t) (holds : condition f arm.1 t = .ok true u)
      (inner : ComesTo (Executes f) arm.2 u x w) :
      Part (.stmt (.branch line branches otherwise)) s (.stmt x) w
  | otherwise {line : Nat} {branches : List (Expr × List Stmt)} {body : List Stmt} {x : Stmt}
      {s t u : State} (skipped : Through (Skips f) branches s t)
      (inner : ComesTo (Executes f) body t x u) :
      Part (.stmt (.branch line branches (some body))) s (.stmt x) u
  | loopTest {line : Nat} {cond : Expr} {body : List Stmt} {n : Nat} {s t : State}
      (rounds : Through (Turns f cond body) (List.replicate n ()) s t) :
      Part (.stmt (.loop line cond body)) s (.condition cond) t
  | loopBody {line : Nat} {cond : Expr} {body : List Stmt} {n : Nat} {x : Stmt} {s t u w : State}
      (rounds : Through (Turns f cond body) (List.replicate n ()) s t)
      (holds : condition f cond t = .ok true u) (inner : ComesTo (Executes f) body u x w) :
      Part (.stmt (.loop line cond body)) s (.stmt x) w
  | items {line : Nat} {slot : Program.Slot} {items : Expr} {body : List Stmt} {s : State} :
      Part (.stmt (.forEach line slot items body)) s (.value items) s
  | eachBody {line : Nat} {slot : Program.Slot} {items : Expr} {body : List Stmt} {v w : Value}
      {vs : List Value} {x : Stmt} {s t u u' z : State} (first : eval f items s = .ok v t)
      (values : v.items = .ok vs) (comes : ComesTo (Visits f slot body) vs t w u)
      (round : store slot w u = .ok () u') (inner : ComesTo (Executes f) body u' x z) :
      Part (.stmt (.forEach line slot items body)) s (.stmt x) z
  | start {line : Nat} {slot : Program.Slot} {start stop : Expr} {body : List Stmt} {s : State} :
      Part (.stmt (.forRange line slot start stop body)) s (.bound start) s
  | stop {line : Nat} {slot : Program.Slot} {start stop : Expr} {body : List Stmt} {a : Int64}
      {s t : State} (first : Bounds f start s a t) :
      Part (.stmt (.forRange line slot start stop body)) s (.bound stop) t
  | rangeBody {line : Nat} {slot : Program.Slot} {start stop : Expr} {body : List Stmt}
      {a b : Int64} {w : Value} {x : Stmt} {s t t' u u' z : State} (first : Bounds f start s a t)
      (last : Bounds f stop t b t')
      (comes : ComesTo (Visits f slot body) (rangeValues a b) t' w u)
      (round : store slot w u = .ok () u') (inner : ComesTo (Executes f) body u' x z) :
      Part (.stmt (.forRange line slot start stop body)) s (.stmt x) z
  | returned {line : Nat} {e : Expr} {s : State} :
      Part (.stmt (.result line (some e))) s (.value e) s

/-- A run that works on something comes to work on something inside it. -/
inductive Leads : Node → State → Node → State → Prop
  | refl {n : Node} {s : State} : Leads n s n s
  | head {n n' n'' : Node} {s s' s'' : State} (part : Part f n s n' s')
      (rest : Leads n' s' n'' s'') : Leads n s n'' s''

/-- The failure of something on a line. -/
def failed (line : Nat) (cause : Cause) : Halt := .failed ⟨f.method, line, cause⟩

/-- The parts of something have been evaluated, and then it halts itself. -/
inductive Stops : Node → State → Halt → State → Prop
  | unary {line : Nat} {op : Syntax.UnaryOp} {e : Expr} {v : Value} {r : Refusal} {s t : State}
      (operand : eval f e s = .ok v t) (refused : Value.unary op v = .error r) :
      Stops (.value (.unary line op e)) s (failed f line (.refused r)) t
  | binary {line : Nat} {op : Syntax.BinaryOp} {l r : Expr} {a b : Value} {why : Refusal}
      {s t u : State} (and : op ≠ .and) (or : op ≠ .or) (left : eval f l s = .ok a t)
      (right : eval f r t = .ok b u) (refused : Value.binary op a b = .error why) :
      Stops (.value (.binary line op l r)) s (failed f line (.refused why)) u
  | index {line : Nat} {e place : Expr} {a b : Value} {r : Refusal} {s t u : State}
      (target : eval f e s = .ok a t) (at_ : eval f place t = .ok b u)
      (refused : Value.index a b = .error r) :
      Stops (.value (.index line e place)) s (failed f line (.refused r)) u
  | tooDeep {line : Nat} {id : MethodId} {args : List Expr} {vs : List Value} {s t : State}
      (parts : evalAll f args s = .ok vs t) (deepest : f.call? = none) :
      Stops (.value (.callMethod line id args)) s (failed f line .tooDeep) t
  | function {line : Nat} {g : Function} {args : List Expr} {vs : List Value} {r : Refusal}
      {s t : State} (parts : evalAll f args s = .ok vs t) (refused : g.call vs = .error r) :
      Stops (.value (.callFunction line g args)) s (failed f line (.refusedBy g.name r)) t
  | notCallable {line : Nat} {slot : Program.Slot} {name : String} {args : List Expr}
      {vs : List Value} {v : Value} {s t : State} (parts : evalAll f args s = .ok vs t)
      (callee : t.locals[slot]? = some (some v)) (other : v.kind ≠ .log) :
      Stops (.value (.callSlot line slot name args)) s (failed f line (.notCallable name v.kind)) t
  | notLogged {line : Nat} {slot : Program.Slot} {name : String} {args : List Expr}
      {vs : List Value} {s t : State} (parts : evalAll f args s = .ok vs t)
      (callee : t.locals[slot]? = some (some .log))
      (other : ∀ n text v, vs ≠ [.int n, .str text, v]) :
      Stops (.value (.callSlot line slot name args)) s
        (failed f line (.notLogged name (vs.map Value.kind))) t
  | notDocument {line : Nat} {m : DocumentMethod} {r : Expr} {args : List Expr} {v : Value}
      {vs : List Value} {s t u : State} (receiver : eval f r s = .ok v t)
      (parts : evalAll f args t = .ok vs u) (other : v.isDocument = false) :
      Stops (.value (.callDocument line m r args)) s
        (failed f line (.refused (.expected "Document" v.kind))) u
  | document {line : Nat} {m : DocumentMethod} {r : Expr} {args : List Expr} {v : Value}
      {vs : List Value} {why : Refusal} {s t u : State} (receiver : eval f r s = .ok v t)
      (parts : evalAll f args t = .ok vs u) (found : v.isDocument = true)
      (refused : m.call vs = .error why) :
      Stops (.value (.callDocument line m r args)) s (failed f line (.refusedBy m.name why)) u
  | dynamicDocument {line : Nat} {name : String} {m : DocumentMethod} {function : Option Function}
      {r : Expr} {args : List Expr} {v : Value} {vs : List Value} {why : Refusal} {s t u : State}
      (receiver : eval f r s = .ok v t) (parts : evalAll f args t = .ok vs u)
      (found : v.isDocument = true) (refused : m.call vs = .error why) :
      Stops (.value (.callDynamic line name r args (some m) function)) s
        (failed f line (.refusedBy name why)) u
  | dynamicFunction {line : Nat} {name : String} {document : Option DocumentMethod} {g : Function}
      {r : Expr} {args : List Expr} {v : Value} {vs : List Value} {why : Refusal} {s t u : State}
      (receiver : eval f r s = .ok v t) (parts : evalAll f args t = .ok vs u)
      (other : document = none ∨ v.isDocument = false) (refused : g.call (v :: vs) = .error why) :
      Stops (.value (.callDynamic line name r args document (some g))) s
        (failed f line (.refusedBy name why)) u
  | noMethod {line : Nat} {name : String} {document : Option DocumentMethod} {r : Expr}
      {args : List Expr} {v : Value} {vs : List Value} {s t u : State}
      (receiver : eval f r s = .ok v t) (parts : evalAll f args t = .ok vs u)
      (other : document = none ∨ v.isDocument = false) :
      Stops (.value (.callDynamic line name r args document none)) s
        (failed f line (.noMethod v.kind name)) u
  | condition {e : Expr} {v : Value} {s t : State} (value : eval f e s = .ok v t)
      (other : v.kind ≠ .bool) :
      Stops (.condition e) s (failed f e.line (.notACondition v.kind)) t
  | bound {e : Expr} {v : Value} {s t : State} (value : eval f e s = .ok v t)
      (other : v.kind ≠ .int) :
      Stops (.bound e) s (failed f e.line (.refused (.expected "int" v.kind))) t
  | items {line : Nat} {slot : Program.Slot} {items : Expr} {body : List Stmt} {v : Value}
      {r : Refusal} {s t : State} (value : eval f items s = .ok v t) (refused : v.items = .error r) :
      Stops (.stmt (.forEach line slot items body)) s (failed f line (.refused r)) t
  | outOfSteps {line : Nat} {cond : Expr} {body : List Stmt} {s t : State}
      (rounds : Through (Turns f cond body) (List.replicate f.steps ()) s t) :
      Stops (.stmt (.loop line cond body)) s .outOfSteps t

/-- The arguments of a call of a method have been evaluated. -/
inductive Enters : Node → State → MethodId → List Value → State → Prop
  | callMethod {line : Nat} {id : MethodId} {args : List Expr} {vs : List Value} {s t : State}
      (parts : evalAll f args s = .ok vs t) :
      Enters (.value (.callMethod line id args)) s id vs t

/-- Something halts itself, or the method that it calls halts. -/
inductive Ends (n : Node) (s : State) (k : Halt) : State → Prop
  | own {t : State} (stops : Stops f n s k t) : Ends n s k t
  | callee {id : MethodId} {vs : List Value} {t : State} {c : Call} {w : World}
      (enters : Enters f n s id vs t) (call : f.call? = some c)
      (halts : c id vs t.world = .error k w) : Ends n s k ⟨t.locals, w⟩

/-- A run that works on something halts at something inside it. -/
def Halted (n : Node) (s : State) (k : Halt) (t : State) : Prop :=
  ∃ n' s', Leads f n s n' s' ∧ Ends f n' s' k t

end

/-! ### Every halt is raised somewhere -/

section

variable {α β : Type} {x : Exec α} {s t : State} {k : Halt}

/-- A sequence halts in its first computation or in what follows the value of it. -/
theorem bind_error {g : α → Exec β} (h : (x >>= g) s = .error k t) :
    x s = .error k t ∨ ∃ a u, x s = .ok a u ∧ g a u = .error k t := by
  have hrun : (x >>= g) s = EStateM.bind x g s := rfl
  rw [hrun] at h
  unfold EStateM.bind at h
  cases hx : x s with
  | error k' u =>
    rw [hx] at h
    cases h
    exact .inl rfl
  | ok a u =>
    rw [hx] at h
    exact .inr ⟨a, u, rfl, h⟩

theorem bind_ok {g : α → Exec β} {b : β} (h : (x >>= g) s = .ok b t) :
    ∃ a u, x s = .ok a u ∧ g a u = .ok b t := by
  have hrun : (x >>= g) s = EStateM.bind x g s := rfl
  rw [hrun] at h
  unfold EStateM.bind at h
  cases hx : x s with
  | error k' u =>
    rw [hx] at h
    cases h
  | ok a u =>
    rw [hx] at h
    exact ⟨a, u, rfl, h⟩

variable {f : Frame}

theorem attempt_error {line : Nat} {cause : Refusal → Cause} {r : Except Refusal α}
    (h : attempt f line cause r s = .error k t) :
    ∃ why, r = .error why ∧ k = failed f line (cause why) ∧ t = s := by
  cases r with
  | ok a => cases h
  | error why =>
    cases h
    exact ⟨why, rfl, rfl, rfl⟩

theorem attempt_ok {line : Nat} {cause : Refusal → Cause} {r : Except Refusal α} {a : α}
    (h : attempt f line cause r s = .ok a t) : r = .ok a ∧ t = s := by
  cases r with
  | ok b =>
    cases h
    exact ⟨rfl, rfl⟩
  | error why => cases h

theorem fail_error {line : Nat} {cause : Cause} (h : (fail f line cause : Exec α) s = .error k t) :
    k = failed f line cause ∧ t = s := by
  cases h
  exact ⟨rfl, rfl⟩

theorem truth_error {line : Nat} {v : Value} (h : truth f line v s = .error k t) :
    v.kind ≠ .bool ∧ k = failed f line (.notACondition v.kind) ∧ t = s := by
  cases v <;> first | exact ⟨nofun, fail_error h⟩ | cases h

theorem bound_error {line : Nat} {v : Value} (h : bound f line v s = .error k t) :
    v.kind ≠ .int ∧ k = failed f line (.refused (.expected "int" v.kind)) ∧ t = s := by
  cases v <;> first | exact ⟨nofun, fail_error h⟩ | cases h

theorem bound_ok {line : Nat} {v : Value} {n : Int64} (h : bound f line v s = .ok n t) :
    v = .int n ∧ t = s := by
  cases v <;> cases h
  exact ⟨rfl, rfl⟩

theorem load_error {slot : Program.Slot} (h : load slot s = .error k t) : k = .broken := by
  by_cases hslot : ∃ v, s.locals[slot]? = some (some v)
  · obtain ⟨v, hv⟩ := hslot
    rw [load_eq hv] at h
    cases h
  · rw [load_broken fun v hv => hslot ⟨v, hv⟩] at h
    cases h
    rfl

theorem load_ok {slot : Program.Slot} {v : Value} (h : load slot s = .ok v t) :
    s.locals[slot]? = some (some v) ∧ t = s := by
  by_cases hslot : ∃ v, s.locals[slot]? = some (some v)
  · obtain ⟨w, hw⟩ := hslot
    rw [load_eq hw] at h
    cases h
    exact ⟨hw, rfl⟩
  · rw [load_broken fun v hv => hslot ⟨v, hv⟩] at h
    cases h

theorem callLog_error {line : Nat} {name : String} {args : List Value}
    (h : callLog f line name args s = .error k t) :
    (∀ n text v, args ≠ [.int n, .str text, v]) ∧
      k = failed f line (.notLogged name (args.map Value.kind)) ∧ t = s := by
  unfold callLog at h
  split at h
  next => cases h
  next hother => exact ⟨hother, fail_error h⟩

theorem callDocument_error {line : Nat} {name : String} {m : DocumentMethod} {args : List Value}
    (h : callDocument f line name m args s = .error k t) :
    ∃ why, m.call args = .error why ∧ k = failed f line (.refusedBy name why) ∧ t = s := by
  rcases bind_error h with hrefused | ⟨block, u, -, hlater⟩
  · exact attempt_error hrefused
  · cases hlater

theorem callDynamic_error {line : Nat} {name : String} {v : Value} {args : List Value}
    {document : Option DocumentMethod} {function : Option Function}
    (h : callDynamic f line name v args document function s = .error k t) :
    (∃ m why, document = some m ∧ v.isDocument = true ∧ m.call args = .error why ∧
        k = failed f line (.refusedBy name why) ∧ t = s) ∨
      ((document = none ∨ v.isDocument = false) ∧
        ((∃ g why, function = some g ∧ g.call (v :: args) = .error why ∧
            k = failed f line (.refusedBy name why) ∧ t = s) ∨
          (function = none ∧ k = failed f line (.noMethod v.kind name) ∧ t = s))) := by
  have hfallback : callDynamic f line name v args none function s = .error k t →
      (∃ g why, function = some g ∧ g.call (v :: args) = .error why ∧
          k = failed f line (.refusedBy name why) ∧ t = s) ∨
        (function = none ∧ k = failed f line (.noMethod v.kind name) ∧ t = s) := by
    intro h
    cases function with
    | some g =>
      obtain ⟨why, hrefused, hk, ht⟩ := attempt_error h
      exact .inl ⟨g, why, rfl, hrefused, hk, ht⟩
    | none => exact .inr ⟨rfl, fail_error h⟩
  cases document with
  | none => exact .inr ⟨.inl rfl, hfallback h⟩
  | some m =>
    unfold callDynamic at h
    cases hdocument : v.isDocument with
    | true =>
      rw [hdocument] at h
      obtain ⟨why, hrefused, hk, ht⟩ := callDocument_error h
      exact .inl ⟨m, why, rfl, rfl, hrefused, hk, ht⟩
    | false =>
      rw [hdocument] at h
      exact .inr ⟨.inr rfl, hfallback h⟩

theorem inWorld_error {m : EStateM Halt World α} (h : inWorld m s = .error k t) :
    ∃ w, m s.world = .error k w ∧ t = ⟨s.locals, w⟩ := by
  unfold inWorld at h
  cases hm : m s.world with
  | ok a w => rw [hm] at h; cases h
  | error k' w =>
    rw [hm] at h
    cases h
    exact ⟨w, rfl, rfl⟩

theorem inWorld_ok {m : EStateM Halt World α} {a : α} (h : inWorld m s = .ok a t) :
    ∃ w, m s.world = .ok a w ∧ t = ⟨s.locals, w⟩ := by
  unfold inWorld at h
  cases hm : m s.world with
  | ok a' w =>
    rw [hm] at h
    cases h
    exact ⟨w, rfl, rfl⟩
  | error k w => rw [hm] at h; cases h

/-- A logical operator looks at its operands as conditions. -/
theorem eval_and (line : Nat) (l r : Expr) :
    eval f (.binary line .and l r) = condition f l >>= fun b =>
      if b then condition f r >>= fun b => pure (.bool b) else pure (.bool false) := by
  simp only [condition, bind_assoc]
  rfl

theorem eval_or (line : Nat) (l r : Expr) :
    eval f (.binary line .or l r) = condition f l >>= fun b =>
      if b then pure (.bool true) else condition f r >>= fun b => pure (.bool b) := by
  simp only [condition, bind_assoc]
  rfl

theorem store_error {slot : Program.Slot} {v : Value} (h : store slot v s = .error k t) :
    k = .broken := by
  by_cases hslot : slot < s.locals.size
  · rw [store_eq hslot] at h
    cases h
  · rw [store_broken hslot] at h
    cases h
    rfl

/-! ### Lists of values -/

/-- A loop over the integers of a range is a loop over values. -/
theorem loopCount_eq_loopOver (slot : Program.Slot) (body : Exec Flow) (i : Int) (n : Nat) :
    loopCount slot body i n =
      loopOver slot body ((List.range n).map fun (j : Nat) => .int (Int64.ofInt (i + j))) := by
  induction n generalizing i with
  | zero => rfl
  | succ n ih =>
    have hrest : (List.range n).map (fun (j : Nat) => Value.int (Int64.ofInt (i + 1 + j))) =
        (List.range n).map ((fun (j : Nat) => Value.int (Int64.ofInt (i + j))) ∘ Nat.succ) := by
      refine List.map_congr_left fun j _ => ?_
      have hsum : i + 1 + (j : Int) = i + ((j + 1 : Nat) : Int) := by omega
      rw [hsum]
      rfl
    rw [List.range_succ_eq_map, List.map_cons, List.map_map, loopCount, loopOver, ih, hrest]
    simp only [Int.natCast_zero, Int.add_zero]

end

section

variable {f : Frame} {k : Halt}

/-! ### Halts of what a run works on -/

theorem Stops.halted {n : Node} {s t : State} (h : Stops f n s k t) : Halted f n s k t :=
  ⟨n, s, .refl, .own h⟩

theorem Leads.trans {n n' n'' : Node} {s s' s'' : State} (h : Leads f n s n' s')
    (h' : Leads f n' s' n'' s'') : Leads f n s n'' s'' := by
  induction h with
  | refl => exact h'
  | head part _ ih => exact .head part (ih h')

/-- What halts at a part of something halts at something inside it. -/
theorem Part.halted {n n' : Node} {s s' t : State} (part : Part f n s n' s')
    (h : Halted f n' s' k t) : Halted f n s k t := by
  obtain ⟨m, u, hleads, hends⟩ := h
  exact ⟨m, u, .head part hleads, hends⟩

/-- One of some expressions halts, after the ones in front of it have been evaluated. -/
def HaltedAmong (f : Frame) (es : List Expr) (s : State) (k : Halt) (t : State) : Prop :=
  ∃ e u, ComesTo (Evaluates f) es s e u ∧ Halted f (.value e) u k t

/-- One of some statements halts, after the ones in front of it have been executed. -/
def HaltedIn (f : Frame) (ss : List Stmt) (s : State) (k : Halt) (t : State) : Prop :=
  ∃ x u, ComesTo (Executes f) ss s x u ∧ Halted f (.stmt x) u k t

/-- A condition halts with its expression, or its value is no truth value. -/
theorem halted_condition {e : Expr} {s t : State}
    (he : ∀ {t}, eval f e s = .error k t → Halted f (.value e) s k t)
    (h : condition f e s = .error k t) : Halted f (.condition e) s k t := by
  rcases bind_error h with hvalue | ⟨v, u, hvalue, htruth⟩
  · exact Part.condition.halted (he hvalue)
  · obtain ⟨hother, rfl, rfl⟩ := truth_error htruth
    exact (Stops.condition hvalue hother).halted

theorem halted_bound {e : Expr} {s t : State} {β : Type} {g : Int64 → Exec β}
    (he : ∀ {t}, eval f e s = .error k t → Halted f (.value e) s k t)
    (h : (eval f e >>= fun v => bound f e.line v >>= g) s = .error k t) :
    Halted f (.bound e) s k t ∨ ∃ n u, Bounds f e s n u ∧ g n u = .error k t := by
  rcases bind_error h with hvalue | ⟨v, u, hvalue, hlater⟩
  · exact .inl (Part.bound.halted (he hvalue))
  rcases bind_error hlater with hbound | ⟨n, w, hbound, hrest⟩
  · obtain ⟨hother, rfl, rfl⟩ := bound_error hbound
    exact .inl (Stops.bound hvalue hother).halted
  · obtain ⟨rfl, rfl⟩ := bound_ok hbound
    exact .inr ⟨n, w, hvalue, hrest⟩

end

end ReportTemplate.Machine
