import ReportTemplate.EntryPoint
import ReportTemplate.Proofs.Program.InRange

/-!
# ReportTemplate.Proofs.Machine.Counts — calls with as many arguments as the callee takes

A run of a program whose indices are in range never calls a library function or a document method with
another number of arguments than it takes: whatever they would do then, the run is the same.
-/

namespace ReportTemplate.Program

/-! ### Other functions in place of those of a program -/

section

variable (F : Function → Function) (D : DocumentMethod → DocumentMethod)

mutual

/-- An expression with other functions and document methods in its calls. -/
def Expr.replace : Expr → Expr
  | .const line v => .const line v
  | .slot line i => .slot line i
  | .list line items => .list line (Expr.replaceAll items)
  | .unary line op operand => .unary line op operand.replace
  | .binary line op left right => .binary line op left.replace right.replace
  | .index line target place => .index line target.replace place.replace
  | .callMethod line id args => .callMethod line id (Expr.replaceAll args)
  | .callFunction line g args => .callFunction line (F g) (Expr.replaceAll args)
  | .callSlot line i name args => .callSlot line i name (Expr.replaceAll args)
  | .callDocument line m receiver args =>
    .callDocument line (D m) receiver.replace (Expr.replaceAll args)
  | .callDynamic line name receiver args document function =>
    .callDynamic line name receiver.replace (Expr.replaceAll args) (document.map D) (function.map F)

def Expr.replaceAll : List Expr → List Expr
  | [] => []
  | e :: es => e.replace :: Expr.replaceAll es

end

mutual

def Stmt.replace : Stmt → Stmt
  | .store line slot value => .store line slot (value.replace F D)
  | .expr line value => .expr line (value.replace F D)
  | .branch line branches otherwise =>
    .branch line (Stmt.replaceArms branches) (Stmt.replaceOtherwise otherwise)
  | .loop line cond body => .loop line (cond.replace F D) (Stmt.replaceAll body)
  | .forEach line slot items body => .forEach line slot (items.replace F D) (Stmt.replaceAll body)
  | .forRange line slot start stop body =>
    .forRange line slot (start.replace F D) (stop.replace F D) (Stmt.replaceAll body)
  | .result line none => .result line none
  | .result line (some value) => .result line (some (value.replace F D))

def Stmt.replaceAll : List Stmt → List Stmt
  | [] => []
  | s :: ss => s.replace :: Stmt.replaceAll ss

def Stmt.replaceArms : List (Expr × List Stmt) → List (Expr × List Stmt)
  | [] => []
  | (cond, body) :: rest => (cond.replace F D, Stmt.replaceAll body) :: Stmt.replaceArms rest

def Stmt.replaceOtherwise : Option (List Stmt) → Option (List Stmt)
  | none => none
  | some body => some (Stmt.replaceAll body)

end

/-- A program with other functions and document methods in its calls. -/
def replace (p : Program) : Program :=
  { p with methods := p.methods.map fun m => { m with body := Stmt.replaceAll F D m.body } }

theorem Expr.line_replace (e : Expr) : (e.replace F D).line = e.line := by
  cases e <;> rfl

/-- Functions that differ on other numbers of arguments than they take, if at all. -/
structure SameOnCounts : Prop where
  functionName : ∀ g : Function, (F g).name = g.name
  function : ∀ (g : Function) (args : List Value), g.params = args.length →
    (F g).call args = g.call args
  methodName : ∀ m : DocumentMethod, (D m).name = m.name
  method : ∀ (m : DocumentMethod) (args : List Value), m.params = args.length →
    (D m).call args = m.call args

end

end ReportTemplate.Program

namespace ReportTemplate.Machine

open Program (Expr Stmt SameOnCounts)

/-! ### Runs -/

section

variable {α β : Type}

/-- What follows a computation matters only for the values that it gives. -/
theorem bind_congr_ok {x : Exec α} {f g : α → Exec β}
    (h : ∀ s a t, x s = .ok a t → f a = g a) : x >>= f = x >>= g := by
  funext s
  show EStateM.bind x f s = EStateM.bind x g s
  unfold EStateM.bind
  cases hx : x s with
  | ok a t =>
    dsimp only
    rw [h s a t hx]
  | error k t => rfl

end

section

variable {f : Frame}

theorem evalAll_length : ∀ {es : List Expr} {s t : State} {vs : List Value},
    evalAll f es s = .ok vs t → vs.length = es.length
  | [], _, _, _, h => by cases h; rfl
  | e :: es, s, t, vs, h => by
    have hrun : evalAll f (e :: es) s = EStateM.bind (eval f e)
      (fun v => EStateM.bind (evalAll f es) fun vs => EStateM.pure (v :: vs)) s := rfl
    rw [hrun] at h
    unfold EStateM.bind at h
    cases he : eval f e s with
    | error k u => rw [he] at h; cases h
    | ok v u =>
      rw [he] at h
      dsimp only at h
      cases hes : evalAll f es u with
      | error k w => rw [hes] at h; cases h
      | ok ws w =>
        rw [hes] at h
        cases h
        rw [List.length_cons, List.length_cons, evalAll_length hes]

variable {F : Function → Function} {D : DocumentMethod → DocumentMethod} {p : Program} {size : Nat}

/-- Behind the evaluation of some arguments their number is known. -/
theorem bind_evalAll_congr {β : Type} {es : List Expr} {k l : List Value → Exec β}
    (hkl : ∀ vs : List Value, vs.length = es.length → k vs = l vs) :
    evalAll f es >>= k = evalAll f es >>= l :=
  bind_congr_ok fun _ vs _ hrun => hkl vs (evalAll_length hrun)

theorem callDocument_replace (h : SameOnCounts F D) (line : Nat) (name : String) {m : DocumentMethod}
    {vs : List Value} (hcount : m.params = vs.length) :
    callDocument f line name (D m) vs = callDocument f line name m vs := by
  unfold callDocument
  rw [h.method m vs hcount]

theorem callDynamic_document {line : Nat} {name : String} {r : Value} (hr : r.isDocument = true)
    (vs : List Value) (m : DocumentMethod) (function : Option Function) :
    callDynamic f line name r vs (some m) function = callDocument f line name m vs := by
  unfold callDynamic
  rw [hr]

theorem callDynamic_value {line : Nat} {name : String} {r : Value} (hr : r.isDocument = false)
    (vs : List Value) (document : Option DocumentMethod) (function : Option Function) :
    callDynamic f line name r vs document function = callDynamic f line name r vs none function := by
  unfold callDynamic
  rw [hr]
  cases document <;> rfl

theorem callDynamic_replace_function (h : SameOnCounts F D) (line : Nat) (name : String) (r : Value)
    {vs : List Value} {function : Option Function}
    (hfunction : ∀ g ∈ function, g.params = vs.length + 1) :
    callDynamic f line name r vs none (function.map F) =
      callDynamic f line name r vs none function := by
  unfold callDynamic
  cases function with
  | none => rfl
  | some g =>
    have hcount : g.params = (r :: vs).length := hfunction g rfl
    show attempt f line _ ((F g).call (r :: vs)) = attempt f line _ (g.call (r :: vs))
    rw [h.function g _ hcount]

theorem callDynamic_replace (h : SameOnCounts F D) (line : Nat) (name : String) (r : Value)
    {vs : List Value} {document : Option DocumentMethod} {function : Option Function}
    (hdocument : ∀ m ∈ document, m.params = vs.length)
    (hfunction : ∀ g ∈ function, g.params = vs.length + 1) :
    callDynamic f line name r vs (document.map D) (function.map F) =
      callDynamic f line name r vs document function := by
  have hfallback := callDynamic_replace_function (f := f) h line name r hfunction
  cases hr : r.isDocument with
  | false => rw [callDynamic_value hr, hfallback, callDynamic_value hr vs document]
  | true =>
    cases document with
    | none => exact hfallback
    | some m =>
      rw [Option.map_some, callDynamic_document hr, callDynamic_document hr]
      exact callDocument_replace h line name (hdocument m rfl)

mutual

theorem eval_replace (h : SameOnCounts F D) : ∀ e : Expr, e.InRange p size → eval f (e.replace F D) = eval f e
  | .const _ _, _ => rfl
  | .slot _ _, _ => rfl
  | .list _ items, he => by
    have hitems : Expr.AllInRange p size items := he
    rw [Expr.replace, eval, eval, evalAll_replace h items hitems]
  | .unary _ op operand, he => by
    have hoperand : operand.InRange p size := he
    rw [Expr.replace, eval, eval, eval_replace h operand hoperand]
  | .binary line op left right, he => by
    have hleft := eval_replace h left he.1
    have hright := eval_replace h right he.2
    cases op <;>
      simp only [Expr.replace, eval, hleft, hright, Expr.line_replace]
  | .index _ target place, he => by
    rw [Expr.replace, eval, eval, eval_replace h target he.1, eval_replace h place he.2]
  | .callMethod _ _ args, he => by
    rw [Expr.replace, eval, eval, evalAll_replace h args he.2]
  | .callFunction line g args, he => by
    rw [Expr.replace, eval, eval, evalAll_replace h args he.2]
    refine bind_evalAll_congr fun vs hvs => ?_
    rw [h.functionName, h.function g vs (he.1.trans hvs.symm)]
  | .callSlot _ _ _ args, he => by
    rw [Expr.replace, eval, eval, evalAll_replace h args he.2]
  | .callDocument line m receiver args, he => by
    rw [Expr.replace, eval, eval, eval_replace h receiver he.2.1, evalAll_replace h args he.2.2]
    refine bind_congr fun r => bind_evalAll_congr fun vs hvs => ?_
    rw [h.methodName, callDocument_replace h line m.name (he.1.trans hvs.symm)]
  | .callDynamic line name receiver args document function, he => by
    obtain ⟨hdocument, hfunction, hreceiver, hargs⟩ := he
    rw [Expr.replace, eval, eval, eval_replace h receiver hreceiver, evalAll_replace h args hargs]
    refine bind_congr fun r => bind_evalAll_congr fun vs hvs => ?_
    refine callDynamic_replace h line name r ?_ ?_
    · rw [hvs]
      exact hdocument
    · rw [hvs]
      exact hfunction

theorem evalAll_replace (h : SameOnCounts F D) : ∀ es : List Expr, Expr.AllInRange p size es →
    evalAll f (Expr.replaceAll F D es) = evalAll f es
  | [], _ => rfl
  | e :: es, he => by
    rw [Expr.replaceAll, evalAll, evalAll, eval_replace h e he.1, evalAll_replace h es he.2]

end

theorem condition_replace (h : SameOnCounts F D) {e : Expr} (he : e.InRange p size) :
    condition f (e.replace F D) = condition f e := by
  unfold condition
  rw [eval_replace h e he, Expr.line_replace]

mutual

theorem exec_replace (h : SameOnCounts F D) : ∀ s : Stmt, s.InRange p size → exec f (s.replace F D) = exec f s
  | .store _ _ value, hs => by
    rw [Stmt.replace, exec, exec, eval_replace h value hs.2]
  | .expr _ value, hs => by
    have hvalue : value.InRange p size := hs
    rw [Stmt.replace, exec, exec, eval_replace h value hvalue]
  | .branch _ branches otherwise, hs => by
    rw [Stmt.replace, exec, exec, execOtherwise_replace h otherwise hs.2,
      execArms_replace h branches hs.1]
  | .loop _ cond body, hs => by
    rw [Stmt.replace, exec, exec, condition_replace h hs.1, execAll_replace h body hs.2]
  | .forEach _ _ items body, hs => by
    rw [Stmt.replace, exec, exec, eval_replace h items hs.2.1, execAll_replace h body hs.2.2]
  | .forRange _ _ start stop body, hs => by
    obtain ⟨-, hstart, hstop, hbody⟩ := hs
    rw [Stmt.replace, exec, exec, eval_replace h start hstart, eval_replace h stop hstop,
      execAll_replace h body hbody, Expr.line_replace, Expr.line_replace]
  | .result _ none, _ => rfl
  | .result _ (some value), hs => by
    have hvalue : value.InRange p size := hs
    rw [Stmt.replace, exec, exec, eval_replace h value hvalue]

theorem execAll_replace (h : SameOnCounts F D) : ∀ ss : List Stmt, Stmt.AllInRange p size ss →
    execAll f (Stmt.replaceAll F D ss) = execAll f ss
  | [], _ => rfl
  | s :: ss, hs => by
    rw [Stmt.replaceAll, execAll, execAll, exec_replace h s hs.1, execAll_replace h ss hs.2]

theorem execArms_replace (h : SameOnCounts F D) : ∀ bs : List (Expr × List Stmt),
    Stmt.ArmsInRange p size bs → ∀ otherwise : Exec Flow,
      execArms f (Stmt.replaceArms F D bs) otherwise = execArms f bs otherwise
  | [], _, _ => rfl
  | (cond, body) :: rest, hs, otherwise => by
    rw [Stmt.replaceArms, execArms, execArms, condition_replace h hs.1, execAll_replace h body hs.2.1,
      execArms_replace h rest hs.2.2]

theorem execOtherwise_replace (h : SameOnCounts F D) : ∀ o : Option (List Stmt),
    Stmt.OtherwiseInRange p size o → execOtherwise f (Stmt.replaceOtherwise F D o) = execOtherwise f o
  | none, _ => rfl
  | some body, hs => by
    have hbody : Stmt.AllInRange p size body := hs
    rw [Stmt.replaceOtherwise, execOtherwise, execOtherwise, execAll_replace h body hbody]

end

theorem run_replace (h : SameOnCounts F D) (hp : p.InRange) (steps : Nat) (call? : Option Call) :
    run (p.replace F D) steps call? = run p steps call? := by
  funext id args world
  have hmethods : (p.replace F D).methods[id]? =
      (p.methods[id]?).map fun m => { m with body := Stmt.replaceAll F D m.body } :=
    List.getElem?_map
  unfold run
  rw [hmethods]
  cases hm : p.methods[id]? with
  | none => rfl
  | some m =>
    have hbody := (hp.body m (List.mem_of_getElem? hm)).2
    rw [Option.map_some]
    dsimp only
    rw [execAll_replace h m.body hbody]
    rfl

/-- **Numbers of arguments**: the run of a program whose indices are in range does not depend on what a
function or a document method does with another number of arguments than it takes. -/
theorem invoke_replace (h : SameOnCounts F D) (hp : p.InRange) (steps depth : Nat) :
    invoke (p.replace F D) steps depth = invoke p steps depth := by
  induction depth with
  | zero => exact run_replace h hp steps none
  | succ depth ih =>
    unfold invoke
    rw [ih]
    exact run_replace h hp steps _

end

end ReportTemplate.Machine
