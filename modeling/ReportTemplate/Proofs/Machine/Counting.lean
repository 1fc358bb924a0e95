import ReportTemplate.EntryPoint

/-!
# ReportTemplate.Proofs.Machine.Counting — a machine that counts its calls

A call of the machine is told how many calls may still be nested in it.  A call of this one is not: there
is a counter, which goes up where the body of a method begins and down where the call ends, and which is
looked at before a method is called.  Moreover there is a record of the moments of the run, each with the
frames that are active and with what the counter shows.
-/

namespace ReportTemplate.Counting

open Machine (Halt Flow World Cause maxCallDepth)
open Program (Expr Stmt Slot MethodId)

/-! ### The record of a run -/

/-- What happens at a moment of a run. -/
inductive Event where
  /-- An expression is about to be evaluated, or a statement to be executed. -/
  | works (line : Nat)
  /-- A method is about to be called on arguments that have been evaluated. -/
  | calls (line : Nat) (id : MethodId) (args : List Value)
  /-- The body of a method is about to be executed. -/
  | enters
  /-- A call has ended, with or without a value, that found the counter at some depth. -/
  | leaves (found : Nat)

/-- A moment of a run. -/
structure Moment where
  /-- The methods of the active frames, the innermost first. -/
  frames : List String
  /-- What the counter shows. -/
  depth : Nat
  event : Event

/-- The counter of the calls and the record of the run. -/
structure Meter where
  depth : Nat := 0
  moments : List Moment := []

def Meter.note (m : Meter) (frames : List String) (event : Event) : Meter :=
  { m with moments := m.moments ++ [⟨frames, m.depth, event⟩] }

/-- The counter where the body of a method begins. -/
def Meter.enter (m : Meter) (frames : List String) : Meter :=
  { m with depth := m.depth + 1 }.note frames .enters

/-- The counter where a call ends that found another meter. -/
def Meter.leave (m : Meter) (frames : List String) (found : Meter) : Meter :=
  { m with depth := m.depth - 1 }.note frames (.leaves found.depth)

/-! ### The machine -/

/-- A computation inside a call. -/
abbrev Exec := EStateM Halt (Machine.State × Meter)

/-- A call of a method. -/
abbrev Call := MethodId → List Value → EStateM Halt (World × Meter) Value

/-- What stays fixed during a call. -/
structure Frame where
  method : String
  steps : Nat
  /-- The methods of the frames around this one, the innermost first. -/
  callers : List String
  call : Call

/-- The methods of the active frames. -/
def Frame.active (f : Frame) : List String := f.method :: f.callers

/-- The frame of the machine with some calls. -/
def Frame.bare (f : Frame) (call? : Option Machine.Call) : Machine.Frame := ⟨f.method, f.steps, call?⟩

section

variable {σ α : Type}

/-- A result beside a meter. -/
def beside (m : Meter) : EStateM.Result Halt σ α → EStateM.Result Halt (σ × Meter) α
  | .ok a s => .ok a (s, m)
  | .error k s => .error k (s, m)

/-- A computation of the machine that makes no calls. -/
def lift (x : EStateM Halt σ α) : EStateM Halt (σ × Meter) α := fun (s, m) => beside m (x s)

/-- A computation on the world and the meter. -/
def inWorld (x : EStateM Halt (World × Meter) α) : Exec α := fun (s, m) =>
  match x (s.world, m) with
  | .ok a (w, m) => .ok a ({ s with world := w }, m)
  | .error k (w, m) => .error k ({ s with world := w }, m)

end

def note (f : Frame) (event : Event) : Exec Unit := modify fun (s, m) => (s, m.note f.active event)

/-- A call of a method, unless the counter shows as many calls as may be nested. -/
def callMethod (f : Frame) (line : Nat) (id : MethodId) (args : List Value) : Exec Value := do
  note f (.calls line id args)
  let (_, m) ← get
  if maxCallDepth ≤ m.depth then lift (Machine.fail (f.bare none) line .tooDeep)
  else inWorld (f.call id args)

mutual

/-- The value of an expression; its parts are evaluated from left to right. -/
def eval (f : Frame) (e : Expr) : Exec Value := do
  note f (.works e.line)
  match e with
  | .const _ v => return v
  | .slot _ slot => lift (Machine.load slot)
  | .list _ items => do
    let vs ← evalAll f items
    return .list vs
  | .unary line op operand => do
    let v ← eval f operand
    lift (Machine.attempt (f.bare none) line .refused (Value.unary op v))
  | .binary _ .and left right => do
    let v ← eval f left
    if ← lift (Machine.truth (f.bare none) left.line v) then
      let v ← eval f right
      let b ← lift (Machine.truth (f.bare none) right.line v)
      return .bool b
    else return .bool false
  | .binary _ .or left right => do
    let v ← eval f left
    if ← lift (Machine.truth (f.bare none) left.line v) then return .bool true
    else
      let v ← eval f right
      let b ← lift (Machine.truth (f.bare none) right.line v)
      return .bool b
  | .binary line op left right => do
    let a ← eval f left
    let b ← eval f right
    lift (Machine.attempt (f.bare none) line .refused (Value.binary op a b))
  | .index line target place => do
    let t ← eval f target
    let p ← eval f place
    lift (Machine.attempt (f.bare none) line .refused (Value.index t p))
  | .callMethod line method args => do
    let vs ← evalAll f args
    callMethod f line method vs
  | .callFunction line function args => do
    let vs ← evalAll f args
    lift (Machine.attempt (f.bare none) line (.refusedBy function.name) (function.call vs))
  | .callSlot line slot name args => do
    let vs ← evalAll f args
    match ← lift (Machine.load slot) with
    | .log => lift (Machine.callLog (f.bare none) line name vs)
    | v => lift (Machine.fail (f.bare none) line (.notCallable name v.kind))
  | .callDocument line method receiver args => do
    let r ← eval f receiver
    let vs ← evalAll f args
    if r.isDocument then lift (Machine.callDocument (f.bare none) line method.name method vs)
    else lift (Machine.fail (f.bare none) line (.refused (.expected "Document" r.kind)))
  | .callDynamic line name receiver args document function => do
    let r ← eval f receiver
    let vs ← evalAll f args
    lift (Machine.callDynamic (f.bare none) line name r vs document function)

def evalAll (f : Frame) : List Expr → Exec (List Value)
  | [] => return []
  | e :: es => do
    let v ← eval f e
    let vs ← evalAll f es
    return v :: vs

end

/-- The truth value of an expression. -/
def condition (f : Frame) (e : Expr) : Exec Bool := do
  let v ← eval f e
  lift (Machine.truth (f.bare none) e.line v)

/-- A body as long as a condition holds, for some rounds at most. -/
def loopWhile (condition : Exec Bool) (body : Exec Flow) : Nat → Exec Flow
  | 0 => throw .outOfSteps
  | n + 1 => do
    if ← condition then
      match ← body with
      | .next => loopWhile condition body n
      | .returned v => return .returned v
    else return .next

/-- A body for each of some values in a slot. -/
def loopOver (slot : Slot) (body : Exec Flow) : List Value → Exec Flow
  | [] => return .next
  | v :: vs => do
    lift (Machine.store slot v)
    match ← body with
    | .next => loopOver slot body vs
    | .returned v => return .returned v

/-- A body for each of `n` integers from `i` on, in a slot. -/
def loopCount (slot : Slot) (body : Exec Flow) (i : Int) : Nat → Exec Flow
  | 0 => return .next
  | n + 1 => do
    lift (Machine.store slot (.int (Int64.ofInt i)))
    match ← body with
    | .next => loopCount slot body (i + 1) n
    | .returned v => return .returned v

mutual

def exec (f : Frame) (x : Stmt) : Exec Flow := do
  note f (.works x.line)
  match x with
  | .store _ slot value => do
    let v ← eval f value
    lift (Machine.store slot v)
    return .next
  | .expr _ value => do
    let _ ← eval f value
    return .next
  | .branch _ branches otherwise => execArms f branches (execOtherwise f otherwise)
  | .loop _ cond body => loopWhile (condition f cond) (execAll f body) f.steps
  | .forEach line slot items body => do
    let v ← eval f items
    let vs ← lift (Machine.attempt (f.bare none) line .refused v.items)
    loopOver slot (execAll f body) vs
  | .forRange _ slot start stop body => do
    let a ← eval f start
    let a ← lift (Machine.bound (f.bare none) start.line a)
    let b ← eval f stop
    let b ← lift (Machine.bound (f.bare none) stop.line b)
    loopCount slot (execAll f body) a.toInt (b.toInt - a.toInt).toNat
  | .result _ none => return .returned .null
  | .result _ (some value) => do
    let v ← eval f value
    return .returned v

/-- The statements of a block, up to the first that returns. -/
def execAll (f : Frame) : List Stmt → Exec Flow
  | [] => return .next
  | s :: ss => do
    match ← exec f s with
    | .next => execAll f ss
    | .returned v => return .returned v

/-- The block behind the first condition that holds. -/
def execArms (f : Frame) : List (Expr × List Stmt) → Exec Flow → Exec Flow
  | [], otherwise => otherwise
  | (cond, body) :: rest, otherwise => do
    if ← condition f cond then execAll f body else execArms f rest otherwise

def execOtherwise (f : Frame) : Option (List Stmt) → Exec Flow
  | none => return .next
  | some body => execAll f body

end

/-- A method on its arguments, inside the frames of its callers.  The counter goes down at the end of the
call, however the body ends. -/
def run (p : Program) (steps : Nat) (inner : List String → Call) (callers : List String) : Call :=
  fun id args (world, found) =>
    match p.methods[id]? with
    | none => .error .broken (world, found)
    | some m =>
      let active := p.qualifiedName m :: callers
      let f : Frame := ⟨p.qualifiedName m, steps, callers, inner active⟩
      let s : Machine.State := ⟨Machine.frameOf m.frameSize args, world⟩
      match execAll f m.body (s, found.enter active) with
      | .ok flow (s, m) => .ok flow.value (s.world, m.leave callers found)
      | .error k (s, m) => .error k (s.world, m.leave callers found)

/-- A call of a method.  The first number is there for the recursion only: calls that are nested deeper
are cut off. -/
def invoke (p : Program) (steps : Nat) : Nat → List String → Call
  | 0, _ => fun _ _ s => .error .broken s
  | level + 1, callers => run p steps (invoke p steps level) callers

end ReportTemplate.Counting

namespace ReportTemplate

/-- A run of the template on the counting machine, with a meter at zero. -/
def EntryPoint.count (e : EntryPoint) (steps level : Nat) (directory : String)
    (world : Machine.World) : EStateM.Result Machine.Halt (Machine.World × Counting.Meter) Value :=
  Counting.invoke e.program steps level [] e.id (e.args directory) (world, {})

end ReportTemplate
