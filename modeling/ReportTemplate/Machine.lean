import ReportTemplate.Program
import ReportTemplate.Value.Operator

/-!
# ReportTemplate.Machine — running a program

A call has a frame of slots; the document and the log are shared by all calls and only grow.  A run
ends with a value, with a failure that names the method and the line, or, when a loop has used up the
steps that it was given, without an answer.  What was done before a failure stays done.
-/

namespace ReportTemplate.Machine

open Program (Expr Stmt Slot MethodId)

/-- The most calls of template methods inside one another, the first included. -/
def maxCallDepth : Nat := 256

/-- One call of the log. -/
structure LogEntry where
  line : Int64
  text : String
  value : Value
deriving Repr

/-- The entry as a report shows it. -/
def LogEntry.shown (e : LogEntry) : String :=
  "#" ++ Value.intText e.line ++ ": " ++ e.text ++ ": " ++ e.value.text

/-- What a run leaves behind. -/
structure World where
  document : Document := {}
  log : Array LogEntry := #[]

/-- Why a run fails. -/
inductive Cause where
  | refused (r : Refusal)
  /-- A function or document method refused its arguments. -/
  | refusedBy (name : String) (r : Refusal)
  | notACondition (found : Value.Kind)
  | tooDeep
  | notCallable (name : String) (found : Value.Kind)
  | noMethod (found : Value.Kind) (name : String)
  | notLogged (name : String) (found : List Value.Kind)
deriving DecidableEq, Repr

def Cause.message : Cause → String
  | refused r => r.message
  | refusedBy name r => name ++ ": " ++ r.message
  | notACondition found => "condition must be bool, found " ++ found.text
  | tooDeep => "call depth exceeded " ++ toString maxCallDepth ++ " nested calls"
  | notCallable name found => "'" ++ name ++ "' of type " ++ found.text ++ " is not callable"
  | noMethod found name => found.text ++ " has no method '" ++ name ++ "'"
  | notLogged name found =>
    "'" ++ name ++ "' expects (int, string, any), found ("
      ++ ", ".intercalate (found.map Value.Kind.text) ++ ")"

/-- A failure of a run: in which method, on which line, and why. -/
structure Failure where
  method : String
  line : Nat
  cause : Cause
deriving DecidableEq, Repr

def Failure.message (f : Failure) : String :=
  f.method ++ " (line " ++ toString f.line ++ "): " ++ f.cause.message

/-- Why a run ends without a value. -/
inductive Halt where
  | failed (f : Failure)
  /-- A loop used up its steps. -/
  | outOfSteps
  /-- The program refers to a slot without a value, or to a method that it does not have. -/
  | broken
deriving DecidableEq, Repr

/-- How a block ends: at its end, or by returning a value. -/
inductive Flow where
  | next
  | returned (v : Value)

/-- A call of a method, on what the run has left behind so far. -/
abbrev Call := MethodId → List Value → EStateM Halt World Value

/-- What stays fixed during a call. -/
structure Frame where
  /-- The name of the method with the path of its class. -/
  method : String
  /-- The rounds that a loop on a condition may take. -/
  steps : Nat
  /-- How a method is called, unless the calls are nested as deep as they may be. -/
  call? : Option Call

/-- What changes during a call: the values of the slots, if they have one, and the world. -/
structure State where
  locals : Array (Option Value)
  world : World

/-- A computation inside a call. -/
abbrev Exec := EStateM Halt State

variable {α : Type}

def fail (f : Frame) (line : Nat) (cause : Cause) : Exec α := throw (.failed ⟨f.method, line, cause⟩)

/-- A computation on the world alone. -/
def inWorld (m : EStateM Halt World α) : Exec α := fun s =>
  match m s.world with
  | .ok a w => .ok a { s with world := w }
  | .error h w => .error h { s with world := w }

/-- The value of a slot. -/
def load (slot : Slot) : Exec Value := do
  match (← get).locals[slot]? with
  | some (some v) => return v
  | _ => throw .broken

def store (slot : Slot) (v : Value) : Exec Unit := do
  let s ← get
  if slot < s.locals.size then
    set { s with locals := s.locals.setIfInBounds slot (some v) }
  else throw .broken

/-- The value of an operation, or its refusal as a failure. -/
def attempt (f : Frame) (line : Nat) (cause : Refusal → Cause) (r : Except Refusal α) : Exec α :=
  match r with
  | .ok a => pure a
  | .error r => fail f line (cause r)

/-- A call of the log, with a line, a text and a value. -/
def callLog (f : Frame) (line : Nat) (name : String) : List Value → Exec Value
  | [.int n, .str text, v] => do
    modify fun s => { s with world := { s.world with log := s.world.log.push ⟨n, text, v⟩ } }
    return .null
  | args => fail f line (.notLogged name (args.map Value.kind))

/-- A method of the document under the name that a failure tells. -/
def callDocument (f : Frame) (line : Nat) (name : String) (m : DocumentMethod) (args : List Value) :
    Exec Value := do
  let block ← attempt f line (.refusedBy name) (m.call args)
  modify fun s => { s with world := { s.world with document := s.world.document.add block } }
  return .null

/-- A method call whose receiver's type shows now. -/
def callDynamic (f : Frame) (line : Nat) (name : String) (receiver : Value) (args : List Value)
    (document : Option DocumentMethod) (function : Option Function) : Exec Value :=
  match document, receiver.isDocument with
  | some m, true => callDocument f line name m args
  | _, _ =>
    match function with
    | some g => attempt f line (.refusedBy name) (g.call (receiver :: args))
    | none => fail f line (.noMethod receiver.kind name)

/-- The truth value of a condition. -/
def truth (f : Frame) (line : Nat) : Value → Exec Bool
  | .bool b => return b
  | v => fail f line (.notACondition v.kind)

/-- The integer that bounds a range. -/
def bound (f : Frame) (line : Nat) : Value → Exec Int64
  | .int n => return n
  | v => fail f line (.refused (.expected "int" v.kind))

mutual

/-- The value of an expression; its parts are evaluated from left to right. -/
def eval (f : Frame) : Expr → Exec Value
  | .const _ v => return v
  | .slot _ slot => load slot
  | .list _ items => do
    let vs ← evalAll f items
    return .list vs
  | .unary line op operand => do
    let v ← eval f operand
    attempt f line .refused (Value.unary op v)
  | .binary _ .and left right => do
    let v ← eval f left
    if ← truth f left.line v then
      let v ← eval f right
      let b ← truth f right.line v
      return .bool b
    else return .bool false
  | .binary _ .or left right => do
    let v ← eval f left
    if ← truth f left.line v then return .bool true
    else
      let v ← eval f right
      let b ← truth f right.line v
      return .bool b
  | .binary line op left right => do
    let a ← eval f left
    let b ← eval f right
    attempt f line .refused (Value.binary op a b)
  | .index line target place => do
    let t ← eval f target
    let p ← eval f place
    attempt f line .refused (Value.index t p)
  | .callMethod line method args => do
    let vs ← evalAll f args
    match f.call? with
    | some call => inWorld (call method vs)
    | none => fail f line .tooDeep
  | .callFunction line function args => do
    let vs ← evalAll f args
    attempt f line (.refusedBy function.name) (function.call vs)
  | .callSlot line slot name args => do
    let vs ← evalAll f args
    match ← load slot with
    | .log => callLog f line name vs
    | v => fail f line (.notCallable name v.kind)
  | .callDocument line method receiver args => do
    let r ← eval f receiver
    let vs ← evalAll f args
    if r.isDocument then callDocument f line method.name method vs
    else fail f line (.refused (.expected "Document" r.kind))
  | .callDynamic line name receiver args document function => do
    let r ← eval f receiver
    let vs ← evalAll f args
    callDynamic f line name r vs document function

def evalAll (f : Frame) : List Expr → Exec (List Value)
  | [] => return []
  | e :: es => do
    let v ← eval f e
    let vs ← evalAll f es
    return v :: vs

end

/-- The truth value of an expression. -/
def condition (f : Frame) (e : Expr) : Exec Bool := do
  let v ← eval f e
  truth f e.line v

/-- A body as long as a condition holds, for some rounds at most. -/
def loopWhile (condition : Exec Bool) (body : Exec Flow) : Nat → Exec Flow
  | 0 => throw .outOfSteps
  | n + 1 => do
    if ← condition then
      match ← body with
      | .next => loopWhile condition body n
      | .returned v => return .returned v
    else return .next

/-- A body for each of some values in a slot. -/
def loopOver (slot : Slot) (body : Exec Flow) : List Value → Exec Flow
  | [] => return .next
  | v :: vs => do
    store slot v
    match ← body with
    | .next => loopOver slot body vs
    | .returned v => return .returned v

/-- A body for each of `n` integers from `i` on, in a slot. -/
def loopCount (slot : Slot) (body : Exec Flow) (i : Int) : Nat → Exec Flow
  | 0 => return .next
  | n + 1 => do
    store slot (.int (Int64.ofInt i))
    match ← body with
    | .next => loopCount slot body (i + 1) n
    | .returned v => return .returned v

mutual

def exec (f : Frame) : Stmt → Exec Flow
  | .store _ slot value => do
    let v ← eval f value
    store slot v
    return .next
  | .expr _ value => do
    let _ ← eval f value
    return .next
  | .branch _ branches otherwise => execArms f branches (execOtherwise f otherwise)
  | .loop _ cond body => loopWhile (condition f cond) (execAll f body) f.steps
  | .forEach line slot items body => do
    let v ← eval f items
    let vs ← attempt f line .refused v.items
    loopOver slot (execAll f body) vs
  | .forRange _ slot start stop body => do
    let a ← eval f start
    let a ← bound f start.line a
    let b ← eval f stop
    let b ← bound f stop.line b
    loopCount slot (execAll f body) a.toInt (b.toInt - a.toInt).toNat
  | .result _ none => return .returned .null
  | .result _ (some value) => do
    let v ← eval f value
    return .returned v

/-- The statements of a block, up to the first that returns. -/
def execAll (f : Frame) : List Stmt → Exec Flow
  | [] => return .next
  | s :: ss => do
    match ← exec f s with
    | .next => execAll f ss
    | .returned v => return .returned v

/-- The block behind the first condition that holds. -/
def execArms (f : Frame) : List (Expr × List Stmt) → Exec Flow → Exec Flow
  | [], otherwise => otherwise
  | (cond, body) :: rest, otherwise => do
    if ← condition f cond then execAll f body else execArms f rest otherwise

def execOtherwise (f : Frame) : Option (List Stmt) → Exec Flow
  | none => return .next
  | some body => execAll f body

end

/-- The value that a call gives: null unless the body returns one. -/
def Flow.value : Flow → Value
  | next => .null
  | returned v => v

/-- The slots of a frame at the start of a call: the arguments, then slots without a value. -/
def frameOf (size : Nat) (args : List Value) : Array (Option Value) :=
  (args.map some ++ List.replicate (size - args.length) none).toArray

/-- A method on its arguments, with the calls that it may make. -/
def run (p : Program) (steps : Nat) (call? : Option Call) : Call := fun id args world =>
  match p.methods[id]? with
  | none => .error .broken world
  | some m =>
    match execAll ⟨p.qualifiedName m, steps, call?⟩ m.body ⟨frameOf m.frameSize args, world⟩ with
    | .ok flow s => .ok flow.value s.world
    | .error h s => .error h s.world

/-- A call of a method under which `depth` more calls may be nested. -/
def invoke (p : Program) (steps : Nat) : Nat → Call
  | 0 => run p steps none
  | depth + 1 => run p steps (some (invoke p steps depth))

end ReportTemplate.Machine
