import ReportTemplate.Machine
import ReportTemplate.Program.Resolution
import ReportTemplate.Proofs.Scoped.Scopes

/-!
# ReportTemplate.Proofs.Scoped.Interpreter — the meaning of a template by its syntax tree

The interpreter walks the syntax tree with an environment of named scopes: a scope for each block and
for each round of a `for`, a `let` visible behind its value, an assignment at the declaration that a
name stands for.  What a call does to the document and the log is what the machine does.

The kind of a method call follows from the static type of its receiver.  Static types follow the text:
`typeOf` and `afterStmt` carry the types of the locals from statement to statement.
-/

namespace ReportTemplate.Scoped

open Program (Surroundings Declarations Pending MethodId TypeId)

/-! ### Static types -/

section Types

variable (env : Surroundings)

/-- The class that the receiver of a call names, if it is a name, but not of a local. -/
def receiverType? {α : Type} (scopes : Scopes α) : Syntax.Expr → Option TypeId
  | .ident _ name =>
    match scopes.read? name with
    | some _ => none
    | none => env.declared.findType? name
  | _ => none

theorem receiverType?_local {α : Type} {scopes : Scopes α} {name : String} {a : α}
    (h : scopes.read? name = some a) (span : Span) :
    receiverType? env scopes (.ident span name) = none := by
  simp only [receiverType?, h]

theorem receiverType?_free {α : Type} {scopes : Scopes α} {name : String}
    (h : scopes.read? name = none) (span : Span) :
    receiverType? env scopes (.ident span name) = env.declared.findType? name := by
  simp only [receiverType?, h]

/-- The static type of a call of a method, if there is one. -/
def returnType : Option MethodId → Ty
  | some id => ((env.declared.methods[id]?).map fun m => m.signature.returns).getD .any
  | none => .any

/-- The static type of a call of what a local of some type holds. -/
def calledType : Ty → Ty
  | .callback _ => .void
  | _ => .any

/-- The static type of a method call on a receiver of some type. -/
def methodType : Ty → Ty
  | .document => .void
  | _ => .any

/-- The static type of an expression where the locals have some types. -/
def typeOf (types : Scopes Ty) : Syntax.Expr → Ty
  | .literal _ value => (Program.Resolve.literal value).2
  | .ident _ name => (types.read? name).getD .any
  | .list _ _ => .list
  | .unary _ op operand => Program.Resolve.unaryType op (typeOf types operand)
  | .binary _ op left right =>
    Program.Resolve.binaryType op (typeOf types left) (typeOf types right)
  | .index _ _ _ => .any
  | .call _ callee _ =>
    match types.read? callee.text with
    | some ty => calledType ty
    | none => returnType env (env.declared.findMethod? env.owner callee.text)
  | .method _ receiver method _ =>
    match receiverType? env types receiver with
    | some type => returnType env (env.declared.findMethod? type method.text)
    | none => methodType (typeOf types receiver)

/-- The types of the locals behind an assignment: a local that is given values of different types has
the type `any` from there on. -/
def assignType (name : String) (ty : Ty) (types : Scopes Ty) : Scopes Ty :=
  if (types.read? name).getD .any = ty then types else types.assign name .any

mutual

/-- The types of the locals behind a statement. -/
def afterStmt (types : Scopes Ty) : Syntax.Stmt → Scopes Ty
  | .declare _ name value => types.declare name.text (typeOf env types value)
  | .assign _ name value => assignType name.text (typeOf env types value) types
  | .expr _ _ | .result _ _ => types
  | .branch _ branches otherwise => afterOtherwise (afterArms types branches) otherwise
  | .loop _ _ body => (afterAll types.enter body).leave
  | .forEach _ binding _ body =>
    (afterAll (types.enter.declare binding.text .any).enter body).leave.leave
  | .forRange _ binding _ _ body =>
    (afterAll (types.enter.declare binding.text .int).enter body).leave.leave

def afterAll (types : Scopes Ty) : List Syntax.Stmt → Scopes Ty
  | [] => types
  | s :: ss => afterAll (afterStmt types s) ss

def afterArms (types : Scopes Ty) : List (Syntax.Expr × List Syntax.Stmt) → Scopes Ty
  | [] => types
  | (_, body) :: rest => afterArms (afterAll types.enter body).leave rest

def afterOtherwise (types : Scopes Ty) : Option (List Syntax.Stmt) → Scopes Ty
  | none => types
  | some body => (afterAll types.enter body).leave

end

end Types

/-! ### States -/

/-- A call that reached the log: the name it was made by, and its arguments. -/
structure Reached where
  callee : Syntax.Ident
  args : List Value

/-- What a run leaves behind, and the calls that reached the log, in their order. -/
structure World where
  left : Machine.World
  reached : List Reached := []

/-- What changes during a call: what the visible names stand for, and the world. -/
structure State where
  scopes : Scopes Value
  world : World

/-- A computation inside a call. -/
abbrev Exec := EStateM Machine.Halt State

/-- A call of a method, on what the run has left behind so far. -/
abbrev Call := MethodId → List Value → EStateM Machine.Halt World Value

/-- What stays fixed during a call. -/
structure Frame where
  env : Surroundings
  /-- The name of the method with the path of its class. -/
  method : String
  /-- The rounds that a loop on a condition may take. -/
  steps : Nat
  /-- How a method is called, unless the calls are nested as deep as they may be. -/
  call? : Option Call

/-- The line on which something stands. -/
def Frame.line (f : Frame) (span : Span) : Nat := f.env.lines.line span.start

/-- The frame for what does not look at locals. -/
def Frame.machine (f : Frame) : Machine.Frame := ⟨f.method, f.steps, none⟩

variable {α : Type}

/-- A computation of the machine that does not look at locals. -/
def primitive (m : Machine.Exec α) : Exec α := fun s =>
  match m ⟨#[], s.world.left⟩ with
  | .ok a t => .ok a { s with world := { s.world with left := t.world } }
  | .error h t => .error h { s with world := { s.world with left := t.world } }

/-- A computation on the world alone. -/
def inWorld (m : EStateM Machine.Halt World α) : Exec α := fun s =>
  match m s.world with
  | .ok a w => .ok a { s with world := w }
  | .error h w => .error h { s with world := w }

def fail (f : Frame) (line : Nat) (cause : Machine.Cause) : Exec α :=
  primitive (Machine.fail f.machine line cause)

def attempt (f : Frame) (line : Nat) (cause : Refusal → Machine.Cause) (r : Except Refusal α) :
    Exec α := primitive (Machine.attempt f.machine line cause r)

/-- What a name stands for. -/
def load (name : String) : Exec Value := do
  match (← get).scopes.read? name with
  | some v => return v
  | none => throw .broken

def declare (name : String) (v : Value) : Exec Unit :=
  modify fun s => { s with scopes := s.scopes.declare name v }

def assign (name : String) (v : Value) : Exec Unit := do
  let s ← get
  match s.scopes.read? name with
  | some _ => set { s with scopes := s.scopes.assign name v }
  | none => throw .broken

/-- A computation in a scope of its own. -/
def inScope (body : Exec α) : Exec α := do
  modify fun s => { s with scopes := s.scopes.enter }
  let a ← body
  modify fun s => { s with scopes := s.scopes.leave }
  return a

/-! ### Calls -/

/-- A call of what a local holds. -/
def callValue (f : Frame) (line : Nat) (callee : Syntax.Ident) (args : List Value) :
    Value → Exec Value
  | .log => do
    modify fun s =>
      { s with world := { s.world with reached := s.world.reached ++ [⟨callee, args⟩] } }
    primitive (Machine.callLog f.machine line callee.text args)
  | v => fail f line (.notCallable callee.text v.kind)

/-- A call of a method of the template. -/
def callMethod (f : Frame) (line : Nat) (args : List Value) : Option MethodId → Exec Value
  | some id =>
    match f.call? with
    | some call => inWorld (call id args)
    | none => fail f line .tooDeep
  | none => throw .broken

def callFunction (f : Frame) (line : Nat) (args : List Value) : Option Function → Exec Value
  | some g => attempt f line (.refusedBy g.name) (g.call args)
  | none => throw .broken

/-- A call of a name that is no local: a method of the own class, or a library function. -/
def plainCall (f : Frame) (line : Nat) (name : String) (args : List Value) : Exec Value :=
  match f.env.declared.findMethod? f.env.owner name with
  | some id => callMethod f line args (some id)
  | none => callFunction f line args (f.env.refs.function? name)

/-- A method call on a receiver of a static type. -/
def methodCall (f : Frame) (line : Nat) (ty : Ty) (name : String) (receiver : Value)
    (args : List Value) : Exec Value :=
  match ty with
  | .document =>
    match f.env.refs.documentMethod? name with
    | some m =>
      if receiver.isDocument then primitive (Machine.callDocument f.machine line m.name m args)
      else fail f line (.refused (.expected "Document" receiver.kind))
    | none => throw .broken
  | .any =>
    primitive (Machine.callDynamic f.machine line name receiver args
      ((f.env.refs.documentMethod? name).filter fun m => m.params = args.length)
      ((f.env.refs.function? name).filter fun g => g.params = args.length + 1))
  | _ => callFunction f line (receiver :: args) (f.env.refs.function? name)

/-! ### Expressions -/

mutual

/-- The value of an expression; its parts are evaluated from left to right. -/
def eval (f : Frame) (types : Scopes Ty) : Syntax.Expr → Exec Value
  | .literal _ value => return (Program.Resolve.literal value).1
  | .ident _ name => load name
  | .list _ items => do
    let vs ← evalAll f types items
    return .list vs
  | .unary span op operand => do
    let v ← eval f types operand
    attempt f (f.line span) .refused (Value.unary op v)
  | .binary _ .and left right => do
    let v ← eval f types left
    if ← primitive (Machine.truth f.machine (f.line left.span) v) then
      let v ← eval f types right
      let b ← primitive (Machine.truth f.machine (f.line right.span) v)
      return .bool b
    else return .bool false
  | .binary _ .or left right => do
    let v ← eval f types left
    if ← primitive (Machine.truth f.machine (f.line left.span) v) then return .bool true
    else
      let v ← eval f types right
      let b ← primitive (Machine.truth f.machine (f.line right.span) v)
      return .bool b
  | .binary span op left right => do
    let a ← eval f types left
    let b ← eval f types right
    attempt f (f.line span) .refused (Value.binary op a b)
  | .index span target place => do
    let t ← eval f types target
    let p ← eval f types place
    attempt f (f.line span) .refused (Value.index t p)
  | .call span callee args => do
    let vs ← evalAll f types args
    match (← get).scopes.read? callee.text with
    | some v => callValue f (f.line span) callee vs v
    | none => plainCall f (f.line span) callee.text vs
  | .method span receiver method args => do
    match receiverType? f.env (← get).scopes receiver with
    | some type =>
      let vs ← evalAll f types args
      callMethod f (f.line span) vs (f.env.declared.findMethod? type method.text)
    | none =>
      let r ← eval f types receiver
      let vs ← evalAll f types args
      methodCall f (f.line span) (typeOf f.env types receiver) method.text r vs

def evalAll (f : Frame) (types : Scopes Ty) : List Syntax.Expr → Exec (List Value)
  | [] => return []
  | e :: es => do
    let v ← eval f types e
    let vs ← evalAll f types es
    return v :: vs

end

/-- The truth value of an expression. -/
def condition (f : Frame) (types : Scopes Ty) (e : Syntax.Expr) : Exec Bool := do
  let v ← eval f types e
  primitive (Machine.truth f.machine (f.line e.span) v)

/-! ### Statements -/

/-- A body as long as a condition holds, for some rounds at most. -/
def loopWhile (condition : Exec Bool) (body : Exec Machine.Flow) : Nat → Exec Machine.Flow
  | 0 => throw .outOfSteps
  | n + 1 => do
    if ← condition then
      match ← body with
      | .next => loopWhile condition body n
      | .returned v => return .returned v
    else return .next

/-- A body for each of some values, each time in a scope where a name stands for the value. -/
def loopOver (name : String) (body : Exec Machine.Flow) : List Value → Exec Machine.Flow
  | [] => return .next
  | v :: vs => do
    match ← inScope (do declare name v; body) with
    | .next => loopOver name body vs
    | .returned v => return .returned v

/-- The integers from `i` on, `n` of them. -/
def integersFrom (i : Int) : Nat → List Value
  | 0 => []
  | n + 1 => .int (Int64.ofInt i) :: integersFrom (i + 1) n

mutual

def exec (f : Frame) (types : Scopes Ty) : Syntax.Stmt → Exec Machine.Flow
  | .declare _ name value => do
    let v ← eval f types value
    declare name.text v
    return .next
  | .assign _ name value => do
    let v ← eval f types value
    assign name.text v
    return .next
  | .expr _ value => do
    let _ ← eval f types value
    return .next
  | .branch _ branches otherwise =>
    execArms f types branches (execOtherwise f (afterArms f.env types branches) otherwise)
  | .loop _ cond body =>
    loopWhile (condition f types cond) (inScope (execAll f types.enter body)) f.steps
  | .forEach span binding items body => do
    let v ← eval f types items
    let vs ← attempt f (f.line span) .refused v.items
    loopOver binding.text
      (inScope (execAll f (types.enter.declare binding.text .any).enter body)) vs
  | .forRange _ binding start stop body => do
    let a ← eval f types start
    let a ← primitive (Machine.bound f.machine (f.line start.span) a)
    let b ← eval f types stop
    let b ← primitive (Machine.bound f.machine (f.line stop.span) b)
    loopOver binding.text
      (inScope (execAll f (types.enter.declare binding.text .int).enter body))
      (integersFrom a.toInt (b.toInt - a.toInt).toNat)
  | .result _ none => return .returned .null
  | .result _ (some value) => do
    let v ← eval f types value
    return .returned v

/-- The statements of a block, up to the first that returns. -/
def execAll (f : Frame) (types : Scopes Ty) : List Syntax.Stmt → Exec Machine.Flow
  | [] => return .next
  | s :: ss => do
    match ← exec f types s with
    | .next => execAll f (afterStmt f.env types s) ss
    | .returned v => return .returned v

/-- The block behind the first condition that holds. -/
def execArms (f : Frame) (types : Scopes Ty) :
    List (Syntax.Expr × List Syntax.Stmt) → Exec Machine.Flow → Exec Machine.Flow
  | [], otherwise => otherwise
  | (cond, body) :: rest, otherwise => do
    if ← condition f types cond then inScope (execAll f types.enter body)
    else execArms f (afterAll f.env types.enter body).leave rest otherwise

def execOtherwise (f : Frame) (types : Scopes Ty) : Option (List Syntax.Stmt) → Exec Machine.Flow
  | none => return .next
  | some body => inScope (execAll f types.enter body)

end

/-! ### Methods -/

/-- A template with its declarations, as its methods see it. -/
structure Template where
  refs : ReferenceSet
  lines : LineIndex
  declared : Declarations

/-- What a method of a class can refer to. -/
def Template.surroundings (t : Template) (owner : TypeId) : Surroundings :=
  ⟨t.refs, t.lines, t.declared, owner⟩

/-- The name of a method with the path of its class in front. -/
def Template.qualifiedName (t : Template) (m : Pending) : String :=
  ((t.declared.types[m.owner]?.map Program.TypeInfo.path).getD "") ++ "." ++ m.signature.name

/-- The names of the parameters of a method, with what they stand for, the latest first. -/
def parameters {β : Type} (m : Pending) (xs : List β) : Scopes β :=
  [((m.declaration.params.map fun p => p.name.text).zip xs).reverse]

/-- A method on its arguments, with the calls that it may make. -/
def run (t : Template) (steps : Nat) (call? : Option Call) : Call := fun id args world =>
  match t.declared.methods[id]? with
  | none => .error .broken world
  | some m =>
    let f : Frame := ⟨t.surroundings m.owner, t.qualifiedName m, steps, call?⟩
    let types := parameters m (m.signature.params.map Prod.snd)
    match inScope (execAll f types.enter m.declaration.body) ⟨parameters m args, world⟩ with
    | .ok flow s => .ok flow.value s.world
    | .error h s => .error h s.world

/-- A call of a method under which `depth` more calls may be nested. -/
def invoke (t : Template) (steps : Nat) : Nat → Call
  | 0 => run t steps none
  | depth + 1 => run t steps (some (invoke t steps depth))

end ReportTemplate.Scoped
