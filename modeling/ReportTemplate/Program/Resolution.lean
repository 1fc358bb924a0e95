import ReportTemplate.Program.Declaration

/-!
# ReportTemplate.Program.Resolution — names become slots and calls

A name stands for the innermost and latest declaration that is visible at its place: parameters first,
then the `let`s and loop bindings of the blocks around it.  Every declaration has a slot of its own.
Names, numbers of arguments and callability are checked on the way.
-/

namespace ReportTemplate.Program

/-- A declared local. -/
structure Local where
  name : String
  ty : Ty
  span : Span
  used : Bool
  /-- To be reported when it is never used. -/
  watched : Bool
deriving Repr

/-- The method that is being resolved: its locals by slot, the visible names with the innermost and
latest first, and what was found wrong. -/
structure Scope where
  locals : List Local := []
  visible : List (String × Slot) := []
  found : List Diagnostic := []

/-- What the bodies of methods can refer to. -/
structure Surroundings where
  refs : ReferenceSet
  lines : LineIndex
  declared : Declarations
  /-- The class of the method. -/
  owner : TypeId

/-- A computation in the scope of a method. -/
abbrev Resolve := StateM Scope

namespace Resolve

def report (code : Diagnostic.Code) (message : String) (span : Span) : Resolve Unit :=
  modify fun s => { s with found := s.found ++ [⟨code, message, span, [], false⟩] }

/-- The slot and the type of a visible name. -/
def lookup (name : String) : Resolve (Option (Slot × Ty)) := do
  let s ← get
  match s.visible.lookup name with
  | some slot => return some (slot, (s.locals[slot]?.map Local.ty).getD .any)
  | none => return none

/-- Changes the local of a slot. -/
def change (slot : Slot) (f : Local → Local) : Resolve Unit :=
  modify fun s => { s with locals := s.locals.modify slot f }

def use (slot : Slot) : Resolve Unit := change slot fun l => { l with used := true }

/-- A new local, visible from here on. -/
def declare (name : String) (ty : Ty) (span : Span) (watched : Bool) : Resolve Slot := do
  let slot := (← get).locals.length
  modify fun s =>
    { s with locals := s.locals ++ [⟨name, ty, span, false, watched⟩]
             visible := (name, slot) :: s.visible }
  return slot

/-- Reports the watched locals among some slots that were never used. -/
def reportUnused : List Slot → Resolve Unit
  | [] => return
  | slot :: slots => do
    match (← get).locals[slot]? with
    | some l =>
      if l.watched && !l.used then
        report .unusedVariable ("unused variable '" ++ l.name ++ "'") l.span
    | none => pure ()
    reportUnused slots

/-- Hides the names that came after some others, and reports those that were never used. -/
def close (outer : List (String × Slot)) : Resolve Unit := do
  let inner := (← get).visible
  reportUnused ((inner.take (inner.length - outer.length)).reverse.map Prod.snd)
  modify fun s => { s with visible := outer }

/-- A computation whose declarations are hidden when it is over. -/
def inScope {α : Type} (body : Resolve α) : Resolve α := do
  let outer := (← get).visible
  let a ← body
  close outer
  return a

/-- The ending of a noun that is counted. -/
def plural (n : Nat) : String := if n = 1 then "" else "s"

/-- The number of arguments is the expected one; if not, this is reported. -/
def checkCount (name : String) (wanted found : Nat) (span : Span) : Resolve Bool := do
  if wanted = found then return true
  report .argumentCount
    ("'" ++ name ++ "' expects " ++ toString wanted ++ " argument" ++ plural wanted ++ ", found "
      ++ toString found) span
  return false

/-- The static type of a binary operation, `any` when nothing is known. -/
def binaryType (op : Syntax.BinaryOp) (left right : Ty) : Ty :=
  match op with
  | .equal | .notEqual | .less | .lessEqual | .greater | .greaterEqual | .and | .or => .bool
  | .add =>
    if left = .string ∨ right = .string then .string
    else if left = .list ∧ right = .list then .list
    else arithmetic
  | _ => arithmetic
where
  arithmetic : Ty :=
    match left, right with
    | .int, .int => .int
    | .int, .float | .float, .int | .float, .float => .float
    | _, _ => .any

/-- The static type of a unary operation. -/
def unaryType (op : Syntax.UnaryOp) (operand : Ty) : Ty :=
  match op, operand with
  | .not, _ => .bool
  | .negate, .int => .int
  | .negate, .float => .float
  | .negate, _ => .any

/-- What stands in place of an expression that was reported. -/
def unresolved (line : Nat) : Expr × Ty := (.const line .null, .any)

/-- A literal as a value, with its type. -/
def literal : Syntax.Literal → Value × Ty
  | .null => (.null, .any)
  | .bool b => (.bool b, .bool)
  | .int n => (.int n, .int)
  | .float x => (.float x, .float)
  | .string s => (.str s, .string)

/-- A call of a method of the program under the name that the source gives it. -/
def staticCall (env : Surroundings) (line : Nat) (id : MethodId) (shown : String)
    (args : List Expr) (span : Span) : Resolve (Expr × Ty) := do
  match env.declared.methods[id]? with
  | none => return unresolved line
  | some m =>
    if !m.signature.isStatic then
      report .instanceMethodCall
        ("'" ++ shown ++ "' is an instance method and cannot be called without an instance") span
      return unresolved line
    if ← checkCount shown m.signature.params.length args.length span then
      return (.callMethod line id args, m.signature.returns)
    return unresolved line

/-- A call of what a local holds. -/
def localCall (line : Nat) (slot : Slot) (ty : Ty) (callee : Syntax.Ident) (args : List Expr) :
    Resolve (Expr × Ty) := do
  use slot
  match ty with
  | .callback params =>
    if ← checkCount callee.text params.length args.length callee.span then
      return (.callSlot line slot callee.text args, .void)
    return unresolved line
  | .any => return (.callSlot line slot callee.text args, .any)
  | other =>
    report .notCallable
      ("'" ++ callee.text ++ "' has type " ++ other.text ++ " and cannot be called") callee.span
    return unresolved line

/-- A call of a name that is no local: a method of the class, or a library function. -/
def plainCall (env : Surroundings) (line : Nat) (callee : Syntax.Ident) (args : List Expr) :
    Resolve (Expr × Ty) := do
  match env.declared.findMethod? env.owner callee.text with
  | some id => staticCall env line id callee.text args callee.span
  | none =>
    match env.refs.function? callee.text with
    | some f =>
      if ← checkCount callee.text f.params args.length callee.span then
        return (.callFunction line f args, .any)
      return unresolved line
    | none =>
      let hint :=
        if (env.refs.documentMethod? callee.text).isSome then
          "; it is a document method, call it on the document"
        else ""
      report .unknownFunction ("unknown function '" ++ callee.text ++ "'" ++ hint) callee.span
      return unresolved line

/-- A call `Type.method(…)` of a declared class. -/
def qualifiedCall (env : Surroundings) (line : Nat) (type : TypeId) (typeName : String)
    (method : Syntax.Ident) (args : List Expr) : Resolve (Expr × Ty) := do
  let shown := typeName ++ "." ++ method.text
  match env.declared.findMethod? type method.text with
  | some id => staticCall env line id shown args method.span
  | none =>
    report .unknownFunction ("unknown function '" ++ shown ++ "'") method.span
    return unresolved line

/-- A method of the document. -/
def documentCall (env : Surroundings) (line : Nat) (receiver : Expr) (method : Syntax.Ident)
    (args : List Expr) : Resolve (Expr × Ty) := do
  match env.refs.documentMethod? method.text with
  | some m =>
    if ← checkCount method.text m.params args.length method.span then
      return (.callDocument line m receiver args, .void)
    return unresolved line
  | none =>
    report .unknownDocumentMethod ("Document has no method '" ++ method.text ++ "'") method.span
    return unresolved line

/-- A method of a receiver of unknown type: of the document, or a library function that takes the
receiver as its first argument, whichever fits the number of arguments. -/
def dynamicCall (env : Surroundings) (line : Nat) (receiver : Expr) (method : Syntax.Ident)
    (args : List Expr) : Resolve (Expr × Ty) := do
  let document := env.refs.documentMethod? method.text
  let function := env.refs.function? method.text
  if document.isNone && function.isNone then
    report .unknownFunction ("unknown method '" ++ method.text ++ "'") method.span
    return unresolved line
  let document := document.filter fun m => m.params = args.length
  let function := function.filter fun f => f.params = args.length + 1
  if document.isNone && function.isNone then
    report .argumentCount
      ("no method '" ++ method.text ++ "' takes " ++ toString args.length ++ " argument"
        ++ plural args.length) method.span
    return unresolved line
  return (.callDynamic line method.text receiver args document function, .any)

/-- A library function that takes the receiver as its first argument. -/
def receiverCall (env : Surroundings) (line : Nat) (receiver : Expr) (ty : Ty)
    (method : Syntax.Ident) (args : List Expr) : Resolve (Expr × Ty) := do
  match env.refs.function? method.text with
  | some f =>
    if ← checkCount method.text (f.params - 1) args.length method.span then
      return (.callFunction line f (receiver :: args), .any)
    return unresolved line
  | none =>
    report .unknownFunction
      ("unknown method '" ++ method.text ++ "' on a value of type " ++ ty.text) method.span
    return unresolved line

/-- A method call on a value of a static type. -/
def methodCall (env : Surroundings) (line : Nat) (receiver : Expr) (ty : Ty)
    (method : Syntax.Ident) (args : List Expr) : Resolve (Expr × Ty) :=
  match ty with
  | .document => documentCall env line receiver method args
  | .any => dynamicCall env line receiver method args
  | ty => receiverCall env line receiver ty method args

/-- The class that the receiver of a call names, if it is a name, but not of a local. -/
def receiverType? (env : Surroundings) : Syntax.Expr → Resolve (Option (TypeId × String))
  | .ident _ name => do
    match ← lookup name with
    | some _ => return none
    | none => return (env.declared.findType? name).map fun type => (type, name)
  | _ => return none

mutual

/-- An expression with its names resolved, and its static type. -/
def expr (env : Surroundings) : Syntax.Expr → Resolve (Expr × Ty)
  | .literal span value =>
    let (value, ty) := literal value
    return (.const (env.lines.line span.start) value, ty)
  | .ident span name => do
    let line := env.lines.line span.start
    match ← lookup name with
    | some (slot, ty) =>
      use slot
      return (.slot line slot, ty)
    | none =>
      report .unknownVariable ("unknown variable '" ++ name ++ "'") span
      return unresolved line
  | .list span items => do
    let items ← exprs env items
    return (.list (env.lines.line span.start) items, .list)
  | .unary span op operand => do
    let (operand, ty) ← expr env operand
    return (.unary (env.lines.line span.start) op operand, unaryType op ty)
  | .binary span op left right => do
    let (left, leftTy) ← expr env left
    let (right, rightTy) ← expr env right
    return (.binary (env.lines.line span.start) op left right, binaryType op leftTy rightTy)
  | .index span target place => do
    let (target, _) ← expr env target
    let (place, _) ← expr env place
    return (.index (env.lines.line span.start) target place, .any)
  | .call span callee args => do
    let line := env.lines.line span.start
    let args ← exprs env args
    match ← lookup callee.text with
    | some (slot, ty) => localCall line slot ty callee args
    | none => plainCall env line callee args
  | .method span receiver method args => do
    let line := env.lines.line span.start
    match ← receiverType? env receiver with
    | some (type, typeName) =>
      let args ← exprs env args
      qualifiedCall env line type typeName method args
    | none =>
      let (receiver, ty) ← expr env receiver
      let args ← exprs env args
      methodCall env line receiver ty method args

/-- Expressions from left to right. -/
def exprs (env : Surroundings) : List Syntax.Expr → Resolve (List Expr)
  | [] => return []
  | e :: es => do
    let (e, _) ← expr env e
    let es ← exprs env es
    return e :: es

end

/-- How far a block has come: nothing returned yet, a `return` passed, or what follows it reported. -/
inductive Reached where
  | open
  | returned
  | reported
deriving DecidableEq, Repr

/-- The first statement behind a `return` of its block is reported. -/
def reach (reached : Reached) (span : Span) : Resolve Reached := do
  match reached with
  | .returned =>
    report .unreachableCode "unreachable statement" span
    return .reported
  | other => return other

/-- How far a block has come behind a statement. -/
def Reached.after (reached : Reached) : Syntax.Stmt → Reached
  | .result _ _ => if reached = .open then .returned else reached
  | _ => reached

/-- An assignment to the innermost and latest local of a name; a local that is given values of
different types has the type `any` from there on. -/
def assign (line : Nat) (name : Syntax.Ident) (value : Expr) (ty : Ty) : Resolve Stmt := do
  match ← lookup name.text with
  | some (slot, old) =>
    if old ≠ ty then change slot fun l => { l with ty := .any }
    return .store line slot value
  | none =>
    report .undeclaredAssignment
      ("cannot assign to undeclared variable '" ++ name.text ++ "'; declare it with 'let'") name.span
    return .expr line value

mutual

def stmt (env : Surroundings) : Syntax.Stmt → Resolve Stmt
  | .declare span name value => do
    let (value, ty) ← expr env value
    let slot ← declare name.text ty name.span (!name.text.startsWith "_")
    return .store (env.lines.line span.start) slot value
  | .assign span name value => do
    let (value, ty) ← expr env value
    assign (env.lines.line span.start) name value ty
  | .expr span value => do
    let (value, _) ← expr env value
    return .expr (env.lines.line span.start) value
  | .branch span branches otherwise => do
    let branches ← arms env branches
    let otherwise ← otherwiseArm env otherwise
    return .branch (env.lines.line span.start) branches otherwise
  | .loop span condition body => do
    let (condition, _) ← expr env condition
    let body ← inScope (stmts env .open body)
    return .loop (env.lines.line span.start) condition body
  | .forEach span binding items body => do
    let (items, _) ← expr env items
    let (slot, body) ← inScope do
      let slot ← declare binding.text .any binding.span false
      let body ← inScope (stmts env .open body)
      return (slot, body)
    return .forEach (env.lines.line span.start) slot items body
  | .forRange span binding start stop body => do
    let (start, _) ← expr env start
    let (stop, _) ← expr env stop
    let (slot, body) ← inScope do
      let slot ← declare binding.text .int binding.span false
      let body ← inScope (stmts env .open body)
      return (slot, body)
    return .forRange (env.lines.line span.start) slot start stop body
  | .result span none => return .result (env.lines.line span.start) none
  | .result span (some value) => do
    let (value, _) ← expr env value
    return .result (env.lines.line span.start) (some value)

/-- The statements of a block from a place on. -/
def stmts (env : Surroundings) (reached : Reached) : List Syntax.Stmt → Resolve (List Stmt)
  | [] => return []
  | s :: ss => do
    let reached ← reach reached s.span
    let t ← stmt env s
    let ts ← stmts env (reached.after s) ss
    return t :: ts

/-- The conditions of a branch and the blocks that they guard. -/
def arms (env : Surroundings) :
    List (Syntax.Expr × List Syntax.Stmt) → Resolve (List (Expr × List Stmt))
  | [] => return []
  | (condition, body) :: rest => do
    let (condition, _) ← expr env condition
    let body ← inScope (stmts env .open body)
    let rest ← arms env rest
    return (condition, body) :: rest

def otherwiseArm (env : Surroundings) : Option (List Syntax.Stmt) → Resolve (Option (List Stmt))
  | none => return none
  | some body => do
    let body ← inScope (stmts env .open body)
    return some body

end

/-- Declares the parameters of a method. -/
def params : List ((String × Ty) × Syntax.Param) → Resolve Unit
  | [] => return
  | ((name, ty), p) :: ps => do
    let _ ← declare name ty p.name.span false
    params ps

/-- The body of a method, behind its parameters. -/
def body (env : Surroundings) (m : Pending) : Resolve (List Stmt) := do
  params (m.signature.params.zip m.declaration.params)
  inScope (stmts env .open m.declaration.body)

end Resolve

/-- A method with its names resolved, and what was found wrong in it. -/
def resolveMethod (refs : ReferenceSet) (lines : LineIndex) (declared : Declarations) (m : Pending) :
    Method × List Diagnostic :=
  let (body, scope) := Resolve.body ⟨refs, lines, declared, m.owner⟩ m {}
  (⟨m.signature, m.owner, scope.locals.length, body⟩, scope.found)

/-- The program of a source, and everything that was found wrong: declarations first, then the bodies
in the order in which they are declared. -/
def resolve (refs : ReferenceSet) (lines : LineIndex) (file : Syntax.File) :
    Program × List Diagnostic :=
  let declared := declarations refs file
  let methods := declared.methods.map (resolveMethod refs lines declared)
  (⟨declared.types, methods.map Prod.fst⟩, declared.found ++ methods.flatMap Prod.snd)

end ReportTemplate.Program
