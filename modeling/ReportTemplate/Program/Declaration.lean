import ReportTemplate.Program

/-!
# ReportTemplate.Program.Declaration — classes and signatures

Every class and every signature of a source is declared before a body is looked at, so that a call
may name a method that stands further down.  Classes come outer before inner, in the order of the
source; a method whose name its class already has is reported and left out.
-/

namespace ReportTemplate.Program

/-- A declared method whose body is still to be resolved. -/
structure Pending where
  signature : Signature
  owner : TypeId
  declaration : Syntax.Method

/-- What has been declared so far, and what was found wrong. -/
structure Declarations where
  types : List TypeInfo := []
  methods : List Pending := []
  found : List Diagnostic := []

namespace Declarations

/-- A method that a class declares itself. -/
def findMethod? (d : Declarations) (owner : TypeId) (name : String) : Option MethodId :=
  d.methods.findIdx? fun m => m.owner = owner && m.signature.name = name

/-- The first class of a name. -/
def findType? (d : Declarations) (name : String) : Option TypeId :=
  d.types.findIdx? fun t => t.name = name

end Declarations

/-- A computation that declares. -/
abbrev Declare := StateM Declarations

namespace Declare

def report (code : Diagnostic.Code) (message : String) (span : Span) : Declare Unit :=
  modify fun d => { d with found := d.found ++ [⟨code, message, span, [], false⟩] }

mutual

/-- The type that is written in the source; one that is not available counts as `any`. -/
def type (refs : ReferenceSet) : Syntax.TypeExpr → Declare Ty
  | .named span name => do
    match Ty.ofName? name with
    | some ty =>
      if refs.providesType name then return ty
      report .unknownType ("unknown type '" ++ name ++ "'") span
      return .any
    | none =>
      report .unknownType ("unknown type '" ++ name ++ "'") span
      return .any
  | .callback span params => do
    if !refs.providesType "fn" then
      report .unknownType
        ("unknown type '" ++ (Syntax.TypeExpr.callback span params).text ++ "'") span
    let params ← types refs params
    return .callback params

def types (refs : ReferenceSet) : List Syntax.TypeExpr → Declare (List Ty)
  | [] => return []
  | t :: ts => do
    let t ← type refs t
    let ts ← types refs ts
    return t :: ts

end

/-- The parameters of a method; `seen` are the names in front. -/
def params (refs : ReferenceSet) (seen : List String) :
    List Syntax.Param → Declare (List (String × Ty))
  | [] => return []
  | p :: ps => do
    if seen.contains p.name.text then
      report .duplicateDefinition
        ("parameter '" ++ p.name.text ++ "' is declared more than once") p.name.span
    let ty ← type refs p.type
    let ps ← params refs (p.name.text :: seen) ps
    return (p.name.text, ty) :: ps

def signature (refs : ReferenceSet) (m : Syntax.Method) : Declare Signature := do
  let params ← params refs [] m.params
  let returns ← match m.returns with
    | some t => type refs t
    | none => pure .void
  return ⟨m.name.text, m.isStatic, params, returns⟩

/-- Declares the methods of a class; `seen` are the names in front. -/
def methods (refs : ReferenceSet) (owner : TypeId) (path : String) (seen : List String) :
    List Syntax.Method → Declare (List MethodId)
  | [] => return []
  | m :: ms => do
    if seen.contains m.name.text then
      report .duplicateDefinition
        ("method '" ++ m.name.text ++ "' is defined more than once in '" ++ path ++ "'") m.name.span
      methods refs owner path seen ms
    else
      let signature ← signature refs m
      let id := (← get).methods.length
      modify fun d => { d with methods := d.methods ++ [⟨signature, owner, m⟩] }
      let ids ← methods refs owner path (m.name.text :: seen) ms
      return id :: ids

def duplicateClass (name : Syntax.Ident) : Declare Unit :=
  report .duplicateDefinition ("class '" ++ name.text ++ "' is defined more than once") name.span

mutual

/-- Declares a class, its methods, and the classes inside it. -/
def classDecl (refs : ReferenceSet) (parent : Option String) : Syntax.Class → Declare Unit
  | .mk _ name members => do
    let path := match parent with
      | some parent => parent ++ "." ++ name.text
      | none => name.text
    let owner := (← get).types.length
    let ids ← methods refs owner path [] (members.filterMap Sum.getLeft?)
    modify fun d => { d with types := d.types ++ [⟨name.text, path, parent.isSome, ids⟩] }
    nested refs path [] members

/-- Declares the classes among the members of a class; `seen` are the names in front. -/
def nested (refs : ReferenceSet) (path : String) (seen : List String) :
    List (Syntax.Method ⊕ Syntax.Class) → Declare Unit
  | [] => return
  | .inl _ :: members => nested refs path seen members
  | .inr c :: members => do
    if seen.contains c.name.text then duplicateClass c.name
    classDecl refs (some path) c
    nested refs path (c.name.text :: seen) members

end

/-- Declares the classes of a source; `seen` are the names in front. -/
def classes (refs : ReferenceSet) (seen : List String) : List Syntax.Class → Declare Unit
  | [] => return
  | c :: cs => do
    if seen.contains c.name.text then duplicateClass c.name
    classDecl refs none c
    classes refs (c.name.text :: seen) cs

end Declare

/-- Everything that a source declares. -/
def declarations (refs : ReferenceSet) (file : Syntax.File) : Declarations :=
  (Declare.classes refs [] file.classes {}).2

end ReportTemplate.Program
