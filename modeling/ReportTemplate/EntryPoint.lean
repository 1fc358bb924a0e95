import ReportTemplate.Machine
import ReportTemplate.Program.Compile

/-!
# ReportTemplate.EntryPoint — where a report begins

A template has exactly one class at the top level, and this class exactly one static method that takes
the document, the log, and perhaps the directory of the template.
-/

namespace ReportTemplate

/-- Why a program has no entry point. -/
inductive EntryPointError where
  | noClass
  | severalClasses (names : List String)
  | noMethod (type : String)
  | severalMethods (type : String) (candidates : List String)
deriving DecidableEq, Repr

def EntryPointError.message : EntryPointError → String
  | noClass => "template declares no top-level class"
  | severalClasses names =>
    "template declares " ++ toString names.length ++ " top-level classes ("
      ++ ", ".intercalate names ++ "); exactly one is required"
  | noMethod type =>
    "class '" ++ type ++ "' has no static method taking (document: Document, "
      ++ "log: fn(int, string, any)) with an optional third string parameter"
  | severalMethods type candidates =>
    "class '" ++ type ++ "' has more than one entry point: " ++ "; ".intercalate candidates

/-- The method that a report begins with. -/
structure EntryPoint where
  program : Program
  id : Program.MethodId
  method : Program.Method
  /-- The method takes the directory of the template as well. -/
  takesDirectory : Bool

namespace EntryPoint

/-- Whether a method can be an entry point, and if so, whether it takes the directory. -/
def shape? (s : Signature) : Option Bool :=
  if s.isStatic then
    match s.params.map Prod.snd with
    | [.document, log] => if log = .logCallback then some false else none
    | [.document, log, .string] => if log = .logCallback then some true else none
    | _ => none
  else none

/-- The single class at the top level. -/
def topLevel (p : Program) : Except EntryPointError Program.TypeInfo :=
  match p.types.filter fun t => !t.nested with
  | [] => .error .noClass
  | [t] => .ok t
  | ts => .error (.severalClasses (ts.map Program.TypeInfo.name))

/-- The methods of a class that can be entry points. -/
def candidates (p : Program) (t : Program.TypeInfo) : List EntryPoint :=
  t.methods.filterMap fun id => do
    let m ← p.methods[id]?
    let takesDirectory ← shape? m.signature
    pure ⟨p, id, m, takesDirectory⟩

/-- The entry point of a program. -/
def ofProgram (p : Program) : Except EntryPointError EntryPoint :=
  match topLevel p with
  | .error e => .error e
  | .ok t =>
    match candidates p t with
    | [] => .error (.noMethod t.name)
    | [e] => .ok e
    | es => .error (.severalMethods t.name (es.map fun e => e.method.signature.text))

/-- The number of arguments that the entry point takes. -/
def arity (e : EntryPoint) : Nat := if e.takesDirectory then 3 else 2

/-- The name of the method with the path of its class. -/
def name (e : EntryPoint) : String := e.program.qualifiedName e.method

/-- The arguments of the entry point. -/
def args (e : EntryPoint) (directory : String) : List Value :=
  [.document, .log] ++ if e.takesDirectory then [.str directory] else []

/-- Runs the template on what a document and a log hold already. -/
def invoke (e : EntryPoint) (steps : Nat) (directory : String) (world : Machine.World) :
    EStateM.Result Machine.Halt Machine.World Value :=
  Machine.invoke e.program steps (Machine.maxCallDepth - 1) e.id (e.args directory) world

end EntryPoint

end ReportTemplate
