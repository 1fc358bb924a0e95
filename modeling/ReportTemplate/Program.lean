import ReportTemplate.Diagnostic
import ReportTemplate.Library
import ReportTemplate.Syntax

/-!
# ReportTemplate.Program — a template with its names resolved

Locals have become slots of a frame, and every call says what it calls.  Statements and expressions
carry the line they stand on, which messages about a run name.
-/

namespace ReportTemplate

/-- The static type of a parameter or an expression. -/
inductive Ty where
  | int | float | string | bool | list | any | void | document
  | callback (params : List Ty)
deriving Repr, Inhabited

namespace Ty

mutual

def same : Ty → Ty → Bool
  | int, int | float, float | string, string | bool, bool | list, list | any, any | void, void
  | document, document => true
  | callback ps, callback qs => allSame ps qs
  | _, _ => false

def allSame : List Ty → List Ty → Bool
  | [], [] => true
  | p :: ps, q :: qs => same p q && allSame ps qs
  | _, _ => false

end

mutual

theorem same_iff : ∀ a b : Ty, same a b = true ↔ a = b
  | callback ps, b => by
    cases b <;> simp [same, allSame_iff ps]
  | int, b | float, b | string, b | bool, b | list, b | any, b | void, b | document, b => by
    cases b <;> simp [same]

theorem allSame_iff : ∀ as bs : List Ty, allSame as bs = true ↔ as = bs
  | [], bs => by cases bs <;> simp [allSame]
  | a :: as, bs => by
    cases bs with
    | nil => simp [allSame]
    | cons b bs => simp [allSame, same_iff a, allSame_iff as]

end

instance : DecidableEq Ty := fun a b => decidable_of_iff _ (same_iff a b)

/-- The type of the callback that receives a line, a text and a value. -/
def logCallback : Ty := callback [int, string, any]

/-- The type a name in the source stands for. -/
def ofName? : String → Option Ty
  | "int" => some int
  | "float" => some float
  | "string" => some string
  | "bool" => some bool
  | "list" => some list
  | "any" => some any
  | "Document" => some document
  | _ => none

mutual

/-- The type as messages write it. -/
def text : Ty → String
  | int => "int"
  | float => "float"
  | string => "string"
  | bool => "bool"
  | list => "list"
  | any => "any"
  | void => "void"
  | document => "Document"
  | callback ps => "fn(" ++ ", ".intercalate (texts ps) ++ ")"

def texts : List Ty → List String
  | [] => []
  | t :: ts => text t :: texts ts

end

end Ty

/-- The declared shape of a method. -/
structure Signature where
  name : String
  isStatic : Bool
  params : List (String × Ty)
  returns : Ty
deriving Repr, DecidableEq

namespace Signature

/-- The signature as it would be declared. -/
def text (s : Signature) : String :=
  let params := s.params.map fun (name, ty) => name ++ ": " ++ ty.text
  (if s.isStatic then "static " else "") ++ "fn " ++ s.name ++ "(" ++ ", ".intercalate params ++ ")"
    ++ if s.returns = .void then "" else " -> " ++ s.returns.text

end Signature

namespace Program

/-- A local of a method: its place in the frame. -/
abbrev Slot := Nat

/-- A method by its place in the program. -/
abbrev MethodId := Nat

/-- A class by its place in the program. -/
abbrev TypeId := Nat

inductive Expr where
  | const (line : Nat) (value : Value)
  | slot (line : Nat) (slot : Slot)
  | list (line : Nat) (items : List Expr)
  | unary (line : Nat) (op : Syntax.UnaryOp) (operand : Expr)
  | binary (line : Nat) (op : Syntax.BinaryOp) (left right : Expr)
  | index (line : Nat) (target place : Expr)
  /-- A static method of the program. -/
  | callMethod (line : Nat) (method : MethodId) (args : List Expr)
  /-- A library function. -/
  | callFunction (line : Nat) (function : Function) (args : List Expr)
  /-- What a local holds, the log for instance. -/
  | callSlot (line : Nat) (slot : Slot) (name : String) (args : List Expr)
  /-- A method of a receiver whose static type is the document. -/
  | callDocument (line : Nat) (method : DocumentMethod) (receiver : Expr) (args : List Expr)
  /-- A method of a receiver whose type shows at run time only. -/
  | callDynamic (line : Nat) (name : String) (receiver : Expr) (args : List Expr)
      (document : Option DocumentMethod) (function : Option Function)

inductive Stmt where
  /-- Stores a value in a slot, at its declaration or later. -/
  | store (line : Nat) (slot : Slot) (value : Expr)
  | expr (line : Nat) (value : Expr)
  | branch (line : Nat) (branches : List (Expr × List Stmt)) (otherwise : Option (List Stmt))
  | loop (line : Nat) (condition : Expr) (body : List Stmt)
  | forEach (line : Nat) (slot : Slot) (items : Expr) (body : List Stmt)
  | forRange (line : Nat) (slot : Slot) (start stop : Expr) (body : List Stmt)
  | result (line : Nat) (value : Option Expr)

def Expr.line : Expr → Nat
  | const line _ | slot line _ | list line _ | unary line _ _ | binary line _ _ _ | index line _ _
  | callMethod line _ _ | callFunction line _ _ | callSlot line _ _ _ | callDocument line _ _ _
  | callDynamic line _ _ _ _ _ => line

def Stmt.line : Stmt → Nat
  | store line _ _ | expr line _ | branch line _ _ | loop line _ _ | forEach line _ _ _
  | forRange line _ _ _ _ | result line _ => line

/-- A method with its body. -/
structure Method where
  signature : Signature
  owner : TypeId
  /-- The number of slots, parameters first. -/
  frameSize : Nat
  body : List Stmt

/-- A declared class. -/
structure TypeInfo where
  name : String
  /-- The names from the outermost class inwards, with points between them. -/
  path : String
  nested : Bool
  methods : List MethodId
deriving Repr

end Program

/-- A template that can be run. -/
structure Program where
  types : List Program.TypeInfo
  methods : List Program.Method

namespace Program

/-- The name of a method with the path of its class in front. -/
def qualifiedName (p : Program) (m : Method) : String :=
  ((p.types[m.owner]?.map TypeInfo.path).getD "") ++ "." ++ m.signature.name

end Program

end ReportTemplate
