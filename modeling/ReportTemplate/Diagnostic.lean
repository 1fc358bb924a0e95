import ReportTemplate.Span
import ReportTemplate.Text.Blank

/-!
# ReportTemplate.Diagnostic — what is reported about a source

Every diagnostic has a stable code, which fixes whether it is an error or a warning.  A warning policy
may escalate warnings; an error or an escalated warning fails the compilation.
-/

namespace ReportTemplate

inductive Severity where
  | error
  | warning
deriving DecidableEq, Repr

namespace Diagnostic

/-- What a diagnostic is about. -/
inductive Code where
  | unexpectedToken
  | unknownVariable
  | unknownFunction
  | argumentCount
  | unknownType
  | duplicateDefinition
  | unknownDocumentMethod
  | instanceMethodCall
  | notCallable
  | undeclaredAssignment
  | unusedVariable
  | unreachableCode
deriving DecidableEq, Repr

namespace Code

def all : List Code :=
  [.unexpectedToken, .unknownVariable, .unknownFunction, .argumentCount, .unknownType,
    .duplicateDefinition, .unknownDocumentMethod, .instanceMethodCall, .notCallable,
    .undeclaredAssignment, .unusedVariable, .unreachableCode]

def text : Code → String
  | unexpectedToken => "E0001"
  | unknownVariable => "E0002"
  | unknownFunction => "E0003"
  | argumentCount => "E0004"
  | unknownType => "E0005"
  | duplicateDefinition => "E0006"
  | unknownDocumentMethod => "E0007"
  | instanceMethodCall => "E0008"
  | notCallable => "E0009"
  | undeclaredAssignment => "E0010"
  | unusedVariable => "W0001"
  | unreachableCode => "W0002"

/-- The severity before any escalation. -/
def severity : Code → Severity
  | unusedVariable | unreachableCode => .warning
  | _ => .error

/-- The code a text names, blanks around it and the case of ASCII letters aside. -/
def ofText? (s : String) : Option Code :=
  let wanted := (Text.trim s.toList).map Char.toUpper
  all.find? fun code => code.text.toList = wanted

/-- The message about a text that names no code. -/
def unknownText (s : String) : String := "unknown diagnostic code '" ++ s ++ "'"

end Code

end Diagnostic

/-- A message about a place in a source. -/
structure Diagnostic where
  code : Diagnostic.Code
  message : String
  span : Span
  /-- What could have stood at the place instead, in the order in which it was tried. -/
  expected : List String := []
  /-- Set when a warning policy makes a warning fail the compilation. -/
  escalated : Bool := false
deriving DecidableEq, Repr

namespace Diagnostic

def severity (d : Diagnostic) : Severity := d.code.severity

/-- The diagnostic fails the compilation. -/
def isFailure (d : Diagnostic) : Bool := d.severity = .error || d.escalated

/-- The message with what was expected. -/
def fullMessage (d : Diagnostic) : String :=
  if d.expected.isEmpty then d.message
  else d.message ++ ", expected " ++ ", ".intercalate d.expected

/-- The diagnostic on one line. -/
def summary (d : Diagnostic) : String := d.code.text ++ ": " ++ d.fullMessage

end Diagnostic

/-- Which warnings fail a compilation. -/
structure WarningPolicy where
  /-- Every warning does. -/
  all : Bool := false
  /-- Warnings with these codes do. -/
  escalate : List Diagnostic.Code := []
deriving DecidableEq, Repr

namespace WarningPolicy

/-- The policy escalates warnings with this code. -/
def escalates (policy : WarningPolicy) (code : Diagnostic.Code) : Bool :=
  code.severity = .warning && (policy.all || policy.escalate.contains code)

/-- The diagnostic under the policy. -/
def apply (policy : WarningPolicy) (d : Diagnostic) : Diagnostic :=
  if policy.escalates d.code then { d with escalated := true } else d

end WarningPolicy

end ReportTemplate
