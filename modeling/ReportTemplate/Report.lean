import ReportTemplate.EntryPoint
import ReportTemplate.Library.Standard
import ReportTemplate.LogCall
import ReportTemplate.Report.Base64
import ReportTemplate.Report.Json

/-!
# ReportTemplate.Report — rendering a template

The log calls of a source are expanded, it is compiled against a catalog, and its entry point is found
and run on a document.  The report holds the log of this run and the whole text of the document.
-/

namespace ReportTemplate

/-- The outcome of a render: the log in the order of the calls, and the text of the document. -/
structure Report where
  log : List String
  text : String
deriving DecidableEq, Repr

namespace Report

/-- Why a source gives no report. -/
inductive Error where
  | references (e : ReferenceError)
  | compilation (found : List Diagnostic)
  | entryPoint (e : EntryPointError)
  | run (h : Machine.Halt)
deriving DecidableEq, Repr

/-- The message about a run that gives no value. -/
def haltMessage : Machine.Halt → String
  | .failed f => "template failed in " ++ f.message
  | .outOfSteps => "template did not end"
  | .broken => "template is broken"

def Error.message : Error → String
  | references e => "reference set: " ++ e.message
  | compilation found => "\n".intercalate (found.map Diagnostic.summary)
  | entryPoint e => "entry point: " ++ e.message
  | run h => haltMessage h

/-- What a template is rendered with. -/
structure Settings where
  catalog : Catalog := .standard
  warnings : WarningPolicy := {}
  /-- The rounds that a loop on a condition may take. -/
  steps : Nat

/-- The program of a source as its author wrote it. -/
def compile (settings : Settings) (source : String) : Except Error Compiled :=
  match settings.catalog.references with
  | .error e => .error (.references e)
  | .ok refs =>
    match Program.compile refs settings.warnings (LogCall.expand source.toList) with
    | .error found => .error (.compilation found)
    | .ok c => .ok c

/-- The program of a source and its entry point. -/
def check (settings : Settings) (source : String) : Except Error (Compiled × EntryPoint) := do
  let c ← compile settings source
  match EntryPoint.ofProgram c.program with
  | .error e => throw (.entryPoint e)
  | .ok e => pure (c, e)

/-- Renders a source into a document: the report, and the document as the run leaves it. -/
def ofSource (settings : Settings) (source directory : String) (document : Document) :
    Except Error Report × Document :=
  match check settings source with
  | .error e => (.error e, document)
  | .ok (_, entry) =>
    match entry.invoke settings.steps directory ⟨document, #[]⟩ with
    | .error h world => (.error (.run h), world.document)
    | .ok _ world => (.ok ⟨world.log.toList.map Machine.LogEntry.shown, world.document.text⟩,
        world.document)

/-- The report as JSON, the text of the document in base 64. -/
def toJson (r : Report) : String :=
  "\x7b\n  \"log\": " ++ Json.list "  " r.log ++ ",\n  \"rendered_bytes\": "
    ++ Json.quoted (Base64.encode r.text.toUTF8.toList) ++ "\n\x7d"

end Report

end ReportTemplate
