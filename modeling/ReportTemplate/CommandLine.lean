import ReportTemplate.CommandLine.Arguments
import ReportTemplate.Excerpt
import ReportTemplate.Project

/-!
# ReportTemplate.CommandLine — the program

A run of the program reads its arguments, does what they ask for, and leaves a code and what it has
written to the standard output and the standard error.  Nothing is watched.
-/

namespace ReportTemplate.CommandLine

/-- What a run of the program leaves. -/
structure Outcome where
  code : Nat := 0
  stdout : String := ""
  stderr : String := ""
deriving DecidableEq, Repr

/-- A run that fails after something was written to the standard error. -/
def failure (written : String) (e : Project.Error) : Outcome :=
  ⟨1, "", written ++ "Error: " ++ e.message ++ "\n"⟩

/-- A run that is broken off after something was written to the standard error; what is added there about
the break is not the program's own. -/
def broken (written : String) : Outcome := ⟨101, "", written⟩

/-- The text shown to who asks for help. -/
def helpText : String :=
  "Usage: report-template [OPTIONS] <COMMAND>\n\n"
    ++ "Commands:\n"
    ++ "  render  Render the active template once\n"
    ++ "  check   Compile the active template and report diagnostics\n\n"
    ++ "Options:\n"
    ++ "  -c, --config <FILE>    Settings in TOML\n"
    ++ "  -r, --root <DIR>       Template project root, overriding the settings\n"
    ++ "  -t, --template <NAME>  Template directory to use instead of the one a file names\n"
    ++ "  -h, --help             Print help\n\n"
    ++ "Options of render:\n"
    ++ "  -o, --output <FILE>    Write the document here instead of the standard output\n"
    ++ "      --json             Print the report as JSON\n"

/-- The diagnostics of a template in its source as it is compiled, each with an empty line behind it
but for the last, if all of them can be shown. -/
def excerpts (file : Path) (source : String) (found : List Diagnostic) : Option String := do
  let compiled := LogCall.expand source.toList
  let shown ← found.mapM (Excerpt.format? compiled file.text)
  return "\n".intercalate shown ++ "\n"

/-- The diagnostics of a template written one after the other; when one cannot be shown, what has been
written by then. -/
def excerptEach (file : Path) (source : String) (found : List Diagnostic) : Except String String :=
  found.foldlM (fun written d =>
    match excerpts file source [d] with
    | some shown => .ok (written ++ shown)
    | none => .error written) ""

variable {m : Type → Type} [Monad m]

/-- The settings that options give. -/
def configure (fs : FileSystem m) (options : Options) : m (Except Config.Error Config) := do
  let loaded ← match options.config with
    | some p => Config.load fs p
    | none => pure (.ok {})
  return loaded.map fun c =>
    let c := match options.root with
      | some root => { c with root := .path root }
      | none => c
    match options.template with
    | some name => { c with selection := .named name }
    | none => c

/-- A run that fails; diagnostics are shown in the source if it can be read. -/
def failed (fs : FileSystem m) (config : Config) (e : Project.Error) : m Outcome := do
  match e with
  | .report (.compilation found) =>
    match ← (Project.source fs config).run with
    | .ok (location, text) =>
      match excerpts location.file text found with
      | some shown => return failure shown e
      | none => return broken ""
    | .error _ => return failure "" e
  | e => return failure "" e

/-- Compiles the active template and shows its warnings. -/
def check (fs : FileSystem m) (p : Project) : m Outcome := do
  match ← (p.check fs).run with
  | .error e => failed fs p.config e
  | .ok (location, compiled, _) =>
    let text := match ← fs.readText location.file with
      | .ok text => text
      | .error _ => ""
    match excerptEach location.file text compiled.warnings with
    | .error written => return broken written
    | .ok shown =>
      let n := compiled.warnings.length
      let count := toString n ++ if n = 1 then " warning" else " warnings"
      return ⟨0, location.name ++ ": ok (" ++ count ++ ")\n", shown⟩

/-- Writes a report out. -/
def deliver (disk : Disk m) (output : Option Path) (json : Bool) (r : Report) : m Outcome := do
  if json then return ⟨0, r.toJson ++ "\n", ""⟩
  else
    let log := String.join (r.log.map fun line => line ++ "\n")
    match output with
    | none => return ⟨0, r.text ++ "\n", log⟩
    | some file =>
      match ← disk.writeText file r.text with
      | .ok () => return ⟨0, "", log⟩
      | .error cause => return failure log (.unreachable file cause)

/-- Renders the active template into an empty document. -/
def render (disk : Disk m) (p : Project) (output : Option Path) (json : Bool) : m Outcome := do
  let rendering ← p.render disk.toFileSystem (fun _ => pure (.ok ())) {}
  match rendering.result with
  | .error e => failed disk.toFileSystem p.config e
  | .ok r => deliver disk output json r

/-- Does what is asked for; a loop on a condition may take so many rounds. -/
def answer (disk : Disk m) (steps : Nat) (options : Options) (command : Command) : m Outcome := do
  match ← configure disk.toFileSystem options with
  | .error e => return failure "" (.config e)
  | .ok config =>
    let p : Project := { config := config, steps := steps }
    match command with
    | .render output json => render disk p output json
    | .check => check disk.toFileSystem p

/-- A run of the program with arguments. -/
def run (disk : Disk m) (steps : Nat) (arguments : List String) : m Outcome :=
  match Request.read arguments with
  | .error .missingCommand => pure ⟨2, "", helpText⟩
  | .error e => pure ⟨2, "", "error: " ++ e.message ++ "\n\nFor more information, try '--help'.\n"⟩
  | .ok .help => pure ⟨0, helpText, ""⟩
  | .ok (.run options command) => answer disk steps options command

end ReportTemplate.CommandLine
