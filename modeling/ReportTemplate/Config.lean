import ReportTemplate.Diagnostic
import ReportTemplate.FileSystem
import ReportTemplate.Toml.Reader

/-!
# ReportTemplate.Config — settings of a template project

Settings say where the templates lie, which of them is active and which warnings fail it.  They are
read from a file in TOML, and its relative paths are then seen from the directory of the file.
-/

namespace ReportTemplate

namespace Config

/-- Where the template project lies. -/
inductive Root where
  | path (p : Path)
  /-- Next to the directory of a host application. -/
  | besideHost (hostDir : Path) (projectName : String)
deriving DecidableEq, Repr

def Root.resolve : Root → Path
  | path p => p
  | besideHost hostDir projectName => (hostDir.join ⟨".."⟩).join ⟨projectName⟩

/-- How the active template is chosen. -/
inductive Selection where
  /-- A file in the project names it. -/
  | pointerFile
  | named (name : String)
deriving DecidableEq, Repr

/-- Why a file gives no settings. -/
inductive Error where
  | unreadable (p : Path) (cause : IoError)
  | malformed (fault : Toml.Fault)
  | unknownSetting (name : String)
  | wrongType (name : String)
  | unknownDiagnostic (text : String)
deriving DecidableEq, Repr

def Error.message : Error → String
  | unreadable p cause => "Failed to read config file " ++ p.text ++ ": " ++ cause.message
  | malformed fault => "Failed to parse config TOML: " ++ fault.message
  | unknownSetting name => "Failed to parse config TOML: unknown setting '" ++ name ++ "'"
  | wrongType name => "Failed to parse config TOML: '" ++ name ++ "' has the wrong type"
  | unknownDiagnostic text =>
    "Invalid compiler.escalate entry: " ++ Diagnostic.Code.unknownText text

end Config

structure Config where
  root : Config.Root := .path ⟨"."⟩
  selection : Config.Selection := .pointerFile
  /-- The file that names the active template, as seen from the root. -/
  pointerFile : String := "CurrentTemplateDirectory.txt"
  /-- The source of a template, as seen from its directory. -/
  templateFile : String := "Template.tpl"
  /-- Directories that are never offered as templates. -/
  excludedDirs : List String := ["target", "bin", "obj", "Properties"]
  warnings : WarningPolicy := {}
  /-- Where the compiler may keep a copy of the source while it works. -/
  scratchDir : Option Path := none
deriving DecidableEq, Repr

namespace Config

def projectRoot (c : Config) : Path := c.root.resolve

/-- The name of the directory beside a host, unless a setting gives another. -/
def defaultProjectName : String := "Templates"

/-! ### Reading -/

def string? : Toml.Value → Option String
  | .string text => some text
  | _ => none

def path? (v : Toml.Value) : Option Path := (string? v).map Path.mk

def boolean? : Toml.Value → Option Bool
  | .boolean b => some b
  | _ => none

def strings? : Toml.Value → Option (List String)
  | .array items => items.mapM string?
  | _ => none

/-- A setting, if the fields hold it. -/
def setting {α : Type} (read? : Toml.Value → Option α) (fields : Toml.Fields) (name : String) :
    Except Error (Option α) :=
  match fields.lookup name with
  | none => .ok none
  | some v =>
    match read? v with
    | some a => .ok (some a)
    | none => .error (.wrongType name)

/-- Refuses a field without one of these names. -/
def checkNames (names : List String) (fields : Toml.Fields) : Except Error Unit :=
  match fields.find? fun f => !names.contains f.1 with
  | some f => .error (.unknownSetting f.1)
  | none => .ok ()

/-- The settings of a table.  An array in its place gives the values in the order of the names. -/
def settingsOf (names : List String) (file : Toml.Fields) (name : String) :
    Except Error Toml.Fields :=
  match file.lookup name with
  | none => .ok []
  | some (.table _ fields) => (checkNames names fields).map fun _ => fields
  | some (.array items) => .ok (names.zip items)
  | some _ => .error (.wrongType name)

def projectNames : List String :=
  ["root", "host_dir", "project_name", "template", "pointer_file", "template_file", "excluded_dirs"]

def compilerNames : List String := ["warnings_as_errors", "escalate", "scratch_dir"]

/-- The root that settings give; a file that gives none means its own directory. -/
def rootOf (base : Path) (root hostDir : Option Path) (projectName : Option String) : Root :=
  match root, hostDir with
  | some root, _ => .path (base.join root)
  | none, some hostDir => .besideHost (base.join hostDir) (projectName.getD defaultProjectName)
  | none, none => .path (if base.text.isEmpty then ⟨"."⟩ else base)

/-- The codes that texts name, each once. -/
def codesOf (texts : List String) : Except Error (List Diagnostic.Code) :=
  texts.foldlM (fun codes text =>
    match Diagnostic.Code.ofText? text with
    | some code => .ok (if codes.contains code then codes else codes ++ [code])
    | none => .error (.unknownDiagnostic text)) []

/-- The settings of a file, with its relative paths seen from `base`. -/
def ofText (source : String) (base : Path) : Except Error Config := do
  let file ← (Toml.read source.toList).mapError .malformed
  checkNames ["project", "compiler"] file
  let project ← settingsOf projectNames file "project"
  let compiler ← settingsOf compilerNames file "compiler"
  let root ← setting path? project "root"
  let hostDir ← setting path? project "host_dir"
  let projectName ← setting string? project "project_name"
  let template ← setting string? project "template"
  let pointerFile ← setting string? project "pointer_file"
  let templateFile ← setting string? project "template_file"
  let excludedDirs ← setting strings? project "excluded_dirs"
  let all ← setting boolean? compiler "warnings_as_errors"
  let escalate ← setting strings? compiler "escalate"
  let scratchDir ← setting path? compiler "scratch_dir"
  let codes ← codesOf (escalate.getD [])
  let standard : Config := {}
  return {
    root := rootOf base root hostDir projectName
    selection := (template.map Selection.named).getD .pointerFile
    pointerFile := pointerFile.getD standard.pointerFile
    templateFile := templateFile.getD standard.templateFile
    excludedDirs := excludedDirs.getD standard.excludedDirs
    warnings := ⟨all.getD false, codes⟩
    scratchDir := scratchDir.map base.join }

variable {m : Type → Type} [Monad m]

/-- The settings of a file on a file system. -/
def load (fs : FileSystem m) (p : Path) : m (Except Error Config) := do
  match ← fs.readText p with
  | .error cause => return .error (.unreadable p cause)
  | .ok source => return ofText source (p.parent?.getD ⟨"."⟩)

end Config

end ReportTemplate
