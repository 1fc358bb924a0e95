import ReportTemplate.Config
import ReportTemplate.Report
import ReportTemplate.Watch

/-!
# ReportTemplate.Project — a directory of templates

Each directory of the project root is a template, and a file in the root, or a setting, names the
active one.  A check compiles it; a render runs it on a document as well, then has the document saved,
and then asks for the project to be watched.  Nothing is kept between two renders.
-/

namespace ReportTemplate

/-- A template project: its settings and what its templates are compiled with. -/
structure Project where
  config : Config
  catalog : Catalog := .standard
  /-- The rounds that a loop on a condition may take. -/
  steps : Nat

namespace Project

/-- Where the active template was found. -/
structure Location where
  projectRoot : Path
  /-- The name of the template as it was chosen. -/
  name : String
  directory : Path
  file : Path
deriving DecidableEq, Repr

/-- Why a project gives no report. -/
inductive Error where
  | config (e : Config.Error)
  | unreachable (p : Path) (cause : IoError)
  | directoryMissing (name : String) (candidates : List String)
  | report (e : Report.Error)
  | watch (e : Watch.Error)
deriving DecidableEq, Repr

def Error.message : Error → String
  | config e => e.message
  | unreachable p cause => "cannot read " ++ p.text ++ ": " ++ cause.message
  | directoryMissing name candidates =>
    "Are you sure that directory " ++ name ++ " exists in template project? There are only "
      ++ ", ".intercalate candidates ++ "."
  | report e => e.message
  | watch e => e.message

variable {m : Type → Type} [Monad m]

def readText (fs : FileSystem m) (p : Path) : ExceptT Error m String := do
  match ← fs.readText p with
  | .ok text => return text
  | .error cause => throw (.unreachable p cause)

/-- The name of the active template. -/
def activeName (fs : FileSystem m) (config : Config) : ExceptT Error m String := do
  match config.selection with
  | .named name => return name
  | .pointerFile =>
    let text ← readText fs (config.projectRoot.join ⟨config.pointerFile⟩)
    return String.ofList (Text.trim text.toList)

/-- The directories of the project that could be meant, sorted. -/
def candidates (fs : FileSystem m) (config : Config) : ExceptT Error m (List String) := do
  match ← fs.subdirectories config.projectRoot with
  | .error cause => throw (.unreachable config.projectRoot cause)
  | .ok names =>
    return (names.filter fun n => !config.excludedDirs.contains n).mergeSort fun a b => a ≤ b

/-- Finds the active template. -/
def locate (fs : FileSystem m) (config : Config) : ExceptT Error m Location := do
  let name ← activeName fs config
  let directory := config.projectRoot.join ⟨name⟩
  if !name.isEmpty && (← fs.isDirectory directory) then
    return ⟨config.projectRoot, name, directory, directory.join ⟨config.templateFile⟩⟩
  else throw (.directoryMissing name (← candidates fs config))

/-- What templates of the project are compiled with. -/
def settings (p : Project) : Report.Settings := ⟨p.catalog, p.config.warnings, p.steps⟩

/-- The active template and its source. -/
def source (fs : FileSystem m) (config : Config) : ExceptT Error m (Location × String) := do
  let location ← locate fs config
  return (location, ← readText fs location.file)

/-- Compiles the active template and finds its entry point. -/
def check (fs : FileSystem m) (p : Project) : ExceptT Error m (Location × Compiled × EntryPoint) := do
  let (location, text) ← source fs p.config
  match Report.check p.settings text with
  | .ok (c, entry) => return (location, c, entry)
  | .error e => throw (.report e)

/-! ### Rendering -/

/-- What a render does besides filling the document. -/
inductive Effect where
  /-- The document is saved, and this is its text. -/
  | saved (text : String)
  /-- A directory is to be watched. -/
  | registered (root : Path)
deriving DecidableEq, Repr

/-- The outcome of a render: its result, the document as it is left, and the effects in order. -/
structure Rendering where
  result : Except Error Report
  document : Document
  effects : List Effect

/-- Renders a source that has been found. -/
def renderAt (watch : Path → m (Except Watch.Error Unit)) (p : Project) (location : Location)
    (text : String) (document : Document) : m Rendering := do
  match Report.ofSource p.settings text location.directory.text document with
  | (.error e, document) => return ⟨.error (.report e), document, []⟩
  | (.ok report, document) =>
    let effects := [.saved report.text, .registered location.projectRoot]
    match ← watch location.projectRoot with
    | .ok () => return ⟨.ok report, document, effects⟩
    | .error e => return ⟨.error (.watch e), document, effects⟩

/-- Renders the active template into a document; `watch` registers a directory. -/
def render (fs : FileSystem m) (watch : Path → m (Except Watch.Error Unit)) (p : Project)
    (document : Document) : m Rendering := do
  match ← (source fs p.config).run with
  | .error e => return ⟨.error e, document, []⟩
  | .ok (location, text) => renderAt watch p location text document

end Project

end ReportTemplate
