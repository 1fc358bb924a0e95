import ReportTemplate.FileSystem

/-!
# ReportTemplate.Watch — directories that are watched for changes

A directory is registered under its real path, so its spelling does not matter, and a root that is
watched already is not registered again.  Changes of ignored paths are not relevant.
-/

namespace ReportTemplate

namespace Watch

/-- Why a directory is not watched. -/
inductive Error where
  | unreachable (p : Path) (cause : IoError)
  /-- The mechanism that reports changes has refused. -/
  | refused (text : String)
deriving DecidableEq, Repr

def Error.message : Error → String
  | unreachable p cause => "cannot watch " ++ p.text ++ ": " ++ cause.message
  | refused text => "file watcher error: " ++ text

end Watch

/-- The roots that are watched, in the order of their registration. -/
structure Watcher where
  roots : List RealPath := []
deriving DecidableEq, Repr

namespace Watcher

/-- The roots in the order of their names. -/
def watched (w : Watcher) : List RealPath := w.roots.mergeSort fun a b => (compare a b).isLE

/-- The mechanism has to be asked for this root. -/
def needs (w : Watcher) (root : RealPath) : Bool := !w.roots.contains root

/-- The watcher after the mechanism was asked for a root that it needed. -/
def answered (w : Watcher) (root : RealPath) (answer : Except String Unit) :
    Except Watch.Error Unit × Watcher :=
  match answer with
  | .ok () => (.ok (), ⟨w.roots ++ [root]⟩)
  | .error text => (.error (.refused text), w)

variable {m : Type → Type} [Monad m]

/-- Registers a real path; `ask` starts the mechanism. -/
def register (ask : RealPath → m (Except String Unit)) (root : RealPath) (w : Watcher) :
    m (Except Watch.Error Unit × Watcher) := do
  if w.needs root then return w.answered root (← ask root) else return (.ok (), w)

/-- Registers a path. -/
def watch (fs : FileSystem m) (ask : RealPath → m (Except String Unit)) (p : Path) (w : Watcher) :
    m (Except Watch.Error Unit × Watcher) := do
  match ← fs.realPath p with
  | .error cause => return (.error (.unreachable p cause), w)
  | .ok root => register ask root w

end Watcher

/-- Paths whose changes do not matter, such as what a render writes inside the project. -/
structure IgnoredPaths where
  paths : List Path := []
deriving DecidableEq, Repr

namespace IgnoredPaths

variable {m : Type → Type} [Monad m]

/-- The real path of an absolute path, or of its directory when the path itself leads nowhere. -/
def real? (fs : FileSystem m) (p : Path) : m (Option RealPath) := do
  match ← fs.realPath p with
  | .ok r => return some r
  | .error _ =>
    match p.parent?, p.fileName? with
    | some directory, some name =>
      match ← fs.realPath directory with
      | .ok r => return some (r ++ [name])
      | .error _ => return none
    | _, _ => return none

/-- The form of a path that changes are compared with. -/
def normalize (fs : FileSystem m) (p : Path) : m Path := do
  let whole := (p.absolute? (← fs.workingDirectory)).getD p
  match ← real? fs whole with
  | some r => return r.path
  | none => return whole

/-- Ignores one path more, and everything below it. -/
def ignore (fs : FileSystem m) (ignored : IgnoredPaths) (p : Path) : m IgnoredPaths := do
  return ⟨ignored.paths ++ [← normalize fs p]⟩

/-- The path is ignored. -/
def covers (ignored : IgnoredPaths) (p : Path) : Bool := ignored.paths.any fun q => p.isWithin q

/-- A change of these paths matters. -/
def isRelevant (ignored : IgnoredPaths) (changed : List Path) : Bool :=
  changed.isEmpty || changed.any fun p => !ignored.covers p

end IgnoredPaths

end ReportTemplate
