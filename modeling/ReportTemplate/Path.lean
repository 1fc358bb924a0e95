import ReportTemplate.Text.Search

/-!
# ReportTemplate.Path — names of files

A path is a text, and it is kept as it was written: messages show it, and only the file system says
what it leads to.  Its components are what is compared: repeated slashes and inner dots do not count,
and `..` stays, since behind a link it is not the directory above.
-/

namespace ReportTemplate

/-- A path as it was written. -/
structure Path where
  text : String
deriving DecidableEq, Repr

/-- The names that lead from the root of a file system to a file, without links. -/
abbrev RealPath := List String

namespace Path

/-- A part of a path. -/
inductive Component where
  | root
  /-- A dot in front of a relative path. -/
  | current
  | parent
  | name (text : String)
deriving DecidableEq, Repr

def isAbsolute (p : Path) : Bool := Text.startsWith ['/'] p.text.toList

def endsInSlash (p : Path) : Bool := p.text.toList.getLast? = some '/'

/-- What stands between the slashes. -/
def segments (p : Path) : List String := (Text.split p.text.toList ['/']).map String.ofList

/-- A segment that leads nowhere. -/
def isIdle (segment : String) : Bool := segment = "" || segment = "."

/-- The path of `q` as seen from `p`. -/
def join (p q : Path) : Path :=
  if q.isAbsolute then q
  else if p.text.isEmpty || p.endsInSlash then ⟨p.text ++ q.text⟩
  else ⟨p.text ++ "/" ++ q.text⟩

def component? (segment : String) : Option Component :=
  if isIdle segment then none
  else if segment = ".." then some .parent
  else some (.name segment)

def components (p : Path) : List Component :=
  let parts := p.segments.filterMap component?
  if p.isAbsolute then .root :: parts
  else if p.segments.head? = some "." then .current :: parts
  else parts

/-- The path `p` is `q` or lies below it. -/
def isWithin (p q : Path) : Bool := q.components.isPrefixOf p.components

/-- Segments from the last to the first without the idle ones in front, the first segment apart. -/
def dropIdle : List String → List String
  | [] => []
  | [s] => [s]
  | s :: t :: ss => if isIdle s then dropIdle (t :: ss) else s :: t :: ss

/-- The path without its last component; the root and the empty path have none. -/
def parent? (p : Path) : Option Path :=
  match dropIdle p.segments.reverse with
  | [] => none
  | [s] => if s = "" then none else some ⟨""⟩
  | _ :: rest =>
    let kept := dropIdle rest
    some ⟨if kept = [""] then "/" else "/".intercalate kept.reverse⟩

/-- The last component, if it is a name. -/
def fileName? (p : Path) : Option String :=
  match p.components.getLast? with
  | some (.name s) => some s
  | _ => none

end Path

/-- The path of a file that no link leads to. -/
def RealPath.path (r : RealPath) : Path := ⟨"/" ++ "/".intercalate r⟩

/-- The path seen from the root, if it is not empty: `..` and a slash at its end stay. -/
def Path.absolute? (working : RealPath) (p : Path) : Option Path :=
  if p.text.isEmpty then none
  else
    let base : Path := if p.isAbsolute then ⟨"/"⟩ else RealPath.path working
    let whole := (p.segments.filter fun s => !isIdle s).foldl (fun q s => q.join ⟨s⟩) base
    some (if p.endsInSlash then whole.join ⟨""⟩ else whole)

end ReportTemplate
