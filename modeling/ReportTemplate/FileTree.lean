import ReportTemplate.FileSystem

/-!
# ReportTemplate.FileTree — a file system in memory

A tree lists its nodes under their real paths; the root is always a directory.  A path is walked
segment by segment: each one needs a directory to stand in, links are followed as they are met, and
`..` leads to the directory above the one that was reached.
-/

namespace ReportTemplate

/-- What stands at a real path. -/
inductive FileTree.Node where
  | file (bytes : ByteArray)
  | directory
  | link (target : Path)

def FileTree.Node.isDirectory : FileTree.Node → Bool
  | .directory => true
  | _ => false

structure FileTree where
  nodes : List (RealPath × FileTree.Node) := []
  /-- The directory that relative paths are seen from. -/
  working : RealPath := []

namespace FileTree

/-- The node at a real path. -/
def node? (t : FileTree) (r : RealPath) : Option Node :=
  if r.isEmpty then some .directory else (t.nodes.find? fun n => n.1 = r).map Prod.snd

/-- The most links that one path may lead through. -/
def maxLinks : Nat := 40

/-- The most bytes of a name. -/
def maxName : Nat := 255

/-- A path that is handed over in one piece has fewer bytes than this. -/
def pathLimit : Nat := 4096

/-- Follows the segments of a path from a place; `jump` follows those of a link.  With `create`, the
last name need not exist. -/
def walk (t : FileTree) (create : Bool)
    (jump : RealPath → List String → Except IoError RealPath) :
    RealPath → List String → Except IoError RealPath
  | here, [] => .ok here
  | here, s :: rest =>
    if !(t.node? here).any Node.isDirectory then .error .notADirectory
    else if Path.isIdle s then walk t create jump here rest
    else if s = ".." then walk t create jump here.dropLast rest
    else if maxName < s.utf8ByteSize then .error .nameTooLong
    else
      match t.node? (here ++ [s]) with
      | some (.link target) =>
        jump (if target.isAbsolute then [] else here) (target.segments ++ rest)
      | some _ => walk t create jump (here ++ [s]) rest
      | none =>
        if !create then .error .notFound
        else if rest.isEmpty then .ok (here ++ [s])
        else .error (if rest.all String.isEmpty then .isADirectory else .notFound)

/-- Follows segments through at most so many links. -/
def walkLinks (t : FileTree) (create : Bool) :
    Nat → RealPath → List String → Except IoError RealPath
  | 0 => walk t create fun _ _ => .error .tooManyLinks
  | links + 1 => walk t create (walkLinks t create links)

/-- Where a path leads, followed name by name. -/
def follow (t : FileTree) (create : Bool) (p : Path) : Except IoError RealPath :=
  if p.text.toList.contains '\x00' then .error .nulInPath
  else if p.text.isEmpty then .error .notFound
  else walkLinks t create maxLinks (if p.isAbsolute then [] else t.working) p.segments

/-- The real path of a file or directory.  The path is followed from name to name, so that its whole
length does not matter. -/
def realPath (t : FileTree) (p : Path) : Except IoError RealPath := t.follow false p

/-- Where a path leads that is handed over in one piece. -/
def locate (t : FileTree) (create : Bool) (p : Path) : Except IoError RealPath :=
  if pathLimit ≤ p.text.utf8ByteSize && !p.text.toList.contains '\x00' then .error .nameTooLong
  else t.follow create p

def isDirectory (t : FileTree) (p : Path) : Bool :=
  match t.locate false p with
  | .ok r => (t.node? r).any Node.isDirectory
  | .error _ => false

/-- The content of a file. -/
def readBytes (t : FileTree) (p : Path) : Except IoError ByteArray := do
  match t.node? (← t.locate false p) with
  | some (.file bytes) => .ok bytes
  | some .directory => .error .isADirectory
  | _ => .error .notFound

/-- The content of a file of text. -/
def readText (t : FileTree) (p : Path) : Except IoError String := do
  match String.fromUTF8? (← t.readBytes p) with
  | some text => .ok text
  | none => .error .notUtf8

/-- The name of a node in a directory. -/
def nameIn? (directory : RealPath) (n : RealPath × Node) : Option (String × Node) :=
  match n.1.getLast? with
  | some name => if n.1.dropLast = directory then some (name, n.2) else none
  | none => none

/-- The nodes in a directory with their names. -/
def children (t : FileTree) (p : Path) : Except IoError (List (String × Node)) := do
  let r ← t.locate false p
  if (t.node? r).any Node.isDirectory then .ok (t.nodes.filterMap (nameIn? r))
  else .error .notADirectory

/-- The names of the directories in a directory. -/
def subdirectories (t : FileTree) (p : Path) : Except IoError (List String) := do
  return ((← t.children p).filter fun c => c.2.isDirectory).map Prod.fst

/-! ### Changes -/

/-- The tree with a node, in place of one that is there. -/
def insert (t : FileTree) (r : RealPath) (n : Node) : FileTree :=
  { t with nodes := t.nodes.filter (fun k => k.1 ≠ r) ++ [(r, n)] }

/-- The tree without what stands at a real path and below it. -/
def erase (t : FileTree) (r : RealPath) : FileTree :=
  { t with nodes := t.nodes.filter fun k => !r.isPrefixOf k.1 }

/-- The tree with a file in a directory that exists. -/
def writeBytes (t : FileTree) (p : Path) (bytes : ByteArray) : Except IoError FileTree := do
  let r ← t.locate true p
  if (t.node? r).any Node.isDirectory then .error .isADirectory
  else .ok (t.insert r (.file bytes))

/-- The tree with the directories that a path names. -/
def makeDirectory (t : FileTree) (p : Path) : Except IoError FileTree := do
  let start : Path := ⟨if p.isAbsolute then "/" else "."⟩
  let (made, _) ← p.segments.foldlM (fun (t, q) s => do
    let q := Path.join q ⟨s⟩
    let r ← t.locate true q
    match t.node? r with
    | some .directory => .ok (t, q)
    | some _ => .error .notADirectory
    | none => .ok (t.insert r .directory, q)) (t, start)
  return made

/-! ### As a file system -/

/-- The tree as it is. -/
def view (t : FileTree) : FileSystem Id where
  workingDirectory := t.working
  readText := t.readText
  isDirectory := t.isDirectory
  subdirectories := t.subdirectories
  realPath := t.realPath

/-- A tree that changes. -/
def disk : Disk (StateM FileTree) where
  workingDirectory := do return (← get).working
  readText p := do return (← get).readText p
  isDirectory p := do return (← get).isDirectory p
  subdirectories p := do return (← get).subdirectories p
  realPath p := do return (← get).realPath p
  writeText p text := do
    match (← get).writeBytes p text.toUTF8 with
    | .ok t => set t; return .ok ()
    | .error e => return .error e

end FileTree

end ReportTemplate
