import ReportTemplate.CommandLine

/-!
# ReportTemplate.Main — the program on a real disk
-/

namespace ReportTemplate.Main

/-- The number of an error of the operating system, which may come with its sign changed. -/
def number (code : UInt32) : UInt32 := if code < 0x80000000 then code else 0 - code

/-- The cause that such a number tells, or else the text of the error. -/
def causeOfNumber (n : UInt32) (text : String) : IoError :=
  if n = 2 then .notFound
  else if n = 13 then .other "Permission denied (os error 13)"
  else if n = 20 then .notADirectory
  else if n = 21 then .isADirectory
  else if n = 36 then .nameTooLong
  else if n = 40 then .tooManyLinks
  else .other text

/-- The cause that an error of the operating system tells. -/
def causeOf (e : IO.Error) : IoError :=
  match e with
  | .noFileOrDirectory _ code _ | .inappropriateType _ code _ | .invalidArgument _ code _
  | .permissionDenied _ code _ | .resourceExhausted _ code _ | .otherError code _ =>
    causeOfNumber (number code) (toString e)
  | e => .other (toString e)

/-- An action on the disk, or why it fails. -/
def attempt {α : Type} (act : IO α) : IO (Except IoError α) := do
  try return .ok (← act)
  catch e => return .error (causeOf e)

/-- The names from the root to where a path leads. -/
def realNames (p : Path) : IO RealPath := do
  let real ← IO.FS.realPath p.text
  return (Path.segments ⟨toString real⟩).filter fun s => !s.isEmpty

def readText (p : Path) : IO (Except IoError String) := do
  match ← attempt (IO.FS.readBinFile p.text) with
  | .error cause => return .error cause
  | .ok bytes =>
    match String.fromUTF8? bytes with
    | some text => return .ok text
    | none => return .error .notUtf8

def isDirectory (p : Path) : IO Bool := do
  try return (← (← IO.FS.realPath p.text).metadata).type == .dir
  catch _ => return false

def subdirectories (p : Path) : IO (Except IoError (List String)) :=
  attempt do
    let mut names := #[]
    for entry in ← (← IO.FS.realPath p.text).readDir do
      if (← entry.path.symlinkMetadata).type == .dir then
        names := names.push entry.fileName
    return names.toList

/-- The disk of the machine. -/
def disk : Disk IO where
  workingDirectory := realNames ⟨"."⟩
  readText := readText
  isDirectory := isDirectory
  subdirectories := subdirectories
  realPath p := attempt (realNames p)
  writeText p text := attempt (IO.FS.writeFile p.text text)

/-- More rounds than a loop can take in the time there is. -/
def steps : Nat := 1000000000000

end ReportTemplate.Main

def main (arguments : List String) : IO UInt32 := do
  let outcome ← ReportTemplate.CommandLine.run ReportTemplate.Main.disk ReportTemplate.Main.steps
    arguments
  IO.eprint outcome.stderr
  IO.print outcome.stdout
  return outcome.code.toUInt32
