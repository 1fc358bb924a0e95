import ReportTemplate.Path

/-!
# ReportTemplate.FileSystem — what is asked of a file system

A template project is read, and a document written, through the operations below, in any monad: a
tree of files in memory or the disk.
-/

namespace ReportTemplate

/-- Why a file system refuses. -/
inductive IoError where
  | notFound
  | notADirectory
  | isADirectory
  | nameTooLong
  | tooManyLinks
  | nulInPath
  | notUtf8
  | other (text : String)
deriving DecidableEq, Repr

def IoError.message : IoError → String
  | notFound => "No such file or directory (os error 2)"
  | notADirectory => "Not a directory (os error 20)"
  | isADirectory => "Is a directory (os error 21)"
  | nameTooLong => "File name too long (os error 36)"
  | tooManyLinks => "Too many levels of symbolic links (os error 40)"
  | nulInPath => "file name contained an unexpected NUL byte"
  | notUtf8 => "stream did not contain valid UTF-8"
  | other text => text

/-- A file system that can be read. -/
structure FileSystem (m : Type → Type) where
  /-- The directory that relative paths are seen from. -/
  workingDirectory : m RealPath
  readText : Path → m (Except IoError String)
  isDirectory : Path → m Bool
  /-- The names of the directories in a directory, links aside, in any order. -/
  subdirectories : Path → m (Except IoError (List String))
  /-- Where a path leads once every link has been followed. -/
  realPath : Path → m (Except IoError RealPath)

/-- A file system that can be written as well. -/
structure Disk (m : Type → Type) extends FileSystem m where
  /-- Makes the text the content of a file, which is created in a directory that exists. -/
  writeText : Path → String → m (Except IoError Unit)

end ReportTemplate
