import Guidebook.Files
import Guidebook.Git.Store
import Guidebook.Log

/-!
# The world of a project

Everything a workflow may read or change: the file tree, the repositories in it and what was
reported. A workflow that fails keeps what it did before it failed.
-/

namespace Guidebook

/-- The file tree, the repositories by their directories, and the reports, oldest first. -/
structure State where
  files : FileTree
  repositories : List (Path × Git.Store)
  logs : List LogRecord
  deriving Repr

/-- A run that reads and changes the world and may fail on the way. -/
abbrev Workflow := ExceptT Failure (StateM State)

namespace Workflow

/-- Reports something. -/
def log (level : LogLevel) (logger message : String) : Workflow Unit :=
  modify fun s ↦ { s with logs := s.logs ++ [⟨level, logger, message⟩] }

/-- The file tree as it is. -/
def files : Workflow FileTree := do return (← get).files

/-- Lifts a file operation on a path. -/
def onFile {α : Type} (path : Path) (r : Except FileProblem α) : Workflow α :=
  ofResult (r.mapError fun problem ↦ .file problem path.toString)

/-- The bytes of a file. -/
def read (path : Path) : Workflow (List UInt8) := do onFile path ((← files).read path)

/-- Replaces the file tree. -/
def setFiles (t : FileTree) : Workflow Unit := modify fun s ↦ { s with files := t }

/-- Writes a file into an existing directory. -/
def write (path : Path) (bytes : List UInt8) : Workflow Unit := do
  setFiles (← onFile path ((← files).write path bytes))

/-- Writes text to a file in an existing directory. -/
def writeText (path : Path) (text : List Char) : Workflow Unit := write path (Utf8.encode text)

/-- Makes a directory and those above it. -/
def makeDirectories (path : Path) : Workflow Unit := do
  setFiles (← onFile path ((← files).makeDirectories path))

/-- Removes a directory with everything in it, if there is one. -/
def removeTree (path : Path) : Workflow Unit := do setFiles ((← files).remove path)

/-- The directory that a path lies in. -/
def parent (path : Path) : Path := ⟨path.anchor, path.names.dropLast⟩

/-- The text of a file with its line ends made line feeds. -/
def readText (path : Path) : Workflow (List Char) := do
  match Utf8.decode (← read path) with
  | .ok text => return Text.universalNewlines text
  | .error fault => throw (.notText fault)

end Workflow

end Guidebook
