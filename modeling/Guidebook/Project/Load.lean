import Guidebook.Index
import Guidebook.Project.State
import Guidebook.Settings

/-!
# Finding and loading a project

A project is the nearest directory, from a starting point upwards, that holds a metadata
directory. Its settings have to exist; its index may be missing.
-/

namespace Guidebook

namespace Path

/-- Components with every `..` carried out. -/
def normalizeNames (done : List String) : List String → List String
  | [] => done
  | name :: rest =>
    if name == ".." then normalizeNames done.dropLast rest else normalizeNames (done ++ [name]) rest

/-- The path with every `..` carried out. -/
def normalize (p : Path) : Path := ⟨p.anchor, normalizeNames [] p.names⟩

/-- A path and the paths above it, nearest first. -/
def ancestors (p : Path) : List Path :=
  (List.range (p.names.length + 1)).map fun n ↦ ⟨p.anchor, p.names.take (p.names.length - n)⟩

end Path

namespace Workflow

/-- The project at or above a directory. -/
def findProject (start : Path) : Workflow Path := do
  let tree ← files
  let current := start.normalize
  match current.ancestors.find? fun dir ↦ tree.isDirectory (Layout.child dir Layout.metaDir) with
  | some root => return root
  | none => throw (.projectNotFound current.toString)

/-- The settings in a file. -/
def loadSettings (path : Path) : Workflow Settings := do
  if (← files).present path then
    ofResult (Settings.ofBytes path.toString (← read path))
  else throw (.settingsMissing path.toString)

/-- Writes a fresh settings file. -/
def writeSettings (path : Path) (title : String) : Workflow Unit := do
  makeDirectories (parent path)
  writeText path (Settings.writeTitle title)

/-- The layout that settings give a project. -/
def layoutOf (root : Path) (settings : Settings) : Layout :=
  ⟨root, settings.pagesDir, settings.workspaceDir⟩

/-- The layout and the settings of the project at a directory. -/
def loadRoot (root : Path) : Workflow (Layout × Settings) := do
  let settings ← loadSettings (Layout.ofRoot root).settings
  return (layoutOf root settings, settings)

/-- The layout and the settings of the project at or above a directory. -/
def loadProject (start : Path) : Workflow (Layout × Settings) := do
  loadRoot (← findProject start)

/-- The index in a file; a missing file is an index without pages. -/
def loadIndex (path : Path) : Workflow PageIndex := do
  let tree ← files
  if tree.present path then
    match tree.read path with
    | .ok bytes => ofResult (PageIndex.ofBytes path.toString bytes)
    | .error _ => throw (.index (.unreadable path.toString))
  else
    log .debug "codasai.index" ("no page index at " ++ path.toString ++ "; starting empty")
    return PageIndex.empty

/-- Writes an index to a file. -/
def saveIndex (path : Path) (index : PageIndex) : Workflow Unit := do
  makeDirectories (parent path)
  writeText path index.write

end Workflow

end Guidebook
