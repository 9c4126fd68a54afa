import Guidebook.Code.Companion
import Guidebook.Project.Load
import Guidebook.Theme.Render
import Guidebook.Theme.Static

/-!
# Exported files

Mirrors of workspace files, and the files that all pages share: what the author wants to be public,
what the theme brings along, and the style sheet of highlighted code. A mirrored file stands beside
its companion, whose name is that of the file with an ending added.
-/

namespace Guidebook.Workflow

/-- Copies the files below a directory, in order, and gives the paths written. There is nothing to
copy if the directory is missing. -/
def copyFiles (dest : Path) : List (List String × List UInt8) → Workflow (List Path)
  | [] => return []
  | (names, bytes) :: rest => do
    let target := dest.join (Path.ofNames names)
    makeDirectories (parent target)
    write target bytes
    return target :: (← copyFiles dest rest)

/-- Copies everything below a directory to another. -/
def copyDirectory (source dest : Path) : Workflow (List Path) := do
  let tree ← files
  if tree.isDirectory source then copyFiles dest (tree.filesBelow source) else return []

/-- The companion of a workspace file: its text as HTML, or a placeholder. -/
def companionOf (bytes : List UInt8) (name : String) (revision : Option String) (path : String) :
    Except Failure (List Char) :=
  if Code.isBinary bytes then .ok Code.binaryPlaceholder.toList
  else match Utf8.decode bytes with
    | .ok text => .ok (Code.companionText text (Path.extension name))
    | .error _ => .error (.content .workspaceFileNotText revision path)

/-- The path of a file's companion. -/
def companionPath (target : Path) : Path :=
  ⟨target.anchor, target.names.dropLast ++ [target.name ++ Code.companionSuffix]⟩

/-- Writes a workspace file and its companion. `path` is the name a complaint uses. -/
def writeMirrored (bytes : List UInt8) (target : Path) (revision : Option String) (path : String) :
    Workflow (List Path) := do
  makeDirectories (parent target)
  write target bytes
  let companion ← ofResult (companionOf bytes target.name revision path)
  writeText (companionPath target) companion
  return [target, companionPath target]

/-! ## Shared files -/

/-- The theme of a project: its own if it has one. -/
def themeOf (l : Layout) : Workflow Theme := do
  return if (← files).isDirectory l.ownTheme then .own l.ownTheme else .packaged

/-- Copies the static files of a theme. -/
def copyStatic (theme : Theme) (dest : Path) : Workflow (List Path) :=
  match theme with
  | .packaged => copyFiles dest Theme.staticFiles
  | .own dir => copyDirectory (Layout.child dir "static") dest

/-- The style sheet of highlighted code in the export. -/
def sheetPath (l : Layout) (style : String) : Path :=
  (l.exportPublic.join (Path.ofNames ["theme", "syntax"])).join (Path.ofString (style ++ ".css"))

/-- Writes the shared files and gives the paths written. -/
def writePublic (l : Layout) (settings : Settings) : Workflow (List Path) := do
  let user ← copyDirectory l.userStatic (Layout.child l.exportPublic "user")
  let theme ← copyStatic (← themeOf l) (Layout.child l.exportPublic "theme")
  let sheet := sheetPath l settings.style
  makeDirectories (parent sheet)
  writeText sheet (Code.stylesheet settings.style).toList
  return user ++ theme ++ [sheet]

/-- Removes a directory with everything in it, if there is one. -/
def clearDirectory (path : Path) : Workflow Unit := do
  match (← files).node? path with
  | none => return ()
  | some .directory => removeTree path
  | some (.file _) => throw (.notTree path.toString)

end Guidebook.Workflow
