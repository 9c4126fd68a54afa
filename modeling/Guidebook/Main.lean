import Guidebook.Cli
import Guidebook.Git.Stream

/-!
# The program

Reads the files around the working directory, runs a command on them and writes back what it
changed. A repository is kept in a file of its own in the directory it belongs to, as a stream that
git can read; git's own export of a history can be put in its place.
-/

namespace Guidebook.Main

/-- The file that holds a repository. -/
def streamFile : String := ".guidebook"

/-- Directories whose content is not looked at. -/
def hiddenNames : List String := [".git", streamFile]

/-- Reads everything below a directory. -/
partial def loadBelow (dir : Path) : IO (List (List String × Node)) := do
  let entries ← ((← IO.currentDir) / dir.toString).readDir
  let mut nodes := []
  for name in (entries.map (·.fileName)).toList do
    let path := Layout.child dir name
    if hiddenNames.contains name then continue
    if ← ((← IO.currentDir) / path.toString).isDir then
      nodes := (path.parts, Node.directory) :: (← loadBelow path) ++ nodes
    else
      let bytes ← IO.FS.readBinFile path.toString
      nodes := (path.parts, Node.file bytes.toList) :: nodes
  return nodes

/-- Whether a file exists. -/
def isPresent (path : Path) : IO Bool := do
  return ← ((← IO.currentDir) / path.toString).pathExists

/-- The nearest directory at or above another that is a project or has a repository; the directory
itself if there is none. -/
def baseOf (dir : Path) : IO Path := do
  for candidate in dir.ancestors do
    if ← isPresent (Layout.child candidate streamFile) then return candidate
    if ← isPresent (Layout.child candidate Layout.metaDir) then return candidate
  return dir

/-- The repository in a directory, if there is one. -/
def loadRepository (dir : Path) : IO (List (Path × Git.Store)) := do
  let path := Layout.child dir streamFile
  if ← isPresent path then
    let bytes ← IO.FS.readBinFile path.toString
    return match Git.Stream.read 0 bytes.toList with
      | some store => [(dir, store)]
      | none => []
  else return []

/-- The world around a directory. -/
def loadState (dir : Path) : IO State := do
  let base ← baseOf dir
  let above := base.ancestors.map fun path ↦ (path.parts, Node.directory)
  let nodes ← if ← isPresent base then loadBelow base else pure []
  return ⟨⟨nodes ++ above⟩, ← loadRepository base, []⟩

/-- The path of a place. -/
def pathOf (place : List String) : Path :=
  match place with
  | "/" :: names => ⟨"/", names⟩
  | names => Path.ofNames names

/-- Writes the files that are new or changed and removes those that are gone. -/
def storeFiles (before after : FileTree) : IO Unit := do
  for (place, node) in before.nodes do
    if node != .directory && (after.find? place).isNone then
      IO.FS.removeFile (pathOf place).toString
  for (place, node) in after.nodes.reverse do
    if before.find? place != some node then
      match node with
      | .directory => IO.FS.createDirAll (pathOf place).toString
      | .file bytes =>
        IO.FS.createDirAll (Workflow.parent (pathOf place)).toString
        IO.FS.writeBinFile (pathOf place).toString ⟨bytes.toArray⟩

/-- Writes the repositories. -/
def storeRepositories (s : State) : IO Unit := do
  for (dir, store) in s.repositories do
    IO.FS.writeBinFile (Layout.child dir streamFile).toString ⟨(Git.Stream.write store).toArray⟩

/-- The directory that a command is about. -/
def targetOf (cwd : Path) : Cli.Action → Path
  | .init _ path | .build path | .save path | .preview path =>
    (cwd.join (Path.ofString path)).normalize

/-- Runs a command line and gives the exit status. -/
def run (words : List String) : IO UInt32 := do
  match Cli.parse words with
  | none =>
    IO.eprintln "usage: guidebook init TITLE | build | save | preview"
    return 2
  | some invocation =>
    let cwd := Path.ofString (toString (← IO.currentDir))
    let before ← loadState (targetOf cwd invocation.action)
    let (result, after) := Cli.run cwd invocation before
    storeFiles before.files after.files
    storeRepositories after
    match result with
    | .ok outcome =>
      outcome.output.forM fun line ↦ IO.println line
      outcome.errors.forM fun line ↦ IO.eprintln line
      return UInt32.ofNat outcome.exit
    | .error failure =>
      IO.eprintln failure.message
      return 1

end Guidebook.Main

/-- The program. -/
def main (words : List String) : IO UInt32 := Guidebook.Main.run words
