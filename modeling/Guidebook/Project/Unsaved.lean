import Guidebook.Outline.Builder
import Guidebook.Outline.Listing
import Guidebook.Project.Repositories

/-!
# What is not saved yet

The page that is being written: the only file of the pages directory that git does not know yet. The
workspace it goes with: the files there that git would commit.
-/

namespace Guidebook.Workflow

/-- The path of the only page that is not saved yet. -/
def unsavedPage (git : Git.WorkFiles Workflow) (l : Layout) (settings : Settings) :
    Workflow String := do
  let candidates := (← git.untracked l.pagesDir).filter fun path ↦
    Page.isPagePath path l.pagesDir settings.extension
  match candidates with
  | [] => throw (.noUnsavedPage l.pagesDir)
  | [path] => return path
  | paths => throw (.multipleUnsavedPages paths)

/-- The workspace files that git would commit. -/
def workspaceFiles (git : Git.WorkFiles Workflow) (l : Layout) : Workflow (List String) := do
  let tree ← files
  let present := (← git.listed l.workspaceDir).filter fun path ↦
    tree.isFile (l.root.join (Path.ofString path))
  ofResult (present.mapM fun path ↦ do
    return (Path.ofNames (← Path.namesBelow path l.workspaceDir)).toString)

/-- The walk of the workspace. -/
def workspaceWalk (git : Git.WorkFiles Workflow) (l : Layout) :
    Workflow (List Outline.WalkEntry) := do
  match Outline.entriesOfPaths (← workspaceFiles git l) with
  | some walk => return walk
  | none => throw .emptyPath

/-- The outline of the workspace. -/
def workspaceOutline (git : Git.WorkFiles Workflow) (l : Layout) :
    Workflow Outline.Directory := do
  ofResult ((Outline.build (← workspaceWalk git l)).mapError .outline)

end Guidebook.Workflow
