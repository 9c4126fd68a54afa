import Guidebook.Project.Step
import Guidebook.Project.Unsaved

/-!
# Previewing a page

The unsaved page is rendered as the step that saving it would make, beside the workspace as it is.
Only the preview and the shared files of the export are written.
-/

namespace Guidebook.Workflow

/-- What the template of pages shows of an unsaved page, which has no neighbours yet. -/
def previewContext (settings : Settings) (number : Nat) (code : String) (text content : List Char)
    (workspace : Outline.Directory) : PageContext :=
  ⟨number, Page.titleOf text, code, content, workspace,
    settings.baseUrl ++ Page.previewDir ++ "/", none, none⟩

/-- The HTML of an unsaved page. -/
def previewPage (tree : FileTree) (theme : Theme) (settings : Settings) (index : PageIndex)
    (code : String) (text : List Char) (workspace : Outline.Directory) :
    Except Failure (List Char) :=
  match Page.content settings.style text with
  | .error problem => .error (.render (.code problem) (some code))
  | .ok content =>
    Theme.render tree theme Theme.pageTemplate (guideContext settings index)
      (some (previewContext settings index.size code text content workspace)) (some code)

/-- Mirrors files of the workspace as they are, with their companions. -/
def previewFiles (l : Layout) (out : Path) : List String → Workflow (List Path)
  | [] => return []
  | path :: rest => do
    let bytes ← read (l.workspace.join (Path.ofString path))
    let written ← writeMirrored bytes (out.join (Path.ofString path)) none
      (workspacePath l.workspaceDir path)
    return written ++ (← previewFiles l out rest)

/-- Renders the unsaved page and gives the paths written, in order. -/
def previewFrom (git : Git.WorkFiles Workflow) (l : Layout) (settings : Settings) :
    Workflow (List Path) := do
  let theme ← themeOf l
  clearDirectory l.exportPreview
  clearDirectory l.exportPublic
  let shared ← writePublic l settings
  let path ← unsavedPage git l settings
  log .info "codasai.preview" ("previewing " ++ path)
  let text ← readText (l.root.join (Path.ofString path))
  let workspace ← workspaceOutline git l
  let index ← loadIndex l.index
  let code ← ofResult (Page.code path settings.extension)
  let html ← ofResult (previewPage (← files) theme settings index code text workspace)
  let target := Layout.child l.exportPreview "index.html"
  makeDirectories (parent target)
  writeText target html
  let mirrored ← previewFiles l (Layout.child l.exportPreview "workspace") (outlineFiles workspace)
  return shared ++ target :: mirrored

/-- Renders the unsaved page of a project. -/
def preview (l : Layout) (settings : Settings) : Workflow (List Path) :=
  previewFrom (workFiles l.root) l settings

end Guidebook.Workflow
