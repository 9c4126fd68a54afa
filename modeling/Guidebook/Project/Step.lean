import Guidebook.Outline.Builder
import Guidebook.Page.Content
import Guidebook.Project.Export
import Guidebook.Sequence

/-!
# Steps of a guide

A step shows one page beside the workspace of its commit. Its neighbours are the pages before and
after it in the index, which knows the whole guide from the first step on. A step writes only below
the directory of its own code.
-/

namespace Guidebook

/-- A page with the outline of its workspace and the codes of its neighbours. -/
structure Step where
  number : Nat
  revision : Git.Revision
  page : PageDocument
  workspace : Outline.Directory
  previous : Option String
  next : Option String
  deriving Repr

namespace Step

/-- The step of a page, a workspace and an index. -/
def compose (index : PageIndex) (sequenced : SequencedPage) (workspace : Outline.Directory) :
    Step :=
  ⟨sequenced.number, sequenced.revision, sequenced.page, workspace,
    (index.atPosition (sequenced.number - 1 : Int)).map (·.code),
    (index.atPosition (sequenced.number + 1 : Int)).map (·.code)⟩

/-- What the template of pages shows of the step. -/
def context (step : Step) (settings : Settings) (content : List Char) : PageContext :=
  ⟨step.number, step.page.title, step.page.code, content, step.workspace,
    settings.baseUrl ++ step.page.code ++ "/", step.previous, step.next⟩

end Step

/-- The warning that a page is not where the index has it, if it is not. -/
def positionWarning (index : PageIndex) (code : String) (number : Nat) : Option String :=
  let position := index.positionOf code
  if position == some number then none
  else
    let place := match position with
      | some position => toString position
      | none => "missing"
    some ("page '" ++ code ++ "' is step " ++ toString number ++ " but index position " ++ place)

/-- What all templates show of the guide. -/
def guideContext (settings : Settings) (index : PageIndex) : GuideContext :=
  ⟨settings.title, settings.baseUrl, settings.style, index.entries⟩

/-- The files of an outline in the order of its walk. -/
def outlineFiles (workspace : Outline.Directory) : List String :=
  (workspace.walk.filter (·.kind == .file)).map (·.path)

/-- The repository's path of a workspace file. -/
def workspacePath (dir path : String) : String :=
  ((Path.ofString dir).join (Path.ofString path)).toString

/-- Everything that the steps of one build have in common. -/
structure Projection (Tree Blob : Type) where
  repository : Git.Repository (Except Failure) Tree Blob
  layout : Layout
  settings : Settings
  index : PageIndex
  theme : Theme

namespace Projection

variable {Tree Blob : Type}

/-- The outline of the workspace of a commit. -/
def outline (p : Projection Tree Blob) (revision : Git.Revision) :
    Except Failure Outline.Directory := do
  let walk ← p.repository.walkTree (← p.repository.treeOf revision) p.layout.workspaceDir
  (Outline.build walk).mapError .outline

/-- The step of a page. -/
def project (p : Projection Tree Blob) (sequenced : SequencedPage) : Except Failure Step :=
  (p.outline sequenced.revision).map (Step.compose p.index sequenced)

/-- The HTML of a step's page. -/
def page (p : Projection Tree Blob) (tree : FileTree) (step : Step) :
    Except Failure (List Char) :=
  match Page.content p.settings.style step.page.text with
  | .error problem =>
    .error (.render (.codeOfPage step.page.path problem) (some step.page.code))
  | .ok content =>
    Theme.render tree p.theme Theme.pageTemplate (guideContext p.settings p.index)
      (some (step.context p.settings content)) (some step.page.code)

end Projection

namespace Workflow

variable {Tree Blob : Type}

/-- Mirrors files of a step's tree, with their companions. -/
def exportFiles (p : Projection Tree Blob) (step : Step) (tree : Tree) (out : Path) :
    List String → Workflow (List Path)
  | [] => return []
  | path :: rest => do
    let place := workspacePath p.layout.workspaceDir path
    let bytes ← ofResult (p.repository.blobAt tree place)
    let written ← writeMirrored bytes (out.join (Path.ofString path)) (some step.revision.oid) place
    return written ++ (← exportFiles p step tree out rest)

/-- The directory of a code in the export. -/
def stepDirectory (l : Layout) (code : String) : Path := l.exportRoot.join (Path.ofString code)

/-- Writes a step and gives the paths written. -/
def exportStep (p : Projection Tree Blob) (step : Step) : Workflow (List Path) := do
  let out := stepDirectory p.layout step.page.code
  makeDirectories out
  log .info "codasai.projector"
    ("rendering step " ++ toString step.number ++ ": " ++ step.page.code)
  let html ← ofResult (p.page (← files) step)
  let target := Layout.child out "index.html"
  writeText target html
  let tree ← ofResult (p.repository.treeOf step.revision)
  let mirrored ← exportFiles p step tree (Layout.child out "workspace")
    (outlineFiles step.workspace)
  return target :: mirrored

/-- Writes the steps of pages one after another. -/
def exportSteps (p : Projection Tree Blob) : List SequencedPage → Workflow (List Path)
  | [] => return []
  | sequenced :: rest => do
    match positionWarning p.index sequenced.page.code sequenced.number with
    | some warning => log .warning "codasai.projector" warning
    | none => pure ()
    let written ← exportStep p (← ofResult (p.project sequenced))
    return written ++ (← exportSteps p rest)

end Workflow

end Guidebook
