import Guidebook.Page.Title
import Guidebook.Project.Unsaved
import Guidebook.Sequence

/-!
# Saving a page

The unsaved page becomes the next entry of the index and is committed together with the workspace.
If git refuses to stage or to commit, the index is put back and nothing stays staged.
-/

namespace Guidebook.Workflow

/-- The name that pages are committed under. -/
def committerName : String := "Codasai CLI"

/-- The address that pages are committed under. -/
def committerEmail : String := "codasai.cli@gmail.com"

/-- The index entry of a page's text. -/
def entryFor (path : String) (text : List Char) (settings : Settings) :
    Except Failure IndexEntry :=
  (Page.code path settings.extension).map fun code ↦ ⟨Page.titleOf text, code⟩

/-- The message of the commit that adds a page. -/
def saveMessage (entry : IndexEntry) : String :=
  "Add page: " ++ entry.name ++ "\nCode: " ++ entry.code

/-- The paths that a save stages; the workspace only if git knows of files in it. -/
def stagedPaths (git : Git.WorkFiles Workflow) (l : Layout) : Workflow (List String) := do
  let workspace := if (← git.listed l.workspaceDir).isEmpty then [] else [l.workspaceDir]
  return [l.pagesDir] ++ workspace ++ [Layout.metaDir ++ "/" ++ Layout.indexFile]

/-- Puts a file back to the bytes it had, or removes it if there was none. -/
def restore (path : Path) (before : Option (List UInt8)) : Workflow Unit :=
  match before with
  | some bytes => write path bytes
  | none => removeTree path

/-- Whether a failure is that of a git command. -/
def isGitFailure : Failure → Bool
  | .git _ _ => true
  | _ => false

/-- Stages and commits a page. -/
def record (git : Git.Changes Workflow) (staged : List String) (entry : IndexEntry) :
    Workflow Unit := do
  git.add staged
  git.commit (saveMessage entry) committerName committerEmail

/-- What a save is going to write: the entry of the page, its position, the index that ends in it,
and the bytes of the index file so far, if there is one. -/
structure Draft where
  entry : IndexEntry
  position : Nat
  longer : PageIndex
  before : Option (List UInt8)
  deriving Repr

/-- Looks at the index and at the unsaved page without writing anything. -/
def draft (tree : Git.WorkFiles Workflow) (l : Layout) (settings : Settings) : Workflow Draft := do
  let index ← loadIndex l.index
  let path ← unsavedPage tree l settings
  let text ← readText (l.root.join (Path.ofString path))
  let entry ← ofResult (entryFor path text settings)
  let longer ← ofResult ((index.append entry).mapError .index)
  let before ← if (← files).present l.index then some <$> read l.index else pure none
  return ⟨entry, index.size, longer, before⟩

/-- Puts the index back and takes what was staged out of the staging area, if git failed; any other
failure leaves both as they are. -/
def undo (git : Git.Changes Workflow) (l : Layout) (draft : Draft) (staged : List String)
    (failure : Failure) : Workflow Unit := do
  if isGitFailure failure then
    log .warning "codasai.save"
      ("saving page '" ++ draft.entry.code ++ "' failed; restoring the index")
    restore l.index draft.before
    git.reset staged
  throw failure

/-- Saves the unsaved page and gives its entry. -/
def savePage (tree : Git.WorkFiles Workflow) (git : Git.Changes Workflow) (l : Layout)
    (settings : Settings) : Workflow IndexEntry := do
  let draft ← draft tree l settings
  saveIndex l.index draft.longer
  let staged ← stagedPaths tree l
  try record git staged draft.entry
  catch failure => undo git l draft staged failure
  log .info "codasai.save"
    ("saved page '" ++ draft.entry.code ++ "' as step " ++ toString draft.position)
  return draft.entry

/-- Saves the unsaved page in the repository of its project. -/
def save (l : Layout) (settings : Settings) : Workflow IndexEntry :=
  savePage (workFiles l.root) (changes l.root) l settings

end Guidebook.Workflow
