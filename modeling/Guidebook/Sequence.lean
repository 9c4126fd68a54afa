import Guidebook.Code.Companion
import Guidebook.Failure
import Guidebook.Git.Repository
import Guidebook.Page.Title

/-!
# The pages of a history

A commit that adds one page is a step of the guide, a commit that adds none is passed over, and
none may add several. Every commit is compared with the one before it, whether or not that one is a
step, and the first with nothing.
-/

namespace Guidebook

/-- A page as its commit adds it. -/
structure PageDocument where
  path : String
  code : String
  title : String
  text : List Char
  deriving Repr, DecidableEq

/-- A page with its position in the guide and the commit that adds it. -/
structure SequencedPage where
  number : Nat
  revision : Git.Revision
  page : PageDocument
  deriving Repr, DecidableEq

namespace Page

/-- The code of the page at a path, unless it is reserved. -/
def code (path extension : String) : Except Failure String :=
  let code := slug path extension
  if isReserved code then .error (.reservedCode code path) else .ok code

/-- The title of a page's text. -/
def titleOf (text : List Char) : String := String.ofList (title text)

end Page

namespace Sequence

/-- The text of a page's bytes, which have to be text. -/
def pageText (revision path : String) (bytes : List UInt8) : Except Failure (List Char) :=
  if Code.isBinary bytes then .error (.content .binaryPage (some revision) path)
  else match Utf8.decode bytes with
    | .ok text => .ok text
    | .error _ => .error (.content .pageNotText (some revision) path)

/-- The pages among added files. -/
def newPages {Blob : Type} (pagesDir extension : String) (files : List (Git.AddedFile Blob)) :
    List (Git.AddedFile Blob) :=
  files.filter fun file ↦ Page.isPagePath file.path pagesDir extension

variable {m : Type → Type} [Monad m] [MonadExceptOf Failure m] {Tree Blob : Type}

/-- The page in a file that a commit adds. -/
def readPage (repository : Git.Repository m Tree Blob) (extension : String)
    (revision : Git.Revision) (file : Git.AddedFile Blob) : m PageDocument := do
  let code ← ofResult (Page.code file.path extension)
  let text ← ofResult (pageText revision.oid file.path (← repository.blob file.blob))
  return ⟨file.path, code, Page.titleOf text, text⟩

/-- The pages of commits, numbered from a number on, after a given tree. -/
def pagesFrom (repository : Git.Repository m Tree Blob) (pagesDir extension : String)
    (previous : Option Tree) (number : Nat) : List Git.Revision → m (List SequencedPage)
  | [] => return []
  | revision :: rest => do
    let tree ← repository.treeOf revision
    match newPages pagesDir extension (← repository.added previous tree) with
    | [] => pagesFrom repository pagesDir extension (some tree) number rest
    | [file] =>
      let page ← readPage repository extension revision file
      let pages ← pagesFrom repository pagesDir extension (some tree) (number + 1) rest
      return ⟨number, revision, page⟩ :: pages
    | files => throw (Failure.multiplePages revision.oid (files.map (·.path)))

/-- The pages of the repository's history, oldest first. -/
def pages (repository : Git.Repository m Tree Blob) (pagesDir extension : String) :
    m (List SequencedPage) := do
  pagesFrom repository pagesDir extension none 0 (← repository.ancestry)

end Sequence

end Guidebook
