import Guidebook.Outline.Basic

/-!
# Repositories

What a guide asks of its repository, and what it changes there. A commit is known by its id and its
summary; trees and blobs are handles whose form the repository chooses.
-/

namespace Guidebook.Git

/-- A commit by its id and the summary of its message. -/
structure Revision where
  oid : String
  summary : String
  deriving Repr, DecidableEq

namespace Revision

/-- The first ten digits of the id. -/
def short (r : Revision) : String := String.ofList (r.oid.toList.take 10)

end Revision

/-- A leaf that a tree has and another has not. -/
structure AddedFile (Blob : Type) where
  path : String
  blob : Blob
  deriving Repr, DecidableEq

/-- The questions to the history of a repository. -/
structure Repository (m : Type → Type) (Tree Blob : Type) where
  /-- The commits up to the current one, oldest first. -/
  ancestry : m (List Revision)
  /-- The tree of a commit. -/
  treeOf : Revision → m Tree
  /-- The leaves that a tree adds to another, or has, submodules left out. -/
  added : Option Tree → Tree → m (List (AddedFile Blob))
  /-- The bytes of a blob. -/
  blob : Blob → m (List UInt8)
  /-- The bytes of the blob at a path of a tree. -/
  blobAt : Tree → String → m (List UInt8)
  /-- The walk of a directory of a tree. -/
  walkTree : Tree → String → m (List Outline.WalkEntry)

/-- The questions to the work tree of a repository. -/
structure WorkFiles (m : Type → Type) where
  /-- Files below a path that are neither tracked nor ignored, in order. -/
  untracked : String → m (List String)
  /-- Files below a path that are tracked or not ignored, in order. -/
  listed : String → m (List String)

/-- The changes to a repository. -/
structure Changes (m : Type → Type) where
  /-- Makes the repository. -/
  init : m Unit
  /-- Stages what lies at or below paths. -/
  add : List String → m Unit
  /-- Takes what lies at or below paths out of the staging area. -/
  reset : List String → m Unit
  /-- Records the staging area with a message under a committer's name and address. -/
  commit : String → String → String → m Unit

end Guidebook.Git
