import Guidebook.Git.Listing
import Guidebook.Git.Pathspec
import Guidebook.Git.Store

/-!
# The history of a store

The questions to a history, answered from a store. The commits are read from the log as git prints
it; a tree is asked for by the id of its commit.
-/

namespace Guidebook.Git

/-- A command whose words can be handed over: none of them has a NUL in it. -/
def handOver (command : Command) : Except Failure Unit :=
  if command.arguments.any (·.toList.contains '\x00') then .error .nullByte else .ok ()

/-- A tree by its id, with what it holds. -/
structure TreeHandle where
  oid : String
  snapshot : Snapshot
  deriving Repr

/-- A commit as it is listed. -/
def Commit.revision (commit : Commit) : Revision := ⟨commit.oid, summary commit.message⟩

namespace Store

/-- The log as git prints it. -/
def log (s : Store) : List Char := s.commits.flatMap (·.revision.write)

/-- The commits up to the current one. -/
def ancestry (s : Store) (root : String) : Except Failure (List Revision) :=
  if s.commits.isEmpty then .error (.git (.head root) (.exited "")) else .ok (readLog s.log)

/-- The tree of a commit. -/
def treeOf (s : Store) (revision : Revision) : Except Failure TreeHandle :=
  match s.commit? revision.oid with
  | some commit => .ok ⟨treeId commit.oid, commit.snapshot⟩
  | none => .error (.git (.treeOf revision.oid) (.exited "fatal: Needed a single revision"))

end Store

/-- The leaves of a tree at or below a place. -/
def Snapshot.within (s : Snapshot) (place : List String) : Snapshot :=
  s.filter fun leaf ↦ Path.hasPrefix place (components leaf.path)

namespace TreeHandle

/-- The leaves of a tree that another has not. -/
def addedTo (old : Option TreeHandle) (new : TreeHandle) : List (AddedFile (List UInt8)) :=
  (Snapshot.added ((old.map (·.snapshot)).getD []) new.snapshot).map fun leaf ↦
    ⟨leaf.path, leaf.bytes⟩

/-- The bytes of the leaf at a path. -/
def blobAt (tree : TreeHandle) (path : String) : Except Failure (List UInt8) :=
  match tree.snapshot.leaf? path with
  | some leaf => .ok leaf.bytes
  | none =>
    .error (.git (.blob (tree.oid ++ ":" ++ path))
      (.exited ("fatal: path '" ++ path ++ "' does not exist in '" ++ tree.oid ++ "'")))

/-- The walk of a directory. Of the directory only that is listed which lies where git takes the
path to lead. -/
def walk (tree : TreeHandle) (dir : String) : Except Failure (List Outline.WalkEntry) := do
  handOver (.subtree tree.oid dir)
  match treePathspec dir with
  | .error complaint => .error (.git (.subtree tree.oid dir) (.exited complaint))
  | .ok place => .ok ((tree.snapshot.within place).walk (Path.ofString dir).parts)

end TreeHandle

/-- The history of a store, seen from a directory. -/
def Store.repository (s : Store) (root : String) :
    Repository (Except Failure) TreeHandle (List UInt8) where
  ancestry := s.ancestry root
  treeOf := s.treeOf
  added := fun old new ↦ .ok (TreeHandle.addedTo old new)
  blob := .ok
  blobAt := TreeHandle.blobAt
  walkTree := TreeHandle.walk

/-- The history in a directory without a repository: there is none to ask. -/
def noHistory (root : String) : Repository (Except Failure) TreeHandle (List UInt8) :=
  { Store.repository (Store.empty 0) root with
    ancestry := .error (.git (.head root) (.exited noRepository)) }

end Guidebook.Git
