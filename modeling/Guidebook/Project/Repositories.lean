import Guidebook.Git.Recorded
import Guidebook.Git.WorkTree
import Guidebook.Project.Load

/-!
# The repositories of the world

Every directory belongs to the nearest repository at or above it. Commands are run in a directory
and answered by its repository; where there is none, every command fails.
-/

namespace Guidebook

namespace State

/-- The repository that a directory belongs to, with the repository's own directory. -/
def enclosing? (s : State) (dir : Path) : Option (Path × Git.Store) :=
  dir.ancestors.findSome? fun top ↦ (s.repositories.lookup top).map fun store ↦ (top, store)

/-- Whether a file belongs to another repository further down. The file is given by its components
below a directory. -/
def isForeign (s : State) (top : Path) (names : List String) : Bool :=
  s.repositories.any fun (other, _) ↦
    match other.relativeTo? top with
    | some inner => !inner.isEmpty && Path.hasPrefix inner names
    | none => false

/-- The work tree that a directory belongs to, seen from there. -/
def workTree? (s : State) (dir : Path) : Option Git.WorkTree :=
  (s.enclosing? dir).map fun (top, store) ↦
    ⟨(s.files.filesBelow top).filter fun file ↦ !s.isForeign top file.1,
      (dir.relativeTo? top).getD [], store⟩

/-- The world with the repository of a directory replaced where it stood, or put in front. -/
def setStore (s : State) (top : Path) (store : Git.Store) : State :=
  { s with
    repositories :=
      if s.repositories.any (·.1 == top) then
        s.repositories.map fun old ↦ if old.1 == top then (top, store) else old
      else (top, store) :: s.repositories }

end State

namespace Workflow

/-- Asks the work tree of a directory. -/
def asking {α : Type} (dir : Path) (command : Git.Command)
    (answer : Git.WorkTree → Except String α) : Workflow α := do
  ofResult (Git.handOver command)
  match (← get).workTree? dir with
  | none => throw (.git command (.exited Git.noRepository))
  | some tree =>
    match answer tree with
    | .ok a => return a
    | .error complaint => throw (.git command (.exited complaint))

/-- Changes the repository of a directory. A command may complain of what it did. -/
def changing (dir : Path) (command : Git.Command)
    (change : Git.WorkTree → Except String (Git.Store × Option String)) : Workflow Unit := do
  let (store, complaint) ← asking dir command change
  match (← get).enclosing? dir with
  | some (top, _) => modify fun s ↦ s.setStore top store
  | none => return ()
  match complaint with
  | some complaint => throw (.git command (.exited complaint))
  | none => return ()

/-- Makes a repository in a directory, unless there is one. -/
def initRepository (dir : Path) : Workflow Unit :=
  modify fun s ↦
    match s.repositories.lookup dir with
    | some _ => s
    | none => s.setStore dir (Git.Store.empty s.repositories.length)

/-- The files of the work tree of a directory. -/
def workFiles (dir : Path) : Git.WorkFiles Workflow where
  untracked := fun path ↦ asking dir (.untracked path) fun tree ↦ tree.untracked path
  listed := fun path ↦ asking dir (.listed path) fun tree ↦ tree.listed path

/-- The changes to the repository of a directory. -/
def changes (dir : Path) : Git.Changes Workflow where
  init := initRepository dir
  add := fun paths ↦ changing dir (.add paths) fun tree ↦ tree.add paths
  reset := fun paths ↦
    changing dir (.reset paths) fun tree ↦ (tree.reset paths).map fun store ↦ (store, none)
  commit := fun message name email ↦
    changing dir (.commit message name email) fun tree ↦
      (tree.commit message name email).map fun store ↦ (store, none)

/-- The history of the repository of a directory. -/
def history (dir : Path) :
    Workflow (Git.Repository (Except Failure) Git.TreeHandle (List UInt8)) := do
  match (← get).enclosing? dir with
  | some (_, store) => return store.repository dir.toString
  | none => return Git.noHistory dir.toString

end Workflow

end Guidebook
