import Guidebook.Git.Listing

/-!
# The command-line repository

A repository whose answers come from running git. Running is left open: a client is any way of
turning a command into the bytes it printed. Handles are the names git itself uses.
-/

namespace Guidebook.Git

/-- A way of running commands. -/
structure Client (m : Type → Type) where
  run : Command → m (List UInt8)

namespace Client

variable {m : Type → Type} [Monad m] [MonadExceptOf Failure m]

/-- Runs a command whose answer is text. -/
def runText (client : Client m) (command : Command) : m (List Char) := do
  match Utf8.decode (← client.run command) with
  | .ok text => pure text
  | .error _ => throw (Failure.git command .notText)

/-- The commits up to the current one. -/
def ancestry (client : Client m) (root : String) : m (List Revision) := do
  let _ ← client.run (.head root)
  return readLog (← client.runText .ancestry)

/-- The tree of a commit. -/
def treeOf (client : Client m) (revision : Revision) : m String := do
  return String.ofList (Text.strip (← client.runText (.treeOf revision.oid)))

/-- The leaves that a tree adds. -/
def added (client : Client m) (old : Option String) (new : String) :
    m (List (AddedFile String)) := do
  match old with
  | none =>
    let rows ← ofResult (readTreeRows (← client.runText (.leaves new)))
    return (rows.filter TreeRow.isFile).map fun row ↦ ⟨row.path, row.oid⟩
  | some old => ofResult (readAdded (← client.runText (.added old new)))

/-- The walk of a directory of a tree. -/
def walkTree (client : Client m) (tree dir : String) : m (List Outline.WalkEntry) := do
  let rows ← ofResult (readTreeRows (← client.runText (.subtree tree dir)))
  return (← ofResult (rows.mapM (TreeRow.entry? dir))).filterMap id

/-- The history of the repository in a directory. -/
def repository (client : Client m) (root : String) : Repository m String String where
  ancestry := client.ancestry root
  treeOf := client.treeOf
  added := client.added
  blob := fun name ↦ client.run (.blob name)
  blobAt := fun tree path ↦ client.run (.blob (tree ++ ":" ++ path))
  walkTree := client.walkTree

/-- The work tree that commands are run in. -/
def workFiles (client : Client m) : WorkFiles m where
  untracked := fun dir ↦ do return readPaths (← client.runText (.untracked dir))
  listed := fun dir ↦ do return readPaths (← client.runText (.listed dir))

/-- Runs a command whose answer does not matter. -/
def runSilent (client : Client m) (command : Command) : m Unit := do
  let _ ← client.run command

/-- The changes to the repository in a directory. -/
def changes (client : Client m) (root : String) : Changes m where
  init := client.runSilent (.init root)
  add := fun paths ↦ client.runSilent (.add paths)
  reset := fun paths ↦ client.runSilent (.reset paths)
  commit := fun message name email ↦ client.runSilent (.commit message name email)

end Client

/-- A canned answer to a command. -/
inductive Reply where
  | printed (stdout : List UInt8)
  | exited (stderr : List UInt8)
  | notStarted (reason : String)
  deriving Repr

/-- A git whose answers are given beforehand, and the commands that were run. -/
structure Script where
  hasGit : Bool
  replies : List Reply
  commands : List Command
  deriving Repr

/-- Commands run against a script; once its answers are used up, commands print nothing. -/
abbrev Scripted := ExceptT Failure (StateM Script)

/-- Runs a command against the script. -/
def Script.run (command : Command) : Scripted (List UInt8) := do
  let script ← get
  if !script.hasGit then throw (.git command .noExecutable)
  else
    let reply := (script.replies.head?).getD (.printed [])
    set { script with replies := script.replies.tail, commands := script.commands ++ [command] }
    match reply with
    | .printed stdout => return stdout
    | .exited stderr =>
      throw (.git command (.exited (String.ofList (Text.strip (Utf8.decodeLenient stderr)))))
    | .notStarted reason => throw (.git command (.notStarted reason))

/-- The scripted client. -/
def scripted : Client Scripted := ⟨Script.run⟩

end Guidebook.Git
