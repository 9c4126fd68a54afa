import Guidebook.Git.History

/-!
# Stores

A repository held in memory: its history, its staging area and whether git knows who commits.
-/

namespace Guidebook.Git

/-- A repository: the number that tells its ids from those of others, its commits, oldest first,
what is staged, and whether there is an identity to commit under. -/
structure Store where
  number : Nat
  commits : List Commit
  staged : Snapshot
  hasIdentity : Bool
  deriving Repr

namespace Store

/-- A fresh repository: no commits, and nobody to commit. -/
def empty (number : Nat) : Store := ⟨number, [], [], false⟩

/-- The current snapshot. -/
def head (s : Store) : Snapshot :=
  match s.commits.getLast? with
  | some commit => commit.snapshot
  | none => []

/-- The name of the current commit. -/
def headName : String := "HEAD"

/-- The commit of a name: its id, or the name of the current one. -/
def commit? (s : Store) (name : String) : Option Commit :=
  if name == headName then s.commits.getLast? else s.commits.find? (·.oid == name)

/-- The lines of a message as it is recorded: no white space at line ends, no blank lines around
the text and never two in a row. -/
def squeeze : Bool → List (List Char) → List (List Char)
  | _, [] => []
  | blank, line :: rest =>
    if line.isEmpty then squeeze true rest
    else if blank then [] :: line :: squeeze false rest
    else line :: squeeze false rest

/-- A message as it is recorded. -/
def cleanMessage (message : String) : String :=
  let lines := squeeze false ((messageLines message).dropWhile (·.isEmpty))
  String.ofList (Text.joinWith ['\n'] lines)

/-- The repository with its staging area recorded. -/
def record (s : Store) (message committer : String) : Store :=
  { s with commits := s.commits ++ [⟨commitId s.number s.commits.length, message, committer,
      s.staged⟩] }

/-- The repository with a commit of a given snapshot. -/
def push (s : Store) (message : String) (snapshot : Snapshot) : Store :=
  { s with
    commits := s.commits ++ [⟨commitId s.number s.commits.length, message, "", snapshot⟩]
    staged := snapshot }

/-- The staging area with paths set back to the current snapshot. -/
def unstage (s : Store) (covers : String → Bool) : Store :=
  let kept := s.staged.filter (!covers ·.path)
  let back := s.head.filter (covers ·.path)
  { s with staged := back.foldl Snapshot.put kept }

end Store

end Guidebook.Git
