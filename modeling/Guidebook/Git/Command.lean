import Guidebook.Text.Chars

/-!
# Git commands

The questions a guide asks of its repository and the changes it makes to it, each as the command
that is run, with the complaint that is raised when it fails.
-/

namespace Guidebook.Git

/-- One use of git. -/
inductive Command where
  /-- Whether the repository in a directory has a commit. -/
  | head (root : String)
  /-- The commits up to the current one. -/
  | ancestry
  /-- The tree of a commit. -/
  | treeOf (oid : String)
  /-- All leaves of a tree. -/
  | leaves (tree : String)
  /-- The trees and leaves of a tree that match a path. -/
  | subtree (tree path : String)
  /-- The leaves that the second of two trees adds. -/
  | added (old new : String)
  /-- The bytes of a blob. -/
  | blob (name : String)
  /-- Files under a path that are neither tracked nor ignored. -/
  | untracked (path : String)
  /-- Files under a path that are tracked or not ignored. -/
  | listed (path : String)
  /-- Makes a repository in a directory. -/
  | init (root : String)
  /-- Stages paths. -/
  | add (paths : List String)
  /-- Takes paths out of the staging area. -/
  | reset (paths : List String)
  /-- Records the staging area. -/
  | commit (message name email : String)
  deriving Repr, DecidableEq

namespace Command

/-- The arguments of the command. -/
def arguments : Command → List String
  | head _ => ["rev-parse", "--verify", "--quiet", "HEAD"]
  | ancestry => ["log", "--reverse", "--topo-order", "--format=%H%x1f%s%x1e", "HEAD"]
  | treeOf oid => ["rev-parse", "--verify", oid ++ "^\x7btree\x7d"]
  | leaves tree => ["ls-tree", "-z", "--full-tree", "-r", tree]
  | subtree tree path => ["ls-tree", "-z", "--full-tree", "-r", "-t", tree, "--", path]
  | added old new => ["diff-tree", "-r", "-z", "--no-renames", "--diff-filter=A", old, new]
  | blob name => ["cat-file", "blob", name]
  | untracked path => ["ls-files", "-z", "--others", "--exclude-standard", "--", path]
  | listed path => ["ls-files", "-z", "--cached", "--others", "--exclude-standard", "--", path]
  | init _ => ["init", "--quiet"]
  | add paths => ["add", "--all", "--"] ++ paths
  | reset paths => ["reset", "--quiet", "--"] ++ paths
  | commit message name email =>
    ["-c", "committer.name=" ++ name, "-c", "committer.email=" ++ email, "commit", "--quiet", "-m",
      message]

/-- What is said when the command fails. -/
def complaint : Command → String
  | head root => "repository at " ++ root ++ " has no commits"
  | ancestry => "failed to enumerate the ancestry of HEAD"
  | treeOf oid => "failed to read the tree of revision " ++ oid
  | leaves tree => "failed to list tree " ++ tree
  | subtree tree _ => "failed to list tree " ++ tree
  | added old new => "failed to diff tree " ++ old ++ " against " ++ new
  | blob name => "failed to read blob " ++ name
  | untracked path => "failed to list files under " ++ path
  | listed path => "failed to list files under " ++ path
  | init root => "failed to initialize a repository in " ++ root
  | add _ => "`git add` exited with error"
  | reset _ => "`git reset` exited with error"
  | commit _ _ _ => "`git commit` exited with error"

end Command

/-- Why a command gave no answer. -/
inductive Problem where
  /-- It ended with an error and said something. -/
  | exited (stderr : String)
  /-- It could not be started. -/
  | notStarted (reason : String)
  /-- Its answer is not text. -/
  | notText
  /-- There is no git to run. -/
  | noExecutable
  deriving Repr, DecidableEq

/-- A complaint with what git said, if it said anything. -/
def withDetail (complaint stderr : String) : String :=
  let said := Text.strip stderr.toList
  if said.isEmpty then complaint else complaint ++ ": " ++ String.ofList said

/-- The text of a failed command. -/
def Problem.message (command : Command) : Problem → String
  | exited stderr => withDetail command.complaint stderr
  | notStarted reason => command.complaint ++ ": " ++ reason
  | notText => command.complaint ++ ": git output is not valid UTF-8"
  | noExecutable => "git executable is required but was not found on PATH"

end Guidebook.Git
