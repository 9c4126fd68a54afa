import Guidebook.Git.Repository
import Guidebook.Path
import Guidebook.Text.Utf8

/-!
# Linear histories

A snapshot lists the leaves of a tree in git's order: by path, code point by code point, which is
the order of names with every directory taken as if it ended in a slash. A history is a list of
commits, oldest first.
-/

namespace Guidebook.Git

/-- What kind of leaf an entry is. -/
inductive Mode where
  | regular
  | executable
  | symlink
  | submodule
  deriving Repr, DecidableEq

/-- A leaf of a tree: its path, its kind and, unless it is a submodule, its bytes. -/
structure Leaf where
  path : String
  mode : Mode
  bytes : List UInt8
  deriving Repr, DecidableEq

/-- Whether the leaf is a submodule. -/
def Leaf.isSubmodule (leaf : Leaf) : Bool := leaf.mode == .submodule

/-- The leaves of a tree in git's order. -/
abbrev Snapshot := List Leaf

namespace Snapshot

/-- Whether a path lies below another, read as git's own paths. -/
def isBelow (path dir : List Char) : Bool := Text.startsWith (dir ++ ['/']) path

/-- The leaf at a path. -/
def leaf? (s : Snapshot) (path : String) : Option Leaf := s.find? (·.path == path)

/-- The snapshot without the leaves at or below a path. -/
def remove (s : Snapshot) (path : String) : Snapshot :=
  s.filter fun leaf ↦ leaf.path != path && !isBelow leaf.path.toList path.toList

/-- The snapshot without leaves that a leaf at a path would lie below. -/
def clearAbove (s : Snapshot) (path : String) : Snapshot :=
  s.filter fun leaf ↦ !isBelow path.toList leaf.path.toList

/-- Inserts a leaf at its place in the order. -/
def insertSorted (leaf : Leaf) : Snapshot → Snapshot
  | [] => [leaf]
  | head :: rest =>
    if Text.lessThan leaf.path.toList head.path.toList then leaf :: head :: rest
    else head :: insertSorted leaf rest

/-- The snapshot with a leaf; whatever stood in its place or in its way is gone. -/
def put (s : Snapshot) (leaf : Leaf) : Snapshot :=
  insertSorted leaf ((s.remove leaf.path).clearAbove leaf.path)

/-- The leaves, submodules left out, whose paths are no leaf paths of an older tree. -/
def added (old new : Snapshot) : List Leaf :=
  new.filter fun leaf ↦ !leaf.isSubmodule && !(old.any (·.path == leaf.path))

/-- The components of a path of git. -/
def components (path : String) : List String :=
  (Text.splitOnChar '/' path.toList).map String.ofList

/-- The length of the common front of two component lists. -/
def shared : List String → List String → Nat
  | a :: as, b :: bs => if a == b then shared as bs + 1 else 0
  | _, _ => 0

/-- A walk entry of given components. -/
def entry (kind : Outline.EntryKind) (names : List String) : Outline.WalkEntry :=
  ⟨names.getLastD "", kind, names.length, Text.joinStrings "/" names⟩

/-- The walk of leaves given by their components, while some directories are listed already. -/
def walkFrom (opened : List String) : List (List String) → List Outline.WalkEntry
  | [] => []
  | names :: rest =>
    let parents := names.dropLast
    let levels := (List.range parents.length).drop (shared opened parents)
    levels.map (fun level ↦ entry .directory (parents.take (level + 1))) ++
      entry .file names :: walkFrom parents rest

/-- The components of the paths below a directory, relative to it; submodules stand for
themselves. -/
def relative (dir : List String) (s : Snapshot) : List (List String × Bool) :=
  s.filterMap fun leaf ↦
    let names := components leaf.path
    if dir.length < names.length && Path.hasPrefix dir names then
      some (names.drop dir.length, leaf.isSubmodule)
    else none

/-- The walk of a directory of the tree. Directories that hold only submodules are listed,
submodules are not. -/
def walk (s : Snapshot) (dir : List String) : List Outline.WalkEntry :=
  let rows := relative dir s
  let modules := (rows.filter (·.2)).map (·.1)
  (walkFrom [] (rows.map (·.1))).filter fun e ↦
    !(e.kind == .file && modules.any fun names ↦ Text.joinStrings "/" names == e.path)

end Snapshot

/-- A commit of a linear history. -/
structure Commit where
  oid : String
  message : String
  committer : String
  snapshot : Snapshot
  deriving Repr

/-- White space that git strips from the end of a line. -/
def isTrailing (c : Char) : Bool := c == ' ' || c == '\t' || c == '\r' || c == '\n'

/-- The lines of a message without trailing white space. -/
def messageLines (message : String) : List (List Char) :=
  (Text.splitOnChar '\n' message.toList).map (Text.stripEnd isTrailing)

/-- The summary of a message: its first paragraph on one line. -/
def summary (message : String) : String :=
  let paragraph := ((messageLines message).dropWhile (·.isEmpty)).takeWhile (!·.isEmpty)
  String.ofList (Text.joinWith [' '] paragraph)

/-- The id of the commit that comes at a position of a repository: forty digits. -/
def commitId (repository position : Nat) : String :=
  String.ofList ("c0de".toList ++ Text.hexDigits 12 repository ++ Text.hexDigits 24 position)

/-- The id of the tree of a commit. -/
def treeId (oid : String) : String := "7ee5" ++ String.ofList (oid.toList.drop 4)

end Guidebook.Git
