import Guidebook.Failure
import Guidebook.Path

/-!
# The file tree

The directories and files that a project lives among. Paths may hold `..`, which is followed step
by step. Every operation either does what it says or leaves the tree as it is and names what
hinders it.
-/

namespace Guidebook

/-- What lies at a path. -/
inductive Node where
  | directory
  | file (bytes : List UInt8)
  deriving Repr, DecidableEq

/-- Paths, by their components, and what lies there. -/
structure FileTree where
  nodes : List (List String × Node)
  deriving Repr

namespace FileTree

/-- A tree with nothing in it but its top. -/
def empty : FileTree := ⟨[]⟩

/-- What lies at a place; the top is a directory. -/
def find? (t : FileTree) (place : List String) : Option Node :=
  if place.isEmpty then some .directory else t.nodes.lookup place

/-- The tree with a node put at a place. What lay there gives way where it stood. -/
def put (t : FileTree) (place : List String) (node : Node) : FileTree :=
  if t.nodes.any (·.1 == place) then
    ⟨t.nodes.map fun old ↦ if old.1 == place then (place, node) else old⟩
  else ⟨(place, node) :: t.nodes⟩

/-- The tree without a place and everything below it. -/
def removeAll (t : FileTree) (place : List String) : FileTree :=
  ⟨t.nodes.filter (!Path.hasPrefix place ·.1)⟩

/-- The place that components lead to from a directory. All but the last step have to lead through
directories. -/
def follow (t : FileTree) (place : List String) : List String → Except FileProblem (List String)
  | [] => .ok place
  | name :: rest =>
    if name == ".." then follow t place.dropLast rest
    else
      let next := place ++ [name]
      if rest.isEmpty then .ok next
      else match t.find? next with
        | some .directory => follow t next rest
        | some (.file _) => .error .notDirectory
        | none => .error .missing

/-- The place a path leads to. -/
def resolve (t : FileTree) (path : Path) : Except FileProblem (List String) :=
  t.follow [] path.parts

/-- What lies at a path. -/
def node? (t : FileTree) (path : Path) : Option Node :=
  match t.resolve path with
  | .ok place => t.find? place
  | .error _ => none

/-- Whether anything lies at a path. -/
def present (t : FileTree) (path : Path) : Bool := (t.node? path).isSome

/-- Whether a directory lies at a path. -/
def isDirectory (t : FileTree) (path : Path) : Bool := t.node? path == some .directory

/-- Whether a file lies at a path. -/
def isFile (t : FileTree) (path : Path) : Bool :=
  match t.node? path with
  | some (.file _) => true
  | _ => false

/-- The bytes of a file. -/
def read (t : FileTree) (path : Path) : Except FileProblem (List UInt8) := do
  match t.find? (← t.resolve path) with
  | some (.file bytes) => .ok bytes
  | some .directory => .error .isDirectory
  | none => .error .missing

/-- The tree with a file of given bytes in an existing directory. -/
def write (t : FileTree) (path : Path) (bytes : List UInt8) : Except FileProblem FileTree := do
  let place ← t.resolve path
  match t.find? place with
  | some .directory => .error .isDirectory
  | _ => .ok (t.put place (.file bytes))

/-- The tree with a directory at a path, those above it included. `after` holds the components
still to be made, `done` those that exist. -/
def makeSteps (t : FileTree) (done : List String) : List String → Except FileProblem FileTree
  | [] => .ok t
  | name :: rest =>
    let path := done ++ [name]
    match t.follow [] path with
    | .error problem => .error problem
    | .ok place =>
      match t.find? place with
      | some .directory => makeSteps t path rest
      | some (.file _) => .error (if rest.isEmpty then .occupied else .notDirectory)
      | none => makeSteps (t.put place .directory) path rest

/-- The tree with a directory at a path and at every path above it. -/
def makeDirectories (t : FileTree) (path : Path) : Except FileProblem FileTree :=
  t.makeSteps [] path.parts

/-- The tree without the file at a path. -/
def remove (t : FileTree) (path : Path) : FileTree :=
  match t.resolve path with
  | .ok place => t.removeAll place
  | .error _ => t

/-- Inserts a place into a list of places in order. -/
def insertPlace (entry : List String × Node) : List (List String × Node) → List (List String × Node)
  | [] => [entry]
  | head :: rest =>
    if Path.partsBefore head.1 entry.1 then head :: insertPlace entry rest else entry :: head :: rest

/-- The places below a place, in order, relative to it, with what lies there. -/
def below (t : FileTree) (place : List String) : List (List String × Node) :=
  let nodes := t.nodes.filter fun (p, _) ↦ place.length < p.length && Path.hasPrefix place p
  (nodes.map fun (p, node) ↦ (p.drop place.length, node)).foldr insertPlace []

/-- The files below a directory in order, as components relative to it. -/
def filesBelow (t : FileTree) (path : Path) : List (List String × List UInt8) :=
  match t.resolve path with
  | .ok place =>
    (t.below place).filterMap fun
      | (p, .file bytes) => some (p, bytes)
      | (_, .directory) => none
  | .error _ => []

end FileTree

end Guidebook
