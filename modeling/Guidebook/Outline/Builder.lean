import Guidebook.Outline.Basic
import Guidebook.Text.Quoted

/-!
# Building outlines

A builder turns a walk back into an outline. It holds the open directories, innermost first, and
a cursor, the depth of the innermost one. An entry may lie at most one level below the cursor and
never above level 1; the builder refuses any other entry and stays as it is. Entries may arrive
in any order that keeps to this rule. A builder gives its tree away once.
-/

namespace Guidebook.Outline

/-- Why a builder refuses a call. -/
inductive Fault where
  /-- The entry has no open parent; the cursor is given. -/
  | orphan (name : String) (depth cursor : Int)
  /-- There is no open directory left to close. -/
  | nothingOpen
  /-- There is no open directory to put a node in. -/
  | noParent
  deriving DecidableEq, Repr

/-- The text of a refusal. -/
def Fault.message : Fault → String
  | .orphan name depth cursor =>
    "outline entry " ++ Text.quoted name ++ " at depth " ++ ToString.toString depth ++
      " has no open parent directory (deepest open directory is at depth " ++
      ToString.toString cursor ++ ")"
  | .nothingOpen => "pop from empty list"
  | .noParent => "list index out of range"

/-- The open directories, innermost first, and the depth of the innermost one. -/
structure Builder where
  stack : List Directory
  cursor : Int
  deriving Repr

namespace Builder

/-- A builder with only the root open. -/
def start : Builder := ⟨[Directory.empty "" 0], 0⟩

/-- Closes the innermost directory into the one around it. -/
def closeOne (stack : List Directory) : List Directory × Option Fault :=
  match stack with
  | [] => ([], some .nothingOpen)
  | [_] => ([], some .noParent)
  | inner :: outer :: rest => (outer.addDirectory inner :: rest, none)

/-- Closes a number of directories, stopping at the first fault. -/
def close : Nat → List Directory → List Directory × Option Fault
  | 0, stack => (stack, none)
  | n + 1, stack =>
    match closeOne stack with
    | (stack, some fault) => (stack, some fault)
    | (stack, none) => close n stack

/-- Whether an entry of a depth is refused at a cursor. -/
def refuses (cursor depth : Int) : Bool := depth < 1 || cursor + 1 < depth

/-- Closes every open directory at a depth or deeper. -/
def unwind (b : Builder) (name : String) (depth : Int) : Builder × Option Fault :=
  if refuses b.cursor depth then (b, some (.orphan name depth b.cursor))
  else
    let (stack, fault) := close (b.cursor + 1 - depth).toNat b.stack
    (⟨stack, b.cursor⟩, fault)

/-- Opens a directory. -/
def pushDirectory (b : Builder) (name : String) (depth : Int) : Builder × Option Fault :=
  match b.unwind name depth with
  | (b, some fault) => (b, some fault)
  | (b, none) => (⟨Directory.empty name depth :: b.stack, depth⟩, none)

/-- Puts a file into the innermost directory above its depth. -/
def pushFile (b : Builder) (name path : String) (depth : Int) : Builder × Option Fault :=
  match b.unwind name depth with
  | (b, some fault) => (b, some fault)
  | (b, none) =>
    match b.stack with
    | [] => (⟨[], depth - 1⟩, some .noParent)
    | top :: rest => (⟨top.addFile ⟨name, depth, path⟩ :: rest, depth - 1⟩, none)

/-- Adds a walk entry. -/
def push (b : Builder) (entry : WalkEntry) : Builder × Option Fault :=
  match entry.kind with
  | .directory => b.pushDirectory entry.name entry.depth
  | .file => b.pushFile entry.name entry.path entry.depth

/-- Adds walk entries up to the first that is refused. -/
def extend (b : Builder) : List WalkEntry → Builder × Option Fault
  | [] => (b, none)
  | entry :: rest =>
    match b.push entry with
    | (b, some fault) => (b, some fault)
    | (b, none) => b.extend rest

/-- Closes everything and gives the root away. -/
def finish (b : Builder) : Builder × Except Fault Directory :=
  match close b.cursor.toNat b.stack with
  | (stack, some fault) => (⟨stack, b.cursor⟩, .error fault)
  | ([], none) => (⟨[], 0⟩, .error .nothingOpen)
  | (root :: rest, none) => (⟨rest, 0⟩, .ok root)

end Builder

/-- The outline of a whole walk. -/
def build (entries : List WalkEntry) : Except Fault Directory :=
  match Builder.start.extend entries with
  | (_, some fault) => .error fault
  | (b, none) => b.finish.2

end Guidebook.Outline
