import Guidebook.Outline.Basic
import Guidebook.Path

/-!
# Walks of file listings

A plain list of file paths implies a walk: the paths are ordered component by component, each is
listed once, and every directory is listed right before the first path below it.
-/

namespace Guidebook.Outline

/-- Inserts a component list into an ordered list, unless it is there already. -/
def insertParts (parts : List String) : List (List String) → List (List String)
  | [] => [parts]
  | head :: rest =>
    if parts == head then head :: rest
    else if Path.partsBefore parts head then parts :: head :: rest
    else head :: insertParts parts rest

/-- The distinct component lists of non-empty paths in order. -/
def orderedParts (paths : List String) : List (List String) :=
  ((paths.filter (· != "")).map (fun path ↦ (Path.ofString path).parts)).foldr insertParts []

/-- The length of the common front of two component lists. -/
def sharedLength : List String → List String → Nat
  | a :: as, b :: bs => if a == b then sharedLength as bs + 1 else 0
  | _, _ => 0

/-- The entry of a directory given by its components. -/
def directoryEntry (parts : List String) : WalkEntry :=
  ⟨parts.getLastD "", .directory, parts.length, Text.joinStrings "/" parts⟩

/-- The entry of a file given by its components. -/
def fileEntry (parts : List String) : WalkEntry :=
  ⟨parts.getLastD "", .file, parts.length, Text.joinStrings "/" parts⟩

/-- The entries of the directories of a path that lie deeper than a level. -/
def directoryEntries (shared : Nat) (parents : List String) : List WalkEntry :=
  ((List.range parents.length).drop shared).map fun level ↦
    directoryEntry (parents.take (level + 1))

/-- The walk of ordered paths while some directories are open; `none` if a path has no
component. -/
def entriesFrom (opened : List String) : List (List String) → Option (List WalkEntry)
  | [] => some []
  | parts :: rest =>
    if parts.isEmpty then none
    else
      let parents := parts.dropLast
      (entriesFrom parents rest).map fun tail ↦
        directoryEntries (sharedLength opened parents) parents ++ fileEntry parts :: tail

/-- The walk that a list of file paths implies. -/
def entriesOfPaths (paths : List String) : Option (List WalkEntry) :=
  entriesFrom [] (orderedParts paths)

end Guidebook.Outline
