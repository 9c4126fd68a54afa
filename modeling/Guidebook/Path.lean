import Guidebook.Text.Chars

/-!
# Paths

A path written with slashes: an anchor for absolute paths and the named components. Empty
components and `.` are dropped when a path is read, `..` stays, and exactly two leading slashes
are an anchor of their own.
-/

namespace Guidebook

/-- A path read component by component. -/
structure Path where
  anchor : String
  names : List String
  deriving DecidableEq, Repr, Inhabited

namespace Path

/-- The anchor at the front of a written path. -/
def anchorOf : List Char → String
  | '/' :: '/' :: '/' :: _ => "/"
  | '/' :: '/' :: _ => "//"
  | '/' :: _ => "/"
  | _ => ""

/-- Whether a written component names something: it is not empty and not `.`. -/
def isName (piece : List Char) : Bool := piece != [] && piece != ['.']

/-- The named components of a written path. -/
def namesOf (cs : List Char) : List String :=
  ((Text.splitOnChar '/' cs).filter isName).map String.ofList

/-- Reads a path. -/
def ofString (s : String) : Path := ⟨anchorOf s.toList, namesOf s.toList⟩

/-- A relative path of given components. -/
def ofNames (names : List String) : Path := ⟨"", names⟩

/-- The components, the anchor first if there is one. -/
def parts (p : Path) : List String := if p.anchor == "" then p.names else p.anchor :: p.names

/-- The path as text; the empty relative path is `.`. -/
def toString (p : Path) : String :=
  if p.anchor == "" && p.names.isEmpty then "."
  else p.anchor ++ Text.joinStrings "/" p.names

/-- The last component, empty if there is none. -/
def name (p : Path) : String := p.names.getLastD ""

/-- A path continued by another; an absolute continuation replaces it. -/
def join (p q : Path) : Path := if q.anchor == "" then ⟨p.anchor, p.names ++ q.names⟩ else q

/-- Whether one list starts with another. -/
def hasPrefix : List String → List String → Bool
  | [], _ => true
  | _ :: _, [] => false
  | a :: as, b :: bs => a == b && hasPrefix as bs

/-- Whether a path lies strictly inside a directory. -/
def isUnder (path root : String) : Bool :=
  let parts := (ofString path).parts
  let rootParts := (ofString root).parts
  rootParts.length < parts.length && hasPrefix rootParts parts

/-- The components of a path below a directory, if it is the directory or lies in it. Below the
empty relative path lie the relative paths only. -/
def relativeTo? (p root : Path) : Option (List String) :=
  if root.parts.isEmpty && p.anchor != "" then none
  else if hasPrefix root.parts p.parts then some (p.parts.drop root.parts.length)
  else none

/-- A path as it is shown to someone in a directory: relative to it if it lies there. -/
def shownFrom (p cwd : Path) : String :=
  match relativeTo? p cwd with
  | some names => (ofNames names).toString
  | none => p.toString

/-- The text after the last dot of a file name, without the dot. A dot at either end of the name
separates nothing. -/
def extension (name : String) : String :=
  let tail := (name.toList.reverse.takeWhile (· != '.')).reverse
  if tail.isEmpty || name.toList.length ≤ tail.length + 1 then "" else String.ofList tail

/-- Order of component lists: component by component, by code point, a proper prefix first. -/
def partsBefore : List String → List String → Bool
  | [], [] => false
  | [], _ :: _ => true
  | _ :: _, [] => false
  | a :: as, b :: bs =>
    if a == b then partsBefore as bs else Text.lessThan a.toList b.toList

end Path

end Guidebook
