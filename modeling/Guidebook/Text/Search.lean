import Guidebook.Text.Chars

/-!
# Pieces in text

Where a piece of text occurs, how often, and what is between its occurrences. Occurrences are taken
from one side and never overlap; an empty piece occurs before every character and at the end.
-/

namespace Guidebook.Text

/-- The first place at or behind `place` where a piece occurs in the text from there on. -/
def placeFrom (piece : List Char) (place : Nat) : List Char → Option Nat
  | [] => if piece.isEmpty then some place else none
  | c :: rest =>
    if startsWith piece (c :: rest) then some place else placeFrom piece (place + 1) rest

/-- The first place of a piece. -/
def place? (piece cs : List Char) : Option Nat := placeFrom piece 0 cs

/-- The last place of a piece. -/
def lastPlace? (piece cs : List Char) : Option Nat :=
  (place? piece.reverse cs.reverse).map fun n ↦ cs.length - (n + piece.length)

/-- Whether a piece occurs in a text. -/
def hasPiece (piece cs : List Char) : Bool := (place? piece cs).isSome

/-- The text between the first occurrences of a piece, at most `limit` of them. `skip` characters of
an occurrence are still to be passed. -/
def splitFrom (piece : List Char) (limit skip : Nat) : List Char → List (List Char)
  | [] => [[]]
  | c :: rest =>
    if skip != 0 then splitFrom piece limit (skip - 1) rest
    else if limit != 0 && startsWith piece (c :: rest) then
      [] :: splitFrom piece (limit - 1) (piece.length - 1) rest
    else match splitFrom piece limit 0 rest with
      | [] => [[c]]
      | first :: others => (c :: first) :: others

/-- The text between the first occurrences of a piece that is not empty, at most `limit` of them. -/
def splitOn (piece : List Char) (limit : Nat) (cs : List Char) : List (List Char) :=
  splitFrom piece limit 0 cs

/-- The text between the last occurrences of a piece that is not empty, at most `limit` of them. -/
def splitOnLast (piece : List Char) (limit : Nat) (cs : List Char) : List (List Char) :=
  ((splitOn piece.reverse limit cs.reverse).map List.reverse).reverse

/-- The number of occurrences of a piece. -/
def countOf (piece cs : List Char) : Nat :=
  if piece.isEmpty then cs.length + 1 else (splitOn piece cs.length cs).length - 1

/-- A text with the first occurrences of a piece replaced, at most `limit` of them. -/
def replaceFirst (piece replacement : List Char) (limit : Nat) (cs : List Char) : List Char :=
  if piece.isEmpty then
    (cs.take limit).flatMap (fun c ↦ replacement ++ [c]) ++
      (if cs.length < limit then replacement else []) ++ cs.drop limit
  else joinWith replacement (splitOn piece limit cs)

/-- A text with all occurrences of a piece replaced. -/
def replaceAll (piece replacement cs : List Char) : List Char :=
  replaceFirst piece replacement (cs.length + 1) cs

/-- The words of a text, at most `limit` of them; what is left of it comes last. -/
def splitWords : Nat → List Char → List (List Char)
  | 0, cs =>
    let rest := cs.dropWhile isBlank
    if rest.isEmpty then [] else [rest]
  | limit + 1, cs =>
    let rest := cs.dropWhile isBlank
    if rest.isEmpty then []
    else
      let word := rest.takeWhile (!isBlank ·)
      word :: splitWords limit (rest.drop word.length)

/-- The words of a text. -/
def words (cs : List Char) : List (List Char) := splitWords cs.length cs

/-- The last words of a text, at most `limit` of them; what is left of it comes first. -/
def splitLastWords (limit : Nat) (cs : List Char) : List (List Char) :=
  ((splitWords limit cs.reverse).map List.reverse).reverse

/-- Whether a character ends a line. -/
def endsLine (c : Char) : Bool :=
  let n := c.toNat
  (0xa ≤ n && n ≤ 0xd) || (0x1c ≤ n && n ≤ 0x1e) || n == 0x85 || n == 0x2028 || n == 0x2029

/-- The lines of a text with their ends. -/
def linesWithEnds : List Char → List (List Char × List Char)
  | [] => []
  | '\r' :: '\n' :: rest => ([], ['\r', '\n']) :: linesWithEnds rest
  | c :: rest =>
    if endsLine c then ([], [c]) :: linesWithEnds rest
    else match linesWithEnds rest with
      | [] => [([c], [])]
      | (line, ending) :: others => (c :: line, ending) :: others

/-- The lines of a text. -/
def lines (cs : List Char) : List (List Char) := (linesWithEnds cs).map (·.1)

/-- What is before the first occurrence of a piece, the piece, and what is behind it. -/
def partition (piece cs : List Char) : List Char × List Char × List Char :=
  match place? piece cs with
  | some n => (cs.take n, piece, cs.drop (n + piece.length))
  | none => (cs, [], [])

/-- What is before the last occurrence of a piece, the piece, and what is behind it. -/
def partitionLast (piece cs : List Char) : List Char × List Char × List Char :=
  match lastPlace? piece cs with
  | some n => (cs.take n, piece, cs.drop (n + piece.length))
  | none => ([], [], cs)

/-- A text set to a width in columns: each tab goes to the next multiple of `size`. -/
def expandTabs (size column : Nat) : List Char → List Char
  | [] => []
  | '\t' :: rest =>
    let room := if size == 0 then 0 else size - column % size
    List.replicate room ' ' ++ expandTabs size (column + room) rest
  | c :: rest => c :: expandTabs size (if c == '\n' || c == '\r' then 0 else column + 1) rest

end Guidebook.Text
