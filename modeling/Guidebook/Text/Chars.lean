import Guidebook.Text.Case

/-!
# Character classes

The classes that decide where a title ends, which settings are blank, what a word is and which
characters a message shows as they are. All are Unicode classes: ASCII is answered first and the
tables are asked only above it.
-/

namespace Guidebook.Text

/-- White space in the Unicode sense, with the four information separators. -/
def isBlank (c : Char) : Bool :=
  let n := c.toNat
  if n < 0x80 then n == 0x20 || (0x09 ≤ n && n ≤ 0x0d) || (0x1c ≤ n && n ≤ 0x1f)
  else n == 0x85 || n == 0xa0 || n == 0x1680 || (0x2000 ≤ n && n ≤ 0x200a) || n == 0x2028 ||
    n == 0x2029 || n == 0x202f || n == 0x205f || n == 0x3000

/-- A decimal digit of ASCII. -/
def isDigit (c : Char) : Bool := '0' ≤ c && c ≤ '9'

/-- A letter of ASCII. -/
def isLetter (c : Char) : Bool := ('a' ≤ c && c ≤ 'z') || ('A' ≤ c && c ≤ 'Z')

/-- A hexadecimal digit of ASCII. -/
def isHexDigit (c : Char) : Bool := isDigit c || ('a' ≤ c && c ≤ 'f') || ('A' ≤ c && c ≤ 'F')

/-- A letter, a number or the underscore, over all of Unicode. -/
def isWordChar (c : Char) : Bool :=
  if c.toNat < 0x80 then isDigit c || isLetter c || c == '_' else inRanges c.toNat wordRanges

/-- Whether a message shows the character as it is. -/
def isPrintable (c : Char) : Bool :=
  if c.toNat < 0x7f then 0x20 ≤ c.toNat else !inRanges c.toNat unprintableRanges

/-- A list without its leading and trailing items of a class. -/
def stripBy {α : Type} (p : α → Bool) (cs : List α) : List α :=
  ((cs.dropWhile p).reverse.dropWhile p).reverse

/-- A list without its trailing items of a class. -/
def stripEnd {α : Type} (p : α → Bool) (cs : List α) : List α := (cs.reverse.dropWhile p).reverse

/-- Text without surrounding white space. -/
def strip (cs : List Char) : List Char := stripBy isBlank cs

/-- Whether text has a character that is not white space. -/
def hasInk (cs : List Char) : Bool := cs.any (!isBlank ·)

/-- The hexadecimal digits of a number, at least `width` of them. -/
def hexDigits (width n : Nat) : List Char :=
  let digits := Nat.toDigits 16 n
  List.replicate (width - digits.length) '0' ++ digits

/-- Pieces of a list between the items of a class, empty pieces included. -/
def splitBy {α : Type} (p : α → Bool) : List α → List (List α)
  | [] => [[]]
  | c :: rest =>
    if p c then [] :: splitBy p rest
    else match splitBy p rest with
      | [] => [[c]]
      | piece :: pieces => (c :: piece) :: pieces

/-- Pieces of text between the occurrences of one character. -/
def splitOnChar (sep : Char) (cs : List Char) : List (List Char) := splitBy (· == sep) cs

/-- The first prefix of a text up to a separator, the rest behind it, and whether it occurs. -/
def partitionAt (sep : Char) : List Char → List Char × Bool × List Char
  | [] => ([], false, [])
  | c :: rest =>
    if c == sep then ([], true, rest)
    else
      let (before, found, after) := partitionAt sep rest
      (c :: before, found, after)

/-- Pieces joined by a separator. -/
def joinWith {α : Type} (sep : List α) : List (List α) → List α
  | [] => []
  | [piece] => piece
  | piece :: pieces => piece ++ sep ++ joinWith sep pieces

/-- Strings joined by a separator. -/
def joinStrings (sep : String) (pieces : List String) : String :=
  String.ofList (joinWith sep.toList (pieces.map String.toList))

/-- What follows a prefix of a text, if the text starts with it. -/
def dropPrefix? : List Char → List Char → Option (List Char)
  | [], cs => some cs
  | p :: ps, c :: cs => if p == c then dropPrefix? ps cs else none
  | _ :: _, [] => none

/-- Whether a text starts with another. -/
def startsWith (start cs : List Char) : Bool := (dropPrefix? start cs).isSome

/-- Whether a text ends with another. -/
def endsWith (tail cs : List Char) : Bool := startsWith tail.reverse cs.reverse

/-- Text without a given ending, where it has it. -/
def removeEnding (tail cs : List Char) : List Char :=
  match dropPrefix? tail.reverse cs.reverse with
  | some front => front.reverse
  | none => cs

/-- Text with both line endings of two characters and single carriage returns made line feeds. -/
def universalNewlines : List Char → List Char
  | [] => []
  | '\r' :: '\n' :: rest => '\n' :: universalNewlines rest
  | '\r' :: rest => '\n' :: universalNewlines rest
  | c :: rest => c :: universalNewlines rest

/-- Whether a text is less than another, character by character. -/
def lessThan : List Char → List Char → Bool
  | [], [] => false
  | [], _ :: _ => true
  | _ :: _, [] => false
  | a :: as, b :: bs => if a == b then lessThan as bs else a.toNat < b.toNat

end Guidebook.Text
