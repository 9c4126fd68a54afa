import Guidebook.Html.Names
import Guidebook.Text.Chars

/-!
# Character references

An ampersand may start a reference: a number, or a name from the table. Names are matched as far as
they go; old names need no semicolon.
-/

namespace Guidebook.Html

/-- The replacement for what is no character. -/
def replacement : Char := '\ufffd'

/-- What the numbers from 128 to 159 stand for. -/
def windowsCharacters : List Nat :=
  [0x20ac, 0x81, 0x201a, 0x192, 0x201e, 0x2026, 0x2020, 0x2021, 0x2c6, 0x2030, 0x160, 0x2039,
    0x152, 0x8d, 0x17d, 0x8f, 0x90, 0x2018, 0x2019, 0x201c, 0x201d, 0x2022, 0x2013, 0x2014,
    0x2dc, 0x2122, 0x161, 0x203a, 0x153, 0x9d, 0x17e, 0x178]

/-- The character a number stands for. -/
def numberedCharacter (n : Nat) : Char :=
  if n == 0 || 0x10ffff < n || (0xd800 ≤ n && n ≤ 0xdfff) then replacement
  else if 0x80 ≤ n && n ≤ 0x9f then Char.ofNat (windowsCharacters.getD (n - 0x80) n)
  else Char.ofNat n

/-- The value of a digit. -/
def digitValue (c : Char) : Nat :=
  if Text.isDigit c then c.toNat - 48
  else if 'a' ≤ c && c ≤ 'f' then c.toNat - 87
  else c.toNat - 55

/-- The number that digits write. -/
def numberOf (base : Nat) (digits : List Char) : Nat :=
  digits.foldl (fun n c ↦ n * base + digitValue c) 0

/-- A text without the semicolon it may start with. -/
def dropSemicolon : List Char → List Char
  | ';' :: rest => rest
  | cs => cs

/-- The number a text writes after an ampersand and a hash, and what follows. -/
def readNumber? (cs : List Char) : Option (Nat × List Char) :=
  let read := fun (p : Char → Bool) (base : Nat) (cs : List Char) ↦
    let digits := cs.takeWhile p
    if digits.isEmpty then none
    else some (numberOf base digits, dropSemicolon (cs.drop digits.length))
  match cs with
  | 'x' :: rest => read Text.isHexDigit 16 rest
  | 'X' :: rest => read Text.isHexDigit 16 rest
  | _ => read Text.isDigit 10 cs

/-- The longest old name among the first letters of a word. -/
def barePrefix? (word : List Char) : Nat → Option Nat
  | 0 => none
  | n + 1 =>
    if bareNames.contains (String.ofList (word.take (n + 1))) then some (n + 1)
    else barePrefix? word n

/-- The characters a name at the start of a text stands for, whether a semicolon ends it, and what
follows. -/
def readName? (cs : List Char) : Option (List Char × Bool × List Char) :=
  let word := cs.takeWhile fun c ↦ Text.isLetter c || Text.isDigit c
  let closed := match cs.drop word.length with
    | ';' :: rest => (namedCharacters? word).map fun found ↦ (found, true, rest)
    | _ => none
  closed.or do
    let n ← barePrefix? word (min word.length 6)
    let found ← namedCharacters? (word.take n)
    pure (found, false, cs.drop n)

/-- What a reference behind an ampersand stands for, and what follows. In an attribute an old name
is no reference if the word goes on. -/
def reference? (inAttribute : Bool) (cs : List Char) : Option (List Char × List Char) :=
  match cs with
  | '#' :: rest => (readNumber? rest).map fun (n, after) ↦ ([numberedCharacter n], after)
  | _ => do
    let (found, closed, after) ← readName? cs
    let goesOn := after.head?.any fun c ↦ c == '=' || Text.isLetter c || Text.isDigit c
    if inAttribute && !closed && goesOn then none else some (found, after)

/-- Text with its references replaced. -/
def decode (inAttribute : Bool) : Nat → List Char → List Char
  | 0, cs => cs
  | _, [] => []
  | fuel + 1, '&' :: rest =>
    match reference? inAttribute rest with
    | some (found, after) => found ++ decode inAttribute fuel after
    | none => '&' :: decode inAttribute fuel rest
  | fuel + 1, c :: rest => c :: decode inAttribute fuel rest

/-- Numbers that a reading of plain text leaves out: controls and what is no character. -/
def isSilent (n : Nat) : Bool :=
  (1 ≤ n && n ≤ 8) || n == 0xb || (0xe ≤ n && n ≤ 0x1f) || n == 0x7f ||
    (0xfdd0 ≤ n && n ≤ 0xfdef) || (n % 0x10000 == 0xfffe || n % 0x10000 == 0xffff)

/-- Text with its references replaced by what a reader sees. -/
def plainText : Nat → List Char → List Char
  | 0, cs => cs
  | _, [] => []
  | fuel + 1, '&' :: '#' :: rest =>
    match readNumber? rest with
    | some (n, after) =>
      (if n ≤ 0x10ffff && isSilent n then [] else [numberedCharacter n]) ++ plainText fuel after
    | none => '&' :: '#' :: plainText fuel rest
  | fuel + 1, '&' :: rest =>
    match readName? rest with
    | some (found, _, after) => found ++ plainText fuel after
    | none => '&' :: plainText fuel rest
  | fuel + 1, c :: rest => c :: plainText fuel rest

end Guidebook.Html
