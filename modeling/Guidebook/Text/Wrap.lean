import Guidebook.Text.Search

/-!
# Text wrapped to a width

A paragraph is cut into chunks between which a line may end: blanks, words, parts of words with
hyphens, and dashes. Lines take chunks as long as they fit.
-/

namespace Guidebook.Text

/-- Blanks at which a line may end. -/
def isWrapBlank (c : Char) : Bool := c == ' ' || (0x09 ≤ c.toNat && c.toNat ≤ 0x0d)

/-- What a dash between words may stand behind. -/
def isWordEnd (c : Char) : Bool := isWordChar c || ['!', '"', '\'', '&', '.', ',', '?'].contains c

/-- A letter of a word, and no digit. -/
def isWordLetter (c : Char) : Bool := isWordChar c && (digitValue? c).isNone

/-- Whether dashes between two words start here; `before` is what is in front, nearest first. -/
def startsDash (before cs : List Char) : Bool :=
  let dashes := cs.takeWhile (· == '-')
  before.head?.any isWordEnd && 2 ≤ dashes.length && (cs.drop dashes.length).head?.any isWordChar

/-- Whether a word may end at the hyphen that comes next. -/
def splitsAtHyphen (before cs : List Char) : Bool :=
  let letters := match before with
    | a :: b :: rest =>
      (isWordLetter a && isWordLetter b) ||
        (b == '-' && isWordEnd a && rest.head?.any isWordLetter)
    | _ => false
  letters && match cs with
    | '-' :: a :: '-' :: b :: _ => isWordLetter a && isWordLetter b
    | '-' :: a :: b :: _ => isWordLetter a && isWordLetter b
    | _ => false

/-- The length of the word that starts here, at least `taken` characters long. -/
def wordLength (before : List Char) (taken : Nat) : List Char → Nat
  | [] => taken
  | c :: rest =>
    if taken != 0 && splitsAtHyphen before (c :: rest) then taken + 1
    else if taken != 0 && (isWrapBlank c || startsDash before (c :: rest)) then taken
    else wordLength (c :: before) (taken + 1) rest

/-- The chunks of a text, where a line may end between two of them. -/
def wrapChunks (hyphens : Bool) : Nat → List Char → List Char → List (List Char)
  | 0, _, _ => []
  | _, _, [] => []
  | fuel + 1, before, c :: rest =>
    let cs := c :: rest
    let length :=
      if isWrapBlank c then (cs.takeWhile isWrapBlank).length
      else if !hyphens then (cs.takeWhile (!isWrapBlank ·)).length
      else if startsDash before cs then (cs.takeWhile (· == '-')).length
      else wordLength before 0 cs
    let chunk := cs.take length
    chunk :: wrapChunks hyphens fuel (chunk.reverse ++ before) (cs.drop length)

/-- Where a chunk that is longer than a line is cut. -/
def cutLong (hyphens : Bool) (room : Nat) (chunk : List Char) : Nat :=
  if hyphens && room < chunk.length then
    match lastPlace? ['-'] (chunk.take room) with
    | some n => if 0 < n && (chunk.take n).any (· != '-') then n + 1 else room
    | none => room
  else room

/-- Chunks that fit into so many characters, and the chunks behind them. -/
def fitChunks : Nat → List (List Char) → List (List Char) × List (List Char)
  | _, [] => ([], [])
  | room, chunk :: rest =>
    if chunk.length ≤ room then
      let (line, behind) := fitChunks (room - chunk.length) rest
      (chunk :: line, behind)
    else ([], chunk :: rest)

/-- A line without the blanks at its end. -/
def dropLastBlank (line : List (List Char)) : List (List Char) :=
  if line.getLast?.any (·.all isBlank) then line.dropLast else line

/-- The lines that chunks make. -/
def wrapLines (width : Nat) (cuts hyphens isFirst : Bool) :
    Nat → List (List Char) → List (List Char)
  | 0, _ => []
  | _, [] => []
  | fuel + 1, chunks =>
    let chunks := if !isFirst && chunks.head?.any (·.all isBlank) then chunks.drop 1 else chunks
    let (line, behind) := fitChunks width chunks
    let (line, behind) := match behind with
      | [] => (line, [])
      | chunk :: rest =>
        if chunk.length ≤ width then (line, behind)
        else if cuts then
          let place := cutLong hyphens (width - line.flatten.length) chunk
          (line ++ [chunk.take place], chunk.drop place :: rest)
        else if line.isEmpty then ([chunk], rest) else (line, behind)
    let line := dropLastBlank line
    (if line.isEmpty then [] else [line.flatten]) ++
      wrapLines width cuts hyphens (isFirst && line.isEmpty) fuel behind

/-- The lines of a paragraph at a width that is not zero. -/
def wrap (width : Nat) (cuts hyphens : Bool) (cs : List Char) : List (List Char) :=
  let chunks := wrapChunks hyphens cs.length [] cs
  wrapLines width cuts hyphens true (2 * cs.length + 2) chunks

end Guidebook.Text
