import Guidebook.Text.Pattern
import Guidebook.Text.Search
import Guidebook.Theme.Markup

/-!
# Links in running text

Addresses of pages and of people in a text become links. A word is looked at without the brackets
in front of it and without the punctuation behind it.
-/

namespace Guidebook.Template

open Pattern

/-- How links are written: the attributes they get, what they show at most, and beginnings of
addresses that are taken for links. -/
structure LinkStyle where
  attributes : List Char
  limit : Option Int
  schemes : List (List Char)
  deriving Repr

namespace LinkStyle

/-- One given character, whatever its case. -/
def letter (c : Char) : Pattern Char := .one fun d ↦ d == c || Text.lowerChar d == c

/-- A given word, whatever its case. -/
def word (s : String) : Pattern Char := chain (s.toList.map letter)

/-- One of several patterns, the first first. -/
def oneOf : List (Pattern Char) → Pattern Char
  | [] => .one fun _ ↦ false
  | [p] => p
  | p :: ps => .alt p (oneOf ps)

/-- A character of the name of a host. -/
def hostChar : Pattern Char := .one fun c ↦ Text.isWordChar c || c == '%' || c == '-'

/-- A digit of any script. -/
def digit : Pattern Char := .one fun c ↦ (Text.digitValue? c).isSome

/-- The way an address of a page begins. -/
def schemePattern : Pattern Char :=
  .seq (word "http") (.seq (perhaps (letter 's')) (word "://"))

/-- A name with a scheme or its common prefix, and an ending. -/
def namedHost : Pattern Char :=
  chain [.alt schemePattern (word "www."),
    perhaps (atLeast 1 (.seq (atLeast 1 hostChar) (letter '.'))),
    .alt (between 2 63 (.one fun c ↦ Text.isLetter c))
      (.seq (word "xn--") (between 2 59 (.one fun c ↦ Text.isWordChar c || c == '%')))]

/-- A name with one of the endings that are known without a scheme. -/
def bareHost : Pattern Char :=
  .seq (atLeast 1 (.seq (between 2 63 hostChar) (letter '.')))
    (oneOf (["com", "net", "int", "edu", "gov", "org", "info", "mil"].map word))

/-- A host with a number for a name. -/
def numberedHost : Pattern Char :=
  let short := between 1 3 digit
  let hex : Pattern Char := .one fun c ↦ Text.isHexDigit c || (Text.digitValue? c).isSome
  .seq schemePattern (.alt
    (.seq short (between 3 3 (.seq (letter '.') short)))
    (chain [letter '[', between 2 2 (.seq (between 0 4 hex) (letter ':')),
      between 1 6 (.seq (between 0 4 hex) (perhaps (letter ':'))), letter ']']))

/-- An address of a page. -/
def pageAddress : Pattern Char :=
  chain [oneOf [namedHost, bareHost, numberedHost],
    perhaps (.seq (letter ':') (between 1 5 digit)),
    perhaps (.seq (.one fun c ↦ c == '/' || c == '?' || c == '#')
      (atLeast 0 (.one fun c ↦ !Text.isBlank c))),
    .stop]

/-- An address of a person. -/
def personAddress : Pattern Char :=
  let wordChar : Pattern Char := .one Text.isWordChar
  chain [atLeast 1 (.one fun c ↦ !Text.isBlank c), letter '@', wordChar,
    atLeast 0 (.one fun c ↦ Text.isWordChar c || c == '.' || c == '-'), letter '.',
    atLeast 1 wordChar, .stop]

/-- Whether a text is of a pattern. -/
def isA (pattern : Pattern Char) (cs : List Char) : Bool :=
  (matchAt? (· == ·) pattern [] cs).isSome

/-- Brackets in front of a word. -/
def openings : Pattern Char :=
  atLeast 1 (.alt (.one fun c ↦ c == '(' || c == '<') (word "&lt;"))

/-- Brackets and punctuation behind a word. -/
def closings : Pattern Char :=
  .seq (atLeast 1 (.alt (.one fun c ↦ [')', '>', '.', ',', '\n'].contains c) (word "&gt;"))) .stop

/-- Moves closing brackets back to a word that has more opening ones than closing ones. -/
def balance (opening closing : List Char) (middle tail : List Char) : List Char × List Char :=
  let opened := Text.countOf opening middle
  if opened ≤ Text.countOf closing middle then (middle, tail)
  else
    let moved := min opened (Text.countOf closing tail)
    let pieces := Text.splitOn closing moved tail
    let kept := pieces.getLast?.getD []
    let front := tail.take (tail.length - kept.length)
    if moved == 0 then (middle, tail) else (middle ++ front, kept)

/-- What a link shows of its address. -/
def shown (style : LinkStyle) (address : List Char) : List Char :=
  match style.limit with
  | none => address
  | some n =>
    if n < address.length then
      let count := if n < 0 then (address.length + n).toNat else n.toNat
      address.take count ++ "...".toList
    else address

/-- A link. -/
def link (style : LinkStyle) (address middle : List Char) : List Char :=
  "<a href=\"".toList ++ address ++ ['"'] ++ style.attributes ++ ['>'] ++ style.shown middle ++
    "</a>".toList

/-- A word without brackets, with a link if it is an address. -/
def linkWord (style : LinkStyle) (middle : List Char) : List Char :=
  let mail := "mailto:".toList
  let bare := fun (address inner : List Char) ↦
    "<a href=\"".toList ++ address ++ "\">".toList ++ inner ++ "</a>".toList
  if isA pageAddress middle then
    if Text.startsWith "https://".toList middle || Text.startsWith "http://".toList middle then
      style.link middle middle
    else style.link ("https://".toList ++ middle) middle
  else if Text.startsWith mail middle && isA personAddress (middle.drop mail.length) then
    bare middle (middle.drop mail.length)
  else if middle.contains '@' && !Text.startsWith "www.".toList middle && !middle.contains ':' &&
      isA personAddress middle then bare (mail ++ middle) middle
  else if style.schemes.any fun scheme ↦ middle != scheme && Text.startsWith scheme middle then
    "<a href=\"".toList ++ middle ++ ['"'] ++ style.attributes ++ ['>'] ++ middle ++ "</a>".toList
  else middle

/-- A word with a link if it is an address between brackets and punctuation. -/
def linkInWord (style : LinkStyle) (cs : List Char) : List Char :=
  let rest := ((matchAt? (· == ·) openings [] cs).map Progress.rest).getD cs
  let head := cs.take (cs.length - rest.length)
  let (middle, tail) := match Pattern.find? (· == ·) closings [] rest with
    | some (before, _) => (before.reverse, rest.drop before.length)
    | none => (rest, [])
  let (middle, tail) := balance ['('] [')'] middle tail
  let (middle, tail) := balance ['<'] ['>'] middle tail
  let (middle, tail) := balance "&lt;".toList "&gt;".toList middle tail
  head ++ style.linkWord middle ++ tail

/-- Words and the blanks between them. -/
def runs : Nat → List Char → List (List Char)
  | 0, _ => []
  | _, [] => []
  | fuel + 1, c :: rest =>
    let run := (c :: rest).takeWhile fun d ↦ Text.isBlank d == Text.isBlank c
    run :: runs fuel ((c :: rest).drop run.length)

/-- Escaped text with links. -/
def linked (style : LinkStyle) (cs : List Char) : List Char :=
  (runs cs.length cs).flatMap style.linkInWord

end LinkStyle

end Guidebook.Template
