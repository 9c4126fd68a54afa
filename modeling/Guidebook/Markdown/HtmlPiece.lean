import Guidebook.Text.Pattern
import Guidebook.Markdown.Element

/-!
# Pieces of HTML

What stands at an angle bracket or an ampersand of a page: a tag, a comment, a declaration, an
instruction, a reference or plain text. A piece that begins and never ends is left open.
-/

namespace Guidebook.Markdown

/-- A piece of HTML. -/
inductive HtmlPiece where
  /-- Plain text. -/
  | words
  /-- A start tag. -/
  | opening (tag : String)
  /-- A tag that closes itself. -/
  | lone (tag : String)
  /-- An end tag. `exact` ones have nothing but the name in them. -/
  | closing (tag : String) (exact : Bool)
  /-- A comment, as it is kept. -/
  | comment (kept : List Char)
  /-- Something else without content, as it is kept. -/
  | other (isBlock : Bool) (kept : List Char)

namespace HtmlPiece

/-- What is found at a place, with its length. -/
inductive Found where
  | piece (p : HtmlPiece) (length : Nat)
  /-- A piece begins here and does not end. -/
  | unfinished
  /-- The text is not read any further behind so many characters of plain text. -/
  | last (length : Nat)

/-- How far a text goes up to some characters. -/
def lengthTo? (stop : List Char) : List Char → Option Nat
  | [] => none
  | c :: rest =>
    if Text.startsWith stop (c :: rest) then some 0 else (lengthTo? stop rest).map (· + 1)

/-! Tags -/

private def isOneOf (cs : String) (c : Char) : Bool := cs.toList.contains c

private def anyOf (p : Char → Bool) : Pattern Char := .one p

private def blanks : Pattern Char := Pattern.atLeast 0 (anyOf Text.isBlank)

/-- A blank, or a slash that does not close the tag. -/
private def gap : Pattern Char :=
  .alt (anyOf Text.isBlank)
    (.seq (anyOf (· == '/')) (.ahead false (anyOf (· == '>'))))

/-- The name of a tag with what separates it from what follows. -/
def namePattern : Pattern Char :=
  .seq (.group 1 (.seq (anyOf Text.isLetter)
      (Pattern.atLeast 0 (anyOf fun c ↦ !isOneOf "\t\n\r\x0c />\x00" c))))
    (Pattern.atLeast 0 gap)

private def quoted (q : Char) : Pattern Char :=
  Pattern.chain [anyOf (· == q), Pattern.atLeast 0 (anyOf (· != q)), anyOf (· == q)]

/-- The value of an attribute. A value without quotes ends before the characters of a class. -/
private def valuePattern (ends : Char → Bool) : Pattern Char :=
  .alt (quoted '\'') (.alt (quoted '"')
    (.seq (.ahead false (anyOf fun c ↦ c == '\'' || c == '"'))
      (Pattern.atLeast 0 (anyOf fun c ↦ !ends c && c != '>' && !Text.isBlank c))))

private def equalsPattern : Pattern Char :=
  Pattern.chain [blanks, Pattern.atLeast 1 (anyOf (· == '=')), blanks]

private def attributeName (isFirst : Char → Bool) : Pattern Char :=
  Pattern.chain [.behind true (fun c ↦ Text.isBlank c || isOneOf "'\"/" c),
    anyOf fun c ↦ isFirst c && !Text.isBlank c && c != '/' && c != '>',
    Pattern.atLeast 0 (anyOf fun c ↦ !Text.isBlank c && !isOneOf "/=>" c)]

/-- An attribute of a start tag. -/
def attributePattern : Pattern Char :=
  Pattern.chain [attributeName fun _ ↦ true,
    Pattern.perhaps (.seq equalsPattern (valuePattern fun _ ↦ false)), Pattern.atLeast 0 gap]

/-- A start tag up to its end. A backtick stands in quotes only. -/
def startPattern : Pattern Char :=
  Pattern.chain [anyOf (· == '<'), anyOf Text.isLetter,
    Pattern.atLeast 0 (anyOf fun c ↦ !isOneOf "`\t\n\r\x0c />\x00" c),
    Pattern.perhaps (.seq (Pattern.atLeast 0 (anyOf fun c ↦ Text.isBlank c || c == '/'))
      (Pattern.atLeast 0 (Pattern.chain [attributeName (· != '`'),
        Pattern.perhaps (Pattern.chain [equalsPattern, valuePattern (· == '`'),
          Pattern.atLeast 0 (.seq blanks (anyOf (· == ',')))]),
        Pattern.atLeast 0 gap]))),
    blanks]

/-- How much of a text a pattern takes at its start. -/
private def taken? (p : Pattern Char) (before rest : List Char) : Option (Pattern.Progress Char) :=
  p.matchAt? (· == ·) before rest

/-- The length of a start tag at the start of a text, if it ends. -/
def startLength? (cs : List Char) : Option Nat :=
  (taken? startPattern [] cs).bind fun m ↦
    let n := cs.length - m.rest.length
    match m.rest with
    | '>' :: _ => some (n + 1)
    | '/' :: '>' :: _ => some (n + 2)
    | [] => none
    | c :: _ => if c == '/' || c == '=' || Text.isLetter c then none else some n

/-- What follows the name and the attributes of a start tag. -/
def behindAttributes : Nat → List Char → List Char → List Char
  | 0, _, cs => cs
  | fuel + 1, before, cs =>
    match taken? attributePattern before cs with
    | some m => behindAttributes fuel m.before m.rest
    | none => cs

/-- A start tag at the start of a text. A tag with anything else between its attributes and its end
is plain text, and so is the bracket of one that does not end. -/
def start (cs : List Char) : Found :=
  match startLength? cs with
  | none => .piece .words 1
  | some n =>
    match taken? namePattern ['<'] ((cs.take n).drop 1) with
    | none => .piece .words n
    | some m =>
      let tag := Text.lower (String.ofList ((m.group 1).getD []))
      match Text.strip (behindAttributes n m.before m.rest) with
      | ['>'] => .piece (.opening tag) n
      | ['/', '>'] => .piece (.lone tag) n
      | _ => .piece .words n

/-- The name of an end tag that has nothing but its name in it. -/
def exactName? (cs : List Char) : Option String :=
  let name := (cs.drop 2).dropWhile Text.isBlank
  let word := name.takeWhile fun c ↦ Text.isLetter c || Text.isDigit c || isOneOf "-.:_" c
  if word.head?.any Text.isLetter &&
      ((name.drop word.length).dropWhile Text.isBlank).head? == some '>' then
    some (Text.lower (String.ofList word))
  else none

/-- Something that is left out of account up to the next bracket. -/
def ignored (cs : List Char) : Found :=
  match lengthTo? ['>'] (cs.drop 2) with
  | some n => .piece (.other false (cs.take (n + 3))) (n + 3)
  | none => .unfinished

/-- An end tag at the start of a text. In the text of an element that holds no markup only the end
tag of that element is one. -/
def finish (holder : Option String) (cs : List Char) : Found :=
  match lengthTo? ['>'] cs with
  | none => .unfinished
  | some n =>
    match exactName? cs, holder with
    | some tag, none => .piece (.closing tag true) (n + 1)
    | some tag, some h =>
      if tag == h then .piece (.closing tag true) (n + 1) else .piece .words (n + 1)
    | none, some _ => .piece .words (n + 1)
    | none, none =>
      match taken? namePattern ['/', '<'] (cs.drop 2) with
      | some m =>
        .piece (.closing (Text.lower (String.ofList ((m.group 1).getD []))) false) (n + 1)
      | none => ignored cs

/-! Comments, instructions and declarations -/

/-- The length of a comment up to what closes it, and with that. -/
def commentEnd? : List Char → Option (Nat × Nat)
  | [] => none
  | c :: rest =>
    if Text.startsWith "-->".toList (c :: rest) then some (0, 3)
    else if Text.startsWith "--!>".toList (c :: rest) then some (0, 4)
    else (commentEnd? rest).map fun (inner, all) ↦ (inner + 1, all + 1)

/-- A comment at the start of a text. The bracket of one that does not end is plain text. -/
def commentAt (cs : List Char) : Found :=
  match commentEnd? (cs.drop 4) with
  | some (inner, all) =>
    .piece (.comment (cs.take (inner + 4) ++ "-->".toList)) (all + 4)
  | none => .piece .words 1

/-- An instruction at the start of a text. -/
def instruction (cs : List Char) : Found :=
  match lengthTo? "?>".toList (cs.drop 2) with
  | some n => .piece (.other true (cs.take (n + 4))) (n + 4)
  | none => .unfinished

/-- Two brackets and the end of a section, which may have blanks between them. -/
def sectionClose? (cs : List Char) : Option (List Char) :=
  match cs with
  | ']' :: rest =>
    match rest.dropWhile Text.isBlank with
    | ']' :: rest =>
      match rest.dropWhile Text.isBlank with
      | '>' :: rest => some rest
      | _ => none
    | _ => none
  | _ => none

/-- The length of a section of characters up to its end, and what follows. -/
def sectionEnd? : List Char → Option (Nat × List Char)
  | [] => none
  | c :: rest =>
    match sectionClose? (c :: rest) with
    | some after => some (0, after)
    | none => (sectionEnd? rest).map fun (n, after) ↦ (n + 1, after)

/-- A declaration at the start of a text. -/
def declaration (cs : List Char) : Found :=
  if Text.startsWith "<![CDATA[".toList cs then
    match sectionEnd? (cs.drop 3) with
    | some (n, after) =>
      .piece (.other true (cs.take (n + 3) ++ "]]>".toList)) (cs.length - after.length)
    | none => .unfinished
  else if Text.startsWith "<![".toList cs then
    match ignored cs with
    | .unfinished => .piece .words 1
    | found => found
  else if Text.lower (String.ofList ((cs.drop 2).take 7)) == "doctype" then
    match lengthTo? ['>'] (cs.drop 9) with
    | some n => .piece (.other true (cs.take (n + 10))) (n + 10)
    | none => .unfinished
  else ignored cs

/-! References -/

/-- A reference by number. Its semicolon may be missing. What is no reference ends the reading: at
once, or behind its two characters if a semicolon follows anywhere. -/
def numeric (cs : List Char) : Found :=
  let (lead, p) : List Char × (Char → Bool) := match cs.drop 2 with
    | c :: _ => if c == 'x' || c == 'X' then ([c], Text.isHexDigit) else ([], Text.isDigit)
    | [] => ([], Text.isDigit)
  let digits := (cs.drop (2 + lead.length)).takeWhile p
  let written := cs.take (2 + lead.length + digits.length)
  let broken : Found := if cs.contains ';' then .last 2 else .last 0
  match digits, cs.drop written.length with
  | [], _ => broken
  | _, [] => broken
  | _, c :: _ =>
    let kept := HtmlPiece.other false (written ++ [';'])
    if c == ';' then .piece kept (written.length + 1)
    else if Text.isHexDigit c then broken
    else .piece kept written.length

/-- A reference by name. -/
def named (cs : List Char) : Found :=
  let name := (cs.drop 1).takeWhile fun c ↦
    Text.isLetter c || Text.isDigit c || c == '-' || c == '.'
  if name.head?.any Text.isLetter && (cs.drop (name.length + 1)).head? == some ';' then
    .piece (.other false ('&' :: name ++ [';'])) (name.length + 2)
  else if 1 < cs.length then .piece .words 1
  else .last 0

/-! All pieces -/

/-- The piece at an angle bracket or an ampersand. Declarations and instructions are such only
where a block may be. -/
def found (holder : Option String) (mayBeBlock : Bool) (cs : List Char) : Found :=
  match cs with
  | '<' :: c :: rest =>
    if Text.isLetter c then start cs
    else if c == '/' && rest.head? == some '>' then .piece .words 3
    else if c == '/' then finish holder cs
    else if Text.startsWith "!--".toList (c :: rest) then commentAt cs
    else if c == '?' then if mayBeBlock then instruction cs else .piece .words 2
    else if c == '!' then if mayBeBlock then declaration cs else .piece .words 2
    else .piece .words 1
  | '&' :: '#' :: _ => numeric cs
  | '&' :: _ => named cs
  | _ => .last 0

/-- How far the text goes that a piece without an end is taken for. -/
def unfinishedLength (cs : List Char) : Nat :=
  match lengthTo? ['>'] (cs.drop 1) with
  | some n => n + 2
  | none =>
    match lengthTo? ['<'] (cs.drop 1) with
    | some n => n + 1
    | none => 1

end HtmlPiece

end Guidebook.Markdown
