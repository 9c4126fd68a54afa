import Guidebook.Html.Node
import Guidebook.Html.Reference

/-!
# HTML tokens

HTML as a sequence of tags and characters. Of a comment only its place is kept, declarations are
skipped, references are replaced, and what cannot be a tag is text.
-/

namespace Guidebook.Html

/-- A start tag. -/
structure Tag where
  name : String
  attributes : List Attribute
  selfClosing : Bool
  deriving Repr

/-- A piece of HTML. -/
inductive Token where
  | start (tag : Tag)
  | stop (name : String)
  | char (c : Char)
  | comment
  deriving Repr

/-- White space between tags and attributes. -/
def isSpace (c : Char) : Bool := c == ' ' || c == '\n' || c == '\t' || c == '\x0c' || c == '\r'

/-- Lower case of the ASCII letters; no other letter changes. -/
def lowerLetter (c : Char) : Char :=
  if 'A' ≤ c && c ≤ 'Z' then Char.ofNat (c.toNat + 32) else c

/-- A name in lower case, without null characters. -/
def nameOf (cs : List Char) : String :=
  String.ofList (cs.map fun c ↦ if c == '\x00' then replacement else lowerLetter c)

/-- The value of an attribute, its references replaced. -/
def valueOf (cs : List Char) : List Char :=
  (decode true cs.length cs).map fun c ↦ if c == '\x00' then replacement else c

/-- The value behind an equals sign and what follows it; nothing if a quote is not closed. -/
def readValue? (cs : List Char) : Option (List Char × List Char) :=
  match cs.dropWhile isSpace with
  | [] => none
  | '>' :: rest => some ([], '>' :: rest)
  | q :: rest =>
    if q == '"' || q == '\'' then
      match rest.dropWhile (· != q) with
      | _ :: after => some (valueOf (rest.takeWhile (· != q)), after)
      | [] => none
    else
      let inValue := fun (c : Char) ↦ !isSpace c && c != '>'
      some (valueOf ((q :: rest).takeWhile inValue), (q :: rest).dropWhile inValue)

/-- An attribute added unless there is one of its name. -/
def addAttribute (attributes : List Attribute) (a : Attribute) : List Attribute :=
  if attributes.any (·.name == a.name) then attributes else attributes ++ [a]

/-- The attributes of a tag up to its end, whether it closes itself, and what follows. -/
def readAttributes? : Nat → List Attribute → List Char → Option (List Attribute × Bool × List Char)
  | 0, _, _ => none
  | fuel + 1, found, cs =>
    match cs.dropWhile isSpace with
    | [] => none
    | '>' :: rest => some (found, false, rest)
    | '/' :: '>' :: rest => some (found, true, rest)
    | '/' :: rest => readAttributes? fuel found rest
    | c :: rest =>
      let inName := fun (c : Char) ↦ !isSpace c && c != '/' && c != '>' && c != '='
      let name := nameOf (c :: rest.takeWhile inName)
      let after := rest.dropWhile inName
      match after.dropWhile isSpace with
      | '=' :: value =>
        match readValue? value with
        | some (value, after) => readAttributes? fuel (addAttribute found ⟨name, value⟩) after
        | none => none
      | _ => readAttributes? fuel (addAttribute found ⟨name, []⟩) after

/-- The tag behind an opening bracket, and what follows; nothing if the text ends within it. -/
def readTag? (cs : List Char) : Option (Tag × List Char) :=
  let inName := fun (c : Char) ↦ !isSpace c && c != '/' && c != '>'
  let name := nameOf (cs.takeWhile inName)
  (readAttributes? (cs.length + 1) [] (cs.dropWhile inName)).map
    fun (attributes, selfClosing, rest) ↦ (⟨name, attributes, selfClosing⟩, rest)

/-- What follows a comment. -/
def afterComment (cs : List Char) : List Char :=
  let rec finish : List Char → List Char
    | '-' :: '-' :: '>' :: rest => rest
    | '-' :: '-' :: '!' :: '>' :: rest => rest
    | _ :: rest => finish rest
    | [] => []
  match cs with
  | '>' :: rest => rest
  | '-' :: '>' :: rest => rest
  | cs => finish cs

/-- What follows the next closing bracket. -/
def afterBracket (cs : List Char) : List Char := (cs.dropWhile (· != '>')).drop 1

/-- The text of a section of characters, and what follows. -/
def readSection : List Char → List Char × List Char
  | ']' :: ']' :: '>' :: rest => ([], rest)
  | c :: rest =>
    let (text, after) := readSection rest
    (c :: text, after)
  | [] => ([], [])

/-- The next tokens of a text, none if something was skipped, and the rest behind them. Sections of
characters are read in vocabularies other than HTML. -/
def nextTokens (foreign : Bool) (cs : List Char) : List Token × List Char :=
  match cs with
  | [] => ([], [])
  | '<' :: '/' :: c :: rest =>
    if Text.isLetter c then
      match readTag? (c :: rest) with
      | some (tag, after) => ([.stop tag.name], after)
      | none => ([], [])
    else (if c == '>' then [] else [.comment], afterBracket (c :: rest))
  | '<' :: '!' :: rest =>
    match Text.dropPrefix? "--".toList rest with
    | some comment => ([.comment], afterComment comment)
    | none =>
      match foreign, Text.dropPrefix? "[CDATA[".toList rest with
      | true, some content =>
        let (text, after) := readSection content
        (text.map .char, after)
      | _, _ =>
        (if nameOf (rest.take 7) == "doctype" then [] else [.comment], afterBracket rest)
  | '<' :: '?' :: rest => ([.comment], afterBracket rest)
  | '<' :: c :: rest =>
    if Text.isLetter c then
      match readTag? (c :: rest) with
      | some (tag, after) => ([.start tag], after)
      | none => ([], [])
    else ([.char '<'], c :: rest)
  | '&' :: rest =>
    match reference? false rest with
    | some (found, after) => (found.map .char, after)
    | none => ([.char '&'], rest)
  | c :: rest => ([.char c], rest)

/-- Whether text starts with a word and a character that ends the name of a tag. -/
def startsName (name : String) (cs : List Char) : Bool :=
  let found := cs.take name.length
  nameOf found == name && found.length == name.length &&
    (cs.drop name.length).head?.any fun c ↦ isSpace c || c == '/' || c == '>'

/-- The text of an element up to its end tag, and what follows from there on. -/
def readUntilEnd (name : String) : List Char → List Char × List Char
  | [] => ([], [])
  | c :: rest =>
    let isEnd := match c, rest with
      | '<', '/' :: after => startsName name after
      | _, _ => false
    if isEnd then ([], c :: rest)
    else
      let (text, after) := readUntilEnd name rest
      (c :: text, after)

/-- Where in a script its text is: a comment in it may hold a further script with its end tag. -/
inductive ScriptPlace where
  | outside
  | inComment
  | inInner
  deriving DecidableEq, Repr

/-- The place at the start of a text, seen from the one before. -/
def ScriptPlace.next (place : ScriptPlace) (cs : List Char) : ScriptPlace :=
  match place, cs with
  | .outside, '<' :: '!' :: '-' :: '-' :: _ => .inComment
  | .outside, _ => .outside
  | _, '-' :: '-' :: '>' :: _ => .outside
  | .inComment, '<' :: rest => if startsName "script" rest then .inInner else .inComment
  | .inInner, '<' :: '/' :: rest => if startsName "script" rest then .inComment else .inInner
  | place, _ => place

/-- The text of a script up to its end tag, and what follows from there on. -/
def readScript (place : ScriptPlace) : List Char → List Char × List Char
  | [] => ([], [])
  | c :: rest =>
    let isEnd := match place, c, rest with
      | .inInner, _, _ => false
      | _, '<', '/' :: after => startsName "script" after
      | _, _, _ => false
    if isEnd then ([], c :: rest)
    else
      let (text, after) := readScript (place.next (c :: rest)) rest
      (c :: text, after)

/-- How the content of an element is read. -/
inductive Content where
  | markup
  /-- Characters and references up to the end tag. -/
  | text
  /-- Characters up to the end tag. -/
  | rawText
  /-- Characters up to the end. -/
  | everything
  deriving DecidableEq, Repr

/-- How the content of an HTML element is read. -/
def contentOf (tag : String) : Content :=
  if ["title", "textarea"].contains tag then .text
  else if ["style", "script", "xmp", "iframe", "noembed", "noframes", "noscript"].contains tag then
    .rawText
  else if tag == "plaintext" then .everything
  else .markup

end Guidebook.Html
