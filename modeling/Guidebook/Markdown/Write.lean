import Guidebook.Markdown.Element

/-!
# Writing elements

Elements as HTML: blocks on lines of their own, attributes in the order of their names, markup
characters escaped. An ampersand that already starts an entity is left alone, and finished HTML
goes out as it is.
-/

namespace Guidebook.Markdown

/-! Line breaks between blocks -/

private def lineBreak : Run := [.char '\n']

private def hasNoInk (text : Run) : Bool := !text.hasInk

mutual

/-- A block with its parts on lines of their own. -/
def layBlock : Element → Element
  | .mk tag attributes text sealed children tail =>
    let isFrame := !(["code", "pre"].contains tag)
    let opens := isFrame && hasNoInk text && children.head?.any fun c ↦ isBlockTag c.tag
    .mk tag attributes (if opens then lineBreak else text) sealed
      (if isFrame then layBlocks children else children)
      (if hasNoInk tail then lineBreak else tail)

/-- Blocks on lines of their own; other elements stay in their line. -/
def layBlocks : List Element → List Element
  | [] => []
  | e :: rest => (if isBlockTag e.tag then layBlock e else e) :: layBlocks rest

end

mutual

/-- An element with a line feed behind each forced line break in it. -/
def breakLines : Element → Element
  | .mk tag attributes text sealed children tail =>
    let tail := if tag == "br" then lineBreak ++ (if hasNoInk tail then [] else tail) else tail
    .mk tag attributes text sealed (breakAll children) tail

/-- Elements with a line feed behind each forced line break. -/
def breakAll : List Element → List Element
  | [] => []
  | e :: rest => breakLines e :: breakAll rest

end

/-! HTML -/

/-- Whether what follows an ampersand makes it the start of an entity. -/
def endsEntity (text : Run) : Bool :=
  let closes := fun (p : Char → Bool) (text : Run) ↦
    text.head?.any (Glyph.isOf p) && Run.startsWith ';' (text.dropWhile (Glyph.isOf p))
  let isNameChar := fun (c : Char) ↦ Text.isLetter c || Text.isDigit c
  if text.startsWith '#' then
    let rest := text.drop 1
    closes Text.isDigit rest ||
      (rest.head?.any (Glyph.isOf fun c ↦ c == 'x' || c == 'X') &&
        closes Text.isHexDigit (rest.drop 1))
  else closes isNameChar text

/-- Text with markup characters escaped; in attributes quotes as well. -/
def escapeText (inAttribute : Bool) : Run → List Char
  | [] => []
  | g :: rest =>
    let here : List Char := match g with
      | .char '&' => if endsEntity rest then ['&'] else "&amp;".toList
      | .char '<' => "&lt;".toList
      | .char '>' => "&gt;".toList
      | .char '"' => if inAttribute then "&quot;".toList else ['"']
      | .char c => [c]
      | .kept c => [c]
      | .held text => text
      | .amp => ['&']
      | .raw html => html
      | .node _ => []
    here ++ escapeText inAttribute rest

/-- Text in which escaped characters are characters again. -/
def released (text : Run) : Run :=
  text.map fun g ↦
    match g with
    | .kept c => .char c
    | g => g

/-- Elements without an end tag. -/
def isVoidTag (tag : String) : Bool := ["br", "hr", "img"].contains tag

/-- Attributes in the order of their names. -/
def sortAttributes (attributes : List (String × Run)) : List (String × Run) :=
  attributes.mergeSort fun a b ↦ !Text.lessThan b.1.toList a.1.toList

/-- The attributes of a start tag. -/
def attributesHtml : List (String × Run) → List Char
  | [] => []
  | (name, value) :: rest =>
    ' ' :: name.toList ++ '=' :: '"' :: escapeText true (released value) ++
      '"' :: attributesHtml rest

/-- Whether finished HTML is a block. -/
def isBlockHtml (html : List Char) : Bool :=
  match html with
  | '<' :: rest =>
    let rest := if rest.head? == some '/' then rest.drop 1 else rest
    let name := rest.takeWhile fun c ↦ c != ' ' && c != '>'
    match name with
    | [] => false
    | c :: _ => ['!', '?', '@', '%'].contains c || isBlockTag (Text.lower (String.ofList name))
  | _ => false

mutual

/-- An element as HTML. A paragraph that is nothing but a finished block is that block. -/
def elementHtml : Element → List Char
  | .mk tag attributes text _ children tail =>
    let attributesText := attributesHtml (sortAttributes attributes)
    let inner := escapeText false (released text) ++ childrenHtml children
    let isBare := tag == "p" && attributes.isEmpty && children.isEmpty
    let own := match isBare, text with
      | true, [.raw html] =>
        if isBlockHtml html then html else "<p>".toList ++ inner ++ "</p>".toList
      | _, _ =>
        if isVoidTag tag then '<' :: tag.toList ++ attributesText ++ " />".toList
        else '<' :: tag.toList ++ attributesText ++ '>' :: inner ++
          '<' :: '/' :: tag.toList ++ ['>']
    own ++ escapeText false (released tail)

/-- Elements as HTML, each with what follows it. -/
def childrenHtml : List Element → List Char
  | [] => []
  | e :: rest => elementHtml e ++ childrenHtml rest

end

/-- The HTML of the blocks of a page. -/
def pageHtml (page : Element) : List Char :=
  let page := breakLines (layBlock page)
  Text.strip (escapeText false (released page.text) ++ childrenHtml page.children)

end Guidebook.Markdown
