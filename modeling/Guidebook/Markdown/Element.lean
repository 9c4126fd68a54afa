import Guidebook.Text.Chars

/-!
# Elements

The tree a page is read into. Text is a list of glyphs: characters that may still be markup,
characters that no longer can be, and finished pieces. An element carries the text before its first
child, its children and the text that follows it in its parent.
-/

namespace Guidebook.Markdown

mutual

/-- One piece of running text. -/
inductive Glyph where
  /-- A character as written. -/
  | char (c : Char)
  /-- A character that a backslash keeps from being markup. -/
  | kept (c : Char)
  /-- Characters set aside as plain text while markup is read. -/
  | held (text : List Char)
  /-- The ampersand of an entity that stands for a character. -/
  | amp
  /-- Finished HTML. -/
  | raw (html : List Char)
  /-- A finished element in place. -/
  | node (element : Element)

/-- An element of a page. -/
inductive Element where
  /-- The text of a sealed element is shown as it is. -/
  | mk (tag : String) (attributes : List (String × List Glyph)) (text : List Glyph)
      (sealed : Bool) (children : List Element) (tail : List Glyph)

end

namespace Glyph

/-- A character of text, if the glyph is one. -/
def char? : Glyph → Option Char
  | .char c => some c
  | _ => none

/-- Whether a glyph is a character of a class. -/
def isOf (p : Char → Bool) (g : Glyph) : Bool := g.char?.any p

/-- Whether a glyph is a given character. -/
def isChar (c : Char) (g : Glyph) : Bool := g.isOf (· == c)

/-- Whether a glyph is white space. -/
def isBlank (g : Glyph) : Bool := g.isOf Text.isBlank

/-- Whether a glyph belongs to a word. -/
def isWord (g : Glyph) : Bool := g.isOf Text.isWordChar

/-- Whether two glyphs are the same character. -/
def sameChar (a b : Glyph) : Bool :=
  match a, b with
  | .char x, .char y => x == y
  | _, _ => false

end Glyph

/-- Running text. -/
abbrev Run := List Glyph

namespace Run

/-- Characters as running text. -/
def ofChars (cs : List Char) : Run := cs.map .char

/-- The words of a string as running text. -/
def ofString (s : String) : Run := ofChars s.toList

/-- The characters of a text, if it is nothing but characters. -/
def chars? (text : Run) : Option (List Char) := text.mapM Glyph.char?

/-- Text without surrounding white space. -/
def strip (text : Run) : Run := Text.stripBy Glyph.isBlank text

/-- Text without leading white space. -/
def dropBlanks (text : Run) : Run := text.dropWhile Glyph.isBlank

/-- Whether text is more than white space. -/
def hasInk (text : Run) : Bool := text.any (!·.isBlank)

/-- The lines of a text. -/
def lines (text : Run) : List Run := Text.splitBy (Glyph.isChar '\n') text

/-- Lines as a text. -/
def ofLines (ls : List Run) : Run := Text.joinWith [.char '\n'] ls

/-- What follows given characters at the start of a text. -/
def dropPrefix? : List Char → Run → Option Run
  | [], text => some text
  | c :: cs, g :: text => if g.isChar c then dropPrefix? cs text else none
  | _ :: _, [] => none

/-- The number of blanks a text starts with. -/
def indent (text : Run) : Nat := (text.takeWhile (Glyph.isChar ' ')).length

/-- Whether the first glyph of a text is a given character. -/
def startsWith (c : Char) (text : Run) : Bool := text.head?.any (Glyph.isChar c)

end Run

namespace Element

def tag : Element → String
  | .mk tag _ _ _ _ _ => tag

def attributes : Element → List (String × Run)
  | .mk _ attributes _ _ _ _ => attributes

def text : Element → Run
  | .mk _ _ text _ _ _ => text

/-- Whether the text is shown as it is. -/
def isSealed : Element → Bool
  | .mk _ _ _ s _ _ => s

def children : Element → List Element
  | .mk _ _ _ _ children _ => children

def tail : Element → Run
  | .mk _ _ _ _ _ tail => tail

/-- An element with text and no children. -/
def leaf (tag : String) (text : Run) : Element := .mk tag [] text false [] []

/-- An element with nothing in it. -/
def bare (tag : String) : Element := leaf tag []

def withText (e : Element) (text : Run) : Element :=
  .mk e.tag e.attributes text e.isSealed e.children e.tail

def withChildren (e : Element) (children : List Element) : Element :=
  .mk e.tag e.attributes e.text e.isSealed children e.tail

def withTail (e : Element) (tail : Run) : Element :=
  .mk e.tag e.attributes e.text e.isSealed e.children tail

def withAttribute (e : Element) (name : String) (value : Run) : Element :=
  .mk e.tag (e.attributes ++ [(name, value)]) e.text e.isSealed e.children e.tail

/-- The element, its text to be shown as it is. -/
def sealText (e : Element) : Element := .mk e.tag e.attributes e.text true e.children e.tail

/-- The last child. -/
def lastChild? (e : Element) : Option Element := e.children.getLast?

/-- The element with one more child. -/
def push (e child : Element) : Element := e.withChildren (e.children ++ [child])

/-- The element with its last child replaced. -/
def setLast (e child : Element) : Element := e.withChildren (e.children.dropLast ++ [child])

/-- Changes the element reached by so many steps to a last child. -/
def modifyLast (change : Element → Element) : Nat → Element → Element
  | 0, e => change e
  | n + 1, e =>
    match e.lastChild? with
    | some child => e.setLast (modifyLast change n child)
    | none => e

/-- Whether the element is a list. -/
def isList (e : Element) : Bool := ["ol", "ul"].contains e.tag

/-- Whether the element is an item of a list. -/
def isItem (e : Element) : Bool := e.tag == "li"

end Element

/-- Elements that stand on lines of their own. -/
def isBlockTag (tag : String) : Bool :=
  ["address", "article", "aside", "blockquote", "details", "div", "dl", "fieldset", "figcaption",
    "figure", "footer", "form", "h1", "h2", "h3", "h4", "h5", "h6", "header", "hgroup", "hr",
    "main", "menu", "nav", "ol", "p", "pre", "search", "section", "table", "ul", "canvas",
    "colgroup", "dd", "body", "dt", "group", "html", "iframe", "li", "legend", "math", "map",
    "noscript", "output", "object", "option", "progress", "script", "style", "summary", "tbody",
    "td", "textarea", "tfoot", "th", "thead", "tr", "video", "center"].contains tag

/-- Headings. -/
def isHeading (tag : String) : Bool := ["h1", "h2", "h3", "h4", "h5", "h6"].contains tag

mutual

/-- The text inside an element, without what follows it. -/
def Element.words : Element → Run
  | .mk _ _ text _ children _ => glyphWords text ++ childWords children

/-- The text of glyphs, with elements replaced by theirs. -/
def glyphWords : List Glyph → Run
  | [] => []
  | g :: gs => wordsOf g ++ glyphWords gs

/-- The text of one glyph. -/
def wordsOf : Glyph → Run
  | .node e => Element.words e
  | .char c => [.char c]
  | .kept c => [.kept c]
  | .held text => text.map .char
  | .amp => [.amp]
  | .raw html => [.raw html]

/-- The text of elements and of what follows each. -/
def childWords : List Element → Run
  | [] => []
  | .mk _ _ text _ children tail :: rest =>
    glyphWords text ++ childWords children ++ glyphWords tail ++ childWords rest

end

end Guidebook.Markdown
