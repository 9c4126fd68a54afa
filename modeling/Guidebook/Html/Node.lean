/-!
# HTML trees

An element has a vocabulary, a tag, attributes in their order and children; text stands between
elements.
-/

namespace Guidebook.Html

/-- The vocabulary an element belongs to. -/
inductive Vocabulary where
  | html | svg | math
  deriving DecidableEq, Repr

/-- An attribute. -/
structure Attribute where
  name : String
  value : List Char
  deriving DecidableEq, Repr

/-- A node of a tree. -/
inductive Node where
  | text (content : List Char)
  | element (vocabulary : Vocabulary) (tag : String) (attributes : List Attribute)
      (children : List Node)
  deriving Repr

/-- Elements that have no content and no end tag. -/
def voidTags : List String :=
  ["area", "base", "basefont", "bgsound", "br", "col", "embed", "frame", "hr", "img", "input",
    "keygen", "link", "meta", "param", "source", "track", "wbr"]

/-- A character of text or of an attribute's value. -/
def escapeChar (inAttribute : Bool) (c : Char) : List Char :=
  match c with
  | '&' => "&amp;".toList
  | '\u00a0' => "&nbsp;".toList
  | '<' => "&lt;".toList
  | '>' => "&gt;".toList
  | '"' => if inAttribute then "&quot;".toList else ['"']
  | c => [c]

/-- The attributes of a start tag. -/
def writeAttributes (attributes : List Attribute) : List Char :=
  attributes.flatMap fun a ↦
    ' ' :: a.name.toList ++ '=' :: '"' :: a.value.flatMap (escapeChar true) ++ ['"']

mutual

/-- A node as HTML. -/
def Node.write : Node → List Char
  | .text content => content.flatMap (escapeChar false)
  | .element _ tag attributes children =>
    '<' :: tag.toList ++ writeAttributes attributes ++ '>' ::
      (if voidTags.contains tag then []
      else writeAll children ++ '<' :: '/' :: tag.toList ++ ['>'])

/-- Nodes as HTML, one after another. -/
def writeAll : List Node → List Char
  | [] => []
  | node :: rest => node.write ++ writeAll rest

end

end Guidebook.Html
