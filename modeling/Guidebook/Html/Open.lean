import Guidebook.Html.Token

/-!
# Open elements

While HTML is read, the elements that have begun and not ended form a stack. Each holds the children
it has so far; closing an element makes it a child of the one around it. An element that ends before
those in it stays in the stack, marked as ended: it counts for nothing, and closes with the last of
them. Elements of formatting are remembered beyond their end, so that formatting goes on across
blocks.
-/

namespace Guidebook.Html

/-- An element that has begun. -/
structure Open where
  /-- A number no other element has. -/
  label : Nat
  vocabulary : Vocabulary
  tag : String
  attributes : List Attribute
  /-- The children so far, the newest first. -/
  children : List Node
  /-- Whether the element belongs before the table it was found in. -/
  fostered : Bool
  /-- Whether the element has ended, though not all elements in it have. -/
  ended : Bool

/-- An element of formatting, or the edge of a part that formatting does not cross. -/
inductive Format where
  | edge
  | element (label : Nat) (tag : String) (attributes : List Attribute)
  deriving DecidableEq

/-- The part of a document that is being read. -/
inductive Mode where
  | body | table | caption | columns | rows | row | cell | template
  deriving DecidableEq, Repr

/-- A tree under construction. -/
structure Builder where
  /-- The open elements, the innermost first. -/
  stack : List Open
  /-- The elements of formatting, the newest first. -/
  formats : List Format
  mode : Mode
  /-- The mode of each open template, the innermost first. -/
  templateModes : List Mode
  /-- The number of the next element. -/
  fresh : Nat
  /-- Text found between the parts of a table, the newest character first. -/
  pending : List Char
  /-- Whether content is moved before the table it was found in. -/
  fostering : Bool
  form : Option Nat
  /-- Whether a line feed is to be dropped if it comes next. -/
  skipLine : Bool
  /-- The element whose content is read as text. -/
  awaited : Option String

namespace Open

/-- Whether an element is the HTML element of a tag. -/
def isHtml (tag : String) (o : Open) : Bool := o.vocabulary == .html && o.tag == tag

/-- Whether an element is an HTML element of one of some tags. -/
def isOneOf (tags : List String) (o : Open) : Bool := o.vocabulary == .html && tags.contains o.tag

/-- The finished element. The content of a template is not shown. -/
def node (o : Open) : Node :=
  .element o.vocabulary o.tag o.attributes (if o.isHtml "template" then [] else o.children.reverse)

/-- The element with one more child. -/
def add (node : Node) (o : Open) : Open :=
  match node, o.children with
  | .text new, .text old :: rest => { o with children := .text (old ++ new) :: rest }
  | node, children => { o with children := node :: children }

/-- Whether the text of an element of mathematics may hold HTML. -/
def holdsMathText (o : Open) : Bool :=
  o.vocabulary == .math && ["mi", "mo", "mn", "ms", "mtext"].contains o.tag

/-- Whether an element of another vocabulary may hold HTML. -/
def holdsHtml (o : Open) : Bool :=
  match o.vocabulary with
  | .svg => ["foreignobject", "desc", "title"].contains o.tag
  | .math =>
    o.tag == "annotation-xml" && o.attributes.any fun a ↦
      a.name == "encoding" &&
        ["text/html", "application/xhtml+xml"].contains (nameOf a.value)
  | .html => false

/-- Elements in which blocks of text end. -/
def specialTags : List String :=
  ["address", "applet", "area", "article", "aside", "base", "basefont", "bgsound", "blockquote",
    "body", "br", "button", "caption", "center", "col", "colgroup", "dd", "details", "dir", "div",
    "dl", "dt", "embed", "fieldset", "figcaption", "figure", "footer", "form", "frame", "frameset",
    "h1", "h2", "h3", "h4", "h5", "h6", "head", "header", "hgroup", "hr", "html", "iframe", "img",
    "input", "keygen", "li", "link", "listing", "main", "marquee", "menu", "meta", "nav",
    "noembed", "noframes", "noscript", "object", "ol", "p", "param", "plaintext", "pre", "script",
    "search", "section", "select", "source", "style", "summary", "table", "tbody", "td",
    "template", "textarea", "tfoot", "th", "thead", "title", "tr", "track", "ul", "wbr", "xmp"]

/-- Whether formatting is not looked for beyond an element. -/
def isSpecial (o : Open) : Bool :=
  match o.vocabulary with
  | .html => specialTags.contains o.tag
  | .math => o.holdsMathText || o.tag == "annotation-xml"
  | .svg => ["foreignobject", "desc", "title"].contains o.tag

/-- Whether an element ends the search for open elements, as do further ones of some tags. -/
def isBarrier (more : List String) (o : Open) : Bool :=
  match o.vocabulary with
  | .html =>
    (["applet", "caption", "html", "table", "td", "th", "marquee", "object", "select",
      "template"] ++ more).contains o.tag
  | .math => o.holdsMathText || o.tag == "annotation-xml"
  | .svg => ["foreignobject", "desc", "title"].contains o.tag

end Open

namespace Builder

/-- Nothing read yet, in a part of a page. -/
def start : Builder :=
  ⟨[⟨0, .html, "html", [], [], false, false⟩], [], .body, [], 1, [], false, none, false, none⟩

/-- The innermost open element. -/
def current? (b : Builder) : Option Open := b.stack.head?

/-- Whether the innermost element is an HTML element of one of some tags. -/
def isIn (b : Builder) (tags : List String) : Bool := b.current?.any (·.isOneOf tags)

/-- The parts of a table that hold only other parts. -/
def tableParts : List String := ["table", "tbody", "tfoot", "thead", "tr"]

/-- Adds a node to the element around the innermost table; to the outermost element if there is no
table. What is in a template stays in it. -/
def addBeforeTable (node : Node) : List Open → List Open
  | [] => []
  | [o] => [o.add node]
  | o :: p :: rest =>
    if o.isHtml "template" then o.add node :: p :: rest
    else if o.isHtml "table" then o :: p.add node :: rest
    else o :: addBeforeTable node (p :: rest)

/-- Adds a node to the innermost element, or before the table if that is where it belongs. -/
def addNode (b : Builder) (node : Node) : Builder :=
  match b.stack with
  | [] => b
  | o :: rest =>
    if b.fostering && o.isOneOf tableParts then { b with stack := addBeforeTable node b.stack }
    else { b with stack := o.add node :: rest }

/-- Gives a node to the innermost element, or puts it before the innermost table. An element that
has ended gets its last node so, and closes in its turn. -/
def give (node : Node) : Bool → List Open → List Open
  | true, stack => addBeforeTable node stack
  | false, [] => []
  | false, o :: rest =>
    if o.ended && !rest.isEmpty then give (o.add node).node o.fostered rest
    else o.add node :: rest

/-- Closes the innermost element. The outermost one stays open. -/
def close (b : Builder) : Builder :=
  match b.stack with
  | o :: p :: rest => { b with stack := give o.node o.fostered (p :: rest) }
  | _ => b

/-- Ends an element that is not the innermost one, and none of those in it. -/
def endBelow (label : Nat) (b : Builder) : Builder :=
  { b with stack := b.stack.map fun o ↦ if o.label == label then { o with ended := true } else o }

/-- Closes elements as long as the innermost is of a kind, at most `fuel` of them. -/
def closeWhile (p : Open → Bool) : Nat → Builder → Builder
  | 0, b => b
  | fuel + 1, b => if 1 < b.stack.length && b.current?.any p then closeWhile p fuel b.close else b

/-- Closes elements up to and with the first of a kind. -/
def closeThrough (p : Open → Bool) (b : Builder) : Builder :=
  (closeWhile (!p ·) b.stack.length b).close

/-- Opens an element. -/
def push (b : Builder) (vocabulary : Vocabulary) (tag : String) (attributes : List Attribute) :
    Builder :=
  let fostered := b.fostering && b.isIn tableParts
  { b with
    stack := ⟨b.fresh, vocabulary, tag, attributes, [], fostered, false⟩ :: b.stack
    fresh := b.fresh + 1 }

/-- Opens an HTML element. -/
def pushHtml (b : Builder) (tag : Tag) : Builder := b.push .html tag.name tag.attributes

/-- Opens an HTML element of a tag that was left out. -/
def pushBare (b : Builder) (tag : String) : Builder := b.push .html tag []

/-- Adds an HTML element without content. -/
def addVoid (b : Builder) (tag : Tag) : Builder := (b.pushHtml tag).close

/-- Whether a template is open. -/
def isInTemplate (b : Builder) : Bool := b.stack.any (·.isHtml "template")

/-- Whether an element of a kind is open this side of a barrier. -/
def inScopeOf (barrier : Open → Bool) (p : Open → Bool) : List Open → Bool
  | [] => false
  | o :: rest =>
    if o.ended then inScopeOf barrier p rest else p o || (!barrier o && inScopeOf barrier p rest)

def hasInScope (b : Builder) (tags : List String) : Bool :=
  inScopeOf (Open.isBarrier []) (·.isOneOf tags) b.stack

def hasInItemScope (b : Builder) (tag : String) : Bool :=
  inScopeOf (Open.isBarrier ["ol", "ul"]) (·.isHtml tag) b.stack

def hasInButtonScope (b : Builder) (tag : String) : Bool :=
  inScopeOf (Open.isBarrier ["button"]) (·.isHtml tag) b.stack

def hasInTableScope (b : Builder) (tags : List String) : Bool :=
  inScopeOf (·.isOneOf ["html", "table", "template"]) (·.isOneOf tags) b.stack

/-- Elements that end by themselves. -/
def impliedTags : List String :=
  ["dd", "dt", "li", "optgroup", "option", "p", "rb", "rp", "rt", "rtc"]

/-- Closes elements that end by themselves, but not those of some tags. -/
def closeImplied (b : Builder) (but : List String) : Builder :=
  closeWhile (fun o ↦ o.isOneOf impliedTags && !but.contains o.tag) b.stack.length b

/-- Closes an element of a tag with all in it. -/
def closeElement (b : Builder) (tag : String) : Builder :=
  closeThrough (·.isHtml tag) (b.closeImplied [tag])

/-- Closes an open paragraph. -/
def closeParagraph (b : Builder) : Builder :=
  if b.hasInButtonScope "p" then b.closeElement "p" else b

/-- Closes elements down to one of some tags. -/
def closeTo (b : Builder) (tags : List String) : Builder :=
  closeWhile (!·.isOneOf (tags ++ ["template", "html"])) b.stack.length b

/-- The mode that fits the open elements, given that of the innermost template. -/
def modeOf (inTemplate : Mode) : List Open → Mode
  | [] => .body
  | o :: rest =>
    if o.isOneOf ["td", "th"] then .cell
    else if o.isHtml "tr" then .row
    else if o.isOneOf ["tbody", "thead", "tfoot"] then .rows
    else if o.isHtml "caption" then .caption
    else if o.isHtml "colgroup" then .columns
    else if o.isHtml "table" then .table
    else if o.isHtml "template" then inTemplate
    else modeOf inTemplate rest

/-- The builder in the mode that fits. -/
def resetMode (b : Builder) : Builder :=
  { b with mode := modeOf (b.templateModes.head?.getD .body) b.stack }

/-! Formatting -/

/-- Whether an element is open. -/
def isOpen (b : Builder) (label : Nat) : Bool := b.stack.any fun o ↦ o.label == label && !o.ended

/-- Forgets the formatting since the last edge. -/
def dropFormats (b : Builder) : Builder :=
  { b with formats := (b.formats.dropWhile (· != .edge)).drop 1 }

/-- Puts an edge to formatting. -/
def addEdge (b : Builder) : Builder := { b with formats := .edge :: b.formats }

/-- Forgets one element of formatting. -/
def dropFormat (b : Builder) (label : Nat) : Builder :=
  { b with formats := b.formats.filter fun f ↦
      match f with
      | .element l _ _ => l != label
      | .edge => true }

/-- Whether a format is of a tag with some attributes, in any order. -/
def Format.isLike (tag : String) (attributes : List Attribute) : Format → Bool
  | .element _ t a => t == tag && a.length == attributes.length && a.all attributes.contains
  | .edge => false

/-- Remembers the innermost element as formatting; of equal ones no more than three. -/
def addFormat (b : Builder) : Builder :=
  match b.current? with
  | some o =>
    let recent := b.formats.takeWhile (· != .edge)
    let older := b.formats.drop recent.length
    let isLike := Format.isLike o.tag o.attributes
    let recent :=
      if 3 ≤ (recent.filter isLike).length then
        let newest := recent.reverse
        ((newest.takeWhile (!isLike ·)) ++ (newest.dropWhile (!isLike ·)).drop 1).reverse
      else recent
    { b with formats := .element o.label o.tag o.attributes :: recent ++ older }
  | none => b

/-- Opens formatting again that was interrupted, the oldest first. -/
def reopen (b : Builder) : Builder :=
  let isClosed := fun (f : Format) ↦
    match f with
    | .element label _ _ => !b.isOpen label
    | .edge => false
  let closed := b.formats.takeWhile isClosed
  closed.reverse.foldl (fun b f ↦
    match f with
    | .element label tag attributes =>
      let new := b.fresh
      let b := b.push .html tag attributes
      { b with formats := b.formats.map fun g ↦
          if g == .element label tag attributes then .element new tag attributes else g }
    | .edge => b) b

/-- The newest format of a tag since the last edge. -/
def format? (b : Builder) (tag : String) : Option Nat :=
  (b.formats.takeWhile (· != .edge)).findSome? fun f ↦
    match f with
    | .element label t _ => if t == tag then some label else none
    | .edge => none

/-- Ends the innermost element of a tag if no special element is in between. -/
def endOther (b : Builder) (tag : String) : Builder :=
  match b.stack.find? fun o ↦ !o.ended && (o.isHtml tag || o.isSpecial) with
  | some o =>
    if o.isHtml tag then closeThrough (·.label == o.label) (b.closeImplied [tag]) else b
  | none => b

/-- Elements closed one into another, the outermost first. -/
def nest : List Open → Option Node
  | [] => none
  | o :: inner =>
    match nest inner with
    | some node => some (o.add node).node
    | none => some o.node

/-- The elements between a format and a block, reopened around the block as far as they are
formatting themselves; the outermost first. The number is that of the elements before. -/
def reopenBetween (b : Builder) : Nat → List Open → List Open × Builder
  | _, [] => ([], b)
  | count, o :: rest =>
    let known := b.formats.contains (.element o.label o.tag o.attributes)
    if known && count < 3 then
      let new : Open := { o with label := b.fresh, children := [], fostered := false }
      let b := { b with
        fresh := b.fresh + 1
        formats := b.formats.map fun f ↦
          if f == .element o.label o.tag o.attributes then .element new.label o.tag o.attributes
          else f }
      let (outer, b) := reopenBetween b (count + 1) rest
      (outer ++ [new], b)
    else reopenBetween (b.dropFormat o.label) (count + 1) rest

/-- Ends formatting of a tag. If blocks have begun within it, it ends before the first of them and
begins again inside it. -/
def endFormat (tag : String) : Nat → Builder → Builder
  | 0, b => b
  | fuel + 1, b =>
    match b.format? tag with
    | none => b.endOther tag
    | some label =>
      if !b.isOpen label then b.dropFormat label
      else if !inScopeOf (Open.isBarrier []) (·.label == label) b.stack then b
      else
        let inner := (b.stack.takeWhile (·.label != label)).reverse
        let isPlain := fun (o : Open) ↦ o.ended || !o.isSpecial
        match b.stack.dropWhile (·.label != label) with
        | format :: outer =>
          let between := inner.takeWhile isPlain
          match inner.drop between.length with
          | [] => (closeThrough (·.label == label) b).dropFormat label
          | block :: deeper =>
            let (around, b) := reopenBetween b 0 (between.reverse.filter (!·.ended))
            let new : Open :=
              { format with label := b.fresh, children := block.children, fostered := false }
            let anchor := (around.getLast?.map Open.label).getD label
            let formats := b.formats.flatMap fun f ↦
              match f with
              | .element l _ _ =>
                if l == anchor then
                  .element new.label new.tag new.attributes :: (if l == label then [] else [f])
                else if l == label then [] else [f]
              | .edge => [f]
            let b := { b with stack := outer, fresh := b.fresh + 1, formats }
            let b := match nest (format :: between) with
              | some node => { b with stack := give node format.fostered b.stack }
              | none => b
            let fostered := b.fostering && b.isIn tableParts
            let moved := match around ++ [{ block with children := [], fostered := false }] with
              | [] => []
              | o :: rest => { o with fostered } :: rest
            endFormat tag fuel { b with stack := (moved ++ new :: deeper).reverse ++ b.stack }
        | [] => b

/-- Ends formatting of a tag that may not be remembered any more. -/
def endFormatting (b : Builder) (tag : String) : Builder :=
  match b.current? with
  | some o =>
    if o.isHtml tag && !b.formats.contains (.element o.label o.tag o.attributes) then b.close
    else endFormat tag 8 b
  | none => b

end Builder
end Guidebook.Html
