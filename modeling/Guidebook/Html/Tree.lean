import Guidebook.Html.Open

/-!
# Reading HTML

Any text is HTML: tags that do not fit are mended or ignored. What a tag does hangs on the part of
the document it is found in. The result is the content of a part of a page.
-/

namespace Guidebook.Html
namespace Builder

/-- Blocks that end a paragraph. -/
def blockTags : List String :=
  ["address", "article", "aside", "blockquote", "center", "details", "dialog", "dir", "div", "dl",
    "fieldset", "figcaption", "figure", "footer", "header", "hgroup", "main", "menu", "nav", "ol",
    "p", "search", "section", "summary", "ul"]

/-- Blocks that an end tag closes. -/
def closedTags : List String :=
  ["address", "article", "aside", "blockquote", "button", "center", "details", "dialog", "dir",
    "div", "dl", "fieldset", "figcaption", "figure", "footer", "header", "hgroup", "listing",
    "main", "menu", "nav", "ol", "pre", "search", "section", "select", "summary", "ul"]

def headingTags : List String := ["h1", "h2", "h3", "h4", "h5", "h6"]

/-- Elements of formatting. -/
def formatTags : List String :=
  ["b", "big", "code", "em", "font", "i", "s", "small", "strike", "strong", "tt", "u"]

/-- Parts of tables, which have no meaning elsewhere. -/
def partTags : List String :=
  ["caption", "col", "colgroup", "tbody", "td", "tfoot", "th", "thead", "tr"]

/-- Tags that end other vocabularies. -/
def breakoutTags : List String :=
  ["b", "big", "blockquote", "body", "br", "center", "code", "dd", "div", "dl", "dt", "em",
    "embed", "h1", "h2", "h3", "h4", "h5", "h6", "head", "hr", "i", "img", "li", "listing", "menu",
    "meta", "nobr", "ol", "p", "pre", "ruby", "s", "small", "span", "strong", "strike", "sub",
    "sup", "table", "tt", "u", "ul", "var"]

/-- Opens an element whose content is text up to its end tag. -/
def await (b : Builder) (tag : Tag) : Builder :=
  { b.pushHtml tag with awaited := some tag.name }

/-- Ends a selection, which begins in no other one. -/
def endSelect (b : Builder) : Builder := closeThrough (·.isHtml "select") b

/-- Begins an item of a list: an open item of the same list ends. -/
def startItem (b : Builder) (tags : List String) (tag : Tag) : Builder :=
  let stops := fun (o : Open) ↦ !o.ended &&
    (o.isOneOf tags || (o.isSpecial && !o.isOneOf ["address", "div", "p"]))
  let b := match b.stack.find? stops with
    | some o => if o.isOneOf tags then b.closeElement o.tag else b
    | none => b
  b.closeParagraph.pushHtml tag

/-- Begins a template. -/
def startTemplate (b : Builder) (tag : Tag) : Builder :=
  let b := (b.pushHtml tag).addEdge
  { b with mode := .template, templateModes := .template :: b.templateModes }

/-- The mode in which a template goes on behind a first start tag. -/
def templateMode (name : String) : Mode :=
  if ["caption", "colgroup", "tbody", "tfoot", "thead"].contains name then .table
  else if name == "col" then .columns
  else if name == "tr" then .rows
  else if ["td", "th"].contains name then .row
  else .body

/-- Elements that may stand in the head of a page. -/
def headTags : List String :=
  ["base", "basefont", "bgsound", "link", "meta", "noframes", "script", "style", "template",
    "title"]

/-- A start tag where text stands. -/
def startInBody (b : Builder) (tag : Tag) : Builder :=
  let name := tag.name
  let isOf := fun (tags : List String) ↦ tags.contains name
  if isOf ["html", "body", "head", "frame", "frameset"] || isOf partTags then b
  else if isOf ["base", "basefont", "bgsound", "link", "meta", "param", "source", "track"] then
    b.addVoid tag
  else if isOf ["title", "noframes", "style", "script", "iframe", "noembed", "noscript"] then
    b.await tag
  else if name == "template" then b.startTemplate tag
  else if isOf blockTags then b.closeParagraph.pushHtml tag
  else if isOf headingTags then
    let b := b.closeParagraph
    (if b.isIn headingTags then b.close else b).pushHtml tag
  else if isOf ["pre", "listing"] then { b.closeParagraph.pushHtml tag with skipLine := true }
  else if name == "form" then
    if b.isInTemplate then b.closeParagraph.pushHtml tag
    else if b.form.isSome then b
    else { b.closeParagraph.pushHtml tag with form := some b.closeParagraph.fresh }
  else if name == "li" then b.startItem ["li"] tag
  else if isOf ["dd", "dt"] then b.startItem ["dd", "dt"] tag
  else if name == "plaintext" then b.closeParagraph.await tag
  else if name == "button" then
    (if b.hasInScope ["button"] then closeThrough (·.isHtml "button") (b.closeImplied [])
      else b).reopen.pushHtml tag
  else if name == "a" then
    let b := match b.format? "a" with
      | some label =>
        let b := (endFormat "a" 8 b).dropFormat label
        if b.isOpen label then b.endBelow label else b
      | none => b
    (b.reopen.pushHtml tag).addFormat
  else if isOf formatTags then (b.reopen.pushHtml tag).addFormat
  else if name == "nobr" then
    let b := b.reopen
    let b := if b.hasInScope ["nobr"] then (b.endFormatting "nobr").reopen else b
    (b.pushHtml tag).addFormat
  else if isOf ["applet", "marquee", "object"] then (b.reopen.pushHtml tag).addEdge
  else if name == "table" then { b.closeParagraph.pushHtml tag with mode := .table }
  else if isOf ["area", "br", "embed", "img", "keygen", "wbr"] then b.reopen.addVoid tag
  else if name == "input" then
    (if b.hasInScope ["select"] then b.endSelect else b).reopen.addVoid tag
  else if name == "image" then b.reopen.addVoid { tag with name := "img" }
  else if name == "hr" then
    let b := b.closeParagraph
    (if b.hasInScope ["select"] then b.closeImplied [] else b).addVoid tag
  else if name == "textarea" then { b.await tag with skipLine := true }
  else if name == "xmp" then b.closeParagraph.reopen.await tag
  else if name == "select" then
    if b.hasInScope ["select"] then b.endSelect else b.reopen.pushHtml tag
  else if isOf ["optgroup", "option"] then
    let b := if b.hasInScope ["select"] then
        b.closeImplied (if name == "option" then ["optgroup"] else [])
      else if b.isIn ["option"] then b.close
      else b
    b.reopen.pushHtml tag
  else if isOf ["rb", "rtc"] then
    (if b.hasInScope ["ruby"] then b.closeImplied [] else b).pushHtml tag
  else if isOf ["rp", "rt"] then
    (if b.hasInScope ["ruby"] then b.closeImplied ["rtc"] else b).pushHtml tag
  else if isOf ["svg", "math"] then
    let b := b.reopen.push (if name == "svg" then .svg else .math) name tag.attributes
    if tag.selfClosing then b.close else b
  else b.reopen.pushHtml tag

/-- The end of a form. -/
def endForm (b : Builder) : Builder :=
  match b.isInTemplate, b.form with
  | true, _ => if b.hasInScope ["form"] then closeThrough (·.isHtml "form") b else b
  | false, none => b
  | false, some label =>
    let b := { b with form := none }
    if !inScopeOf (Open.isBarrier []) (·.label == label) b.stack then b
    else
      let b := b.closeImplied []
      if b.current?.any (·.label == label) then b.close else b.endBelow label

/-- An end tag where text stands. -/
def endInBody (b : Builder) (name : String) : Builder :=
  let isOf := fun (tags : List String) ↦ tags.contains name
  if isOf ["body", "html"] then b
  else if name == "template" then
    if b.isInTemplate then
      let b := (closeThrough (·.isHtml "template") b).dropFormats
      { b with templateModes := b.templateModes.drop 1 }.resetMode
    else b
  else if isOf closedTags then
    if b.hasInScope [name] then closeThrough (·.isHtml name) (b.closeImplied []) else b
  else if name == "form" then b.endForm
  else if name == "p" then
    (if b.hasInButtonScope "p" then b else b.pushBare "p").closeElement "p"
  else if name == "li" then if b.hasInItemScope "li" then b.closeElement "li" else b
  else if isOf ["dd", "dt"] then if b.hasInScope [name] then b.closeElement name else b
  else if isOf headingTags then
    if b.hasInScope headingTags then
      closeThrough (·.isOneOf headingTags) (b.closeImplied [])
    else b
  else if isOf formatTags || isOf ["a", "nobr"] then b.endFormatting name
  else if isOf ["applet", "marquee", "object"] then
    if b.hasInScope [name] then
      (closeThrough (·.isHtml name) (b.closeImplied [])).dropFormats
    else b
  else if name == "br" then b.reopen.addVoid ⟨"br", [], false⟩
  else b.endOther name

/-- A token where text stands. -/
def inBody (b : Builder) : Token → Builder
  | .char c => if c == '\x00' then b else b.reopen.addNode (.text [c])
  | .start tag => b.startInBody tag
  | .stop name => b.endInBody name
  | .comment => b

/-- A token that does not belong in a table: it goes before the table. -/
def besideTable (b : Builder) (token : Token) : Builder :=
  { inBody { b with fostering := true } token with fostering := false }

/-- Text found between the parts of a table: blanks stay, other text goes before the table. -/
def flushPending (b : Builder) : Builder :=
  let text := b.pending.reverse
  let b := { b with pending := [] }
  if text.isEmpty then b
  else if text.all isSpace then b.addNode (.text text)
  else text.foldl (fun b c ↦ b.besideTable (.char c)) b

/-- The end of a caption. -/
def endCaption (b : Builder) : Builder :=
  { (closeThrough (·.isHtml "caption") (b.closeImplied [])).dropFormats with mode := .table }

/-- The end of a cell. -/
def endCell (b : Builder) : Builder :=
  { (closeThrough (·.isOneOf ["td", "th"]) (b.closeImplied [])).dropFormats with mode := .row }

/-- A token in a vocabulary other than HTML, unless it leaves the vocabulary. -/
def inForeign? (b : Builder) : Token → Option Builder
  | .char c => some (b.addNode (.text [if c == '\x00' then replacement else c]))
  | .start tag =>
    let leaves := breakoutTags.contains tag.name ||
      (tag.name == "font" &&
        tag.attributes.any fun a ↦ ["color", "face", "size"].contains a.name)
    if leaves then none
    else
      let vocabulary := (b.current?.map Open.vocabulary).getD .html
      let b := b.push vocabulary tag.name tag.attributes
      some (if tag.selfClosing then b.close else b)
  | .stop name =>
    if ["br", "p"].contains name then none
    else
      let foreign := b.stack.takeWhile (·.vocabulary != .html)
      match foreign.find? fun o ↦ o.tag == name with
      | some o => some (closeThrough (·.label == o.label) b)
      | none => none
  | .comment => some b

/-- Whether a token is read by the rules of another vocabulary. -/
def isForeign (b : Builder) (token : Token) : Bool :=
  match b.current? with
  | none => false
  | some o =>
    if o.vocabulary == .html then false
    else match token with
      | .char _ => !o.holdsMathText && !o.holdsHtml
      | .start tag =>
        !((o.holdsMathText && !(["mglyph", "malignmark"].contains tag.name)) ||
          (o.vocabulary == .math && o.tag == "annotation-xml" && tag.name == "svg") || o.holdsHtml)
      | .stop _ => true
      | .comment => false

/-- Reads a token by the part of the document. A token that ends a part is read again behind it. -/
def read : Nat → Builder → Token → Builder
  | 0, b, _ => b
  | fuel + 1, b, token =>
    let again := fun (b : Builder) ↦ read fuel b token
    let againIn := fun (mode : Mode) (b : Builder) ↦ read fuel { b with mode } token
    let isStart := fun (tags : List String) ↦
      match token with
      | .start tag => tags.contains tag.name
      | _ => false
    let isStop := fun (tags : List String) ↦
      match token with
      | .stop name => tags.contains name
      | _ => false
    let b := match token with
      | .char _ => b
      | _ => b.flushPending
    if b.isForeign token then
      match b.inForeign? token with
      | some b => b
      | none =>
        match token with
        | .stop name =>
          let b := if ["br", "p"].contains name then
              closeWhile (fun o ↦ o.vocabulary != .html && !o.holdsMathText && !o.holdsHtml)
                b.stack.length b
            else b
          readHtml again againIn isStart isStop b token
        | _ => again (closeWhile
            (fun o ↦ o.vocabulary != .html && !o.holdsMathText && !o.holdsHtml)
            b.stack.length b)
    else readHtml again againIn isStart isStop b token
where
  /-- Reads a token of HTML. -/
  readHtml (again : Builder → Builder) (againIn : Mode → Builder → Builder)
      (isStart isStop : List String → Bool) (b : Builder) (token : Token) : Builder :=
    let groups := ["tbody", "tfoot", "thead"]
    let cells := ["td", "th"]
    let ignored := isStop ["body", "html", "caption", "col", "colgroup"]
    let inTable := fun (b : Builder) ↦
      match token with
      | .char c =>
        if b.isIn ("template" :: tableParts) then
          if c == '\x00' then b else { b with pending := c :: b.pending }
        else b.besideTable token
      | .start tag =>
        if tag.name == "caption" then
          { ((b.closeTo ["table"]).addEdge).pushHtml tag with mode := .caption }
        else if tag.name == "colgroup" then
          { (b.closeTo ["table"]).pushHtml tag with mode := .columns }
        else if tag.name == "col" then
          againIn .columns ((b.closeTo ["table"]).pushBare "colgroup")
        else if groups.contains tag.name then
          { (b.closeTo ["table"]).pushHtml tag with mode := .rows }
        else if ["td", "th", "tr"].contains tag.name then
          againIn .rows ((b.closeTo ["table"]).pushBare "tbody")
        else if tag.name == "table" then
          if b.hasInTableScope ["table"] then
            again (closeThrough (·.isHtml "table") b).resetMode
          else b
        else if ["style", "script", "template"].contains tag.name then b.startInBody tag
        else if tag.name == "input" &&
            tag.attributes.any (fun a ↦ a.name == "type" && nameOf a.value == "hidden") then
          b.addVoid tag
        else if tag.name == "form" then
          if b.form.isSome || b.isInTemplate then b
          else { b.addVoid tag with form := some b.fresh }
        else b.besideTable token
      | .stop name =>
        if name == "table" then
          if b.hasInTableScope ["table"] then (closeThrough (·.isHtml "table") b).resetMode else b
        else if name == "template" then b.endInBody name
        else if partTags.contains name || ["body", "html"].contains name then b
        else b.besideTable token
      | .comment => b
    match b.mode with
    | .body => b.inBody token
    | .template =>
      match token with
      | .start tag =>
        if headTags.contains tag.name then b.startInBody tag
        else
          let mode := templateMode tag.name
          againIn mode { b with templateModes := mode :: b.templateModes.drop 1 }
      | .stop name => if name == "template" then b.endInBody name else b
      | _ => b.inBody token
    | .table => inTable b
    | .caption =>
      if isStop ["caption"] then if b.hasInTableScope ["caption"] then b.endCaption else b
      else if isStart partTags || isStop ["table"] then
        if b.hasInTableScope ["caption"] then again b.endCaption else b
      else if isStop (["body", "html"] ++ partTags) then b
      else b.inBody token
    | .columns =>
      let isBlank := match token with
        | .char c => isSpace c
        | _ => false
      if isBlank then b.addNode (.text (match token with
        | .char c => [c]
        | _ => []))
      else match token with
        | .start ⟨"col", attributes, s⟩ => b.addVoid ⟨"col", attributes, s⟩
        | .start ⟨"html", _, _⟩ => b
        | .start ⟨"template", attributes, s⟩ => b.startTemplate ⟨"template", attributes, s⟩
        | .stop "template" => b.endInBody "template"
        | .stop "col" => b
        | .stop "colgroup" =>
          if b.isIn ["colgroup"] then { b.close with mode := .table } else b
        | _ => if b.isIn ["colgroup"] then againIn .table b.close else b
    | .rows =>
      let context := groups
      if isStart ["tr"] then
        match token with
        | .start tag => { (b.closeTo context).pushHtml tag with mode := .row }
        | _ => b
      else if isStart cells then againIn .row ((b.closeTo context).pushBare "tr")
      else if isStop groups then
        match token with
        | .stop name =>
          if b.hasInTableScope [name] then { (b.closeTo context).close with mode := .table } else b
        | _ => b
      else if isStart (["caption", "col", "colgroup"] ++ groups) || isStop ["table"] then
        if b.hasInTableScope groups then againIn .table (b.closeTo context).close else b
      else if ignored || isStop ("tr" :: cells) then b
      else inTable b
    | .row =>
      let endRow := fun (b : Builder) ↦ (b.closeTo ["tr"]).close
      if isStart cells then
        match token with
        | .start tag => { ((b.closeTo ["tr"]).pushHtml tag).addEdge with mode := .cell }
        | _ => b
      else if isStop ["tr"] then
        if b.hasInTableScope ["tr"] then { endRow b with mode := .rows } else b
      else if isStart (["caption", "col", "colgroup", "tr"] ++ groups) || isStop ["table"] then
        if b.hasInTableScope ["tr"] then againIn .rows (endRow b) else b
      else if isStop groups then
        match token with
        | .stop name =>
          if b.hasInTableScope [name] && b.hasInTableScope ["tr"] then againIn .rows (endRow b)
          else b
        | _ => b
      else if ignored || isStop cells then b
      else inTable b
    | .cell =>
      if isStop cells then
        match token with
        | .stop name =>
          if b.hasInTableScope [name] then
            { (closeThrough (·.isHtml name) (b.closeImplied [])).dropFormats with mode := .row }
          else b
        | _ => b
      else if isStart partTags then
        if b.hasInTableScope cells then again b.endCell else b
      else if ignored then b
      else if isStop (["table", "tr"] ++ groups) then
        match token with
        | .stop name => if b.hasInTableScope [name] then again b.endCell else b
        | _ => b
      else b.inBody token

/-- Reads a token, except a line feed right behind the start of preformatted text. A comment only
divides the text around it. -/
def accept (b : Builder) (token : Token) : Builder :=
  let skips := b.skipLine
  let b := { b with skipLine := false }
  match token with
  | .comment => b.flushPending
  | .char '\n' => if skips then b else read (2 * b.stack.length + 16) b token
  | _ => read (2 * b.stack.length + 16) b token

/-- Reads the text of an element up to its end tag and closes it. -/
def acceptText (b : Builder) (name : String) (cs : List Char) : Builder × List Char :=
  let (text, rest) :=
    if contentOf name == .everything then (cs, [])
    else if name == "script" then readScript .outside cs
    else readUntilEnd name cs
  let text := if contentOf name == .text then decode false text.length text else text
  let text := match b.skipLine, text with
    | true, '\n' :: text => text
    | _, text => text
  let text := text.map fun c ↦ if c == '\x00' then replacement else c
  let b := { b with awaited := none, skipLine := false }
  let b := if text.isEmpty then b else { b with stack := match b.stack with
    | o :: rest => o.add (.text text) :: rest
    | [] => [] }
  (b.close, match readTag? (rest.drop 2) with
    | some (_, after) => after
    | none => [])

/-- Reads a text. -/
def readText : Nat → Builder → List Char → Builder
  | 0, b, _ => b
  | _, b, [] => b
  | fuel + 1, b, c :: cs =>
    match b.awaited with
    | some name =>
      let (b, rest) := b.acceptText name (c :: cs)
      readText fuel b rest
    | none =>
      let foreign := b.current?.any (·.vocabulary != .html)
      let (tokens, rest) := nextTokens foreign (c :: cs)
      readText fuel (tokens.foldl accept b) rest

/-- The content of a tree, all elements closed. -/
def finish (b : Builder) : List Node :=
  let b := b.flushPending
  let b := closeWhile (fun _ ↦ true) b.stack.length b
  match b.current? with
  | some root => root.children.reverse
  | none => []

end Builder

/-- The nodes a text is, read as a part of a page. A byte order mark in front does not count. -/
def parse (text : List Char) : List Node :=
  let text := Text.universalNewlines ((Text.dropPrefix? ['\ufeff'] text).getD text)
  (Builder.readText (text.length + 1) .start text).finish

end Guidebook.Html
