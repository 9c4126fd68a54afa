import Guidebook.Text.Pattern
import Guidebook.Markdown.Source
import Guidebook.Markdown.Table

/-!
# Blocks

A page is cut into blocks at empty lines, and each block is read by the first rule that fits:
nothing, an indented part of a list, code, a table, a heading, a rule, a list, a quote, the
definition of a link, a paragraph. A rule may leave a rest to be read as a block of its own.
-/

namespace Guidebook.Markdown

/-- How a page is read. -/
inductive Dialect where
  /-- As it is shown: with tables, strict lists and fenced code, HTML being mere text. -/
  | full
  /-- As its headings are looked for: HTML is HTML. -/
  | plain
  deriving DecidableEq, Repr

/-- Where a reference leads. -/
structure Reference where
  link : Run
  title : Option Run

/-- The references a page defines, the newest first. -/
abbrev References := List (List Char × Reference)

/-- What a block is part of. -/
inductive Context where
  | page | item | looseItem | quote | detached
  deriving DecidableEq, Repr

namespace Block

/-- The blocks of a text, cut at empty lines. -/
def chunks : Run → List Run
  | [] => [[]]
  | [g] => [[g]]
  | g :: h :: rest =>
    if g.isChar '\n' && h.isChar '\n' then [] :: chunks rest
    else match chunks (h :: rest) with
      | [] => [[g]]
      | piece :: pieces => (g :: piece) :: pieces

/-- The text indented by so many steps, without that indent. -/
def dedent? (steps : Nat) (line : Run) : Option Run :=
  if steps * tabWidth ≤ line.indent then some (line.drop (steps * tabWidth)) else none

/-- Whether a line is indented as nested blocks are. -/
def isNested (line : Run) : Bool := tabWidth ≤ line.indent

/-- The lines of a text up to one that is neither nested nor empty, dedented, and the rest. -/
def splitNested : List Run → List Run × List Run
  | [] => ([], [])
  | line :: rest =>
    match dedent? 1 line with
    | some inner =>
      let (nested, others) := splitNested rest
      (inner :: nested, others)
    | none =>
      if line.hasInk then ([], line :: rest)
      else
        let (nested, others) := splitNested rest
        ([] :: nested, others)

/-- A text with every line that is indented so far dedented. -/
def dedentAll (steps : Nat) (text : Run) : Run :=
  Run.ofLines (text.lines.map fun line ↦ (dedent? steps line).getD line)

/-! Code -/

/-- Whether an element is a block of code. -/
def isCode (e : Element) : Bool := e.tag == "pre" && e.children.head?.any (·.tag == "code")

/-- A block of code. -/
def codeElement (text : Run) : Element :=
  (Element.bare "pre").withChildren [(Element.leaf "code" text).sealText]

/-- The text of a block of code. -/
def codeText (e : Element) : Run := (e.children.head?.map Element.text).getD []

/-- Adds text to the block of code a parent ends with. -/
def extendCode (parent : Element) (more : Run) : Element :=
  match parent.lastChild? with
  | some last =>
    if isCode last then
      parent.setLast ((codeElement (codeText last ++ more)).withTail last.tail)
    else parent
  | none => parent

/-- Reads indented code: the parent with it and the lines behind it. -/
def addCode (parent : Element) (block : Run) : Element × Run :=
  let (nested, others) := splitNested block.lines
  let code := Text.stripEnd Glyph.isBlank (Run.ofLines nested) ++ [.char '\n']
  let parent :=
    if parent.lastChild?.any isCode then extendCode parent (.char '\n' :: code)
    else parent.push (codeElement code)
  (parent, Run.ofLines others)

/-! Headings and rules -/

/-- The words of a heading line behind its marks, without the marks that close it. A line whose last
backslash stands alone is no heading. -/
def headingWords? : Run → Option Run
  | [] => some []
  | [g] => if g.isChar '#' then some [] else if g.isChar '\\' then none else some [g]
  | g :: h :: rest =>
    if (g :: h :: rest).all (Glyph.isChar '#') then some []
    else if g.isChar '\\' then (headingWords? rest).map (g :: h :: ·)
    else (headingWords? (h :: rest)).map (g :: ·)

/-- The heading a line is: its rank and words. -/
def heading? (line : Run) : Option (Nat × Run) :=
  let rank := min 6 (line.takeWhile (Glyph.isChar '#')).length
  if rank == 0 then none
  else (headingWords? (line.drop rank)).map fun words ↦ (rank, words.strip)

/-- A heading. -/
def headingElement (rank : Nat) (words : Run) : Element :=
  Element.leaf ("h" ++ toString rank) words

/-- Lines before the first one that is something, what it is, and the lines behind it. -/
def splitAtLine? {α : Type} (what : Run → Option α) : List Run → Option (List Run × α × List Run)
  | [] => none
  | line :: rest =>
    match what line with
    | some a => some ([], a, rest)
    | none => (splitAtLine? what rest).map fun (before, a, after) ↦ (line :: before, a, after)

/-- The rank of the heading that a line of one sign below another makes of it. -/
def underlineRank? (line : Run) : Option Nat :=
  let isLineOf := fun (sign : Char) ↦
    Run.startsWith sign line && (line.dropWhile (Glyph.isChar sign)).all (Glyph.isChar ' ')
  if isLineOf '=' then some 1 else if isLineOf '-' then some 2 else none

/-- Whether a line of marks of one kind has none too far from the next. -/
def closeMarks (mark : Char) : Nat → Run → Bool
  | _, [] => true
  | gap, g :: rest =>
    if g.isChar mark then closeMarks mark 0 rest
    else g.isChar ' ' && gap < 2 && closeMarks mark (gap + 1) rest

/-- Whether a line is a rule: three or more marks of one kind. -/
def isRule (line : Run) : Bool :=
  let body := Text.stripEnd (Glyph.isChar ' ') (line.drop line.indent)
  line.indent < tabWidth &&
    ['-', '_', '*'].any fun mark ↦
      Run.startsWith mark body && 3 ≤ (body.filter (Glyph.isChar mark)).length &&
        closeMarks mark 0 body

/-! Lists -/

/-- The mark of an item: a number or a bullet. -/
inductive Bullet where
  | number (digits : List Char)
  | mark
  deriving DecidableEq, Repr

/-- The list a bullet opens. -/
def Bullet.tag : Bullet → String
  | .number _ => "ol"
  | .mark => "ul"

/-- The bullet a line has behind its indent, and the text of the item. -/
def bullet? (line : Run) : Option (Bullet × Run) :=
  let digits := line.takeWhile (Glyph.isOf fun c ↦ (Text.digitValue? c).isSome)
  let found := match digits, line with
    | [], g :: rest =>
      if g.isOf fun c ↦ ['*', '+', '-'].contains c then some (Bullet.mark, rest) else none
    | [], [] => none
    | _ :: _, _ =>
      match line.drop digits.length with
      | g :: rest =>
        if g.isChar '.' then some (.number (digits.filterMap Glyph.char?), rest) else none
      | [] => none
  match found with
  | some (bullet, rest) =>
    if Run.startsWith ' ' rest then some (bullet, rest.dropWhile (Glyph.isChar ' ')) else none
  | none => none

/-- The item a line opens. -/
def item? (line : Run) : Option (Bullet × Run) :=
  if line.indent < tabWidth then bullet? (line.drop line.indent) else none

/-- Whether a line opens an item of a nested list. -/
def isNestedItem (line : Run) : Bool :=
  tabWidth ≤ line.indent && line.indent < 2 * tabWidth && (bullet? (line.drop line.indent)).isSome

/-- The items of a list, each a text, with the newest first. -/
def collectItems (accepts : Bullet → Bool) : List Run → List Run → List Run
  | items, [] => items
  | items, line :: rest =>
    let continued := match items with
      | last :: earlier => (last ++ .char '\n' :: line) :: earlier
      | [] => [line]
    match item? line with
    | some (bullet, text) =>
      if accepts bullet then collectItems accepts (text :: items) rest
      else collectItems accepts continued rest
    | none =>
      if isNestedItem line && !items.head?.any isNested then
        collectItems accepts (line :: items) rest
      else collectItems accepts continued rest

/-- Whether an item of one kind may stand in a list that began with another. -/
def joins (dialect : Dialect) (tag other : String) : Bool :=
  match dialect with
  | .full => tag == other
  | .plain => true

/-- The items of a list block. -/
def items (dialect : Dialect) (tag : String) (block : Run) : List Run :=
  (collectItems (fun bullet ↦ joins dialect tag bullet.tag) [] block.lines).reverse

/-- An empty list that a bullet opens. A strict list keeps the number it starts with. -/
def newList (dialect : Dialect) (bullet : Bullet) : Element :=
  match dialect, bullet with
  | .full, .number digits =>
    if digits == ['1'] then Element.bare "ol"
    else (Element.bare "ol").withAttribute "start" (Run.ofChars digits)
  | _, _ => Element.bare bullet.tag

/-- An item whose text is moved into a paragraph before its children, if it has text. -/
def wrapText (item : Element) : Element :=
  if item.text.isEmpty then item
  else (item.withText []).withChildren (Element.leaf "p" item.text :: item.children)

/-- An item whose last child's tail is moved into a paragraph behind it, if there is one. -/
def wrapTail (item : Element) : Element :=
  match item.lastChild? with
  | some last =>
    if last.tail.isEmpty then item
    else (item.setLast (last.withTail [])).push (Element.leaf "p" last.tail.dropBlanks)
  | none => item

/-- The steps down to the last child that an indent asks for, and the indent they account for. -/
def nesting (indent : Nat) : Nat → Nat → Element → Nat × Nat
  | 0, level, _ => (0, level)
  | fuel + 1, level, e =>
    match e.lastChild? with
    | some child =>
      if level < indent && (child.isList || child.isItem) then
        let (depth, level) := nesting indent fuel (if child.isList then level + 1 else level) child
        (depth + 1, level)
      else (0, level)
    | none => (0, level)

/-! Quotes and references -/

/-- The text of a quoted line. -/
def quoted? (line : Run) : Option Run :=
  match line.drop line.indent with
  | g :: rest =>
    if line.indent < tabWidth && g.isChar '>' then
      some (if Run.startsWith ' ' rest then rest.drop 1 else rest)
    else none
  | [] => none

/-- A line of a quote without its mark. -/
def unquote (line : Run) : Run :=
  match line.strip.map Glyph.char? with
  | [some '>'] => []
  | _ => (quoted? line).getD line

/-- The definition of a reference: a label in brackets, a colon, a link and perhaps a title. -/
def referencePattern : Pattern Glyph :=
  let here (c : Char) : Pattern Glyph := .one (Glyph.isChar c)
  let blanks := Pattern.atLeast 0 (here ' ')
  let lineText := Pattern.atLeast 0 (.one (!Glyph.isChar '\n' ·))
  let lineStart : Pattern Glyph := .alt .start (.behind true (Glyph.isChar '\n'))
  let lineEnd : Pattern Glyph := .alt .stop (.ahead true (here '\n'))
  let quoteMark : Pattern Glyph := .one (Glyph.isOf fun c ↦ c == '"' || c == '\'')
  let quotedTitle := Pattern.chain [.group 4 quoteMark, .group 5 lineText, .again 4, blanks]
  let bracedTitle := Pattern.chain [here '(', .group 6 lineText, here ')', blanks]
  Pattern.chain
    [lineStart, Pattern.between 0 3 (here ' '), here '[',
      .group 1 (Pattern.atLeast 0 (.one (!Glyph.isOf (fun c ↦ c == '[' || c == ']') ·))),
      here ']', here ':', blanks, Pattern.perhaps (here '\n'), blanks,
      .group 2 (Pattern.atLeast 1 (.one (!Glyph.isBlank ·))), blanks,
      Pattern.perhaps (.seq (here '\n') blanks), Pattern.perhaps (.alt quotedTitle bracedTitle),
      lineEnd]

/-- The reference a block defines, with the text before and behind it. -/
def reference? (block : Run) : Option (Run × (List Char × Reference) × Run) :=
  match Pattern.find? Glyph.sameChar referencePattern [] block with
  | some (before, found) =>
    let part (label : Nat) : Run := (found.group label).getD []
    let label := Run.chars? ((part 1).strip)
    let link := Text.stripEnd (Glyph.isChar '>') ((part 2).dropWhile (Glyph.isChar '<'))
    let title := if (part 5).isEmpty then part 6 else part 5
    some (before.reverse, (Text.lowerAll (label.getD []),
      ⟨link, if title.isEmpty then none else some title⟩), found.rest)
  | none => none

/-- The references a block defines one right behind the other, with the text before and behind. -/
def references? (block : Run) : Option (Run × References × Run) :=
  (reference? block).map fun (before, reference, after) ↦
    let (more, after) := further block.length after
    (before, more ++ [reference], after)
where
  /-- The references at the start of a text, and what follows. -/
  further : Nat → Run → References × Run
    | 0, text => ([], text)
    | fuel + 1, text =>
      match reference? (text.dropWhile (Glyph.isChar '\n')) with
      | some ([], reference, after) =>
        let (more, after) := further fuel after
        (more ++ [reference], after)
      | _ => ([], text)

/-! Paragraphs -/

/-- Adds a line of text to an item of a tight list, behind its children. -/
def addToItem (item : Element) (block : Run) : Element :=
  match item.lastChild? with
  | some last => item.setLast (last.withTail (last.tail ++ .char '\n' :: block))
  | none =>
    if item.text.isEmpty then item.withText block.dropBlanks
    else item.withText (item.text ++ .char '\n' :: block.dropBlanks)

/-- Adds a paragraph. -/
def addParagraph (context : Context) (parent : Element) (block : Run) : Element :=
  if !block.hasInk then parent
  else if context == .item then addToItem parent block
  else parent.push (Element.leaf "p" block.dropBlanks)

/-! All blocks -/

/-- Lines as a block, if there are any with something in them. -/
def blockOf (ls : List Run) : List Run :=
  let text := Run.ofLines ls
  if text.isEmpty then [] else [text]

/-- Changes the last child by a reader. -/
def readLast (change : Element → StateM References Element) (parent : Element) :
    StateM References Element :=
  match parent.lastChild? with
  | some last => return parent.setLast (← change last)
  | none => return parent

/-- Changes the element so many steps down to the last child by a reader. -/
def readDeep (change : Element → StateM References Element) :
    Nat → Element → StateM References Element
  | 0, e => change e
  | n + 1, e => readLast (readDeep change n) e

/-- Whether a block belongs to the item or list before it. -/
def continuesList (context : Context) (parent : Element) (block : Run) : Bool :=
  isNested block && context != .detached &&
    (parent.isItem || parent.lastChild?.any Element.isList)

/-- Reads blocks into a parent. -/
def read (dialect : Dialect) : Nat → Context → Element → List Run → StateM References Element
  | 0, _, parent, _ => pure parent
  | _, _, parent, [] => pure parent
  | fuel + 1, context, parent, block :: blocks => do
    let next := read dialect fuel context
    match block with
    | [] => next (extendCode parent (Run.ofString "\n\n")) blocks
    | first :: rest =>
    if first.isChar '\n' then
      next (extendCode parent [.char '\n']) (if rest.isEmpty then blocks else rest :: blocks)
    else if continuesList context parent block then
      next (← readNested fuel context parent block) blocks
    else if isNested block then
      let (parent, others) := addCode parent block
      next parent (if others.isEmpty then blocks else others :: blocks)
    else
    let table := if dialect == .full then Table.shape? block else none
    match table with
    | some shape => next (parent.push (Table.build shape block)) blocks
    | none =>
    match splitAtLine? heading? block.lines with
    | some (before, (rank, words), after) =>
      let parent ← read dialect fuel context parent (blockOf before)
      let after := (blockOf after).map fun text ↦
        if context == .looseItem then dedentAll 1 text else text
      next (parent.push (headingElement rank words)) (after ++ blocks)
    | none =>
    match block.lines, (block.lines[1]?).bind underlineRank? with
    | words :: _ :: after, some rank =>
      let after := if after.isEmpty then [] else [Run.ofLines after]
      next (parent.push (headingElement rank words.strip)) (after ++ blocks)
    | _, _ =>
    match splitAtLine? (fun line ↦ if isRule line then some () else none) block.lines with
    | some (before, _, after) =>
      let before := Text.stripEnd (Glyph.isChar '\n') (Run.ofLines before)
      let after := (Run.ofLines after).dropWhile (Glyph.isChar '\n')
      let parent ← read dialect fuel context parent (if before.isEmpty then [] else [before])
      next (parent.push (Element.bare "hr")) (if after.isEmpty then blocks else after :: blocks)
    | none =>
    match item? (block.lines.headD []) with
    | some (bullet, _) => next (← readList fuel parent bullet block) blocks
    | none =>
    match splitAtLine? quoted? block.lines with
    | some (before, _, _) =>
      let parent ← read dialect fuel context parent [Run.ofLines before]
      let lines := (block.lines.drop before.length).map unquote
      let text := Run.ofLines (if before.isEmpty then lines else [] :: lines)
      let readQuote := fun (quote : Element) ↦ read dialect fuel .quote quote (chunks text)
      if parent.lastChild?.any (·.tag == "blockquote") then
        next (← readLast readQuote parent) blocks
      else next (parent.push (← readQuote (Element.bare "blockquote"))) blocks
    | none =>
    match references? block with
    | some (before, found, after) =>
      modify (found ++ ·)
      let before := if before.hasInk then [Text.stripEnd (Glyph.isChar '\n') before] else []
      let after := if after.hasInk then [after.dropWhile (Glyph.isChar '\n')] else []
      next parent (before ++ after ++ blocks)
    | none => next (addParagraph context parent block) blocks
where
  /-- Reads a block that is part of the list before it. -/
  readNested (fuel : Nat) (context : Context) (parent : Element) (block : Run) :
      StateM References Element := do
    let (depth, level) :=
      nesting (block.indent / tabWidth) fuel (if context == .item then 1 else 0) parent
    let text := dedentAll level block
    let inside := fun (blocks : List Run) (e : Element) ↦ read dialect fuel .detached e blocks
    if parent.isItem then
      if parent.lastChild?.any Element.isList then readLast (inside [text]) parent
      else inside [text] parent
    else
      readDeep (fun e ↦ do
        if e.isItem then inside [text] e
        else if e.lastChild?.any Element.isItem then
          readLast (fun item ↦ inside (chunks text) (wrapText item)) e
        else return e.push (← inside [text] (Element.bare "li"))) depth parent
  /-- Reads the items of a list block into the list before it or a new one. -/
  readList (fuel : Nat) (parent : Element) (bullet : Bullet) (block : Run) :
      StateM References Element := do
    let all := items dialect bullet.tag block
    let newItem := fun (context : Context) (text : Run) ↦
      read dialect fuel context (Element.bare "li") [text]
    let addAll := fun (list : Element) (texts : List Run) ↦
      texts.foldlM (fun list text ↦ do
        if isNested text then readLast (fun item ↦ read dialect fuel .item item [text]) list
        else return list.push (← newItem .item text)) list
    match parent.lastChild?, all with
    | some last, first :: others =>
      if last.isList && joins dialect bullet.tag last.tag then
        let list := Element.modifyLast (fun item ↦ wrapTail (wrapText item)) 1 last
        let list := list.push (← newItem .looseItem first)
        return parent.setLast (← addAll list others)
      else if parent.isList then addAll parent all
      else return parent.push (← addAll (newList dialect bullet) all)
    | _, _ =>
      if parent.isList then addAll parent all
      else return parent.push (← addAll (newList dialect bullet) all)

/-- Reads the lines of a page: its tree and its references. -/
def readPage (dialect : Dialect) (lines : List Run) : Element × References :=
  let text := Run.ofLines lines
  (read dialect (6 * text.length + 24) .page (Element.bare "div") (chunks text)).run []

end Block
end Guidebook.Markdown
