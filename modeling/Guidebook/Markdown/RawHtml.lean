import Guidebook.Markdown.HtmlPiece

/-!
# HTML in pages

A page may hold HTML. A block element that starts a line is set aside as finished HTML, with all up
to its end tag, before blocks are read; an element that never ends takes the rest of the page. Tags
elsewhere stay where they are.

A page is read in two rounds. The first stops at a piece that does not end, the second reads what is
left and takes such pieces for text. Where lines start is noted when it is first asked for, counted
in what the round at hand reads.
-/

namespace Guidebook.Markdown.RawHtml

/-- How far a page has been searched for HTML. -/
structure Search where
  /-- What the round reads. -/
  page : List Char
  /-- The number of line feeds read. -/
  line : Nat
  /-- The characters before on the line. -/
  column : Nat
  /-- Where the lines start, as far as that is known. -/
  lineStarts : Array Nat
  /-- Whether an element is being set aside. -/
  inside : Bool
  /-- Whether the line goes on behind an element that was set aside. -/
  inTail : Bool
  /-- The open elements, the innermost first. -/
  stack : List String
  /-- The open element whose text holds no markup. -/
  holder : Option String
  /-- What is being set aside. -/
  cache : List Char
  /-- The page so far, piece by piece, the newest first. -/
  output : List Run

/-- A search under way. -/
abbrev Searching := StateM Search

/-- Nothing searched yet. -/
def Search.start (page : List Char) : Search := ⟨page, 0, 0, #[0], false, false, [], none, [], []⟩

/-- Reads some more characters. -/
def advance (cs : List Char) : Searching Unit :=
  modify fun s ↦
    let feeds := (cs.filter (· == '\n')).length
    if feeds == 0 then { s with column := s.column + cs.length }
    else
      { s with
        line := s.line + feeds, column := (cs.reverse.takeWhile (· != '\n')).length }

/-- Where the line at hand starts. -/
def lineStart : Searching Nat :=
  modifyGet fun s ↦
    let starts := (List.range (s.line + 1 - s.lineStarts.size)).foldl (fun starts _ ↦
      let last := starts.back?.getD 0
      starts.push (match HtmlPiece.lengthTo? ['\n'] (s.page.drop last) with
        | some n => last + n + 1
        | none => s.page.length + 1)) s.lineStarts
    (starts[s.line]?.getD 0, { s with lineStarts := starts })

/-- What is noted to stand at the place at hand. -/
def here : Searching (List Char) := do
  let start ← lineStart
  let s ← get
  return s.page.drop (start + s.column)

/-- Whether a block may start here. -/
def atLineStart : Searching Bool := do
  let s ← get
  if s.column == 0 then return true
  else if 3 < s.column then return false
  else
    let start ← lineStart
    return !Text.hasInk ((s.page.drop start).take s.column)

/-- Adds text to the page. -/
def emit (text : Run) : Searching Unit := modify fun s ↦ { s with output := text :: s.output }

/-- Adds characters to what is being set aside. -/
def keep (cs : List Char) : Searching Unit := modify fun s ↦ { s with cache := s.cache ++ cs }

/-- Text. -/
def words (cs : List Char) : Searching Unit := do
  if cs.contains '\n' then modify fun s ↦ { s with inTail := false }
  if (← get).inside then keep cs else emit (Run.ofChars cs)

/-- Whether a text starts with two lines of blanks. -/
def startsBlank (cs : List Char) : Bool :=
  match cs.dropWhile (· == ' ') with
  | '\n' :: rest => (rest.dropWhile (· == ' ')).head? == some '\n'
  | _ => false

/-- Something without content, which may be a block of its own. -/
def other (isBlock : Bool) (kept : List Char) : Searching Unit := do
  let s ← get
  if s.inside || s.inTail then keep kept
  else if (← atLineStart) && isBlock then
    let endsApart := startsBlank ((← here).drop kept.length)
    if !endsApart then modify fun s ↦ { s with inTail := true }
    let ends := (s.output.headD []).reverse.takeWhile (Glyph.isChar '\n')
    if ends.length == 1 then emit [.char '\n']
    emit [.raw (kept ++ (if endsApart then ['\n'] else []))]
    emit (Run.ofString "\n\n")
  else emit (Run.ofChars kept)

/-- Elements whose text holds no markup. -/
def isHolder (tag : String) : Bool := ["script", "style"].contains tag

/-- A start tag with the text it is written as. -/
def openTag (tag : String) (written : List Char) : Searching Unit := do
  if isHolder tag then modify fun s ↦ { s with holder := some tag }
  if tag == "hr" then other (isBlockTag tag) written
  else
    if isBlockTag tag then
      if (← pure (← get).inTail <||> atLineStart) then
        modify fun s ↦ { s with inside := true }
        emit [.char '\n']
    if (← get).inside then
      modify fun s ↦ { s with stack := tag :: s.stack }
      keep written
    else
      emit (Run.ofChars written)
      if isHolder tag then modify fun s ↦ { s with holder := none }

/-- An end tag with the text it is written as. -/
def closeTag (tag : String) : Searching Unit := do
  let rest ← here
  let written := match HtmlPiece.lengthTo? ['>'] rest with
    | some n => rest.take (n + 1)
    | none => "</".toList ++ tag.toList ++ ['>']
  if !(← get).inside then emit (Run.ofChars written)
  else
    keep written
    modify fun s ↦ { s with
      stack := if s.stack.contains tag then (s.stack.dropWhile (· != tag)).drop 1 else s.stack }
    if (← get).stack.isEmpty then
      if startsBlank ((← here).drop written.length) then keep ['\n']
      else modify fun s ↦ { s with inTail := true }
      modify fun s ↦ { s with inside := false }
      emit [.raw (← get).cache]
      emit (Run.ofString "\n\n")
      modify fun s ↦ { s with cache := [] }

/-- Whether the last piece leaves a blank line, if there is any. -/
def isApart : Searching Bool := do
  return (← get).output.head?.all fun last ↦
    last.reverse.take 2 |>.map Glyph.char? |> (· == [some '\n', some '\n'])

/-- Takes a piece with the text it is written as. -/
def take (piece : HtmlPiece) (written : List Char) : Searching Unit := do
  match piece with
  | .words => words written
  | .opening tag => openTag tag written
  | .lone tag => other (isBlockTag tag) written
  | .closing tag exact =>
    closeTag tag
    if exact then modify fun s ↦ { s with holder := none }
  | .comment kept => other (← isApart) kept
  | .other isBlock kept => other isBlock kept

/-- The text before the next piece, if there is one. -/
def textBefore? (holder : Option String) : List Char → Option (List Char)
  | [] => none
  | c :: rest =>
    let found := match holder with
      | some tag =>
        Text.startsWith "</".toList (c :: rest) && HtmlPiece.exactName? (c :: rest) == some tag
      | none => c == '<' || c == '&'
    if found then some [] else (textBefore? holder rest).map (c :: ·)

/-- Reads a page, and leaves what the round does not read. -/
def round (isLast : Bool) : Nat → List Char → Searching (List Char)
  | 0, cs => return cs
  | _, [] => return []
  | fuel + 1, cs => do
    let holder := (← get).holder
    match textBefore? holder cs with
    | none =>
      if holder.isSome then return cs
      else
        words cs
        advance cs
        return []
    | some text =>
      if !text.isEmpty then words text
      advance text
      let cs := cs.drop text.length
      let asksPlace := Text.startsWith "<?".toList cs || Text.startsWith "<!".toList cs
      let isComment := Text.startsWith "<!--".toList cs
      let mayBeBlock ← if asksPlace && !isComment then
          (do if ← atLineStart then return true else return (← get).inTail)
        else pure false
      match HtmlPiece.found holder mayBeBlock cs with
      | .piece p n =>
        let written := cs.take n
        take p written
        advance written
        round isLast fuel (cs.drop n)
      | .unfinished =>
        if !isLast then return cs
        else
          let n := HtmlPiece.unfinishedLength cs
          words (cs.take n)
          advance (cs.take n)
          round isLast fuel (cs.drop n)
      | .last n =>
        if n != 0 then words (cs.take n)
        advance (cs.take n)
        return cs.drop n

/-- The lines of a page with its HTML set aside. -/
def setAside (text : List Char) : List Run :=
  let search : Searching Unit := do
    let rest ← round false (text.length + 1) text
    modify fun s ↦ { s with page := rest }
    let rest ← round true (rest.length + 1) rest
    if !rest.isEmpty then words rest
    let s ← get
    if !s.cache.isEmpty then emit [.raw s.cache]
  Run.lines (search.run (Search.start text)).2.output.reverse.flatten

end Guidebook.Markdown.RawHtml
