import Guidebook.Markdown.Block

/-!
# Links

Links and images stand in the text as `[text](target "title")`, or refer to a definition of the
page as `[text][label]` or `[label]`. Brackets in the text and in the target may nest.
-/

namespace Guidebook.Markdown.Link

/-- The text up to the bracket that closes it, and what follows. -/
def bracketed? : Nat → Run → Option (Run × Run)
  | _, [] => none
  | depth, g :: rest =>
    if g.isChar ']' && depth == 0 then some ([], rest)
    else
      let depth := if g.isChar '[' then depth + 1 else if g.isChar ']' then depth - 1 else depth
      (bracketed? depth rest).map fun (inner, after) ↦ (g :: inner, after)

/-- Text with finished elements replaced by their words and held characters put back. -/
def flatten (text : Run) : Run := glyphWords text

/-- Text without a pair of quotes around it. -/
def unquoteTitle (text : Run) : Run :=
  let quoted := fun (q : Char) ↦ text.startsWith q && Run.startsWith q text.reverse
  if quoted '"' || quoted '\'' then (text.drop 1).dropLast else text

/-- A title: on one line, without quotes and blanks around it. -/
def cleanTitle (text : Run) : Run :=
  (unquoteTitle (flatten text.strip)).map fun g ↦ if g.isBlank then .char ' ' else g

/-- A target with its title. -/
structure Target where
  link : Run
  title : Option Run

/-- A quotation in a target: its mark, the place behind the opening one and, if it was closed, the
place behind the last closing one. -/
structure Quotation where
  mark : Char
  opened : Nat
  closed : Option Nat

/-- How far a target has been read. -/
structure Scan where
  /-- Open brackets. -/
  depth : Nat
  /-- Brackets still to be closed if the title turns out not to end. -/
  spare : Nat
  first : Option Quotation
  second : Option Quotation
  /-- The last character that is no blank. -/
  last : Option Char
  /-- The place behind the bracket that ends the target if the title does not end. -/
  fallback : Nat

/-- The place behind a quotation that ends with the last character read. -/
def Scan.endsWith (s : Scan) (q? : Option Quotation) : Bool :=
  q?.any fun q ↦ q.closed.isSome && s.last == some q.mark

/-- One more character of a target at a place. -/
def Scan.step (s : Scan) (place : Nat) (g : Glyph) : Scan :=
  let inTitle := s.first.isSome
  match g.char? with
  | some '(' =>
    if inTitle then { s with spare := s.spare - 1 } else { s with depth := s.depth + 1 }
  | some ')' =>
    if s.endsWith s.first || s.endsWith s.second then { s with depth := 0 }
    else if !inTitle then { s with depth := s.depth - 1 }
    else if s.spare == 0 then s
    else if s.spare == 1 then { s with spare := 0, fallback := place + 1 }
    else { s with spare := s.spare - 1 }
  | some c =>
    if c != '"' && c != '\'' then s
    else match s.first with
      | none => { s with first := some ⟨c, place + 1, none⟩, spare := s.depth, depth := 1 }
      | some q =>
        match s.second with
        | none =>
          if c == q.mark then { s with first := some { q with closed := some (place + 1) } }
          else { s with second := some ⟨c, place + 1, none⟩ }
        | some r =>
          if c == q.mark then { s with first := some { q with closed := some (place + 1) } }
          else if c == r.mark then { s with second := some { r with closed := some (place + 1) } }
          else s
  | none => s

/-- Reads a target up to the bracket that closes it; the place behind it. -/
def Scan.run (s : Scan) (place : Nat) : Run → Scan × Nat
  | [] => (s, place)
  | g :: rest =>
    let t := s.step place g
    if t.depth == 0 then (t, place + 1)
    else
      let last := if g.isChar ' ' then t.last else some (g.char?.getD '\x03')
      Scan.run { t with last } (place + 1) rest

/-- The part of a text between two places. -/
def slice (text : Run) (first last : Nat) : Run := (text.take last).drop first

/-- The target and title in brackets that a text opens with, and what follows. -/
def plainTarget? (text : Run) : Option (Target × Run) :=
  let (s, stop) := Scan.run ⟨1, 1, none, none, none, 0⟩ 0 text
  let titled (q : Quotation) : Target :=
    ⟨(flatten (text.take (q.opened - 1))).strip,
      some (cleanTitle (slice text q.opened (q.closed.getD 0 - 1)))⟩
  let bare (stop : Nat) : Target := ⟨(flatten (text.take (stop - 1))).strip, none⟩
  if s.depth == 0 then
    match s.first, s.second, s.endsWith s.first, s.endsWith s.second with
    | some q, _, true, _ => some (titled q, text.drop stop)
    | _, some q, _, true => some (titled q, text.drop stop)
    | _, _, _, _ => some (bare stop, text.drop stop)
  else if s.spare == 0 then some (bare s.fallback, text.drop s.fallback)
  else none

/-- The quoted title a text opens with, and what follows. -/
def quotedTitle? (text : Run) : Option (Run × Run) :=
  match text with
  | g :: rest =>
    if g.isChar '"' || g.isChar '\'' then
      match rest.dropWhile (!Glyph.sameChar g ·) with
      | _ :: after => some (rest.takeWhile (!Glyph.sameChar g ·), Run.dropBlanks after)
      | [] => none
    else none
  | [] => none

/-- The target in angle brackets and the title that a text opens with, up to the closing bracket. -/
def angledTarget? (text : Run) : Option (Target × Run) :=
  match text with
  | g :: rest =>
    let inside := rest.takeWhile fun g ↦ !g.isChar '<' && !g.isChar '>'
    match g.isChar '<', rest.drop inside.length with
    | true, h :: after =>
      if !h.isChar '>' then none
      else
        let after := Run.dropBlanks after
        let closed? := fun (title : Option Run) (text : Run) ↦
          match text with
          | g :: rest =>
            if g.isChar ')' then
              some (⟨Run.strip (flatten (Run.strip inside)), title.map cleanTitle⟩, rest)
            else none
          | [] => none
        match quotedTitle? after with
        | some (title, after) => closed? (some title) after
        | none => closed? none after
    | _, _ => none
  | [] => none

/-- The target behind the text of a link. -/
def target? (text : Run) : Option (Target × Run) :=
  match text with
  | g :: rest =>
    if g.isChar '(' then
      let inside := Run.dropBlanks rest
      (angledTarget? inside).or (plainTarget? inside)
    else none
  | [] => none

/-- A link to a target. -/
def linkElement (text : Run) (t : Target) : Element :=
  let e := (Element.leaf "a" text).withAttribute "href" t.link
  match t.title with
  | some title => e.withAttribute "title" title
  | none => e

/-- An image. -/
def imageElement (text : Run) (t : Target) : Element :=
  let e := (Element.bare "img").withAttribute "src" t.link
  let e := match t.title with
    | some title => e.withAttribute "title" title
    | none => e
  e.withAttribute "alt" (flatten text)

/-- The label behind the text of a link, with what follows it. -/
def label? (text : Run) : Option (Run × Run) :=
  let text := if text.head?.any Glyph.isBlank then text.drop 1 else text
  match text with
  | g :: rest =>
    let label := rest.takeWhile (!Glyph.isChar ']' ·)
    match g.isChar '[', rest.drop label.length with
    | true, _ :: after => some (label, after)
    | _, _ => none
  | [] => none

/-- A label with each stretch of white space made one blank. -/
def squeeze : List Char → List Char
  | [] => []
  | [c] => [if Text.isBlank c then ' ' else c]
  | c :: d :: rest =>
    if Text.isBlank c then
      if Text.isBlank d then squeeze (d :: rest) else ' ' :: squeeze (d :: rest)
    else c :: squeeze (d :: rest)

/-- What a label refers to. -/
def lookup? (references : References) (label : Run) : Option Target :=
  match Run.chars? label with
  | some cs =>
    (references.lookup (squeeze (Text.lowerAll cs))).map fun r ↦ ⟨r.link, r.title⟩
  | none => none

end Guidebook.Markdown.Link
