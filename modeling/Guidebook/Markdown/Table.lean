import Guidebook.Markdown.Element

/-!
# Tables

A table is a header row, a row of dashes and colons with as many cells, and rows of cells between
bars. A bar inside code or behind a backslash separates nothing.
-/

namespace Guidebook.Markdown.Table

/-- What a row is read by: a bar, or a run of backticks, each with its place. -/
inductive Mark where
  | bar (place : Nat)
  /-- Backticks with a backslash before them or not; the places of their first and last glyph. -/
  | ticks (count : Nat) (escaped : Bool) (first last : Nat)

/-- The marks of a row. -/
def marks : Nat → Nat → Run → List Mark
  | 0, _, _ => []
  | _, _, [] => []
  | fuel + 1, place, g :: rest =>
    let ticksOf := fun (text : Run) ↦ (text.takeWhile (Glyph.isChar '`')).length
    if g.isChar '\\' then
      if rest.head?.any (Glyph.isChar '\\') then marks fuel (place + 2) (rest.drop 1)
      else if rest.head?.any (Glyph.isChar '`') then
        let n := ticksOf rest
        .ticks n true place (place + n) :: marks fuel (place + n + 1) (rest.drop n)
      else if rest.head?.any (Glyph.isChar '|') then marks fuel (place + 2) (rest.drop 1)
      else marks fuel (place + 1) rest
    else if g.isChar '`' then
      let n := ticksOf rest + 1
      .ticks n false place (place + n - 1) :: marks fuel (place + n) (rest.drop (n - 1))
    else if g.isChar '|' then .bar place :: marks fuel (place + 1) rest
    else marks fuel (place + 1) rest

/-- The stretches of code among marks: each run of backticks is closed by the next of its length. A
backslash takes one backtick from the run that opens. -/
def codeStretches : Nat → List Mark → List (Nat × Nat)
  | 0, _ => []
  | _, [] => []
  | fuel + 1, .bar _ :: rest => codeStretches fuel rest
  | fuel + 1, .ticks count escaped first _ :: rest =>
    let size := if escaped then count - 1 else count
    let closes := fun (m : Mark) ↦
      match m with
      | .ticks n _ _ _ => n == size
      | .bar _ => false
    match size, rest.dropWhile (!closes ·) with
    | _ + 1, .ticks _ _ _ last :: after => (first, last) :: codeStretches fuel after
    | _, _ => codeStretches fuel rest

/-- A row cut at some places, the glyphs at the places left out. -/
def cutAt : Nat → List Nat → Run → List Run
  | _, [], row => [row]
  | here, place :: places, row =>
    row.take (place - here) :: cutAt (place + 1) places (row.drop (place + 1 - here))

/-- The cells of a row without its border. -/
def cells (row : Run) : List Run :=
  let found := marks row.length 0 row
  let code := codeStretches found.length found
  let bars := found.filterMap fun m ↦
    match m with
    | .bar place =>
      if code.any fun (first, last) ↦ first ≤ place && place ≤ last then none else some place
    | .ticks .. => none
  cutAt 0 bars row

/-- The row without the bar at its end and the pairs of backslashes before it, if it ends so. -/
def withoutEndBar? (row : Run) : Option Run :=
  match row.reverse with
  | g :: rest =>
    let slashes := (rest.takeWhile (Glyph.isChar '\\')).length
    if g.isChar '|' && slashes % 2 == 0 then some (rest.drop slashes).reverse else none
  | [] => none

/-- The cells of a row in a table whose rows have borders or not. -/
def rowCells (bordered : Bool) (row : Run) : List Run :=
  if bordered then
    let row := if row.startsWith '|' then row.drop 1 else row
    cells ((withoutEndBar? row).getD row)
  else cells row

/-- A line without the blanks around it. -/
def trim (line : Run) : Run := Text.stripBy (Glyph.isChar ' ') line

/-- Where the text of a column stands. -/
inductive Alignment where
  | unset | left | center | right
  deriving DecidableEq, Repr

/-- The alignment a cell of dashes and colons asks for. -/
def alignment (cell : Run) : Alignment :=
  let cell := trim cell
  match cell.startsWith ':', Run.startsWith ':' cell.reverse with
  | true, true => .center
  | true, false => .left
  | false, true => .right
  | false, false => .unset

/-- The style of a cell. -/
def Alignment.style? : Alignment → Option String
  | .unset => none
  | .left => some "text-align: left;"
  | .center => some "text-align: center;"
  | .right => some "text-align: right;"

/-- The shape of a table: whether its rows have borders, and the alignments of its columns. -/
structure Shape where
  bordered : Bool
  columns : List Alignment

/-- Whether a row begins or ends with a bar. -/
def hasBorder (row : Run) : Bool := row.startsWith '|' || (withoutEndBar? row).isSome

/-- The shape of the table a block is, if it is one. -/
def shape? (block : Run) : Option Shape :=
  match block.lines.map trim with
  | header :: separator :: rows =>
    let bordered := hasBorder header
    let width := (rowCells bordered header).length
    let dashes := rowCells bordered separator
    let isTable :=
      1 < width || (width == 1 && bordered && (separator :: rows).all hasBorder)
    if isTable && dashes.length == width &&
        dashes.flatten.all (Glyph.isOf fun c ↦ ['|', ':', '-', ' '].contains c)
    then some ⟨bordered, dashes.map alignment⟩ else none
  | _ => none

/-- A cell of a table. -/
def cell (tag : String) (text : Run) (column : Alignment) : Element :=
  let e := Element.leaf tag text
  match column.style? with
  | some style => e.withAttribute "style" (Run.ofString style)
  | none => e

/-- The cells of a row, one for each column. -/
def fillRow (tag : String) : List Run → List Alignment → List Element
  | _, [] => []
  | [], column :: columns => cell tag [] column :: fillRow tag [] columns
  | text :: texts, column :: columns => cell tag (trim text) column :: fillRow tag texts columns

/-- A row of a table. -/
def row (shape : Shape) (tag : String) (line : Run) : Element :=
  (Element.bare "tr").withChildren (fillRow tag (rowCells shape.bordered (trim line)) shape.columns)

/-- The table a block is. A table without rows has an empty one. -/
def build (shape : Shape) (block : Run) : Element :=
  let lines := block.lines
  let head := row shape "th" (lines.headD [])
  let body := match lines.drop 2 with
    | [] => [(Element.bare "tr").withChildren (shape.columns.map fun _ ↦ Element.bare "td")]
    | lines => lines.map (row shape "td")
  (Element.bare "table").withChildren
    [(Element.bare "thead").withChildren [head], (Element.bare "tbody").withChildren body]

end Guidebook.Markdown.Table
