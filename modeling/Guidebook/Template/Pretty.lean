import Guidebook.Template.Sort
import Guidebook.Text.Search

/-!
# Values on several lines

A value as it is written, broken at its items and the blanks of its texts where it is wider than a
line.
-/

namespace Guidebook.Template.Value

/-- The width of a line. -/
def lineWidth : Int := 80

/-- The order of keys: as they compare, or by their kinds if they do not. -/
def keyBefore (a b : Value) : Result Bool :=
  match before a b with
  | .ok result => .ok result
  | .error _ => .ok (Text.lessThan a.kind.toList b.kind.toList)

/-- Fields in the order of their keys. -/
def sortedFields (fields : List (Value × Value)) : List (Value × Value) :=
  match sortItems (fun a b : Value × Value ↦ keyBefore a.1 b.1) fields with
  | .ok sorted => sorted
  | .error _ => fields

/-- A value with the fields of all its records in order. -/
def withSortedFields : Nat → Value → Value
  | 0, value => value
  | fuel + 1, value =>
    match value with
    | list items => list (items.map (withSortedFields fuel))
    | tuple items => tuple (items.map (withSortedFields fuel))
    | record fields =>
      record ((sortedFields fields).map fun (key, field) ↦ (key, withSortedFields fuel field))
    | value => value

/-- The runs of a line: what is not blank with the blanks behind it. -/
def blankRuns : Nat → List Char → List (List Char)
  | 0, _ => []
  | _, [] => []
  | fuel + 1, cs =>
    let word := cs.takeWhile (!Text.isBlank ·)
    let gap := (cs.drop word.length).takeWhile Text.isBlank
    (word ++ gap) :: blankRuns fuel (cs.drop (word.length + gap.length))

/-- A text as it is written. -/
def writtenText (cs : List Char) : List Char := (Text.quoted (String.ofList cs)).toList

/-- The pieces of a line that fit a width, from the runs it consists of; the last one leaves room
for what follows. -/
def fitRuns (width lastWidth : Int) (current : List Char) : List (List Char) → List (List Char)
  | [] => if current.isEmpty then [] else [writtenText current]
  | run :: rest =>
    let width' := if rest.isEmpty then lastWidth else width
    let candidate := current ++ run
    if width' < (writtenText candidate).length then
      (if current.isEmpty then [] else [writtenText current]) ++ fitRuns width lastWidth run rest
    else fitRuns width lastWidth candidate rest

/-- The pieces of the lines of a text that fit a width. -/
def fitLines (width allowance : Int) : List (List Char) → List (List Char)
  | [] => []
  | [line] =>
    let written := writtenText line
    if written.length ≤ width - allowance then [written]
    else fitRuns width (width - allowance) [] (blankRuns line.length line)
  | line :: rest =>
    let written := writtenText line
    (if written.length ≤ width then [written]
      else fitRuns width width [] (blankRuns line.length line)) ++ fitLines width allowance rest

/-- A text on several lines. -/
def prettyText (cs : List Char) (indent allowance : Int) (level : Nat) : List Char :=
  let outer := level == 1
  let (indent, allowance) := if outer then (indent + 1, allowance + 1) else (indent, allowance)
  let lines := (Text.linesWithEnds cs).map fun (line, ending) ↦ line ++ ending
  match fitLines (lineWidth - indent) allowance lines with
  | [] => writtenText cs
  | [piece] => piece
  | pieces =>
    let joined := Text.joinWith ('\n' :: List.replicate indent.toNat ' ') pieces
    if outer then '(' :: joined ++ [')'] else joined

/-- A value on several lines. `indent` is the column it starts in, `allowance` the room that what
follows it on its last line takes. -/
def prettyFrom : Nat → Value → (indent allowance : Int) → (level : Nat) → List Char
  | 0, value, _, _, _ => value.showInside
  | fuel + 1, value, indent, allowance, level =>
    let written := value.showInside
    let inner := indent + 1
    let separator := ',' :: '\n' :: List.replicate inner.toNat ' '
    let broken := fun (items : List Value) (behind : Int) ↦
      let last := items.length - 1
      Text.joinWith separator (items.zipIdx.map fun (item, n) ↦
        prettyFrom fuel item inner (if n == last then behind else 1) (level + 1))
    if written.length ≤ lineWidth - indent - allowance then written
    else match value with
      | text [] => written
      | text cs => prettyText cs indent allowance (level + 1)
      | list items => '[' :: broken items (allowance + 1) ++ [']']
      | tuple [item] => '(' :: broken [item] (allowance + 2) ++ [',', ')']
      | tuple items => '(' :: broken items (allowance + 1) ++ [')']
      | record fields =>
        let last := fields.length - 1
        '\x7b' :: Text.joinWith separator (fields.zipIdx.map fun ((key, field), n) ↦
          let name := key.showInside
          name ++ [':', ' '] ++ prettyFrom fuel field (inner + name.length + 2)
            (if n == last then allowance + 1 else 1) (level + 1)) ++ ['\x7d']
      | _ => written

/-- How deep the items of a value are looked into. -/
def prettyDepth : Nat := 900

/-- A value on several lines. -/
def pretty (value : Value) : List Char :=
  prettyFrom prettyDepth (withSortedFields prettyDepth value) 0 0 0

end Guidebook.Template.Value
