import Guidebook.Markdown.CodeBlock
import Guidebook.Markdown.Element

/-!
# Page source

The lines of a page before blocks are read: one kind of line ending, blanks for tabulators, empty
lines that are empty, and fenced code already set aside as finished HTML. Before that, fences are
brought into one form: a fence starts its line, and a label after a comma, as in a language with
options, is dropped. Both rules look at one line at a time.
-/

namespace Guidebook.Markdown

/-! ## Fence lines -/

/-- A character fences are made of. -/
def isFenceMark (c : Char) : Bool := c == '`' || c == '~'

/-- A character of a language's name. -/
def isLabelChar (c : Char) : Bool :=
  Text.isLetter c || Text.isDigit c || ['_', '+', '#', '.', '-'].contains c

/-- The shortest fence. -/
def fenceLength : Nat := 3

/-- A line without the one to three blanks before a fence. -/
def dropFenceIndent (line : List Char) : List Char :=
  let indent := line.takeWhile (· == ' ')
  let rest := line.dropWhile (· == ' ')
  if 1 ≤ indent.length && indent.length ≤ 3 && fenceLength ≤ (rest.takeWhile isFenceMark).length
  then rest else line

/-- A fence line without what follows the comma after its language. -/
def dropFenceLabel (line : List Char) : List Char :=
  let fence := line.takeWhile isFenceMark
  let rest := line.dropWhile isFenceMark
  let language := rest.takeWhile isLabelChar
  match rest.dropWhile isLabelChar with
  | ',' :: c :: label =>
    if fenceLength ≤ fence.length && !(c :: label).contains '\r' then fence ++ language else line
  | _ => line

/-- One line in the form pages are read in. -/
def normalizeLine (line : List Char) : List Char := dropFenceLabel (dropFenceIndent line)

/-- A text in the form pages are read in. -/
def normalizeFences (text : List Char) : List Char :=
  Text.joinWith ['\n'] ((Text.splitOnChar '\n' text).map normalizeLine)

/-! ## Source lines -/

/-- The distance between tabulator stops, and the indent of a nested block. -/
def tabWidth : Nat := 4

/-- Blanks in place of tabulators, given the column. -/
def expandTabs (column : Nat) : List Char → List Char
  | [] => []
  | '\t' :: rest =>
    let width := tabWidth - column % tabWidth
    List.replicate width ' ' ++ expandTabs 0 rest
  | '\n' :: rest => '\n' :: expandTabs 0 rest
  | c :: rest => c :: expandTabs (column + 1) rest

/-- The lines of a page. All but the first lose their blanks if they hold nothing else. -/
def sourceLines (text : List Char) : List (List Char) :=
  let plain := text.filter fun c ↦ c != '\x02' && c != '\x03'
  let spaced := expandTabs 0 (Text.universalNewlines plain ++ ['\n', '\n'])
  match Text.splitOnChar '\n' spaced with
  | [] => []
  | first :: rest => first :: rest.map fun line ↦ if line.all (· == ' ') then [] else line

/-- The fence a line opens and what it says behind it. -/
def openingFence? (line : List Char) : Option (List Char × List Char) :=
  match line with
  | c :: _ =>
    let fence := line.takeWhile (· == c)
    if isFenceMark c && fenceLength ≤ fence.length then
      some (fence, (line.drop fence.length).dropWhile (· == ' '))
    else none
  | [] => none

/-- Whether a line closes a fence. -/
def closesFence (fence line : List Char) : Bool :=
  match Text.dropPrefix? fence line with
  | some rest => rest.all (· == ' ')
  | none => false

/-- A value between quotes and what follows it. -/
def quotedValue? : List Char → Option (List Char × List Char)
  | q :: inner =>
    if q == '"' || q == '\'' then
      match Text.partitionAt q inner with
      | (value, true, after) => some (Text.stripBy (· == q) value, after)
      | _ => none
    else none
  | [] => none

/-- A character of a word in braces. -/
def isWordInBraces (c : Char) : Bool := c != ' ' && c != '=' && c != '}'

/-- The words in the braces of a fence as names with values; none if they do not end at its last
brace. A word without value stands for itself, a class and an identifier for what they name. -/
def braceWords? : Nat → List Char → Option (List (List Char × List Char))
  | 0, _ => none
  | _, [] => some []
  | fuel + 1, c :: rest =>
    if c == ' ' then braceWords? fuel rest
    else if !isWordInBraces c then if (c :: rest).contains '}' then none else some []
    else
      let key := c :: rest.takeWhile isWordInBraces
      let after := rest.dropWhile isWordInBraces
      let valued? := match after with
        | '=' :: value =>
          (quotedValue? value).orElse fun _ ↦
            if value.head?.any isWordInBraces then
              some (value.takeWhile isWordInBraces, value.dropWhile isWordInBraces)
            else none
        | _ => none
      match valued? with
      | some (value, after) => (braceWords? fuel after).map ((key, value) :: ·)
      | none =>
        let word := match key with
          | '.' :: name => (['.'], name)
          | '#' :: name => ("id".toList, name)
          | _ => (key, key)
        (braceWords? fuel after).map (word :: ·)

/-- What the words in the braces of a fence say of its block. -/
def FenceInfo.ofWords (words : List (List Char × List Char)) : FenceInfo :=
  let id := "id".toList
  let classes := (words.filter (·.1 == ['.'])).map (·.2)
  let settings := words.filter fun (key, _) ↦ key != ['.'] && key != id
  ⟨(List.lookup id words.reverse).getD [], classes.head?, classes.drop 1,
    settings.map fun (key, value) ↦ (String.ofList key, String.ofList value)⟩

/-- The lines behind a quoted list of marked lines, which may go on over several lines. -/
def behindMarkedLines? (q : Char) : List (List Char) → Option (List (List Char))
  | [] => none
  | line :: rest =>
    if (Text.stripEnd (· == ' ') line).getLast? == some q then some rest
    else behindMarkedLines? q rest

/-- The lines of a block behind its opening line, given what follows its language. -/
def blockLines? (info : List Char) (rest : List (List Char)) : Option (List (List Char)) :=
  match Text.dropPrefix? "hl_lines=".toList info with
  | some (q :: value) =>
    if q == '"' || q == '\'' then behindMarkedLines? q (value :: rest) else none
  | some [] => none
  | none => if info.isEmpty then some rest else none

/-- What the opening line of a fenced block says, with the lines behind it; nothing if the line
opens no block. -/
def fenceInfo? (info : List Char) (rest : List (List Char)) :
    Option (FenceInfo × List (List Char)) :=
  match info with
  | '\x7b' :: inner =>
    match inner.reverse with
    | '\x7d' :: inside =>
      (braceWords? (inside.length + 1) inside.reverse).map fun words ↦
        (FenceInfo.ofWords words, rest)
    | _ => none
  | _ =>
    let isName := fun (c : Char) ↦ Text.isWordChar c || ['#', '.', '+', '-'].contains c
    let behindName := (info.dropWhile isName).dropWhile (· == ' ')
    let language := Text.dropPrefix? ['.'] info |>.getD info |>.takeWhile isName
    match blockLines? behindName rest, blockLines? info rest with
    | some code, _ => some (⟨[], some language, [], []⟩, code)
    | none, some code => some (FenceInfo.plain, code)
    | none, none => none

/-- The lines of a block up to its closing fence and the lines behind it. -/
def untilFence? (fence : List Char) :
    List (List Char) → Option (List (List Char) × List (List Char))
  | [] => none
  | line :: rest =>
    if closesFence fence line then some ([], rest)
    else (untilFence? fence rest).map fun (code, after) ↦ (line :: code, after)

/-- Sets fenced code aside: each block is a line of its own between empty lines. -/
def setFencesAside (style : String) : Nat → List (List Char) → Except Code.Problem (List Run)
  | 0, ls => .ok (ls.map Run.ofChars)
  | _, [] => .ok []
  | fuel + 1, line :: rest =>
    let block? := do
      let (fence, info) ← openingFence? line
      let (info, inside) ← fenceInfo? info rest
      let (code, after) ← untilFence? fence inside
      pure (info, code.flatMap (· ++ ['\n']), after)
    match block? with
    | some (info, code, after) => do
      let html ← fencedCode style info code
      let rest ← setFencesAside style fuel after
      pure ([] :: [.raw html] :: [] :: rest)
    | none => do
      let rest ← setFencesAside style fuel rest
      pure (Run.ofChars line :: rest)

end Guidebook.Markdown
