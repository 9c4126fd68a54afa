import Guidebook.Toml.Insert
import Guidebook.Toml.Scan

/-!
# Reading settings files

Lines of entries, then blocks that start with a header. Definitions that clash make the file
malformed when they meet at its top level; inside a block or between braces the clash itself is
the fault.
-/

namespace Guidebook.Toml

/-- Skips white space, line ends and comments. -/
def skipFiller (fuel : Nat) (cs : List Char) : Except Fault (List Char) :=
  match fuel, cs.dropWhile isSpaceOrNewline with
  | fuel + 1, '#' :: rest => do skipFiller fuel (← readComment rest)
  | _, rest => .ok rest

/-- Reads the name, the equals sign and the blanks in front of a value. -/
def readAssignment (cs : List Char) : Except Fault (List String × List Char) := do
  let (names, rest) ← readName maxNesting cs
  let gap := rest.takeWhile fun c ↦ isSpace c || c == '='
  let rest := rest.dropWhile fun c ↦ isSpace c || c == '='
  if gap.count '=' == 1 then .ok (names, rest) else .error .malformed

/-- Reads a word that stands for a value of its own. -/
def readWord (word : String) (cs : List Char) : Except Fault (Item × List Char) :=
  match Text.dropPrefix? word.toList cs with
  | some rest => .ok (.scalar word, rest)
  | none => .error .malformed

mutual

/-- Reads a value; `depth` counts the arrays and tables between braces that it may still open. -/
def readValue (fuel depth : Nat) (cs : List Char) : Except Fault (Item × List Char) :=
  match fuel with
  | 0 => .error .malformed
  | fuel + 1 =>
    match cs with
    | [] => .error .malformed
    | c :: rest =>
      if c == '"' || c == '\'' then
        (readString c cs).map fun ((s, _), r) ↦ (.text (String.ofList s), r)
      else if c == 't' then readWord "true" cs
      else if c == 'f' then readWord "false" cs
      else if c == '[' || c == '\x7b' then
        match depth with
        | 0 => .error .malformed
        | depth + 1 =>
          if c == '[' then readArray fuel depth false [] rest
          else readBraces fuel depth none [] rest
      else if c == '+' || c == '-' || Text.isDigit c then
        (readScalar cs).map fun (raw, r) ↦ (.scalar (String.ofList raw), r)
      else
        let word := cs.takeWhile (!endsScalar ·)
        if word == "inf".toList || word == "nan".toList then
          .ok (.scalar (String.ofList word), cs.dropWhile (!endsScalar ·))
        else .error .malformed

/-- Reads the rest of an array; `full` says that a value stands in front. -/
def readArray (fuel depth : Nat) (full : Bool) (items : List Item) (cs : List Char) :
    Except Fault (Item × List Char) :=
  match fuel with
  | 0 => .error .malformed
  | fuel + 1 => do
    match full, ← skipFiller (cs.length + 1) cs with
    | _, ']' :: rest => .ok (.array items, rest)
    | true, ',' :: rest => readArray fuel depth false items rest
    | true, _ => .error .malformed
    | false, cs =>
      let (item, rest) ← readValue fuel depth cs
      readArray fuel depth true (items ++ [item]) rest

/-- Reads the rest of a table between braces; `comma` says what stands in front: nothing, an
entry or a comma. -/
def readBraces (fuel depth : Nat) (comma : Option Bool) (entries : Entries) (cs : List Char) :
    Except Fault (Item × List Char) :=
  match fuel with
  | 0 => .error .malformed
  | fuel + 1 => do
    match comma, ← skipFiller (cs.length + 1) cs with
    | _, '}' :: rest => .ok (tableOf .inline entries, rest)
    | some false, ',' :: rest => readBraces fuel depth (some true) entries rest
    | some false, _ => .error .malformed
    | _, cs =>
      let (names, rest) ← readAssignment cs
      let (item, rest) ← readValue fuel depth rest
      let entries ← insertPath (fuel + cs.length) true entries names item
      readBraces fuel depth (some false) entries rest

end

/-- Fuel that suffices for a value in a text. -/
def valueFuel (cs : List Char) : Nat := 3 * cs.length + 3

/-- Reads an entry, with what follows it on its line. -/
def readEntry (cs : List Char) : Except Fault ((List String × Item) × List Char) := do
  let (names, rest) ← readAssignment cs
  let (item, rest) ← readValue (valueFuel rest) maxNesting rest
  let rest ← readLineEnd rest
  .ok ((names, item), rest)

/-- Reads entries up to a header or the end of the text, and hands each to `add`. -/
def readEntries (fuel : Nat) (add : Entries → List String → Item → Except Fault Entries)
    (entries : Entries) (cs : List Char) : Except Fault (Entries × List Char) :=
  match fuel with
  | 0 => .error .malformed
  | fuel + 1 =>
    match cs.dropWhile isSpaceOrNewline with
    | [] => .ok (entries, [])
    | '[' :: rest => .ok (entries, '[' :: rest)
    | '#' :: rest => do
      let rest ← readComment rest
      readEntries fuel add entries rest
    | cs => do
      let ((names, item), rest) ← readEntry cs
      readEntries fuel add (← add entries names item) rest

/-- Adds an entry to the top level, where a clash makes the file malformed. -/
def addTop (limit : Nat) (entries : Entries) (names : List String) (item : Item) :
    Except Fault Entries :=
  (insertPath limit true entries names item).mapError fun _ ↦ .malformed

/-- Adds an entry to a block. -/
def addInner (limit : Nat) (entries : Entries) (names : List String) (item : Item) :
    Except Fault Entries := do
  let entries ← insertPath limit false entries names item
  checkName entries (names.headD "")
  .ok entries

/-- The name of a header, whether it is an element of an array of tables, and the text behind its
name. -/
def readHeaderName : List Char → Except Fault ((List String × Bool) × List Char)
  | '[' :: '[' :: rest => (readName maxNesting rest).map fun (names, r) ↦ ((names, true), r)
  | '[' :: rest => (readName maxNesting rest).map fun (names, r) ↦ ((names, false), r)
  | _ => .error .malformed

/-- Reads a header and its line. -/
def readHeader (cs : List Char) : Except Fault ((List String × Bool) × List Char) := do
  let ((names, element), rest) ← readHeaderName cs
  match element, rest with
  | true, ']' :: ']' :: rest => (readLineEnd rest).map fun rest ↦ ((names, element), rest)
  | false, ']' :: rest => (readLineEnd rest).map fun rest ↦ ((names, element), rest)
  | _, _ => .error .malformed

/-- Whether a name lies strictly below another. -/
def isBelow : List String → List String → Bool
  | [], _ :: _ => true
  | a :: as, b :: bs => a == b && isBelow as bs
  | _, [] => false

/-- The item of a block whose header names more than one component below its parent. The outermost
table is of the given kind. -/
def impliedBlock (kind : TableKind) (element : Bool) (entries : Entries) : List String → Item
  | [] => tableOf .header entries
  | [name] =>
    let inner := if element then .tables [tableOf .element entries] else tableOf .header entries
    tableOf kind [(⟨name, false⟩, inner)]
  | name :: rest => tableOf kind [(⟨name, false⟩, impliedBlock .implied element entries rest)]

mutual

/-- Reads the block at a header: its entries and the blocks below it. `opened` holds the names of
the arrays of tables that are being read, innermost first. -/
def readBlockAt (fuel limit : Nat) (opened : List (List String)) (parent : List String)
    (cs : List Char) : Except Fault ((Key × Item) × List Char) :=
  match fuel with
  | 0 => .error .malformed
  | fuel + 1 => do
    let ((names, element), rest) ← readHeader cs
    let (entries, rest) ← readEntries (rest.length + 1) (addInner limit) [] rest
    let (entries, rest) ← readBelow fuel limit opened names entries rest
    (namesOf entries).forM (checkTable limit entries)
    match names.drop parent.length with
    | name :: more@(_ :: _) =>
      let kind := if element && opened.contains [name] then .impliedElement else .implied
      .ok ((⟨name, false⟩, impliedBlock kind element entries more), rest)
    | own =>
      let key : Key := ⟨(own.head?).getD (names.getLastD ""), false⟩
      if element && opened.head? != some names then
        let first := tableOf .element entries
        let (elements, rest) ← readElements fuel limit (names :: opened) names [first] rest
        .ok ((key, .tables elements), rest)
      else
        .ok ((key, tableOf (if element then .element else .header) entries), rest)

/-- Reads the blocks that lie below a name. -/
def readBelow (fuel limit : Nat) (opened : List (List String)) (names : List String)
    (entries : Entries) (cs : List Char) : Except Fault (Entries × List Char) :=
  match fuel, cs with
  | _, [] => .ok (entries, [])
  | 0, _ => .error .malformed
  | fuel + 1, cs => do
    let ((next, _), _) ← readHeaderName cs
    if isBelow names next then
      let ((key, item), rest) ← readBlockAt fuel limit opened names cs
      let entries ← insert limit false entries key item
      checkName entries key.name
      readBelow fuel limit opened names entries rest
    else .ok (entries, cs)

/-- Reads the further elements of an array of tables. -/
def readElements (fuel limit : Nat) (opened : List (List String)) (names : List String)
    (elements : List Item) (cs : List Char) : Except Fault (List Item × List Char) :=
  match fuel, cs with
  | _, [] => .ok (elements, [])
  | 0, _ => .error .malformed
  | fuel + 1, cs => do
    let ((next, element), _) ← readHeaderName cs
    if element && next == names then
      let ((_, item), rest) ← readBlockAt fuel limit opened names cs
      readElements fuel limit opened names (elements ++ [item]) rest
    else .ok (elements, cs)

end

/-- Reads the blocks of a file. -/
def readBlocks (fuel limit : Nat) (entries : Entries) (cs : List Char) : Except Fault Entries :=
  match fuel, cs with
  | _, [] => .ok entries
  | 0, _ => .error .malformed
  | fuel + 1, cs => do
    let ((key, item), rest) ← readBlockAt fuel limit [] [] cs
    let entries ← (insert limit true entries key item).mapError fun _ ↦ .malformed
    readBlocks fuel limit entries rest

/-- How deep the tables and values of a text can lie in each other, with a step for each check. -/
def depthLimit (cs : List Char) : Nat := 4 * cs.length + 8

/-- Reads a file. -/
def read (cs : List Char) : Except Fault Value := do
  let limit := depthLimit cs
  let (entries, rest) ← readEntries (cs.length + 1) (addTop limit) [] cs
  let entries ← readBlocks (cs.length + 1) limit entries rest
  valueOfEntries limit entries

end Guidebook.Toml
