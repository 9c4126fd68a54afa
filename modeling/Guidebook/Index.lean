import Guidebook.Failure
import Guidebook.Toml.Reader
import Guidebook.Toml.Writer

/-!
# The page index

The guide's table of contents: the pages in the order in which they were saved. Entries are only
ever added at the end, and no two have one code. The index is kept as a settings file with one
`entries` table per page.
-/

namespace Guidebook

/-- A page's title and its code. -/
structure IndexEntry where
  name : String
  code : String
  deriving Repr, DecidableEq

/-- The pages of a guide in order. -/
structure PageIndex where
  entries : List IndexEntry
  deriving Repr, DecidableEq

namespace PageIndex

/-- The index of a guide without pages. -/
def empty : PageIndex := ⟨[]⟩

/-- The number of pages. -/
def size (index : PageIndex) : Nat := index.entries.length

/-- The codes in order. -/
def codes (index : PageIndex) : List String := index.entries.map (·.code)

/-- The index with a page at the end, unless its code is registered. -/
def append (index : PageIndex) (entry : IndexEntry) : Except IndexProblem PageIndex :=
  if index.entries.any (·.code == entry.code) then .error (.duplicate entry.code)
  else .ok ⟨index.entries ++ [entry]⟩

/-- The entry at a position; there is none below zero. -/
def atPosition (index : PageIndex) (position : Int) : Option IndexEntry :=
  if position < 0 then none else index.entries[position.toNat]?

/-- The position of a code. -/
def positionOf (index : PageIndex) (code : String) : Option Nat :=
  index.entries.findIdx? (·.code == code)

/-- The index of entries added one after another. -/
def ofEntries (index : PageIndex) : List IndexEntry → Except IndexProblem PageIndex
  | [] => .ok index
  | entry :: rest => do ofEntries (← index.append entry) rest

/-- The entry that a value of the file stands for. -/
def entryOf? (value : Toml.Value) : Option IndexEntry :=
  match value.get? "name", value.get? "code" with
  | some (.text name), some (.text code) => if code == "" then none else some ⟨name, code⟩
  | _, _ => none

/-- The entries that the values of the file stand for, from a position on. -/
def entriesOf (path : String) (position : Nat) :
    List Toml.Value → Except IndexProblem (List IndexEntry)
  | [] => .ok []
  | value :: rest =>
    match entryOf? value with
    | none => .error (.badEntry path position)
    | some entry => (entriesOf path (position + 1) rest).map (entry :: ·)

/-- The index that a file's table holds. -/
def ofTable (path : String) (table : Toml.Value) : Except IndexProblem PageIndex := do
  match (table.get? "entries").getD (.array []) with
  | .array values =>
    let entries ← entriesOf path 0 values
    match ofEntries empty entries with
    | .error (.duplicate code) => .error (.corrupt path code)
    | result => result
  | _ => .error (.notTables path)

/-- The index that a file's bytes hold. Definitions that clash inside a table are not a problem of
the index but a clash. -/
def ofBytes (path : String) (bytes : List UInt8) : Except Failure PageIndex :=
  match Utf8.decode bytes with
  | .error _ => .error (.index (.unreadable path))
  | .ok text =>
    match Toml.read (Text.universalNewlines text) with
    | .ok table => (ofTable path table).mapError .index
    | .error (.duplicateKey name) => .error (.toml (.duplicateKey name))
    | .error .redefined => .error (.toml .redefined)
    | .error _ => .error (.index (.unreadable path))

/-- An entry as it is written. -/
def writeEntry (entry : IndexEntry) : List Char :=
  "[[entries]]\n".toList ++ Toml.writeEntry "name".toList entry.name.toList ++
    Toml.writeEntry "code".toList entry.code.toList

/-- The index as it is written: its entries with a blank line between them. -/
def write (index : PageIndex) : List Char :=
  if index.entries.isEmpty then "entries = []\n".toList
  else Text.joinWith ['\n'] (index.entries.map writeEntry)

end PageIndex

end Guidebook
