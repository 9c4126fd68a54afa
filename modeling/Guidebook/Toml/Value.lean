import Guidebook.Text.Chars

/-!
# Settings files: values and tables

The settings files of a guide are TOML. A value keeps the text of strings and only the written
form of numbers, truth values and moments. While a file is read, an item also remembers how it
was defined, because that decides which later definitions may extend it.
-/

namespace Guidebook.Toml

/-- A value of a settings file. -/
inductive Value where
  | text (s : String)
  | scalar (written : String)
  | array (values : List Value)
  | table (entries : List (String × Value))
  deriving Repr

/-- The entry of a table under a name, the first one if there are several. -/
def Value.get? (name : String) : Value → Option Value
  | .table entries => entries.lookup name
  | _ => none

/-- The text of a string value. -/
def Value.text? : Value → Option String
  | .text s => some s
  | _ => none

/-- Why a file is not read. -/
inductive Fault where
  /-- The file is not TOML. -/
  | malformed
  /-- A table has two entries of one name. -/
  | duplicateKey (name : String)
  /-- A table that dotted names made is defined again. -/
  | redefined
  deriving Repr, DecidableEq

/-- How a table came to be. -/
inductive TableKind where
  /-- Written between braces. -/
  | inline
  /-- Opened by its own header. -/
  | header
  /-- One element of an array of tables. -/
  | element
  /-- Implied by a longer name. -/
  | implied
  /-- Implied by the longer name of an array of tables that is read inside an array of its first
  component's name. -/
  | impliedElement
  deriving Repr, DecidableEq

/-- A component of a name, and whether more components follow it in an entry. -/
structure Key where
  name : String
  dotted : Bool
  deriving Repr, DecidableEq

/-- A value while its file is read. -/
inductive Item where
  | text (s : String)
  | scalar (written : String)
  | array (items : List Item)
  | table (kind : TableKind) (keys : List Key) (items : List Item)
  | tables (elements : List Item)
  deriving Repr

/-- The entries of a table in the order of the file. A table that is defined in several places has
several entries of one name. -/
abbrev Entries := List (Key × Item)

namespace Item

/-- Whether the item is a table with a header of its own or an implied one. -/
def isBlock : Item → Bool
  | table .inline _ _ => false
  | table _ _ _ => true
  | _ => false

/-- Whether the item is an array of tables. -/
def isTables : Item → Bool
  | tables _ => true
  | _ => false

/-- Whether the item is an element of an array of tables. -/
def isElement : Item → Bool
  | table .element _ _ => true
  | table .impliedElement _ _ => true
  | _ => false

/-- Whether the item is a table that only longer names imply. -/
def isImplied : Item → Bool
  | table .implied _ _ => true
  | table .impliedElement _ _ => true
  | _ => false

/-- The entries of a table item. -/
def entries : Item → Entries
  | table _ keys items => keys.zip items
  | _ => []

/-- The item as a table of other entries. -/
def withEntries (entries : Entries) : Item → Item
  | table kind _ _ => table kind (entries.map (·.1)) (entries.map (·.2))
  | item => item

end Item

/-- A table of given entries. -/
def tableOf (kind : TableKind) (entries : Entries) : Item :=
  .table kind (entries.map (·.1)) (entries.map (·.2))

/-- The names among entries, each once. -/
def namesOf (entries : Entries) : List String :=
  entries.foldl (fun names e ↦ if names.contains e.1.name then names else names ++ [e.1.name]) []

/-- The items of a name. -/
def itemsOf (entries : Entries) (name : String) : List Item :=
  (entries.filter (·.1.name == name)).map (·.2)

/-- Whether every entry fits behind those in front of it in a table that is defined in several
places: only behind a table may an entry of its name follow. -/
def checkUnion : Entries → Except Fault Unit :=
  let rec go (seen : List (String × Bool)) : Entries → Except Fault Unit
    | [] => .ok ()
    | (key, item) :: rest =>
      if seen.lookup key.name == some false then .error (.duplicateKey key.name)
      else go ((key.name, item.isBlock) :: seen) rest
  go []

/-- The entries of all tables of one name. -/
def union (items : List Item) : Entries := (items.filter Item.isBlock).flatMap Item.entries

/-- Checks the tables of a name, if it is defined in several places. -/
def checkName (entries : Entries) (name : String) : Except Fault Unit :=
  match itemsOf entries name with
  | items@(_ :: _ :: _) => checkUnion (union items)
  | _ => .ok ()

mutual

/-- The value of an item. Tables of one name become one table. The limit bounds how deep values lie
in each other. -/
def valueOf (limit : Nat) (item : Item) : Except Fault Value :=
  match limit, item with
  | _, .text s => .ok (.text s)
  | _, .scalar written => .ok (.scalar written)
  | limit + 1, .array items => (items.mapM (valueOf limit)).map .array
  | limit + 1, .tables elements => (elements.mapM (valueOf limit)).map .array
  | limit + 1, .table _ keys items => valueOfEntries limit (keys.zip items)
  | 0, _ => .error .malformed

/-- The value of a table of given entries. -/
def valueOfEntries (limit : Nat) (entries : Entries) : Except Fault Value :=
  match limit with
  | 0 => .error .malformed
  | limit + 1 =>
    let valueFor (name : String) : Except Fault (String × Value) :=
      match itemsOf entries name with
      | [item] => (valueOf limit item).map fun value ↦ (name, value)
      | items => do
        checkUnion (union items)
        let value ← valueOfEntries limit (union items)
        .ok (name, value)
    ((namesOf entries).mapM valueFor).map .table

end

end Guidebook.Toml
