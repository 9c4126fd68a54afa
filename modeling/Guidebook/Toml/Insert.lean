import Guidebook.Toml.Value

/-!
# Settings files: which definitions may meet

A table is filled entry by entry in the order of the file. Two values of one name never meet. A
table may be continued only where one of the two definitions is implied by longer names, an array
of tables grows by its elements, and a longer name reaches into its last element. What dotted names
imply continues only what dotted names or longer headers made. Tables that are defined in several
places are checked as if they were one.
-/

namespace Guidebook.Toml

/-- The last entry of a name. -/
def lastOf (entries : Entries) (name : String) : Option (Key × Item) :=
  (entries.filter (·.1.name == name)).getLast?

/-- Puts an item in the place of the last entry of a name. -/
def replaceLast (entries : Entries) (name : String) (item : Item) : Entries :=
  let rec go : Entries → Entries
    | [] => []
    | entry :: rest =>
      if entry.1.name == name then (entry.1, item) :: rest else entry :: go rest
  (go entries.reverse).reverse

/-- Puts an item in the place of all entries of a name. -/
def replaceAll (entries : Entries) (name : String) (item : Item) : Entries :=
  let rec go : Entries → Entries
    | [] => []
    | entry :: rest =>
      if entry.1.name == name then (entry.1, item) :: rest.filter (·.1.name != name)
      else entry :: go rest
  go entries

/-- The name of the last table among entries. -/
def lastTableName (entries : Entries) : Option String :=
  ((entries.filter (·.2.isBlock)).getLast?).map (·.1.name)

mutual

/-- Adds an entry to a table. With `check`, a table that is now defined in several places is
checked at once. The limit bounds how deep the tables lie in each other. -/
def insert (limit : Nat) (check : Bool) (entries : Entries) (key : Key) (item : Item) :
    Except Fault Entries :=
  match limit with
  | 0 => .error .malformed
  | limit + 1 =>
    let clash : Except Fault Entries := .error (.duplicateKey key.name)
    let append : Except Fault Entries :=
      let entries := entries ++ [(key, item)]
      if check then (checkTable limit entries key.name).map fun _ ↦ entries else .ok entries
    let extend (held : Entries) : Except Fault Entries :=
      item.entries.foldlM (fun held (key, item) ↦ do
        let held ← insert limit true held key item
        checkName held key.name
        .ok held) held
    match lastOf entries key.name with
    | none => .ok (entries ++ [(key, item)])
    | some (heldKey, held) => do
      checkName entries key.name
      if item.isBlock then
        match held with
        | .tables elements =>
          if item.isElement then
            .ok (replaceLast entries key.name (.tables (elements ++ [item])))
          else if item.isImplied && !key.dotted then
            match elements.getLast? with
            | none => clash
            | some last =>
              let last := last.withEntries (← extend last.entries)
              .ok (replaceLast entries key.name (.tables (elements.dropLast ++ [last])))
          else clash
        | held =>
          if !held.isBlock then clash
          else if item.isElement then
            .ok (replaceAll entries key.name (.tables [held, item]))
          else if held.isImplied then
            if item.isImplied then
              if key.dotted || heldKey.dotted || lastTableName entries != some heldKey.name then
                append
              else
                let held := held.withEntries (← extend held.entries)
                .ok (replaceLast entries key.name held)
            else if heldKey.dotted then .error .redefined
            else append
          else if item.isImplied && !key.dotted then append
          else clash
      else
        match item, held with
        | .tables more, .tables elements =>
          .ok (replaceLast entries key.name (.tables (elements ++ more)))
        | _, _ => clash

/-- Checks the tables of one name as if they were one. -/
def checkTable (limit : Nat) (entries : Entries) (name : String) : Except Fault Unit :=
  match limit with
  | 0 => .error .malformed
  | limit + 1 =>
    match itemsOf entries name with
    | items@(_ :: _ :: _) => do
      let united ← (union items).foldlM (fun held (key, item) ↦ insert limit false held key item) []
      (namesOf united).forM (checkTable limit united)
    | _ => .ok ()

end

/-- The item that a name of several components puts under its first one. -/
def nestedItem (item : Item) : List String → Item
  | [] => item
  | [name] => tableOf .implied [(⟨name, false⟩, item)]
  | name :: rest => tableOf .implied [(⟨name, true⟩, nestedItem item rest)]

/-- Adds an entry whose name may have several components. -/
def insertPath (limit : Nat) (check : Bool) (entries : Entries) (names : List String)
    (item : Item) : Except Fault Entries :=
  match names with
  | [] => .error .malformed
  | [name] => insert limit check entries ⟨name, false⟩ item
  | name :: rest => insert limit true entries ⟨name, true⟩ (nestedItem item rest)

end Guidebook.Toml
