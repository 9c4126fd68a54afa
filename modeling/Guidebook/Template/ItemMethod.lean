import Guidebook.Template.Sort
import Guidebook.Template.TextMethod

/-!
# Methods of lists, records and numbers

What can be asked of a value with items by name. Some methods change the value they are asked of:
their answer comes with what the value is from then on.
-/

namespace Guidebook.Template.Value

/-- An answer, and what a value is after it if that is something else. -/
structure Answer where
  value : Value
  changed : Option Value
  deriving Repr

/-- An answer that changes nothing. -/
def Answer.plain (value : Value) : Answer := ⟨value, none⟩

/-- No answer but a change. -/
def Answer.change (value : Value) : Answer := ⟨nothing, some value⟩

/-- There is no such key. -/
def noKey {α : Type} (key : Value) : Result α :=
  .error (.broken .key (String.ofList key.showInside))

/-- There is no such place. -/
def noPlace {α : Type} (text : String) : Result α := .error (.broken .place text)

/-- The place that a number stands for in front of which an item is put. -/
def insertPlace (length : Nat) (n : Int) : Nat :=
  if n < 0 then (n + length).toNat else min n.toNat length

/-- The place of an item among others between two places. -/
def findPlace (items : List Value) (item : Value) (start stop : Int) : Option Nat :=
  (items.zipIdx.find? fun (other, n) ↦ start ≤ n && (n : Int) < stop && same other item).map (·.2)

/-- A place counted from the end if it is negative. -/
def fromEnd (length : Nat) (n : Int) : Int := if n < 0 then max 0 (n + length) else n

/-- The place of an item, where it is looked for between two places. -/
def indexOf (items : List Value) (given : List Value) (complaint : Value → String) :
    Result Value := do
  let item := given.headD nothing
  let start ← optionalInt given[1]? 0
  let stop ← optionalInt given[2]? items.length
  match findPlace items item (fromEnd items.length start) (fromEnd items.length stop) with
  | some n => return int n
  | none => .error (.broken .value (complaint item))

/-- How many arguments a method of a list or record takes. -/
def itemArity : String → Nat × Nat
  | "append" | "count" | "extend" | "remove" => (1, 1)
  | "index" => (1, 3)
  | "insert" => (2, 2)
  | "get" | "setdefault" => (1, 2)
  | _ => (0, 0)

/-- The answer of a list to a method. -/
def askList (items : List Value) (name : String) (arguments : Arguments) : Result Answer := do
  let given := arguments.plain
  let first := given.headD nothing
  match name with
  | "pop" => arguments.atMost "list" name 0 1
  | "sort" => if !given.isEmpty then wrongKind "sort() takes no positional arguments"
  | name => arguments.atMost "list" name (itemArity name).1 (itemArity name).2
  match name with
  | "append" => return .change (list (items ++ [first]))
  | "clear" => return .change (list [])
  | "copy" => return .plain (list items)
  | "count" => return .plain (int (items.filter (same first)).length)
  | "extend" => return .change (list (items ++ (← first.items)))
  | "index" =>
    return .plain (← indexOf items given fun item ↦
      String.ofList item.showInside ++ " is not in list")
  | "insert" =>
    let place := insertPlace items.length (← first.needInt)
    return .change (list (items.take place ++ given.getD 1 nothing :: items.drop place))
  | "pop" =>
    let n ← optionalInt given.head? (-1)
    if items.isEmpty then noPlace "pop from empty list"
    let place := if n < 0 then n + items.length else n
    if place < 0 then noPlace "pop index out of range"
    match items[place.toNat]? with
    | some item => return ⟨item, some (list (items.eraseIdx place.toNat))⟩
    | none => noPlace "pop index out of range"
  | "remove" =>
    match findPlace items first 0 items.length with
    | some n => return .change (list (items.eraseIdx n))
    | none => .error (.broken .value "list.remove(x): x not in list")
  | "reverse" => return .change (list items.reverse)
  | _ =>
    let given ← (Signature.ofNames "sort" 0 [] ["key", "reverse"]).bind arguments
    let keyed := items.map fun item ↦ (item, item)
    return .change (list (← sortByKey (valueAt given 1 (bool false)).truth keyed))

/-- Fields from what a record can be made of. -/
def fieldsOf (function : String) (value : Value) : Result (List (Value × Value)) := do
  match value with
  | record fields => return fields
  | value =>
    (← value.items).zipIdx.foldlM (fun fields (item, n) ↦ do
      let element := function ++ " update sequence element #" ++ toString n
      match item.items with
      | .error _ => wrongKind ("cannot convert " ++ element ++ " to a sequence")
      | .ok [key, field] =>
        checkKey key
        return setField fields key field
      | .ok items =>
        .error (.broken .value (element ++ " has length " ++ toString items.length ++
          "; 2 is required"))) []

/-- Fields with named ones behind them. -/
def withNamed (fields : List (Value × Value)) (named : List (String × Value)) :
    List (Value × Value) :=
  named.foldl (fun fields (name, field) ↦ setField fields (ofString name) field) fields

/-- A record from another one, or from pairs, and from named values. -/
def recordOf (arguments : Arguments) (function : String) : Result (List (Value × Value)) := do
  match arguments.plain with
  | [] => return withNamed [] arguments.named
  | [value] => return withNamed (← fieldsOf "dictionary" value) arguments.named
  | given =>
    wrongKind (function ++ " expected at most 1 argument, got " ++ toString given.length)

/-- The answer of a record to a method. -/
def askRecord (fields : List (Value × Value)) (name : String) (arguments : Arguments) :
    Result Answer := do
  let given := arguments.plain
  let first := given.headD nothing
  let other := given.getD 1 nothing
  match name with
  | "pop" => arguments.atMost "dict" name 1 2
  | "update" => pure ()
  | name => arguments.atMost "dict" name (itemArity name).1 (itemArity name).2
  match name with
  | "clear" => return .change (record [])
  | "copy" => return .plain (record fields)
  | "get" =>
    checkKey first
    return .plain ((field? fields first).getD other)
  | "items" => return .plain (view "dict_items" (fields.map fun (key, field) ↦ tuple [key, field]))
  | "keys" => return .plain (view "dict_keys" (fields.map (·.1)))
  | "values" => return .plain (view "dict_values" (fields.map (·.2)))
  | "pop" =>
    checkKey first
    match field? fields first, given[1]? with
    | some found, _ => return ⟨found, some (record (dropField fields first))⟩
    | none, some other => return .plain other
    | none, none => noKey first
  | "popitem" =>
    match fields.getLast? with
    | some (key, field) => return ⟨tuple [key, field], some (record fields.dropLast)⟩
    | none => noKey (ofString "popitem(): dictionary is empty")
  | "setdefault" =>
    checkKey first
    match field? fields first with
    | some found => return .plain found
    | none => return ⟨other, some (record (setField fields first other))⟩
  | _ =>
    let more ← recordOf arguments "update"
    return .change (record (more.foldl (fun fields (key, field) ↦ setField fields key field)
      fields))

/-- The answer of a number to a method. -/
def askNumber (value : Value) (name : String) (arguments : Arguments) : Result Value := do
  arguments.atMost value.kind name 0 0
  match value, name with
  | float x, "is_integer" =>
    return bool (!x.isNaN && !x.isInf && Text.floatOfInt (Text.truncated x) == x)
  | value, "bit_length" =>
    let size := (value.int?.getD 0).natAbs
    return int (if size == 0 then 0 else Nat.log2 size + 1)
  | bool b, _ => return int (if b then 1 else 0)
  | value, _ => return value

/-- The answer of a value to one of its methods. -/
def ask (value : Value) (name : String) (arguments : Arguments) : Result Answer := do
  match value with
  | text _ | html _ => return .plain (← callTextMethod value name arguments)
  | list items => askList items name arguments
  | record fields => askRecord fields name arguments
  | tuple _ | group .. | range .. =>
    let items ← value.items
    let kind := if value.kind == "range" then "range" else "tuple"
    match name, kind with
    | "index", "tuple" =>
      arguments.atMost kind name 1 3
      return .plain (← indexOf items arguments.plain fun _ ↦ "tuple.index(x): x not in tuple")
    | "index", _ =>
      arguments.atMost kind name 1 1
      return .plain (← indexOf items arguments.plain fun item ↦
        String.ofList item.showInside ++ " is not in range")
    | _, _ =>
      arguments.atMost kind name 1 1
      return .plain (int (items.filter (same (arguments.plain.headD nothing))).length)
  | value => return .plain (← askNumber value name arguments)

end Guidebook.Template.Value
