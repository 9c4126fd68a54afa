import Guidebook.Template.TextFilter

/-!
# Filters of items

Filters that take the items of a value one by one. What is only worked out when a loop asks for it
is a stream, and a problem on the way is one of the stream.
-/

namespace Guidebook.Template.Value

/-- Items that are worked out when they are asked for. -/
def lazily (kind : String) : Result (List Value) → Value
  | .ok items => stream kind items none
  | .error problem => stream kind [] (some problem)

/-- The kind of items that are worked out when they are asked for. -/
def generator : String := "generator"

/-- The keys that lead to an attribute. -/
def attributeKeys (path : Value) : List Value :=
  match path with
  | nothing => []
  | text cs | html cs =>
    (Text.splitOnChar '.' cs).map fun key ↦
      if !key.isEmpty && key.all isAnyDigit then
        int (((Text.digitsOf? key).map Text.ofDigits).getD 0)
      else text key
  | path => [path]

/-- The value behind keys, one in another. Another value stands for each that does not exist. -/
def follow (default : Value) (value : Value) (keys : List Value) : Result Value :=
  keys.foldlM (fun value key ↦ do
    match ← value.item key, default with
    | undefined complaint, nothing => return undefined complaint
    | undefined _, default => return default
    | found, _ => return found) value

/-- The value behind an attribute. -/
def attributeOf (path value : Value) : Result Value :=
  follow nothing value (attributeKeys path)

/-- A value without differences of case. -/
def ignoringCase (value : Value) : Value :=
  match value with
  | text cs => text (Text.lowerAll cs)
  | html cs => html (Text.lowerAll cs)
  | value => value

/-- What a value is compared by. -/
def comparedBy (caseCounts : Bool) (value : Value) : Value :=
  if caseCounts then value else value.ignoringCase

/-- Items with what each is compared by. -/
def withKeys (path : Value) (caseCounts : Bool) (items : List Value) :
    Result (List (Value × Value)) :=
  items.mapM fun item ↦ do
    return (comparedBy caseCounts (← attributeOf path item), item)

/-- Items in order. Several attributes are named with commas between them. -/
def sorted (value reverse caseCounts path : Value) : Result Value := do
  let attributes := match path with
    | text cs | html cs => (Text.splitOnChar ',' cs).map text
    | path => [path]
  let keyed ← (← value.items).mapM fun item ↦ do
    let keys ← attributes.mapM fun path ↦ do
      return comparedBy caseCounts.truth (← attributeOf path item)
    return (list keys, item)
  return list (← sortByKey reverse.truth keyed)

/-- Fields in order of their keys or values. -/
def sortedPairs (value caseCounts part reverse : Value) : Result Value := do
  let position ← match part with
    | text cs | html cs =>
      if cs == "key".toList then pure 0
      else if cs == "value".toList then pure 1
      else complain "You can only sort by either \"key\" or \"value\""
    | _ => complain "You can only sort by either \"key\" or \"value\""
  match value with
  | record fields =>
    let keyed := fields.map fun (key, field) ↦
      (comparedBy caseCounts.truth (if position == 0 then key else field), tuple [key, field])
    return list (← sortByKey reverse.truth keyed)
  | value => noAttribute value "items"

/-- Items without those that are equal to one before. -/
def uniqueItems (value caseCounts path : Value) : Result (List Value) := do
  let keyed ← withKeys path caseCounts.truth (← value.items)
  let (_, kept) ← keyed.foldlM (fun (seen, kept) (key, item) ↦ do
    checkKey key
    if seen.any (same key) then return (seen, kept)
    else return (key :: seen, item :: kept)) (([], []) : List Value × List Value)
  return kept.reverse

/-- The least or the greatest item, the first one if there are several. -/
def extreme (value caseCounts path : Value) (greatest : Bool) : Result Value := do
  match ← withKeys path caseCounts.truth (← value.items) with
  | [] => return undefined "No aggregated item, sequence was empty."
  | first :: rest =>
    let best ← rest.foldlM (fun best item ↦ do
      let order ← if greatest then order ">" item.1 best.1 else order "<" item.1 best.1
      return if order == some (if greatest then .gt else .lt) then item else best) first
    return best.2

/-- A sum. -/
def summed (value path start : Value) : Result Value := do
  let items ← value.items
  let items ← match path with
    | nothing => pure items
    | path => items.mapM (attributeOf path)
  if start.isText then wrongKind "sum() can't sum strings [use ''.join(seq) instead]"
  items.foldlM add start

/-- Neighbours with equal keys. -/
def groupKeyed : List (Value × Value) → List (Value × List Value)
  | [] => []
  | (key, item) :: rest =>
    match groupKeyed rest with
    | (other, items) :: groups =>
      if same key other then (key, item :: items) :: groups
      else (key, [item]) :: (other, items) :: groups
    | [] => [(key, [item])]

/-- Items in groups that have an attribute in common. -/
def grouped (value path default caseCounts : Value) : Result Value := do
  let get := fun (item : Value) ↦ follow default item (attributeKeys path)
  let keyed ← (← value.items).mapM fun item ↦ do
    let key := comparedBy caseCounts.truth (← get item)
    return (key, (key, item))
  let groups := groupKeyed (← sortByKey false keyed)
  return list (← groups.mapM fun (key, items) ↦ do
    let common ← if caseCounts.truth then pure key else get (items.headD nothing)
    return group common items)

/-- Texts joined by a separator; once one of them is clean, all others are escaped. -/
def joinAll (escapes : Bool) (value separator path : Value) : Result Value := do
  let items ← value.items
  let items ← match path with
    | nothing => pure items
    | path => items.mapM (attributeOf path)
  return if escapes && (separator.isHtml || items.any isHtml) then
      html (Text.joinWith separator.toHtml (items.map toHtml))
    else text (Text.joinWith separator.toText (items.map toText))

/-- The first item. -/
def firstItem (value : Value) : Result Value := do
  match value with
  | stream _ (item :: _) _ => return item
  | value =>
    return ((← value.items).head?).getD (undefined "No first item, sequence was empty.")

/-- The kind of the items of a value taken from its end, if they can be. -/
def reversedKind? : Value → Option String
  | list _ => some "list_reverseiterator"
  | range .. => some "range_iterator"
  | record _ => some "dict_reversekeyiterator"
  | tuple _ | group .. | undefined _ | text _ | html _ => some "reversed"
  | view kind _ =>
    some (match kind with
      | "dict_keys" => "dict_reversekeyiterator"
      | "dict_values" => "dict_reversevalueiterator"
      | _ => "dict_reverseitemiterator")
  | _ => none

/-- The last item. -/
def lastItem (value : Value) : Result Value := do
  match reversedKind? value with
  | some _ =>
    return ((← value.items).getLast?).getD (undefined "No last item, sequence was empty.")
  | none => wrongKind ("'" ++ value.kind ++ "' object is not reversible")

/-- Items from the last to the first. -/
def reversed (value : Value) : Result Value :=
  match value, reversedKind? value with
  | text cs, _ => .ok (text cs.reverse)
  | html cs, _ => .ok (html cs.reverse)
  | value, some kind => .ok (lazily kind (value.items.map List.reverse))
  | value, none =>
    match value.items with
    | .ok items => .ok (list items.reverse)
    | .error (.broken .kind _) => complain "argument must be iterable"
    | .error problem => .error problem

/-- An item that is taken by chance if there are several. -/
def anyItem (value : Value) : Result Value := do
  let _ ← value.length
  match value with
  | record _ => noKey (int 0)
  | view .. | loop .. => wrongKind ("'" ++ value.kind ++ "' object is not subscriptable")
  | value =>
    return ((← value.items).head?).getD (undefined "No random item, sequence was empty.")

/-- Items in rows of a length. -/
def rows (length : Nat) : Nat → List Value → List (List Value)
  | 0, _ => []
  | _, [] => []
  | fuel + 1, items => items.take length :: rows length fuel (items.drop length)

/-- Items in rows, the last one filled up. -/
def batched (value count fill : Value) : Result (List Value) := do
  let items ← value.items
  let rows := match count.int? with
    | some n => if 0 < n then rows n.toNat items.length items
      else if n == 0 then if items.isEmpty then [] else [] :: [items]
      else if items.isEmpty then [] else [items]
    | none => if items.isEmpty then [] else [items]
  if rows.isEmpty then return []
  match fill with
  | nothing => return rows.map list
  | fill =>
    let last := rows.getLastD []
    if ← before (int last.length) count then
      let room := (count.int?.getD 0) - last.length
      return (rows.dropLast ++ [last ++ List.replicate room.toNat fill]).map list
    else return rows.map list

/-- Items in so many columns, the shorter ones filled up. -/
def sliced (value count fill : Value) : Result (List Value) := do
  let items ← value.items
  let length := int items.length
  let each := (← divide length count).int?.getD 0
  let extra := (← modulo length count).int?.getD 0
  let columns ← count.needInt
  return (List.range columns.toNat).map fun n : Nat ↦
    let start : Int := n * each + min (n : Int) extra
    let size : Int := each + (if (n : Int) < extra then 1 else 0)
    let column := (items.drop start.toNat).take size.toNat
    list (match fill with
      | nothing => column
      | fill => if (n : Int) < extra then column else column ++ [fill])

/-- The pairs of a record. -/
def pairs (value : Value) : Result (List Value) :=
  match value with
  | undefined _ => .ok []
  | record fields => .ok (fields.map fun (key, field) ↦ tuple [key, field])
  | _ => wrongKind "Can only get item pairs from a mapping."

/-- The attribute that a value has by its kind. -/
def ownAttribute (value name : Value) : Result Value :=
  match value, name with
  | undefined complaint, _ => complain complaint
  | value, text cs | value, html cs =>
    let name := String.ofList cs
    .ok ((value.attribute? name).getD (value.noMember name))
  | _, name => wrongKind ("attribute name must be string, not '" ++ name.kind ++ "'")

end Guidebook.Template.Value
