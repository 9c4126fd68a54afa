import Guidebook.Template.Sort

/-!
# Values as JSON

Values written as JSON that is safe inside markup: everything outside ASCII and everything that
means something there is escaped. Fields come in the order of their keys.
-/

namespace Guidebook.Template.Value

/-- One unit of sixteen bits, escaped. -/
def jsonUnit (n : Nat) : List Char := ['\\', 'u'] ++ Text.hexDigits 4 n

/-- One character inside a JSON text. -/
def jsonChar (c : Char) : List Char :=
  let n := c.toNat
  match c with
  | '"' => ['\\', '"']
  | '\\' => ['\\', '\\']
  | '\n' => ['\\', 'n']
  | '\r' => ['\\', 'r']
  | '\t' => ['\\', 't']
  | '\x08' => ['\\', 'b']
  | '\x0c' => ['\\', 'f']
  | '<' | '>' | '&' | '\'' => jsonUnit n
  | c =>
    if 0x20 ≤ n && n ≤ 0x7e then [c]
    else if n < 0x10000 then jsonUnit n
    else jsonUnit (0xd800 + (n - 0x10000) / 0x400) ++ jsonUnit (0xdc00 + (n - 0x10000) % 0x400)

/-- A JSON text. -/
def jsonText (cs : List Char) : List Char := '"' :: cs.flatMap jsonChar ++ ['"']

/-- A number with a point. -/
def jsonFloat (x : Float) : List Char :=
  if x.isNaN then "NaN".toList
  else if x.isInf then (if x < 0 then "-Infinity" else "Infinity").toList
  else Text.writeFloat x

/-- The key of a field. -/
def jsonKey : Value → Result (List Char)
  | text cs | html cs => .ok cs
  | int n => .ok (toString n).toList
  | bool b => .ok (toString b).toList
  | nothing => .ok "null".toList
  | float x => .ok (jsonFloat x)
  | key => wrongKind ("keys must be str, int, float, bool or None, not " ++ key.kind)

/-- How items are laid out: what an indent is, if lines are broken, and how many of them are in
front of a line. -/
structure JsonLayout where
  indent : Option (List Char)
  depth : Nat
  deriving Repr

/-- A layout one level deeper. -/
def JsonLayout.deeper (layout : JsonLayout) : JsonLayout :=
  { layout with depth := layout.depth + 1 }

/-- The start of a line. -/
def JsonLayout.line (layout : JsonLayout) : List Char :=
  match layout.indent with
  | none => []
  | some indent => '\n' :: (List.replicate layout.depth indent).flatten

/-- Written items between brackets. -/
def JsonLayout.bracketed (layout : JsonLayout) (opening closing : Char)
    (items : List (List Char)) : List Char :=
  if items.isEmpty then [opening, closing]
  else
    let separator := if layout.indent.isSome then ',' :: layout.deeper.line else [',', ' ']
    opening :: layout.deeper.line ++ Text.joinWith separator items ++ layout.line ++ [closing]

/-- A value as JSON. -/
def json (layout : JsonLayout) : Nat → Value → Result (List Char)
  | 0, _ => .error (.broken .value "Circular reference detected")
  | fuel + 1, value =>
    match value with
    | nothing => .ok "null".toList
    | bool b => .ok (toString b).toList
    | int n => .ok (toString n).toList
    | float x => .ok (jsonFloat x)
    | text cs | html cs => .ok (jsonText cs)
    | list items | tuple items => do
      return layout.bracketed '[' ']' (← items.mapM (json layout.deeper fuel))
    | group common items => do
      return layout.bracketed '[' ']' (← [common, list items].mapM (json layout.deeper fuel))
    | record fields => do
      let fields ← sortByKey false (fields.map fun field ↦ (field.1, field))
      let written ← fields.mapM fun (key, field) ↦ do
        return jsonText (← jsonKey key) ++ [':', ' '] ++ (← json layout.deeper fuel field)
      return layout.bracketed '\x7b' '\x7d' written
    | value => wrongKind ("Object of type " ++ value.kind ++ " is not JSON serializable")

/-- How deep values are written. -/
def jsonDepth : Nat := 900

/-- A value as JSON, on lines of its own if an indent is given. -/
def toJson (value indent : Value) : Result Value := do
  let indent ← match indent with
    | nothing => pure none
    | text cs | html cs => pure (some cs)
    | indent =>
      match indent.int? with
      | some n => pure (some (List.replicate n.toNat ' '))
      | none =>
        wrongKind ("can't multiply sequence by non-int of type '" ++ indent.kind ++ "'")
  return html (← json ⟨indent, 0⟩ jsonDepth value)

end Guidebook.Template.Value
