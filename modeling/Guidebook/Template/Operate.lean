import Guidebook.Template.Format

/-!
# Operations on values

Operators, comparisons, items and attributes. Whatever is asked of a value that does not exist is
answered with that value's complaint.
-/

namespace Guidebook.Template.Value

/-! Arithmetic -/

/-- A division by zero. -/
def byZero {α : Type} (text : String) : Result α := .error (.broken .division text)

/-- An operator on numbers. -/
def onNumbers (symbol : String) (onInts : Int → Int → Result Value)
    (onFloats : Float → Float → Result Value) (a b : Value) : Result Value :=
  match a.number?, b.number? with
  | some (.int m), some (.int n) => onInts m n
  | some m, some n => onFloats m.toFloat n.toFloat
  | _, _ => misfit symbol a b

/-- Values of one kind put together with a value of another. -/
def cannotJoin {α : Type} (a b : Value) : Result α :=
  match b with
  | undefined complaint => complain complaint
  | b =>
    let kind := if a.isHtml then "str" else a.kind
    wrongKind ("can only concatenate " ++ kind ++ " (not \"" ++ b.kind ++ "\") to " ++ kind)

/-- A sum: of numbers, texts or lists. -/
def add (a b : Value) : Result Value :=
  match a, b with
  | undefined complaint, _ => complain complaint
  | text s, text t => .ok (text (s ++ t))
  | html s, text t => .ok (html (s ++ Theme.escape t))
  | text s, html t => .ok (html (Theme.escape s ++ t))
  | html s, html t => .ok (html (s ++ t))
  | list s, list t => .ok (list (s ++ t))
  | tuple s, tuple t => .ok (tuple (s ++ t))
  | text _, b | html _, b | list _, b | tuple _, b => cannotJoin a b
  | a, b => onNumbers "+" (fun m n ↦ .ok (int (m + n))) (fun x y ↦ .ok (float (x + y))) a b

/-- A value repeated so many times. -/
def repeated? (value : Value) (n : Int) : Option Value :=
  let times := fun {α : Type} (items : List α) ↦ (List.replicate n.toNat items).flatten
  match value with
  | text cs => some (text (times cs))
  | html cs => some (html (times cs))
  | list items => some (list (times items))
  | tuple items => some (tuple (times items))
  | _ => none

/-- Whether a value can be repeated. -/
def isRepeatable (value : Value) : Bool := (value.repeated? 0).isSome

/-- A product of numbers, or a value repeated. -/
def multiply (a b : Value) : Result Value :=
  match a, b with
  | undefined complaint, _ | _, undefined complaint => complain complaint
  | a, b =>
    let misfit := fun (other : Value) ↦
      wrongKind ("can't multiply sequence by non-int of type '" ++ other.kind ++ "'")
    match a.isRepeatable, b.isRepeatable with
    | true, _ => ((b.int?.bind a.repeated?).map Except.ok).getD (misfit b)
    | false, true => ((a.int?.bind b.repeated?).map Except.ok).getD (misfit a)
    | false, false =>
      onNumbers "*" (fun m n ↦ .ok (int (m * n))) (fun x y ↦ .ok (float (x * y))) a b

/-- A fraction whose lower side is a power of two, as a number. -/
def ofFraction (n : Int) (d : Nat) : Float := (Text.floatOfInt n).scaleB (-(Nat.log2 d : Int))

/-- A number as a fraction whose lower side is a power of two. -/
def fractionOf (x : Float) : Int × Nat :=
  let (n, d) := (Text.Dyadic.ofFloat x).fraction
  (if Text.isNegative x then -n else n, d)

/-- What is left of a number after division by another, with the sign of that. -/
def floatModulo (x y : Float) : Float :=
  if x.isNaN || y.isNaN || x.isInf then 0.0 / 0.0
  else if y.isInf then if x == 0 || (x < 0) == (y < 0) then x else y
  else
    let ((m, c), (n, d)) := (fractionOf x, fractionOf y)
    ofFraction ((m * d).fmod (n * c)) (c * d)

/-- The greatest whole number not above a quotient. -/
def floatFloor (x y : Float) : Float :=
  if x.isNaN || y.isNaN || x.isInf then 0.0 / 0.0
  else if y.isInf then if x == 0 || (x < 0) == (y < 0) then 0.0 else -1.0
  else
    let ((m, c), (n, d)) := (fractionOf x, fractionOf y)
    Text.floatOfInt ((m * d).fdiv (n * c))

/-- A quotient. -/
def quotient (a b : Value) : Result Value :=
  onNumbers "/"
    (fun m n ↦ if n == 0 then byZero "division by zero"
      else .ok (float (Text.floatOfInt m / Text.floatOfInt n)))
    (fun x y ↦ if y == 0 then byZero "float division by zero" else .ok (float (x / y))) a b

/-- A quotient without what is behind its point. -/
def divide (a b : Value) : Result Value :=
  onNumbers "//"
    (fun m n ↦ if n == 0 then byZero "integer division or modulo by zero"
      else .ok (int (m.fdiv n)))
    (fun x y ↦ if y == 0 then byZero "float floor division by zero"
      else .ok (float (floatFloor x y))) a b

/-- What is left after a division; behind a text, the text with its places filled. -/
def modulo (a b : Value) : Result Value :=
  match a with
  | text cs => (percentFormatted false cs b).map text
  | html cs => (percentFormatted true cs b).map html
  | a =>
    onNumbers "%"
      (fun m n ↦ if n == 0 then byZero "integer modulo by zero" else .ok (int (m.fmod n)))
      (fun x y ↦ if y == 0 then byZero "float modulo" else .ok (float (floatModulo x y))) a b

/-- The greatest number of bits of a power that is worked out. -/
def maxPowerBits : Nat := 1000000

/-- A power. -/
def power (a b : Value) : Result Value :=
  let onFloats := fun (x y : Float) ↦
    if x == 0 && y < 0 then byZero "0.0 cannot be raised to a negative power"
    else .ok (float (x ^ y))
  onNumbers "** or pow()"
    (fun m n ↦
      if n < 0 then onFloats (Text.floatOfInt m) (Text.floatOfInt n)
      else if maxPowerBits < Nat.log2 m.natAbs * n.toNat then
        .error (.broken .overflow "power is too large")
      else .ok (int (Int.pow m n.toNat))) onFloats a b

/-- A number with the other sign, or with its own. -/
def signed (negative : Bool) (value : Value) : Result Value :=
  match value, value.number? with
  | undefined complaint, _ => complain complaint
  | _, some (.int n) => .ok (int (if negative then -n else n))
  | _, some (.float x) => .ok (float (if negative then -x else x))
  | value, none =>
    wrongKind ("bad operand type for unary " ++ (if negative then "-" else "+") ++ ": '" ++
      value.kind ++ "'")

/-- Two values written one after another. -/
def joined (escapes : Bool) (a b : Value) : Value :=
  if escapes && (a.isHtml || b.isHtml) then html (a.toHtml ++ b.toHtml)
  else text (a.toText ++ b.toText)

/-- An operator on two values that are known. -/
def operate (escapes : Bool) (operator : Operator) (a b : Value) : Result Value :=
  match operator with
  | .either => .ok (if a.truth then a else b)
  | .both => .ok (if a.truth then b else a)
  | .add => add a b
  | .subtract =>
    onNumbers "-" (fun m n ↦ .ok (int (m - n))) (fun x y ↦ .ok (float (x - y))) a b
  | .join => .ok (joined escapes a b)
  | .multiply => multiply a b
  | .quotient => quotient a b
  | .divide => divide a b
  | .modulo => modulo a b
  | .power => power a b

/-! Comparisons -/

/-- Whether a text occurs in another. -/
def occursIn (piece : List Char) : List Char → Bool
  | [] => piece.isEmpty
  | c :: rest => Text.startsWith piece (c :: rest) || occursIn piece rest

/-- Whether a value is in another. -/
def within (a b : Value) : Result Bool :=
  match b with
  | text cs | html cs =>
    match a with
    | text piece | html piece => .ok (occursIn piece cs)
    | a => wrongKind ("'in <string>' requires string as left operand, not " ++ a.kind)
  | record fields => do
    checkKey a
    pure (field? fields a).isSome
  | stream _ items problem =>
    if items.any (same a) then .ok true
    else match problem with
      | some problem => .error problem
      | none => .ok false
  | b =>
    match b.items with
    | .ok items => .ok (items.any (same a))
    | .error _ => wrongKind ("argument of type '" ++ b.kind ++ "' is not iterable")

/-- A comparison. -/
def compare (comparison : Comparison) (a b : Value) : Result Bool :=
  match comparison with
  | .equal => .ok (same a b)
  | .different => .ok (!same a b)
  | .less => (order "<" a b).map (· == some .lt)
  | .atMost => (order "<=" a b).map fun o ↦ o == some .lt || o == some .eq
  | .greater => (order ">" a b).map (· == some .gt)
  | .atLeast => (order ">=" a b).map fun o ↦ o == some .gt || o == some .eq
  | .within => within a b
  | .outside => (within a b).map (!·)

/-! Items -/

/-- A place of a cut, counted from the end if it is negative and kept between two bounds. -/
def cutPlace (length low high : Int) (place : Option Int) (default : Int) : Int :=
  match place with
  | none => default
  | some n => max low (min high (if n < 0 then n + length else n))

/-- A cut: from one place up to another, in steps. -/
structure Cut where
  start : Option Int
  stop : Option Int
  step : Int
  deriving Repr, DecidableEq

/-- The items of a cut. -/
def Cut.items {α : Type} (c : Cut) (items : List α) : List α :=
  let length : Int := items.length
  let places := if 0 < c.step then
      rangeItems (cutPlace length 0 length c.start 0) (cutPlace length 0 length c.stop length)
        c.step
    else
      rangeItems (cutPlace length (-1) (length - 1) c.start (length - 1))
        (cutPlace length (-1) (length - 1) c.stop (-1)) c.step
  places.filterMap fun n ↦ items[n.toNat]?

/-- An end or step of a cut. -/
def bound (value : Value) : Result (Option Int) :=
  match value, value.int? with
  | nothing, _ => .ok none
  | _, some n => .ok (some n)
  | _, none =>
    wrongKind "slice indices must be integers or None or have an __index__ method"

/-- A cut from its ends and its step. -/
def Cut.ofValues (start stop step : Value) : Result Cut := do
  let step ← bound step
  if step == some 0 then throw (.broken .value "slice step cannot be zero")
  return ⟨← bound start, ← bound stop, step.getD 1⟩

/-- Numbers at one distance as a range; `step` is the distance if there is but one. -/
def ofNumbers (first step : Int) : List Int → Value
  | [] => range first first step
  | [n] => range n (n + step) step
  | n :: m :: rest => range n (n + (m - n) * (rest.length + 2)) (m - n)

/-- The part of a value between two places. -/
def cut (value start stop step : Value) : Result Value := do
  match value with
  | undefined complaint => complain complaint
  | text cs => return text ((← Cut.ofValues start stop step).items cs)
  | html cs => return html ((← Cut.ofValues start stop step).items cs)
  | list items => return list ((← Cut.ofValues start stop step).items items)
  | tuple items => return tuple ((← Cut.ofValues start stop step).items items)
  | group common items =>
    return tuple ((← Cut.ofValues start stop step).items [common, list items])
  | range a b c =>
    let cut ← Cut.ofValues start stop step
    return ofNumbers a (c * cut.step) (cut.items (rangeItems a b c))
  | record _ => wrongKind "unhashable type: 'slice'"
  | value => wrongKind ("'" ++ value.kind ++ "' object is not subscriptable")

/-- The item of a key, if there is one. -/
def findItem (value key : Value) : Result (Option Value) :=
  match value with
  | undefined complaint => complain complaint
  | record fields => .ok (if key.isKey then field? fields key else none)
  | value =>
    match key with
    | slice start stop step =>
      match value.cut start stop step with
      | .ok piece => .ok (some piece)
      | .error (.broken .kind _) => .ok none
      | .error problem => .error problem
    | key =>
      .ok (key.int?.bind fun n ↦
        match value with
        | text cs => (itemAt? cs n).map fun c ↦ text [c]
        | html cs => (itemAt? cs n).map fun c ↦ html [c]
        | list items | tuple items => itemAt? items n
        | group common items => itemAt? [common, list items] n
        | range a b c => (itemAt? (rangeItems a b c) n).map int
        | _ => none)

/-! Attributes -/

/-- The methods of texts. -/
def textMethods : List String :=
  ["capitalize", "casefold", "center", "count", "endswith", "expandtabs", "find", "format",
    "format_map", "index", "isalnum", "isalpha", "isascii", "isdecimal", "isdigit", "isidentifier",
    "islower", "isnumeric", "isprintable", "isspace", "istitle", "isupper", "join", "ljust",
    "lower", "lstrip", "partition", "removeprefix", "removesuffix", "replace", "rfind", "rindex",
    "rjust", "rpartition", "rsplit", "rstrip", "split", "splitlines", "startswith", "strip",
    "swapcase", "title", "upper", "zfill"]

/-- The methods of lists. -/
def listMethods : List String :=
  ["append", "clear", "copy", "count", "extend", "index", "insert", "pop", "remove", "reverse",
    "sort"]

/-- The methods of records. -/
def recordMethods : List String :=
  ["clear", "copy", "get", "items", "keys", "pop", "popitem", "setdefault", "update", "values"]

/-- The methods of a value. -/
def methods : Value → List String
  | text _ => textMethods
  | html _ => ["striptags", "unescape"] ++ textMethods
  | list _ => listMethods
  | tuple _ | range .. | group .. => ["count", "index"]
  | record _ => recordMethods
  | int _ | bool _ => ["bit_length", "conjugate"]
  | float _ => ["is_integer", "conjugate"]
  | loop .. => ["cycle", "changed"]
  | cell .cycle .. => ["next", "reset"]
  | _ => []

/-- What a value says of itself, apart from its methods. -/
def property? (value : Value) (name : String) : Option Value :=
  match value, name with
  | int n, "real" | int n, "numerator" => some (int n)
  | int _, "imag" => some (int 0)
  | int _, "denominator" => some (int 1)
  | range n _ _, "start" | range _ n _, "stop" | range _ _ n, "step" => some (int n)
  | group common _, "grouper" => some common
  | group _ items, "list" => some (list items)
  | module _ _ fields, name => fields.lookup name
  | cell _ _ fields, name => field? fields (ofString name)
  | routine r, "name" => some ((r.name.map ofString).getD nothing)
  | routine r, "arguments" => some (tuple (r.parameters.map fun p ↦ ofString p.1))
  | routine r, "catch_kwargs" => some (bool r.takesNamed)
  | routine r, "catch_varargs" => some (bool r.takesMore)
  | routine r, "caller" => some (bool r.takesCaller)
  | _, _ => none

/-- What a loop says of itself at one of its items. -/
def loopProperty? (items : List Value) (position depth : Nat) (name : String) : Option Value :=
  let count := items.length
  match name with
  | "index" => some (int (position + 1))
  | "index0" => some (int position)
  | "revindex" => some (int (count - position))
  | "revindex0" => some (int (count - position - 1))
  | "first" => some (bool (position == 0))
  | "last" => some (bool (position + 1 == count))
  | "length" => some (int count)
  | "depth" => some (int (depth + 1))
  | "depth0" => some (int depth)
  | "previtem" =>
    if position == 0 then some (undefined "there is no previous item") else items[position - 1]?
  | "nextitem" => some ((items[position + 1]?).getD (undefined "there is no next item"))
  | _ => none

/-- The attribute of a name that a value has by its kind, if it has one. -/
def attribute? (value : Value) (name : String) : Option Value :=
  let own := match value with
    | loop items position depth .. => loopProperty? items position depth name
    | value => value.property? name
  own.orElse fun _ ↦ if value.methods.contains name then some (method value name) else none

/-- The attribute of a name: what a value has by its kind comes before its fields. -/
def member (value : Value) (name : String) : Result Value :=
  match value.attribute? name with
  | some found => .ok found
  | none => return (← value.findItem (ofString name)).getD (value.noMember name)

/-- The item of a key: the fields of a value come before what it has by its kind. -/
def item (value key : Value) : Result Value := do
  match ← value.findItem key with
  | some found => return found
  | none =>
    match key with
    | text name | html name =>
      return (value.attribute? (String.ofList name)).getD (value.noItem key)
    | key => return value.noItem key

/-- Whether a value can be called. -/
def isCallable : Value → Bool
  | undefined _ | builtin _ | method .. | routine _ | loop .. | part .. => true
  | cell .separator .. => true
  | _ => false

end Guidebook.Template.Value
