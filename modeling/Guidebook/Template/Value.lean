import Guidebook.Template.Problem
import Guidebook.Template.Statement
import Guidebook.Text.Decimal
import Guidebook.Text.Quoted
import Guidebook.Theme.Context
import Guidebook.Theme.Markup

/-!
# Values of templates

What an expression of a template means. A name, attribute or item that does not exist is a value of
its own, which prints as nothing and complains only when something is asked of it. Text that is
clean already is told apart from text that is escaped when it is printed.
-/

namespace Guidebook.Template

/-- A definition: a body with parameters, and the place where it was written. -/
structure Routine where
  /-- Bodies of calls have no name. -/
  name : Option String
  parameters : List Parameter
  body : List Statement
  /-- The body asks for named arguments that are no parameters. -/
  takesNamed : Bool
  /-- The body asks for arguments beyond the parameters. -/
  takesMore : Bool
  /-- The body asks for the body of its call. -/
  takesCaller : Bool
  frame : Nat
  context : Nat
  root : Nat
  template : String
  escapes : Bool
  deriving Repr

/-- The kinds of values that change while a template is run. -/
inductive CellKind where
  | names
  | cycle
  | separator
  deriving Repr, DecidableEq

/-- A value. -/
inductive Value where
  | undefined (complaint : String)
  | nothing
  | bool (b : Bool)
  | int (n : Int)
  | float (x : Float)
  | text (text : List Char)
  | html (html : List Char)
  | list (items : List Value)
  | tuple (items : List Value)
  | record (fields : List (Value × Value))
  | range (start stop step : Int)
  /-- Items that are found one after another, up to a problem. -/
  | stream (kind : String) (items : List Value) (problem : Option Problem)
  /-- Keys, values or fields of a record. -/
  | view (kind : String) (items : List Value)
  /-- Items that have something in common. -/
  | group (common : Value) (items : List Value)
  | slice (start stop step : Value)
  | builtin (name : String)
  | method (of : Value) (name : String)
  | routine (routine : Routine)
  /-- A loop at one of its items. `changes` is the cell of what it was last asked about. -/
  | loop (items : List Value) (position depth changes : Nat) (recursion : Option Nat)
  /-- Something that changes, with the fields it had when it was last looked at. -/
  | cell (kind : CellKind) (place : Nat) (fields : List (Value × Value))
  | module (name : String) (text : List Char) (fields : List (String × Value))
  /-- A part of a template, as the template of some depth has it. -/
  | part (name : String) (depth context : Nat)
  /-- All parts of a template. -/
  | parts (template : String) (context : Nat)
  deriving Repr, Inhabited

/-- A result that may be a problem. -/
abbrev Result := Except Problem

/-- Operands or arguments of the wrong kind. -/
def wrongKind {α : Type} (text : String) : Result α := .error (.broken .kind text)

/-- A complaint. -/
def complain {α : Type} (text : String) : Result α := .error (.complaint text)

namespace Value

/-- Text of a string. -/
def ofString (s : String) : Value := text s.toList

/-- A record with text for keys. -/
def ofFields (fields : List (String × Value)) : Value :=
  record (fields.map fun (name, value) ↦ (ofString name, value))

/-! Kinds -/

/-- The name of a value's kind. -/
def kind : Value → String
  | undefined _ => "Undefined"
  | nothing => "NoneType"
  | bool _ => "bool"
  | int _ => "int"
  | float _ => "float"
  | text _ => "str"
  | html _ => "Markup"
  | list _ => "list"
  | tuple _ => "tuple"
  | record _ => "dict"
  | range .. => "range"
  | stream kind .. => kind
  | view kind _ => kind
  | group .. => "_GroupTuple"
  | slice .. => "slice"
  | builtin name => if name == "lipsum" then "function" else "type"
  | method .. => "builtin_function_or_method"
  | routine _ => "Macro"
  | loop .. => "LoopContext"
  | cell .names .. => "Namespace"
  | cell .cycle .. => "Cycler"
  | cell .separator .. => "Joiner"
  | module .. => "TemplateModule"
  | part .. => "BlockReference"
  | parts .. => "TemplateReference"

/-- The place of a value's kind among all kinds, if it is not a common one. -/
def kindPlace : Value → String
  | html _ => "markupsafe."
  | undefined _ | routine _ | loop .. | part .. | parts .. => "jinja2.runtime."
  | cell .. => "jinja2.utils."
  | module .. => "jinja2.environment."
  | group .. => "jinja2.filters."
  | _ => ""

/-- How a complaint calls the kind of a value. -/
def kindInComplaint : Value → String
  | nothing => "None"
  | value => value.kindPlace ++ value.kind ++ " object"

/-! Text -/

/-- The numbers of a range. -/
def rangeItems (start stop step : Int) : List Int :=
  let count := if step == 0 then 0
    else if 0 < step then (stop - start + step - 1).fdiv step
    else (start - stop - step - 1).fdiv (-step)
  (List.range count.toNat).map fun n : Nat ↦ start + n * step

/-- A number as it is written. -/
def showRange (start stop step : Int) : String :=
  "range(" ++ toString start ++ ", " ++ toString stop ++
    (if step == 1 then "" else ", " ++ toString step) ++ ")"

/-- A class of values as it is written. -/
def showBuiltin (name : String) : String :=
  let place := match name with
    | "cycler" => "jinja2.utils.Cycler"
    | "joiner" => "jinja2.utils.Joiner"
    | "namespace" => "jinja2.utils.Namespace"
    | name => name
  "<class '" ++ place ++ "'>"

mutual

/-- A value inside a list or record. -/
def showInside : Value → List Char
  | undefined _ => "Undefined".toList
  | nothing => "None".toList
  | bool b => (if b then "True" else "False").toList
  | int n => (toString n).toList
  | float x => Text.writeFloat x
  | text cs => (Text.quoted (String.ofList cs)).toList
  | html cs => "Markup(".toList ++ (Text.quoted (String.ofList cs)).toList ++ [')']
  | list items => '[' :: showItems items ++ [']']
  | tuple [item] => '(' :: showInside item ++ [',', ')']
  | tuple items => '(' :: showItems items ++ [')']
  | record fields => '{' :: showFields fields ++ ['}']
  | range start stop step => (showRange start stop step).toList
  | stream kind .. => ("<" ++ kind ++ " object>").toList
  | view kind items => kind.toList ++ '(' :: '[' :: showItems items ++ [']', ')']
  | group common items =>
    '(' :: showInside common ++ [',', ' ', '['] ++ showItems items ++ [']', ')']
  | slice start stop step =>
    "slice(".toList ++ showInside start ++ [',', ' '] ++ showInside stop ++ [',', ' '] ++
      showInside step ++ [')']
  | builtin name => (showBuiltin name).toList
  | method of name =>
    ("<built-in method " ++ name ++ " of " ++ of.kind ++ " object>").toList
  | routine r => ("<Macro " ++ (r.name.map Text.quoted).getD "anonymous" ++ ">").toList
  | loop items position .. =>
    ("<LoopContext " ++ toString (position + 1) ++ "/" ++ toString items.length ++ ">").toList
  | cell .names _ fields => "<Namespace \x7b".toList ++ showFields fields ++ ['\x7d', '>']
  | cell .cycle .. => "<Cycler>".toList
  | cell .separator .. => "<Joiner>".toList
  | module name .. => ("<TemplateModule " ++ Text.quoted name ++ ">").toList
  | part name .. => ("<BlockReference " ++ Text.quoted name ++ ">").toList
  | parts template _ => ("<TemplateReference " ++ Text.quoted template ++ ">").toList

/-- The items of a list. -/
def showItems : List Value → List Char
  | [] => []
  | [item] => showInside item
  | item :: rest => showInside item ++ [',', ' '] ++ showItems rest

/-- The fields of a record. -/
def showFields : List (Value × Value) → List Char
  | [] => []
  | [(key, value)] => showInside key ++ [':', ' '] ++ showInside value
  | (key, value) :: rest =>
    showInside key ++ [':', ' '] ++ showInside value ++ [',', ' '] ++ showFields rest

end

/-- A value as text. -/
def toText : Value → List Char
  | undefined _ => []
  | text cs | html cs | module _ cs _ => cs
  | value => showInside value

/-- Whether a value is clean text. -/
def isHtml : Value → Bool
  | html _ => true
  | _ => false

/-- Whether a value is text. -/
def isText : Value → Bool
  | text _ | html _ => true
  | _ => false

/-- A value as markup. -/
def toHtml : Value → List Char
  | html cs | module _ cs _ => cs
  | value => Theme.escape value.toText

/-- A value as it is printed. -/
def print (escapes : Bool) (value : Value) : List Char :=
  if escapes then value.toHtml else value.toText

/-- Text of the same kind as a value. -/
def withText (value : Value) (cs : List Char) : Value := if value.isHtml then html cs else text cs

/-! Truth, equality and order -/

/-- Whether a condition takes a value for true. -/
def truth : Value → Bool
  | undefined _ | nothing => false
  | bool b => b
  | int n => n != 0
  | float x => x != 0
  | text cs | html cs => !cs.isEmpty
  | list items | tuple items | view _ items | loop items .. => !items.isEmpty
  | record fields => !fields.isEmpty
  | range start stop step => !(rangeItems start stop step).isEmpty
  | _ => true

/-- A whole number or a number with a point. -/
inductive Number where
  | int (n : Int)
  | float (x : Float)

/-- A number as one with a point. -/
def Number.toFloat : Number → Float
  | int n => Text.floatOfInt n
  | float x => x

/-- A value as a number, if it is one. -/
def number? : Value → Option Number
  | bool b => some (.int (if b then 1 else 0))
  | int n => some (.int n)
  | float x => some (.float x)
  | _ => none

/-- A value as a whole number, if it is one. -/
def int? : Value → Option Int
  | bool b => some (if b then 1 else 0)
  | int n => some n
  | _ => none

/-- The order of two numbers, if they have one. -/
def Number.order : Number → Number → Option Ordering
  | int a, int b => some (compare a b)
  | a, b =>
    let (x, y) := (a.toFloat, b.toFloat)
    if x < y then some .lt else if y < x then some .gt else if x == y then some .eq else none

mutual

/-- Whether two values are equal. -/
def same : Value → Value → Bool
  | undefined _, undefined _ => true
  | nothing, nothing => true
  | text a, text b | text a, html b | html a, text b | html a, html b => a == b
  | list a, list b => sameItems a b
  | tuple a, tuple b => sameItems a b
  | group c a, tuple [d, list b] => same c d && sameItems a b
  | tuple [c, list a], group d b => same c d && sameItems a b
  | group c a, group d b => same c d && sameItems a b
  | record a, record b => a.length == b.length && sameFields a b
  | range a b c, range d e f => rangeItems a b c == rangeItems d e f
  | builtin a, builtin b => a == b
  | cell _ a _, cell _ b _ => a == b
  | a, b =>
    match a.number?, b.number? with
    | some m, some n => m.order n == some .eq
    | _, _ => false

/-- Whether the items of two lists are equal. -/
def sameItems : List Value → List Value → Bool
  | [], [] => true
  | a :: as, b :: bs => same a b && sameItems as bs
  | _, _ => false

/-- Whether the fields of a record are fields of another. -/
def sameFields : List (Value × Value) → List (Value × Value) → Bool
  | [], _ => true
  | (k, a) :: as, bs => (bs.any fun (l, b) ↦ same k l && same a b) && sameFields as bs

end

/-- The complaint about operands that do not fit. -/
def misfit {α : Type} (symbol : String) (a b : Value) : Result α :=
  match a, b with
  | undefined complaint, _ | _, undefined complaint => complain complaint
  | a, b =>
    wrongKind ("unsupported operand type(s) for " ++ symbol ++ ": '" ++ a.kind ++ "' and '" ++
      b.kind ++ "'")

/-- The complaint about values that have no order. -/
def noOrder {α : Type} (symbol : String) (a b : Value) : Result α :=
  match a, b with
  | undefined complaint, _ | _, undefined complaint => complain complaint
  | a, b =>
    wrongKind ("'" ++ symbol ++ "' not supported between instances of '" ++ a.kind ++ "' and '" ++
      b.kind ++ "'")

mutual

/-- The order of two values, if they have one; `symbol` is what asks for it. -/
def order (symbol : String) : Value → Value → Result (Option Ordering)
  | text a, text b | text a, html b | html a, text b | html a, html b =>
    .ok (some (if a == b then .eq else if Text.lessThan a b then .lt else .gt))
  | list a, list b => orderItems symbol a b
  | tuple a, tuple b => orderItems symbol a b
  | group c a, group d b =>
    if same c d then orderItems symbol a b else order symbol c d
  | a, b =>
    match a.number?, b.number? with
    | some m, some n => .ok (m.order n)
    | _, _ => noOrder symbol a b

/-- The order of two lists: that of the first items that differ. -/
def orderItems (symbol : String) : List Value → List Value → Result (Option Ordering)
  | [], [] => .ok (some .eq)
  | [], _ => .ok (some .lt)
  | _, [] => .ok (some .gt)
  | a :: as, b :: bs => if same a b then orderItems symbol as bs else order symbol a b

end

/-- Whether a value comes before another. -/
def before (a b : Value) : Result Bool := (order "<" a b).map (· == some .lt)

/-! Items -/

/-- A whole number of a length. -/
def ofLength (n : Nat) : Value := int n

/-- The items that a loop goes through. -/
def items : Value → Result (List Value)
  | undefined _ => .ok []
  | text cs | html cs => .ok (cs.map fun c ↦ text [c])
  | list items | tuple items | view _ items => .ok items
  | group common items => .ok [common, list items]
  | record fields => .ok (fields.map (·.1))
  | range start stop step => .ok ((rangeItems start stop step).map int)
  | stream _ items none => .ok items
  | stream _ _ (some problem) => .error problem
  | value => wrongKind ("'" ++ value.kind ++ "' object is not iterable")

/-- Whether a loop can go through a value. -/
def hasItems : Value → Bool
  | stream .. => true
  | value => value.items.isOk

/-- The number of items. -/
def length : Value → Result Nat
  | undefined _ => .ok 0
  | stream kind .. => wrongKind ("object of type '" ++ kind ++ "' has no len()")
  | loop items .. => .ok items.length
  | value =>
    match value.items with
    | .ok items => .ok items.length
    | .error _ => wrongKind ("object of type '" ++ value.kind ++ "' has no len()")

/-- Whether a value can be a key. -/
def isKey : Value → Bool
  | list _ | record _ | slice .. | group .. => false
  | tuple items => items.attach.all fun ⟨item, _⟩ ↦ item.isKey
  | _ => true

/-- The value that cannot be a key. -/
def firstUnfit : Value → Value
  | tuple items =>
    match items.find? fun item ↦ !item.isKey with
    | some item => item
    | none => nothing
  | group _ items => list items
  | value => value

/-- The complaint about a key that cannot be one. -/
def checkKey (value : Value) : Result Unit :=
  if value.isKey then .ok ()
  else wrongKind ("unhashable type: '" ++ value.firstUnfit.kind ++ "'")

/-- The field of a key. -/
def field? (fields : List (Value × Value)) (key : Value) : Option Value :=
  (fields.find? fun field ↦ same field.1 key).map (·.2)

/-- Fields with a value for a key, in the place of the one it has or at the end. -/
def setField (fields : List (Value × Value)) (key value : Value) : List (Value × Value) :=
  if fields.any fun field ↦ same field.1 key then
    fields.map fun field ↦ if same field.1 key then (field.1, value) else field
  else fields ++ [(key, value)]

/-- Fields without that of a key. -/
def dropField (fields : List (Value × Value)) (key : Value) : List (Value × Value) :=
  fields.filter fun field ↦ !same field.1 key

/-- The item at a position, counted from the end if it is negative. -/
def itemAt? {α : Type} (items : List α) (n : Int) : Option α :=
  if 0 ≤ n then items[n.toNat]?
  else if (-n).toNat ≤ items.length then items[items.length - (-n).toNat]? else none

/-- The complaint about an attribute that does not exist. -/
def noMember (value : Value) (name : String) : Value :=
  undefined (Text.quoted value.kindInComplaint ++ " has no attribute " ++ Text.quoted name)

/-- The complaint about an item that does not exist. -/
def noItem (value : Value) (key : Value) : Value :=
  match key with
  | text name | html name => noMember value (String.ofList name)
  | key => undefined (value.kindInComplaint ++ " has no element " ++ String.ofList key.showInside)

end Value

/-- A page or code as a value, if there is one. -/
def Value.ofOption : Option String → Value
  | some s => .ofString s
  | none => .nothing

/-- A file of an outline as a value. -/
def Value.ofFile (file : Outline.File) : Value :=
  .ofFields [("name", .ofString file.name), ("depth", .int file.depth),
    ("path", .ofString file.path)]

mutual

/-- An outline as a value. -/
def Value.ofDirectory : Outline.Directory → Value
  | .node name depth directories files =>
    .ofFields [("name", .ofString name), ("depth", .int depth),
      ("directories", .list (Value.ofDirectories directories)),
      ("files", .list (files.map Value.ofFile))]

/-- Directories of an outline as values. -/
def Value.ofDirectories : List Outline.Directory → List Value
  | [] => []
  | directory :: rest => Value.ofDirectory directory :: Value.ofDirectories rest

end

/-- A page of the index as a value. -/
def Value.ofEntry (entry : IndexEntry) : Value :=
  .ofFields [("name", .ofString entry.name), ("code", .ofString entry.code)]

/-- A guide as a value. -/
def Value.ofGuide (guide : GuideContext) : Value :=
  .ofFields [("title", .ofString guide.title), ("base_url", .ofString guide.baseUrl),
    ("pygments_style", .ofString guide.style), ("index", .list (guide.index.map Value.ofEntry))]

/-- A page as a value. -/
def Value.ofPage (page : PageContext) : Value :=
  .ofFields [("number", .int page.number), ("title", .ofString page.title),
    ("code", .ofString page.code), ("content", .text page.content),
    ("workspace", .ofDirectory page.workspace), ("url", .ofString page.url),
    ("previous_page_code", .ofOption page.previous), ("next_page_code", .ofOption page.next)]

end Guidebook.Template
