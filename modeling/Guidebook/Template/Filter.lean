import Guidebook.Template.ItemFilter
import Guidebook.Template.Json
import Guidebook.Template.Pretty

/-!
# Filters and tests

Filters and tests by the names that templates call them. Some of them apply another one to each
item of a value.
-/

namespace Guidebook.Template

/-- Filters that take a value and nothing else, with the names of their functions and the number of
arguments in front of the value. -/
def bareFilters : List (String × String × Nat) :=
  [("capitalize", "do_capitalize", 0), ("e", "escape", 0), ("escape", "escape", 0),
    ("first", "sync_do_first", 1), ("forceescape", "do_forceescape", 0), ("items", "do_items", 0),
    ("last", "do_last", 1), ("list", "sync_do_list", 0), ("lower", "do_lower", 0),
    ("pprint", "do_pprint", 0), ("random", "do_random", 1), ("reverse", "do_reverse", 0),
    ("safe", "do_mark_safe", 0), ("string", "soft_str", 0), ("striptags", "do_striptags", 0),
    ("title", "do_title", 0), ("upper", "do_upper", 0), ("urlencode", "do_urlencode", 0),
    ("wordcount", "do_wordcount", 0)]

/-- Filters with parameters: those that are required and those that are not. -/
def filterSignatures : List (String × Signature) :=
  [("attr", .ofNames "do_attr" 1 ["obj", "name"] []),
    ("batch", .ofNames "do_batch" 0 ["value", "linecount"] ["fill_with"]),
    ("center", .ofNames "do_center" 0 ["value"] ["width"]),
    ("d", .ofNames "do_default" 0 ["value"] ["default_value", "boolean"]),
    ("default", .ofNames "do_default" 0 ["value"] ["default_value", "boolean"]),
    ("dictsort", .ofNames "do_dictsort" 0 ["value"] ["case_sensitive", "by", "reverse"]),
    ("filesizeformat", .ofNames "do_filesizeformat" 0 ["value"] ["binary"]),
    ("float", .ofNames "do_float" 0 ["value"] ["default"]),
    ("groupby", .ofNames "sync_do_groupby" 1 ["value", "attribute"] ["default", "case_sensitive"]),
    ("indent", .ofNames "do_indent" 0 ["s"] ["width", "first", "blank"]),
    ("int", .ofNames "do_int" 0 ["value"] ["default", "base"]),
    ("join", .ofNames "sync_do_join" 1 ["value"] ["d", "attribute"]),
    ("max", .ofNames "do_max" 1 ["value"] ["case_sensitive", "attribute"]),
    ("min", .ofNames "do_min" 1 ["value"] ["case_sensitive", "attribute"]),
    ("replace", .ofNames "do_replace" 1 ["s", "old", "new"] ["count"]),
    ("round", .ofNames "do_round" 0 ["value"] ["precision", "method"]),
    ("slice", .ofNames "sync_do_slice" 0 ["value", "slices"] ["fill_with"]),
    ("sort", .ofNames "do_sort" 1 ["value"] ["reverse", "case_sensitive", "attribute"]),
    ("sum", .ofNames "sync_do_sum" 1 ["iterable"] ["attribute", "start"]),
    ("tojson", .ofNames "do_tojson" 1 ["value"] ["indent"]),
    ("trim", .ofNames "do_trim" 0 ["value"] ["chars"]),
    ("truncate", .ofNames "do_truncate" 1 ["s"] ["length", "killwords", "end", "leeway"]),
    ("unique", .ofNames "do_unique" 1 ["value"] ["case_sensitive", "attribute"]),
    ("urlize", .ofNames "do_urlize" 1 ["value"]
      ["trim_url_limit", "nofollow", "target", "rel", "extra_schemes"]),
    ("wordwrap", .ofNames "do_wordwrap" 1 ["s"]
      ["width", "break_long_words", "wrapstring", "break_on_hyphens"]),
    ("xmlattr", .ofNames "do_xmlattr" 1 ["d"] ["autospace"])]

/-- Filters that take any arguments. -/
def openFilters : List String :=
  ["abs", "count", "length", "format", "map", "select", "reject", "selectattr", "rejectattr"]

/-- Filters that take any value for text. -/
def softFilters : List String :=
  ["capitalize", "e", "escape", "lower", "string", "title", "upper", "wordcount"]

/-- The names of filters. -/
def filterNames : List String :=
  bareFilters.map (·.1) ++ filterSignatures.map (·.1) ++ openFilters

/-- Tests of a value and nothing else, with the names of their functions and the number of
arguments in front of the value. -/
def bareTests : List (String × String × Nat) :=
  [("boolean", "test_boolean", 0), ("defined", "test_defined", 0), ("escaped", "test_escaped", 0),
    ("even", "test_even", 0), ("false", "test_false", 0), ("filter", "test_filter", 1),
    ("float", "test_float", 0), ("integer", "test_integer", 0), ("iterable", "test_iterable", 0),
    ("lower", "test_lower", 0), ("mapping", "test_mapping", 0), ("none", "test_none", 0),
    ("number", "test_number", 0), ("odd", "test_odd", 0), ("sequence", "test_sequence", 0),
    ("string", "test_string", 0), ("test", "test_test", 1), ("true", "test_true", 0),
    ("undefined", "test_undefined", 0), ("upper", "test_upper", 0)]

/-- Tests of a value with another one. -/
def pairTests : List (String × Signature) :=
  [("divisibleby", .ofNames "test_divisibleby" 0 ["value", "num"] []),
    ("in", .ofNames "test_in" 0 ["value", "seq"] []),
    ("sameas", .ofNames "test_sameas" 0 ["value", "other"] [])]

/-- Tests that compare a value with another one. -/
def comparisonTests : List (String × String × Comparison) :=
  [("==", "eq", .equal), ("eq", "eq", .equal), ("equalto", "eq", .equal), ("!=", "ne", .different),
    ("ne", "ne", .different), (">", "gt", .greater), ("gt", "gt", .greater),
    ("greaterthan", "gt", .greater), (">=", "ge", .atLeast), ("ge", "ge", .atLeast),
    ("<", "lt", .less), ("lt", "lt", .less), ("lessthan", "lt", .less), ("<=", "le", .atMost),
    ("le", "le", .atMost)]

/-- The names of tests. -/
def testNames : List String :=
  bareTests.map (·.1) ++ pairTests.map (·.1) ++ comparisonTests.map (·.1) ++ ["callable"]

namespace Value

/-! Tests -/

/-- Whether two values are one and the same. -/
def isSame (a b : Value) : Bool :=
  match a, b with
  | nothing, nothing => true
  | bool a, bool b => a == b
  | int a, int b => a == b
  | text a, text b => a == b
  | undefined a, undefined b => a == b
  | builtin a, builtin b => a == b
  | cell _ a _, cell _ b _ => a == b
  | _, _ => false

/-- A test of a value and nothing else. -/
def testBare (name : String) (value : Value) : Result Bool := do
  let names := if name == "filter" then filterNames else testNames
  match name, value with
  | "boolean", bool _ | "undefined", undefined _ | "none", nothing => return true
  | "defined", undefined _ => return false
  | "defined", _ => return true
  | "escaped", html _ | "escaped", module .. => return true
  | "even", value => return same (← modulo value (int 2)) (int 0)
  | "odd", value => return same (← modulo value (int 2)) (int 1)
  | "false", bool b => return !b
  | "true", bool b => return b
  | "filter", value | "test", value =>
    checkKey value
    return value.isText && names.contains (String.ofList value.toText)
  | "float", float _ | "integer", int _ | "mapping", record _ => return true
  | "string", value => return value.isText
  | "iterable", value => return value.hasItems
  | "lower", value => return textProperty "islower" value.toText
  | "upper", value => return textProperty "isupper" value.toText
  | "number", value => return value.number?.isSome
  | "sequence", text _ | "sequence", html _ => return true
  | "sequence", list _ | "sequence", tuple _ => return true
  | "sequence", record _ | "sequence", range .. | "sequence", group .. => return true
  | "sequence", undefined _ => return true
  | _, _ => return false

/-- A test of a value with arguments. -/
def tested (name : String) (value : Value) (arguments : Arguments) : Result Bool := do
  let given : Arguments := { arguments with plain := value :: arguments.plain }
  match bareTests.lookup name, pairTests.lookup name, comparisonTests.lookup name with
  | some (function, hidden), _, _ =>
    let _ ← (Signature.ofNames function hidden ["value"] []).bind given
    testBare name value
  | _, some signature, _ =>
    let other := valueAt (← signature.bind given) 1 nothing
    match name with
    | "divisibleby" => return same (← modulo value other) (int 0)
    | "in" => within value other
    | _ => return isSame value other
  | _, _, some (function, comparison) =>
    given.atMost "_operator" function 2 2
    compare comparison value (arguments.plain.headD nothing)
  | none, none, none =>
    if name == "callable" then
      given.atMost "" "callable" 1 1
      return value.isCallable
    else complain ("No test named " ++ Text.quoted name ++ ".")

/-! Filters -/

/-- A filter of a value and nothing else. -/
def filteredBare (name : String) (value : Value) : Result Value :=
  let cs := value.toText
  match name with
  | "capitalize" => .ok (value.withText (Text.capitalize cs))
  | "e" | "escape" => .ok (html value.toHtml)
  | "first" => firstItem value
  | "forceescape" => .ok (html (Theme.escape cs))
  | "items" => .ok (lazily generator (pairs value))
  | "last" => lastItem value
  | "list" => value.items.map list
  | "lower" => .ok (value.withText (Text.lowerAll cs))
  | "pprint" => .ok (text value.pretty)
  | "random" => anyItem value
  | "reverse" => reversed value
  | "safe" => .ok (html cs)
  | "string" => .ok value.soft
  | "striptags" => .ok (text (stripTags cs))
  | "title" => .ok (text (titled cs))
  | "upper" => .ok (value.withText (Text.upperAll cs))
  | "urlencode" => urlEncode value
  | _ => .ok (int (wordCount false cs))

/-- A filter with parameters that have their values. -/
def filteredWith (escapes : Bool) (name : String) (value : Value) (given : List (Option Value)) :
    Result Value := do
  let argument := fun (n : Nat) (default : Value) ↦ valueAt given n default
  let (first, second, third) := (argument 1 nothing, argument 2 nothing, argument 3 nothing)
  match name with
  | "attr" => ownAttribute value first
  | "batch" => return lazily generator (batched value first second)
  | "center" =>
    let width ← (argument 1 (int 80)).needInt
    return value.soft.withText (centered width ' ' value.toText)
  | "d" | "default" =>
    match value with
    | undefined _ => return argument 1 (text [])
    | value => return if second.truth && !value.truth then argument 1 (text []) else value
  | "dictsort" => sortedPairs value first (argument 2 (ofString "key")) third
  | "filesizeformat" => fileSize value first.truth
  | "float" =>
    match value with
    | undefined complaint => complain complaint
    | value => return ((floatOf? value).map float).getD (argument 1 (float 0.0))
  | "groupby" => grouped value first second third
  | "indent" => indented value (argument 1 (int 4)) second third
  | "int" => toInt value (argument 1 (int 0)) (argument 2 (int 10))
  | "join" => joinAll escapes value (argument 1 (text [])) second
  | "max" => extreme value first second true
  | "min" => extreme value first second false
  | "replace" => replaced escapes value first second third
  | "round" =>
    roundTo value (argument 1 (int 0)) (String.ofList (argument 2 (ofString "common")).toText)
  | "slice" => return lazily generator (sliced value first second)
  | "sort" => sorted value first second third
  | "sum" => summed value first (argument 2 (int 0))
  | "tojson" => toJson value first
  | "trim" => return value.soft.withText (← stripped "strip" value.toText (given[1]?).join)
  | "truncate" =>
    truncateText value (argument 1 (int 255)) second (argument 3 (ofString "..."))
      (argument 4 nothing)
  | "unique" => return lazily generator (uniqueItems value first second)
  | "urlize" =>
    withLinks escapes value first second third (argument 4 nothing) (argument 5 nothing)
  | "wordwrap" =>
    wrapped value (argument 1 (int 79)) (argument 2 (bool true)) third (argument 4 (bool true))
  | _ => tagAttributes escapes value (argument 1 (bool true)).truth

/-- Whether an item is kept: by a test, or by its truth if none is named. -/
def keeps (item : Value) (arguments : Arguments) : Result Bool :=
  match arguments.plain with
  | [] => .ok item.truth
  | name :: rest =>
    match name with
    | undefined complaint =>
      complain ("No test named " ++ Text.quoted "Undefined" ++ ". (" ++ complaint ++
        "; did you forget to quote the callable name?)")
    | name => tested (String.ofList name.toText) item { arguments with plain := rest }

/-- The items that are kept, or those that are not, by a test of them or of an attribute. -/
def selected (value : Value) (arguments : Arguments) (keep byAttribute : Bool) :
    Result (List Value) := do
  if !value.truth then return []
  match byAttribute, arguments.plain with
  | false, _ =>
    (← value.items).filterM fun item ↦ do return (← keeps item arguments) == keep
  | true, [] => complain "Missing parameter for attribute name"
  | true, path :: rest =>
    (← value.items).filterM fun item ↦ do
      return (← keeps (← attributeOf path item) { arguments with plain := rest }) == keep

/-- What a function maps items to: an attribute of each, or what a filter makes of it. `apply`
applies filters. -/
def mapped (apply : String → Value → Arguments → Result Value) (value : Value)
    (arguments : Arguments) : Result (List Value) := do
  if !value.truth then return []
  match arguments.plain, arguments.named.lookup "attribute" with
  | [], some path =>
    let others := arguments.named.filter fun (name, _) ↦ name != "attribute" && name != "default"
    match others with
    | (name, _) :: _ => complain ("Unexpected keyword argument " ++ Text.quoted name)
    | [] =>
      let default := (arguments.named.lookup "default").getD nothing
      (← value.items).mapM fun item ↦ follow default item (attributeKeys path)
  | [], none => complain "map requires a filter argument"
  | name :: rest, _ =>
    (← value.items).mapM fun item ↦
      match name with
      | undefined complaint =>
        complain ("No filter named " ++ Text.quoted "Undefined" ++ ". (" ++ complaint ++
          "; did you forget to quote the callable name?)")
      | name => apply (String.ofList name.toText) item { arguments with plain := rest }

/-- A number without its sign. -/
def absolute (value : Value) : Result Value :=
  match value.number? with
  | some (.int n) => .ok (int n.natAbs)
  | some (.float x) => .ok (float x.abs)
  | none => wrongKind ("bad operand type for abs(): '" ++ value.kind ++ "'")

/-- A text with its places with percent signs filled from arguments. -/
def percentFilled (value : Value) (arguments : Arguments) : Result Value :=
  if !arguments.plain.isEmpty && !arguments.named.isEmpty then
    complain "can't handle positional and keyword arguments at the same time"
  else
    let filling := if arguments.named.isEmpty then tuple arguments.plain
      else ofFields arguments.named
    modulo value.soft filling

/-- A filter that takes any arguments. -/
def filteredOpen (apply : String → Value → Arguments → Result Value) (name : String)
    (value : Value) (arguments : Arguments) : Result Value := do
  let given : Arguments := { arguments with plain := value :: arguments.plain }
  match name with
  | "abs" =>
    given.atMost "" "abs" 1 1
    absolute value
  | "count" | "length" =>
    given.atMost "" "len" 1 1
    return int (← value.length)
  | "format" => percentFilled value arguments
  | "map" => return lazily generator (mapped apply value arguments)
  | "select" => return lazily generator (selected value arguments true false)
  | "reject" => return lazily generator (selected value arguments false false)
  | "selectattr" => return lazily generator (selected value arguments true true)
  | _ => return lazily generator (selected value arguments false true)

/-- A filter of a value with arguments. `depth` is how deep filters may apply filters. -/
def filteredTo (escapes : Bool) : Nat → String → Value → Arguments → Result Value
  | 0, _, _, _ => .error (.broken .use "filters apply one another without end")
  | depth + 1, name, value, arguments => do
    let given : Arguments := { arguments with plain := value :: arguments.plain }
    match bareFilters.lookup name, filterSignatures.lookup name with
    | some (function, hidden), _ =>
      let subject := if softFilters.contains name then "s" else "value"
      let _ ← (Signature.ofNames function hidden [subject] []).bind given
      filteredBare name value
    | _, some signature => filteredWith escapes name value (← signature.bind given)
    | none, none =>
      if openFilters.contains name then
        filteredOpen (filteredTo escapes depth) name value arguments
      else complain ("No filter named " ++ Text.quoted name ++ ".")

/-- How deep filters may apply filters. -/
def filterDepth : Nat := 100

/-- A filter of a value with arguments. -/
def filtered (escapes : Bool) (name : String) (value : Value) (arguments : Arguments) :
    Result Value :=
  filteredTo escapes filterDepth name value arguments

end Value

end Guidebook.Template
