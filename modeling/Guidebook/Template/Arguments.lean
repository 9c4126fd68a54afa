import Guidebook.Template.Operate

/-!
# Arguments

What a call is given, one after another and by name, and how parameters get their values from it.
-/

namespace Guidebook.Template

/-- What a call is given. -/
structure Arguments where
  plain : List Value
  named : List (String × Value)
  deriving Repr, Inhabited

/-- How a function of the library is called: its name, how many arguments come in front of those
that are written, and its parameters, with those that may be left out marked. -/
structure Signature where
  function : String
  hidden : Nat
  parameters : List (String × Bool)
  deriving Repr

namespace Signature

/-- A signature from the names of parameters; those behind a bar may be left out. -/
def ofNames (function : String) (hidden : Nat) (required optional : List String) : Signature :=
  ⟨function, hidden, required.map (·, false) ++ optional.map (·, true)⟩

/-- The number of parameters that may not be left out. -/
def least (s : Signature) : Nat := (s.parameters.filter fun p ↦ !p.2).length

/-- The complaint about too many arguments. -/
def tooMany (s : Signature) (given : Nat) : String :=
  let (low, high) := (s.hidden + s.least, s.hidden + s.parameters.length)
  let given := s.hidden + given
  s.function ++ "() takes " ++
    (if low == high then toString high else "from " ++ toString low ++ " to " ++ toString high) ++
    " positional argument" ++ (if high == 1 && low == high then "" else "s") ++ " but " ++
    toString given ++ (if given == 1 then " was" else " were") ++ " given"

/-- Names with commas between them and a word before the last one. -/
def listed : List String → String
  | [] => ""
  | [name] => name
  | [first, second] => first ++ " and " ++ second
  | names => Text.joinStrings ", " names.dropLast ++ ", and " ++ names.getLast?.getD ""

/-- The complaint about arguments that are missing. -/
def missing (s : Signature) (names : List String) : String :=
  s.function ++ "() missing " ++ toString names.length ++ " required positional argument" ++
    (if names.length == 1 then "" else "s") ++ ": " ++ listed (names.map Text.quoted)

/-- The values that parameters get. -/
def bind (s : Signature) (arguments : Arguments) : Result (List (Option Value)) := do
  let given := arguments.plain
  arguments.named.forM fun (name, _) ↦ do
    match s.parameters.findIdx? fun p ↦ p.1 == name with
    | none =>
      wrongKind (s.function ++ "() got an unexpected keyword argument " ++ Text.quoted name)
    | some n =>
      if n < given.length then
        wrongKind (s.function ++ "() got multiple values for argument " ++ Text.quoted name)
  if s.parameters.length < given.length then wrongKind (s.tooMany given.length)
  let lacking := (s.parameters.drop given.length).filter fun p ↦
    !p.2 && (arguments.named.lookup p.1).isNone
  if !lacking.isEmpty then wrongKind (s.missing (lacking.map (·.1)))
  let named := (s.parameters.drop given.length).map fun p ↦ arguments.named.lookup p.1
  return given.map some ++ named

end Signature

/-- The value of a parameter at a place, or another one. -/
def valueAt (values : List (Option Value)) (n : Nat) (default : Value) : Value :=
  ((values[n]?).join).getD default

namespace Arguments

/-- Only so many arguments without names. `name` is how complaints call a function of which the
kind of value it belongs to, if any, is written in front for some complaints. -/
def atMost (arguments : Arguments) (kind name : String) (least most : Nat) : Result Unit :=
  let full := if kind.isEmpty then name else kind ++ "." ++ name
  let count := arguments.plain.length
  let several := fun (n : Nat) ↦
    toString n ++ " argument" ++ (if n == 1 then "" else "s") ++ ", got " ++ toString count
  if !arguments.named.isEmpty then wrongKind (full ++ "() takes no keyword arguments")
  else if least ≤ count && count ≤ most then .ok ()
  else if most == 0 then
    wrongKind (full ++ "() takes no arguments (" ++ toString count ++ " given)")
  else if least == 1 && most == 1 then
    wrongKind (full ++ "() takes exactly one argument (" ++ toString count ++ " given)")
  else if least == most then wrongKind (name ++ " expected " ++ several least)
  else if count < least then wrongKind (name ++ " expected at least " ++ several least)
  else wrongKind (name ++ " expected at most " ++ several most)

end Arguments

end Guidebook.Template
