import Guidebook.Text.Chars

/-!
# Expressions and statements of templates
-/

namespace Guidebook.Template

/-- Operators between two expressions. -/
inductive Operator where
  | either
  | both
  | add
  | subtract
  | join
  | multiply
  | quotient
  | divide
  | modulo
  | power
  deriving Repr, DecidableEq

/-- Comparisons of two expressions. -/
inductive Comparison where
  | equal
  | different
  | less
  | atMost
  | greater
  | atLeast
  | within
  | outside
  deriving Repr, DecidableEq

/-- How an argument is given to a call. -/
inductive Passing where
  | plain
  | named (name : String)
  /-- The items of a value, one argument each. -/
  | items
  /-- The fields of a value, one named argument each. -/
  | fields
  deriving Repr, DecidableEq

/-- Expressions. -/
inductive Expr where
  | nothing
  | bool (b : Bool)
  | int (n : Nat)
  /-- A number `digits · 10 ^ exponent` that is not whole. -/
  | decimal (digits : Nat) (exponent : Int)
  | text (text : List Char)
  | name (name : String)
  | member (of : Expr) (name : String)
  | item (of key : Expr)
  | slice (start stop step : Expr)
  | call (function : Expr) (arguments : List (Passing × Expr))
  | filter (name : String) (of : Expr) (arguments : List (Passing × Expr))
  | test (name : String) (of : Expr) (arguments : List (Passing × Expr))
  | negative (of : Expr)
  | positive (of : Expr)
  | no (of : Expr)
  | binary (operator : Operator) (left right : Expr)
  | compare (left : Expr) (rest : List (Comparison × Expr))
  | choose (line : Nat) (condition yes : Expr) (no : Option Expr)
  | list (items : List Expr)
  | tuple (items : List Expr)
  | record (fields : List (Expr × Expr))
  deriving Repr, Inhabited

/-- The expressions directly inside an expression. -/
def Expr.parts : Expr → List Expr
  | member of _ | negative of | positive of | no of => [of]
  | item of key => [of, key]
  | slice start stop step => [start, stop, step]
  | call of arguments | filter _ of arguments | test _ of arguments => of :: arguments.map (·.2)
  | binary _ left right => [left, right]
  | compare left rest => left :: rest.map (·.2)
  | choose _ condition yes other => [yes, condition] ++ other.toList
  | list items | tuple items => items
  | record fields => fields.flatMap fun (key, value) ↦ [key, value]
  | _ => []

/-- What is given a value. -/
inductive Target where
  | name (name : String)
  /-- A field of a record of names that was made with a call. -/
  | field (of name : String)
  | items (targets : List Target)
  deriving Repr, Inhabited

/-- A parameter of a definition, with the value it has if none is given. -/
abbrev Parameter := String × Option Expr

/-- Statements. -/
inductive Statement where
  /-- Text outside tags. -/
  | data (text : List Char)
  /-- Prints the value of an expression. -/
  | print (value : Expr)
  /-- The first body whose condition holds, or the last one. -/
  | branch (cases : List (Expr × List Statement)) (otherwise : List Statement)
  /-- A body for each item, or the last one if there is none. -/
  | loop (target : Target) (items : Expr) (condition : Option Expr) (recursive : Bool)
      (body otherwise : List Statement)
  /-- Names a value. -/
  | assign (target : Target) (value : Expr)
  /-- Names what a body prints, behind filters. -/
  | capture (target : Target) (filters : Expr) (body : List Statement)
  /-- Names a body with parameters. -/
  | define (name : String) (parameters : List Parameter) (body : List Statement)
  /-- Calls a definition that may call a body with parameters in turn. -/
  | callWith (parameters : List Parameter) (call : Expr) (body : List Statement)
  /-- Prints what filters make of what a body prints. -/
  | filtered (filters : Expr) (body : List Statement)
  /-- A body with names of its own. -/
  | scope (names : List (Target × Expr)) (body : List Statement)
  /-- A body whose printed text is escaped or not. -/
  | escaping (isOn : Expr) (body : List Statement)
  /-- A body that templates built on this one may replace, or have to. -/
  | part (name : String) (isScoped isRequired : Bool) (body : List Statement)
  /-- Another template in this place. -/
  | insert (template : Expr) (ignoreMissing withContext : Bool)
  /-- Names the definitions of another template as a whole. -/
  | bring (template : Expr) (name : String) (withContext : Bool)
  /-- Names definitions of another template one by one. -/
  | bringNames (line : Nat) (template : Expr) (names : List (String × String))
      (withContext : Bool)
  /-- Another template that this one is built on. -/
  | buildOn (template : Expr)
  deriving Repr, Inhabited

/-- The name that stands for captured text in filters without a value. No name is written so. -/
def capturedName : String := ""

/-- The names a target gives values to. -/
def Target.names : Nat → Target → List String
  | 0, _ => []
  | _, name n => [n]
  | _, field .. => []
  | fuel + 1, items targets => targets.flatMap (Target.names fuel)

/-- The names of records whose fields a target gives values to. -/
def Target.records : Nat → Target → List String
  | 0, _ => []
  | _, name _ => []
  | _, field of _ => [of]
  | fuel + 1, items targets => targets.flatMap (Target.records fuel)

end Guidebook.Template
