import Guidebook.Template.Statement

/-!
# Names in templates

Which names statements ask for and which they give values to, in the order in which they do so. A
name is free in a body if it is asked for before the body gives it a value.
-/

namespace Guidebook.Template

/-- What happens to a name. -/
inductive Mention where
  | asked (name : String)
  | given (name : String)
  deriving Repr, DecidableEq

/-- The name of a mention. -/
def Mention.name : Mention → String
  | asked name | given name => name

/-- How deep expressions and statements are looked into. -/
def mentionDepth : Nat := 1000

/-- The names an expression asks for. `depth` is how deep it is looked into. -/
def Expr.asked : Nat → Expr → List String
  | 0, _ => []
  | _, name n => if n == capturedName then [] else [n]
  | depth + 1, e => e.parts.flatMap (Expr.asked depth)

/-- The names expressions ask for, as mentions. -/
def mentionsOf (es : List Expr) : List Mention :=
  (es.flatMap (Expr.asked mentionDepth)).map .asked

/-- The names a target gives values to, as mentions. -/
def Target.mentions (target : Target) : List Mention := (target.names mentionDepth).map .given

/-- The default values of parameters. -/
def defaultsOf (parameters : List Parameter) : List Expr := parameters.filterMap (·.2)

/-- The names of parameters, as mentions. -/
def parameterMentions (parameters : List Parameter) : List Mention :=
  parameters.map fun p ↦ .given p.1

/-- All names that a statement mentions, in the order in which they are written. Parts have names of
their own. `depth` is how deep the statement is looked into. -/
def Statement.mentions : Nat → Statement → List Mention
  | 0, _ => []
  | depth + 1, statement =>
    let inBody := fun (body : List Statement) ↦ body.flatMap (Statement.mentions depth)
    match statement with
    | data _ | part .. => []
    | print value => mentionsOf [value]
    | branch cases otherwise =>
      (cases.flatMap fun (condition, body) ↦ mentionsOf [condition] ++ inBody body) ++
        inBody otherwise
    | loop target items condition _ body otherwise =>
      target.mentions ++ mentionsOf [items] ++ inBody body ++ inBody otherwise ++
        mentionsOf condition.toList
    | assign target value => target.mentions ++ mentionsOf [value]
    | capture target filters body => target.mentions ++ mentionsOf [filters] ++ inBody body
    | define _ parameters body =>
      parameterMentions parameters ++ mentionsOf (defaultsOf parameters) ++ inBody body
    | callWith parameters call body =>
      mentionsOf [call] ++ parameterMentions parameters ++ mentionsOf (defaultsOf parameters) ++
        inBody body
    | filtered filters body => inBody body ++ mentionsOf [filters]
    | scope names body =>
      names.flatMap (·.1.mentions) ++ mentionsOf (names.map (·.2)) ++ inBody body
    | escaping isOn body => mentionsOf [isOn] ++ inBody body
    | insert template .. | bring template .. | bringNames _ template .. | buildOn template =>
      mentionsOf [template]

/-- Whether a name is asked for before it is given a value. -/
def isFree (name : String) (mentions : List Mention) : Bool :=
  mentions.find? (·.name == name) == some (.asked name)

/-- Whether a body asks for a name from outside. -/
def asksFor (body : List Statement) (name : String) : Bool :=
  isFree name (body.flatMap (Statement.mentions mentionDepth))

/-- What a statement does to the names of the scope it stands in. What happens in a branch may not
happen, so that it counts as asking only. -/
def Statement.effects : Nat → Statement → List Mention
  | 0, _ => []
  | depth + 1, statement =>
    let inBody := fun (body : List Statement) ↦
      (body.flatMap (Statement.effects depth)).map fun m ↦ Mention.asked m.name
    match statement with
    | data _ | part .. | escaping .. => []
    | print value => mentionsOf [value]
    | branch cases otherwise =>
      (cases.flatMap fun (condition, body) ↦ mentionsOf [condition] ++ inBody body) ++
        inBody otherwise
    | loop _ items .. => mentionsOf [items]
    | assign target value =>
      mentionsOf [value] ++ ((target.records mentionDepth).map .asked) ++ target.mentions
    | capture target .. => target.mentions
    | define name .. => [.given name]
    | callWith _ call _ => mentionsOf [call]
    | filtered filters _ => mentionsOf [filters]
    | scope names _ => mentionsOf (names.map (·.2))
    | insert template .. | buildOn template => mentionsOf [template]
    | bring template name _ => mentionsOf [template] ++ [.given name]
    | bringNames _ template names _ => mentionsOf [template] ++ names.map fun n ↦ .given n.2

/-- The names that a body gives values to before it asks for them. Until then they have none. -/
def ownNames (body : List Statement) : List String :=
  let effects := body.flatMap (Statement.effects mentionDepth)
  ((effects.map Mention.name).eraseDups).filter fun name ↦
    effects.find? (·.name == name) == some (.given name)

/-- The bodies directly inside a statement. -/
def Statement.bodies : Statement → List (List Statement)
  | branch cases otherwise => cases.map (·.2) ++ [otherwise]
  | loop _ _ _ _ body otherwise => [body, otherwise]
  | capture _ _ body | define _ _ body | callWith _ _ body | filtered _ body | scope _ body
  | escaping _ body | part _ _ _ body => [body]
  | _ => []

/-- The statements inside a statement, each before those inside it. -/
def Statement.inside : Nat → Statement → List Statement
  | 0, _ => []
  | depth + 1, statement =>
    statement.bodies.flatMap fun body ↦ body.flatMap fun s ↦ s :: Statement.inside depth s

/-- All statements of a body, each before those inside it. -/
def allStatements (body : List Statement) : List Statement :=
  body.flatMap fun s ↦ s :: s.inside mentionDepth

/-- Whether a statement gives a name a value outside any scope of its own. -/
def Statement.assigns (statement : Statement) (name : String) : Bool :=
  match statement with
  | loop target .. | assign target _ | capture target .. =>
    (target.names mentionDepth).contains name
  | _ => false

/-- A part of a template: its name and its body. -/
structure Section where
  name : String
  isRequired : Bool
  body : List Statement
  deriving Repr

/-- The parts of a template. -/
def sectionsOf (body : List Statement) : List Section :=
  (allStatements body).filterMap fun statement ↦
    match statement with
    | .part name _ isRequired body => some ⟨name, isRequired, body⟩
    | _ => none

end Guidebook.Template
