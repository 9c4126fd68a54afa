import Guidebook.Template.Filter
import Guidebook.Template.Mention
import Guidebook.Text.Quoted

/-!
# Checking templates

What is wrong with a template before it is run: filters and tests that do not exist, parts with one
name, and statements in places where they cannot stand. Inside a condition a filter may be missing,
since it may never be asked for.
-/

namespace Guidebook.Template

/-- Where a statement stands. -/
structure Place where
  /-- In a condition or in one of its bodies, outside any scope in it. -/
  isSoft : Bool
  /-- Outside any scope. -/
  isTop : Bool
  /-- Outside any scope and any condition. -/
  isRoot : Bool
  /-- What is printed here is left out if the template is built on another. -/
  isSilenced : Bool
  deriving Repr

/-- The place inside a scope. -/
def Place.inner (p : Place) : Place := ⟨false, false, false, p.isSilenced⟩

/-- The place inside a scope that prints in any case. -/
def Place.captured : Place := ⟨false, false, false, false⟩

/-- The place inside a condition. -/
def Place.soft (p : Place) : Place := { p with isSoft := true, isRoot := false }

/-- A check. Its state says whether the template is built on another one. -/
abbrev Check := StateT Bool (Except String)

namespace Check

/-- Checks the filters and tests of an expression, outer ones first. -/
def expression (isSoft : Bool) : Nat → Expr → Except String Unit
  | 0, _ => .ok ()
  | depth + 1, e => do
    match e with
    | .filter name .. =>
      if !isSoft && !filterNames.contains name then
        throw ("No filter named " ++ Text.quoted name ++ ".")
    | .test name .. =>
      if !isSoft && !testNames.contains name then
        throw ("No test named " ++ Text.quoted name ++ ".")
    | _ => pure ()
    let isSoft := match e with
      | .choose .. => true
      | _ => isSoft
    e.parts.forM (expression isSoft depth)

/-- Checks expressions at a place. -/
def expressions (p : Place) (es : List Expr) : Check Unit :=
  (es.forM (expression p.isSoft mentionDepth) : Except String Unit)

/-- Checks that a special parameter may be left out. -/
def caller (parameters : List Parameter) (body : List Statement) : Check Unit :=
  if (parameters.lookup "caller").any Option.isNone && asksFor body "caller" then
    throw ("When defining macros or call blocks the special \"caller\" argument must be omitted " ++
      "or be given a default.")
  else pure ()

mutual

/-- Checks a body. It ends behind a second statement that builds the template on another one. -/
def body (p : Place) : Nat → List Statement → Check Unit
  | 0, _ => pure ()
  | _, [] => pure ()
  | depth + 1, statement :: rest => do
    match statement with
    | .buildOn _ =>
      if !p.isTop then throw "cannot use extend from a non top-level scope"
      if ← get then return ()
    | _ => pure ()
    one p depth statement
    body p depth rest

/-- Checks a statement. -/
def one (p : Place) : Nat → Statement → Check Unit
  | 0, _ => pure ()
  | depth + 1, statement => do
    match statement with
    | .data _ | .part .. => pure ()
    | .print value => if !(p.isSilenced && (← get)) then expressions p [value]
    | .branch cases otherwise =>
      cases.forM fun (condition, inner) ↦ do
        expressions p.soft [condition]
        body p.soft depth inner
      body p.soft depth otherwise
    | .loop _ items condition isRecursive inner otherwise =>
      expressions p.inner condition.toList
      if (statement :: statement.inside mentionDepth).any (·.assigns "loop") then
        throw "Can't assign to special loop variable in for-loop target"
      if !isRecursive then expressions p [items]
      body p.inner depth inner
      body p.inner depth otherwise
      if isRecursive then expressions p [items]
    | .assign _ value => expressions p [value]
    | .capture _ filters inner =>
      body .captured depth inner
      expressions .captured [filters]
    | .define _ parameters inner =>
      caller parameters inner
      expressions .captured (defaultsOf parameters)
      body .captured depth inner
    | .callWith parameters call inner =>
      caller parameters inner
      expressions .captured (defaultsOf parameters)
      body .captured depth inner
      expressions p [call]
    | .filtered filters inner =>
      body p.inner depth inner
      expressions p.inner [filters]
    | .scope names inner =>
      expressions p (names.map (·.2))
      body p.inner depth inner
    | .escaping isOn inner =>
      expressions p.inner [isOn]
      body p.inner depth inner
    | .insert template .. | .bring template .. | .bringNames _ template .. =>
      expressions p [template]
    | .buildOn template =>
      expressions p [template]
      if p.isRoot then set true

end

/-- The first name that two parts have. -/
def repeated? : List String → List Section → Option String
  | _, [] => none
  | seen, s :: rest =>
    if seen.contains s.name then some s.name else repeated? (s.name :: seen) rest

end Check

/-- Whether a template may be built on another one. -/
def hasBase (statements : List Statement) : Bool :=
  (allStatements statements).any fun statement ↦
    match statement with
    | .buildOn _ => true
    | _ => false

/-- The first thing that is wrong with a template, if there is one. -/
def check (statements : List Statement) : Except String Unit := do
  let sections := sectionsOf statements
  match Check.repeated? [] sections with
  | some name => throw ("block " ++ Text.quoted name ++ " defined twice")
  | none => pure ()
  let root : Place := ⟨false, true, true, hasBase statements⟩
  let (_, isBuilt) ← (Check.body root mentionDepth statements).run false
  sections.forM fun s ↦ do
    let _ ← (Check.body .captured mentionDepth s.body).run isBuilt

end Guidebook.Template
