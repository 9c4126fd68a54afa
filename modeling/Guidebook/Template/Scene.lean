import Guidebook.Template.Check
import Guidebook.Template.Read

/-!
# Scenes

What a run of templates works on: frames of names, one in another, the templates that are run, and
values that change. A frame outlives the statement that opened it, since a definition made in it may
still be called.
-/

namespace Guidebook.Template

/-- Names of a scope. A name without a value gets one later in the scope. -/
structure Frame where
  names : List (String × Option Value)
  parent : Option Nat
  /-- The template that the one of this scope is built on. -/
  base : Option String
  deriving Repr

/-- The body that a template gives to a part. -/
structure PartBody where
  template : String
  isRequired : Bool
  body : List Statement
  deriving Repr

/-- A run of a template: what it was given, the names it gave values to, those of them that others
may have, the bodies of its parts, innermost template last, and whether values are escaped. -/
structure Context where
  template : String
  given : List (String × Value)
  vars : List (String × Value)
  exported : List String
  parts : List (String × List PartBody)
  escapes : Bool
  deriving Repr

/-- Where a statement is run. -/
structure Here where
  frame : Nat
  context : Nat
  /-- The outermost frame of the template. -/
  root : Nat
  template : String
  /-- Whether printed values are escaped, if the template says so by itself. -/
  escapes : Option Bool
  /-- What is printed is left out if the template is built on another. -/
  isSilenced : Bool
  isTop : Bool
  deriving Repr

/-- A loop that may be run again for other items. -/
structure Recursion where
  target : Target
  condition : Option Expr
  body : List Statement
  otherwise : List Statement
  place : Here
  deriving Repr

/-- What a run of templates works on. -/
structure Scene where
  frames : Array Frame
  contexts : Array Context
  cells : Array (List (Value × Value))
  recursions : Array Recursion
  templates : List (String × List Statement)
  deriving Repr

/-- A scene before a run. -/
def Scene.start : Scene := ⟨#[], #[], #[], #[], []⟩

/-- A step of a run. -/
abbrev Play := StateT Scene (Except Problem)

/-- Where the templates come from: the text of a name. -/
abbrev Loader := String → Except Problem (List Char)

/-- Something that is printed. What is no text cannot be put together with other things. -/
inductive Chunk where
  | text (cs : List Char)
  | other (kind : String)
  deriving Repr

/-- The chunk of a value that is printed as it is. -/
def Chunk.ofValue : Value → Chunk
  | .text cs | .html cs => text cs
  | value => other value.kind

/-- Chunks put together, where `n` of them are done. -/
def Chunk.joinFrom (n : Nat) : List Chunk → Result (List Char)
  | [] => .ok []
  | text cs :: rest => (joinFrom (n + 1) rest).map (cs ++ ·)
  | other kind :: _ =>
    wrongKind ("sequence item " ++ toString n ++ ": expected str instance, " ++ kind ++ " found")

/-- Chunks put together. -/
def Chunk.join (chunks : List Chunk) : Result (List Char) := joinFrom 0 chunks

/-- Endings of names of templates whose output is escaped. -/
def escapedEndings : List String := [".html", ".xml", ".jinja"]

/-- Whether what a template prints is escaped. -/
def isEscaped (name : String) : Bool :=
  escapedEndings.any fun ending ↦ Text.endsWith ending.toList (Text.lower name).toList

/-- The names that templates know by themselves. -/
def builtinNames : List (String × Value) :=
  ["range", "dict", "lipsum", "cycler", "joiner", "namespace"].map fun name ↦ (name, .builtin name)

namespace Play

/-- The frame of a number. -/
def frameOf (n : Nat) : Play Frame := return ((← get).frames[n]?).getD ⟨[], none, none⟩

/-- The context of a number. -/
def contextOf (n : Nat) : Play Context :=
  return ((← get).contexts[n]?).getD ⟨"", [], [], [], [], false⟩

/-- Changes a frame. -/
def changeFrame (n : Nat) (f : Frame → Frame) : Play Unit :=
  modify fun s ↦ { s with frames := s.frames.modify n f }

/-- Changes a context. -/
def changeContext (n : Nat) (f : Context → Context) : Play Unit :=
  modify fun s ↦ { s with contexts := s.contexts.modify n f }

/-- Opens a frame inside another one for a body. Names that no frame has and that the body gives
values to before it asks for them have no value at first. -/
def openFrame (parent : Option Nat) (body : List Statement) : Play Nat := do
  let n := (← get).frames.size
  modify fun s ↦
    { s with frames := s.frames.push ⟨(ownNames body).map fun name ↦ (name, none), parent, none⟩ }
  return n

/-- Opens a frame inside another one. -/
def openInner (here : Here) : Play Here := do
  let n ← openFrame (some here.frame) []
  return { here with frame := n, isTop := false }

/-- Adds a context. -/
def addContext (context : Context) : Play Nat := do
  let n := (← get).contexts.size
  modify fun s ↦ { s with contexts := s.contexts.push context }
  return n

/-- Adds a cell. -/
def addCell (fields : List (Value × Value)) : Play Nat := do
  let n := (← get).cells.size
  modify fun s ↦ { s with cells := s.cells.push fields }
  return n

/-- The fields of a cell. -/
def cellOf (n : Nat) : Play (List (Value × Value)) := return ((← get).cells[n]?).getD []

/-- Changes the fields of a cell. -/
def setCell (n : Nat) (fields : List (Value × Value)) : Play Unit :=
  modify fun s ↦ { s with cells := s.cells.set! n fields }

/-- A value with what its cell holds now. -/
def refreshed (value : Value) : Play Value := do
  match value with
  | .cell kind place _ => return .cell kind place (← cellOf place)
  | value => return value

/-- What the frames from one on outwards say of a name: nothing, that it has no value yet, or its
value. `fuel` bounds the number of frames. -/
def findIn (frames : Array Frame) (name : String) : Nat → Nat → Option (Nat × Option Value)
  | 0, _ => none
  | fuel + 1, n => do
    let frame ← frames[n]?
    match frame.names.lookup name with
    | some found => some (n, found)
    | none => findIn frames name fuel (← frame.parent)

/-- What the frames around a place say of a name. -/
def findName (here : Here) (name : String) : Play (Option (Nat × Option Value)) := do
  let frames := (← get).frames
  return findIn frames name (frames.size + 1) here.frame

/-- The value of a name. -/
def valueOf (here : Here) (name : String) : Play Value := do
  let unknown : Value := .undefined (Text.quoted name ++ " is undefined")
  match ← findName here name with
  | some (_, some value) => refreshed value
  | some (_, none) => return unknown
  | none =>
    let context ← contextOf here.context
    match (context.vars.lookup name).or (context.given.lookup name) with
    | some value => refreshed value
    | none => return unknown

/-- Names with a value for one of them. -/
def setName {α : Type} (names : List (String × α)) (name : String) (value : α) :
    List (String × α) :=
  (name, value) :: names.filter (·.1 != name)

/-- Gives a name a value in a frame. -/
def give (frame : Nat) (name : String) (value : Value) : Play Unit :=
  changeFrame frame fun f ↦ { f with names := setName f.names name (some value) }

/-- Gives names of a template values that others may have, if they are not hidden. -/
def publish (here : Here) (names : List String) (isExported : Bool) : Play Unit := do
  if here.isTop then
    for name in names do
      let value ← valueOf here name
      changeContext here.context fun c ↦
        let others := c.exported.filter (· != name)
        { c with
          vars := setName c.vars name value
          exported := if isExported && !name.startsWith "_" then name :: others else others }

/-- The complaint about a number of values that does not fit a number of names. -/
def misfitCount {α : Type} (expected found : Nat) : Play α :=
  if found < expected then
    throw (.broken .value ("not enough values to unpack (expected " ++ toString expected ++
      ", got " ++ toString found ++ ")"))
  else throw (.broken .value ("too many values to unpack (expected " ++ toString expected ++ ")"))

/-- Gives a target a value in a frame. Fields are those of values made for it. -/
def giveTarget (here : Here) (frame : Nat) : Nat → Target → Value → Play Unit
  | 0, _, _ => return ()
  | _, .name name, value => give frame name value
  | _, .field of name, value => do
    match ← valueOf here of with
    | .cell .names place _ =>
      setCell place (Value.setField (← cellOf place) (.ofString name) value)
    | _ => throw (.complaint "cannot assign attribute on non-namespace object")
  | fuel + 1, .items targets, value => do
    let items ← match value.items with
      | .ok items => pure items
      | .error (.broken .kind _) =>
        throw (.broken .kind ("cannot unpack non-iterable " ++ value.kind ++ " object"))
      | .error problem => throw problem
    if items.length != targets.length then misfitCount targets.length items.length
    (targets.zip items).forM fun (target, item) ↦ giveTarget here frame fuel target item

/-- Checks that the fields a target gives values to are those of values made for it. -/
def checkRecords (here : Here) (target : Target) : Play Unit :=
  (target.records mentionDepth).forM fun name ↦ do
    match ← valueOf here name with
    | .cell .names .. => return ()
    | _ => throw (.complaint "cannot assign attribute on non-namespace object")

/-- All names of the frames around a place that have values, the innermost first. -/
def namesIn (frames : Array Frame) : Nat → Nat → List (String × Value)
  | 0, _ => []
  | fuel + 1, n =>
    match frames[n]? with
    | none => []
    | some frame =>
      (frame.names.filterMap fun (name, value) ↦ value.map (name, ·)) ++
        (frame.parent.map (namesIn frames fuel)).getD []

/-- All names that a template in this place is given, the innermost first. -/
def namesAround (here : Here) : Play (List (String × Value)) := do
  let frames := (← get).frames
  let context ← contextOf here.context
  return namesIn frames (frames.size + 1) here.frame ++ context.vars ++ context.given

/-- Whether printed values are escaped in a place. -/
def escapesNow (here : Here) : Play Bool := return (← contextOf here.context).escapes

/-- Whether values are escaped in a place by what the template says, or by what holds now. -/
def printsEscaped (here : Here) : Play Bool := do
  match here.escapes with
  | some escapes => return escapes
  | none => escapesNow here

/-- Whether what is printed in a place is left out. -/
def isLeftOut (here : Here) : Play Bool := return (← frameOf here.root).base.isSome

/-- The statements of a template. -/
def statementsOf (load : Loader) (name : String) : Play (List Statement) := do
  match (← get).templates.lookup name with
  | some statements => return statements
  | none =>
    match load name with
    | .error problem => throw problem
    | .ok text =>
      match Template.read text with
      | .error complaint => throw (.complaint complaint)
      | .ok statements =>
        match Template.check statements with
        | .error complaint => throw (.complaint complaint)
        | .ok () =>
          modify fun s ↦ { s with templates := (name, statements) :: s.templates }
          return statements

/-- Adds the parts of a template behind those that a context has. -/
def addParts (context : Nat) (template : String) (statements : List Statement) : Play Unit :=
  changeContext context fun c ↦
    { c with
      parts := (sectionsOf statements).foldl (fun parts s ↦
        let bodies := (parts.lookup s.name).getD []
        setName parts s.name (bodies ++ [⟨template, s.isRequired, s.body⟩])) c.parts }

/-- The bodies of a part. -/
def bodiesOf (context : Nat) (name : String) : Play (List PartBody) :=
  return ((← contextOf context).parts.lookup name).getD []

/-- A part as the template of some depth has it, if it does. -/
def partAt (context : Nat) (name : String) (depth : Nat) : Play Value := do
  if depth < (← bodiesOf context name).length then return .part name depth context
  else return .undefined ("there is no parent block called " ++ Text.quoted name ++ ".")

/-- Changes the value of a name where it has one. -/
def changeName (here : Here) (name : String) (value : Value) : Play Unit := do
  let found ← findName here name
  match found with
  | some (n, _) => give n name value
  | none => pure ()
  if found.all fun (n, _) ↦ n == here.root then
    changeContext here.context fun c ↦
      if (c.vars.lookup name).isSome then { c with vars := setName c.vars name value }
      else if (c.given.lookup name).isSome then { c with given := setName c.given name value }
      else c

end Play

end Guidebook.Template
