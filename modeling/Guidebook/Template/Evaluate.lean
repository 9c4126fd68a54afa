import Guidebook.Template.Scene

/-!
# Evaluating templates

What templates print. Loops, definitions and parts open frames of names; a definition sees the names
of the place where it is written, a part only those that its template is given. Every step takes
fuel, so that a run is no deeper than what it starts with.
-/

namespace Guidebook.Template

open Play

/-- What is said when a run goes too deep. -/
def endless : Problem := .broken .depth "maximum recursion depth exceeded"

/-- Whether an expression has the same value everywhere. -/
def Expr.isFixed : Nat → Expr → Bool
  | 0, _ => false
  | depth + 1, e =>
    match e with
    | name _ | call .. | filter .. | test .. | member .. => false
    | e => e.parts.all (Expr.isFixed depth)

/-- The numbers of a range from its arguments. -/
def makeRange (arguments : Arguments) : Result Value := do
  arguments.atMost "" "range" 1 3
  match ← arguments.plain.mapM Value.needInt with
  | [stop] => return .range 0 stop 1
  | [start, stop] => return .range start stop 1
  | [start, stop, step] =>
    if step == 0 then throw (.broken .value "range() arg 3 must not be zero")
    else return .range start stop step
  | _ => return .nothing

/-- A value that changes, with its fields at first. -/
def makeCell (kind : CellKind) (fields : List (Value × Value)) : Play Value := do
  return .cell kind (← addCell fields) fields

/-- The fields of a value that goes round its items, at one of them. -/
def cycleFields (items : List Value) (position : Nat) : List (Value × Value) :=
  [(.ofString "items", .tuple items), (.ofString "pos", .int position),
    (.ofString "current", items.getD position .nothing)]

/-- What a function that templates know by themselves makes of its arguments. -/
def callBuiltin (name : String) (arguments : Arguments) : Play Value := do
  match name with
  | "range" => makeRange arguments
  | "dict" => return .record (← Value.recordOf arguments "dict")
  | "namespace" => makeCell .names (← Value.recordOf arguments "dict")
  | "cycler" =>
    match arguments.named, arguments.plain with
    | (name, _) :: _, _ =>
      throw (.broken .kind ("Cycler.__init__() got an unexpected keyword argument " ++
        Text.quoted name))
    | [], [] => throw (.broken .use "at least one item has to be provided")
    | [], items => makeCell .cycle (cycleFields items 0)
  | "joiner" =>
    let given ← (Signature.ofNames "Joiner.__init__" 1 [] ["sep"]).bind arguments
    makeCell .separator [(.ofString "sep", valueAt given 0 (.ofString ", ")),
      (.ofString "used", .bool false)]
  | _ => return .html []

/-- The next item of a value that goes round its items, or its start over. -/
def callCycle (place : Nat) (name : String) : Play Value := do
  let fields ← cellOf place
  match Value.field? fields (.ofString "items"), Value.field? fields (.ofString "pos") with
  | some (.tuple items), some (.int position) =>
    let position := position.toNat
    if name == "next" then
      setCell place (cycleFields items ((position + 1) % items.length))
      return items.getD position .nothing
    else
      setCell place (cycleFields items 0)
      return .nothing
  | _, _ => return .nothing

/-- Nothing the first time, and a separator from then on. -/
def callSeparator (place : Nat) : Play Value := do
  let fields ← cellOf place
  let used := (Value.field? fields (.ofString "used")).any Value.truth
  setCell place (Value.setField fields (.ofString "used") (.bool true))
  return if used then (Value.field? fields (.ofString "sep")).getD .nothing else .text []

/-- What a loop answers at one of its items: one of the arguments in turn, or whether they are other
ones than the last time. -/
def callLoop (position changes : Nat) (name : String) (arguments : Arguments) : Play Value := do
  let items := arguments.plain
  if name == "cycle" then
    if items.isEmpty then throw (.broken .kind "no items for cycling given")
    return items.getD (position % items.length) .nothing
  else
    let key := Value.ofString "last"
    let now := Value.tuple items
    let before := Value.field? (← cellOf changes) key
    if before.any fun before ↦ Value.same before now then return .bool false
    else
      setCell changes [(key, now)]
      return .bool true

/-- Methods that change what they are asked of. -/
def changingMethods : List String :=
  ["append", "clear", "extend", "insert", "pop", "popitem", "remove", "reverse", "setdefault",
    "sort", "update"]

/-- What an attribute of a value is. Parts of templates are found in their contexts. -/
def memberOf (value : Value) (name : String) : Play Value := do
  match value with
  | .parts _ context =>
    if (← bodiesOf context name).isEmpty then return value.noMember name
    else return .part name 0 context
  | .part part depth context =>
    match name with
    | "super" => partAt context part (depth + 1)
    | "name" => return .ofString part
    | name => return value.noMember name
  | value => refreshed (← value.member name)

/-- What an item of a value is. -/
def itemOf (value key : Value) : Play Value := do
  match value, key with
  | .parts .., .text name | .part .., .text name => memberOf value (String.ofList name)
  | value, key => refreshed (← value.item key)

/-- A value with another one for one of its items. -/
def withItem (value key item : Value) : Value :=
  match value with
  | .record fields => .record (Value.setField fields key item)
  | .list items =>
    match key.int? with
    | some n => .list (items.set (if n < 0 then n + items.length else n).toNat item)
    | none => value
  | value => value

/-- The name of a template in a complaint about several that do not exist. -/
def shownName (value : Value) : List Char :=
  match value with
  | .undefined complaint => complaint.toList
  | value => value.toText

/-- The name of the template that a value stands for. -/
def templateName (value : Value) : Play String := do
  match value with
  | .text cs | .html cs => return String.ofList cs
  | .undefined complaint => throw (.complaint complaint)
  | value =>
    if value.isKey then
      throw (.broken .attribute ("'" ++ value.kind ++ "' object has no attribute 'split'"))
    else throw (.broken .kind ("unhashable type: '" ++ value.firstUnfit.kind ++ "'"))

/-- The name of the first template of a value that exists, or the complaint that there is none. -/
def chooseTemplate (load : Loader) (value : Value) : Play (Except String String) := do
  let existing := fun (name : String) ↦
    match load name with
    | .error (.complaint complaint) => (.error complaint : Except String String)
    | _ => .ok name
  match value with
  | .text cs | .html cs => return existing (String.ofList cs)
  | .undefined complaint => throw (.complaint complaint)
  | value =>
    if !value.truth then return .error "Tried to select from an empty list of templates."
    let items ← value.items
    let names := items.filterMap fun item ↦
      if item.isText then some (String.ofList item.toText) else none
    match names.find? fun name ↦ (existing name).isOk with
    | some name => return .ok name
    | none =>
      return .error ("none of the templates given were found: " ++
        String.ofList (Text.joinWith [',', ' '] (items.map shownName)))

/-- Values for the parameters of a definition from arguments, and the named arguments left. -/
def takeParameters : List Parameter → List Value → List (String × Value) →
    List (Parameter × Option Value) × List (String × Value)
  | [], _, named => ([], named)
  | p :: rest, value :: values, named =>
    let (taken, left) := takeParameters rest values named
    ((p, some value) :: taken, left)
  | p :: rest, [], named =>
    let (taken, left) := takeParameters rest [] (named.filter (·.1 != p.1))
    ((p, named.lookup p.1) :: taken, left)

/-- How complaints call a definition. -/
def Routine.shown (r : Routine) : String := (r.name.map Text.quoted).getD "None"

/-- Whether the body of a call is a parameter of its own for a call with so many arguments. -/
def Routine.hasOwnCaller (r : Routine) (given : Nat) : Bool :=
  match r.parameters.findIdx? fun p ↦ p.1 == "caller" with
  | some n => r.parameters.length ≤ given || given ≤ n
  | none => false

/-- The names a definition gets besides its parameters: the body of its call, named arguments and
further ones. -/
def Routine.extras (r : Routine) (arguments : Arguments) (left : List (String × Value)) :
    Result (List (String × Value)) := do
  let ownCaller := r.hasOwnCaller arguments.plain.length
  let (caller, left) :=
    if r.takesCaller && !ownCaller then
      let caller := match left.lookup "caller" with
        | some .nothing | none => Value.undefined "No caller defined"
        | some caller => caller
      ([("caller", caller)], left.filter (·.1 != "caller"))
    else ([], left)
  let named ← if r.takesNamed then pure [("kwargs", Value.ofFields left)] else
    match left with
    | [] => pure []
    | (name, _) :: _ =>
      if (left.lookup "caller").isSome then
        wrongKind ("macro " ++ r.shown ++ " was invoked with two values for the special caller " ++
          "argument. This is most likely a bug.")
      else wrongKind ("macro " ++ r.shown ++ " takes no keyword argument " ++ Text.quoted name)
  let more := arguments.plain.drop r.parameters.length
  let varying ← if r.takesMore then pure [("varargs", Value.tuple more)]
    else if more.isEmpty then pure []
    else wrongKind ("macro " ++ r.shown ++ " takes not more than " ++
      toString r.parameters.length ++ " argument(s)")
  return caller ++ named ++ varying

/-- A definition in a place. -/
def routineAt (here : Here) (escapes : Bool) (name : Option String) (parameters : List Parameter)
    (body : List Statement) : Routine :=
  let isParameter := fun (name : String) ↦ (parameters.lookup name).isSome
  { name, parameters, body
    takesNamed := asksFor body "kwargs" && !isParameter "kwargs"
    takesMore := asksFor body "varargs" && !isParameter "varargs"
    takesCaller := asksFor body "caller"
    frame := here.frame
    context := here.context
    root := here.root
    template := here.template
    escapes := here.escapes.getD escapes }

mutual

/-- The value of an expression. -/
def evaluate (load : Loader) (here : Here) : Nat → Expr → Play Value
  | 0, _ => throw endless
  | fuel + 1, e => do
    match e with
    | .nothing => return .nothing
    | .bool b => return .bool b
    | .int n => return .int n
    | .decimal digits exponent => return .float (Text.floatOf digits exponent)
    | .text cs => return .text cs
    | .name name => valueOf here name
    | .member of name => memberOf (← evaluate load here fuel of) name
    | .item of (.slice start stop step) =>
      let value ← evaluate load here fuel of
      let start ← evaluate load here fuel start
      let stop ← evaluate load here fuel stop
      value.cut start stop (← evaluate load here fuel step)
    | .item of key =>
      let value ← evaluate load here fuel of
      itemOf value (← evaluate load here fuel key)
    | .slice start stop step =>
      let start ← evaluate load here fuel start
      let stop ← evaluate load here fuel stop
      return .slice start stop (← evaluate load here fuel step)
    | .call function arguments =>
      match function with
      | .member of name =>
        let value ← evaluate load here fuel of
        let method ← memberOf value name
        let arguments ← evaluateArguments load here fuel arguments
        match method with
        | .method subject _ =>
          if changingMethods.contains name then
            let answer ← subject.ask name arguments
            match answer.changed with
            | some changed => change load here fuel of changed
            | none => pure ()
            return answer.value
          else call load here fuel method arguments
        | method => call load here fuel method arguments
      | function =>
        let value ← evaluate load here fuel function
        call load here fuel value (← evaluateArguments load here fuel arguments)
    | .filter name of arguments =>
      let value ← evaluate load here fuel of
      let arguments ← evaluateArguments load here fuel arguments
      if filterNames.contains name then value.filtered (← escapesNow here) name arguments
      else throw (.complaint ("No filter named " ++ Text.quoted name ++ " found."))
    | .test name of arguments =>
      let value ← evaluate load here fuel of
      let arguments ← evaluateArguments load here fuel arguments
      if testNames.contains name then return .bool (← value.tested name arguments)
      else throw (.complaint ("No test named " ++ Text.quoted name ++ " found."))
    | .negative of => Value.signed true (← evaluate load here fuel of)
    | .positive of => Value.signed false (← evaluate load here fuel of)
    | .no of => return .bool (!(← evaluate load here fuel of).truth)
    | .binary operator left right =>
      let left ← evaluate load here fuel left
      match operator, left.truth with
      | .either, true | .both, false => return left
      | operator, _ =>
        let right ← evaluate load here fuel right
        Value.operate (here.escapes.getD false) operator left right
    | .compare left rest =>
      let left ← evaluate load here fuel left
      holds load here fuel left rest
    | .choose line condition yes no =>
      if (← evaluate load here fuel condition).truth then evaluate load here fuel yes
      else match no with
        | some no => evaluate load here fuel no
        | none =>
          return .undefined ("the inline if-expression on line " ++ toString line ++ " in " ++
            Text.quoted here.template ++ " evaluated to false and no else section was defined.")
    | .list items => return .list (← items.mapM (evaluate load here fuel))
    | .tuple items => return .tuple (← items.mapM (evaluate load here fuel))
    | .record fields =>
      let fields ← fields.foldlM (fun fields (key, field) ↦ do
        let key ← evaluate load here fuel key
        let field ← evaluate load here fuel field
        Value.checkKey key
        return Value.setField fields key field) []
      return .record fields
termination_by structural fuel => fuel

/-- The values of arguments. -/
def evaluateArguments (load : Loader) (here : Here) :
    Nat → List (Passing × Expr) → Play Arguments
  | 0, _ => throw endless
  | fuel + 1, arguments => do
    let callee := "jinja2.runtime.Context.call()"
    arguments.foldlM (fun done (passing, e) ↦ do
      let value ← evaluate load here fuel e
      match passing with
      | .plain => return { done with plain := done.plain ++ [value] }
      | .named name => return { done with named := done.named ++ [(name, value)] }
      | .items =>
        match value.items with
        | .ok items => return { done with plain := done.plain ++ items }
        | .error (.broken .kind _) =>
          throw (.broken .kind (callee ++ " argument after * must be an iterable, not " ++
            value.kind))
        | .error problem => throw problem
      | .fields =>
        match value with
        | .record fields =>
          fields.foldlM (fun (done : Arguments) (key, field) ↦ do
            let name := String.ofList key.toText
            if !key.isText then throw (.broken .kind "keywords must be strings")
            if (done.named.lookup name).isSome then
              throw (.broken .kind (callee ++ " got multiple values for keyword argument " ++
                Text.quoted name))
            return { done with named := done.named ++ [(name, field)] }) done
        | value =>
          throw (.broken .kind (callee ++ " argument after ** must be a mapping, not " ++
            value.kind))) ⟨[], []⟩
termination_by structural fuel => fuel

/-- Whether comparisons hold one after another. -/
def holds (load : Loader) (here : Here) : Nat → Value → List (Comparison × Expr) → Play Value
  | 0, _, _ => throw endless
  | _, _, [] => return .bool true
  | fuel + 1, left, (comparison, e) :: rest => do
    let right ← evaluate load here fuel e
    if ← Value.compare comparison left right then holds load here fuel right rest
    else return .bool false
termination_by structural fuel => fuel

/-- Changes the value that an expression names. -/
def change (load : Loader) (here : Here) : Nat → Expr → Value → Play Unit
  | 0, _, _ => throw endless
  | fuel + 1, e, value => do
    let inside := fun (of : Expr) (key : Value) ↦ do
      match ← evaluate load here fuel of with
      | .cell .names place _ => setCell place (Value.setField (← cellOf place) key value)
      | parent => change load here fuel of (withItem parent key value)
    match e with
    | .name name => changeName here name value
    | .member of name => inside of (.ofString name)
    | .item of key => inside of (← evaluate load here fuel key)
    | _ => return ()
termination_by structural fuel => fuel

/-- The value of a call. -/
def call (load : Loader) (here : Here) : Nat → Value → Arguments → Play Value
  | 0, _, _ => throw endless
  | fuel + 1, function, arguments => do
    match function with
    | .undefined complaint => throw (.complaint complaint)
    | .routine r => invoke load here fuel r arguments
    | .builtin name => callBuiltin name arguments
    | .method (.loop _ position _ changes _) name => callLoop position changes name arguments
    | .method (.cell _ place _) name =>
      arguments.atMost "Cycler" name 0 0
      callCycle place name
    | .method value name => return (← value.ask name arguments).value
    | .loop _ _ depth _ recursion =>
      match recursion with
      | none =>
        throw (.broken .kind
          "The loop must have the 'recursive' marker to be called recursively.")
      | some n =>
        let given ← (Signature.ofNames "LoopContext.__call__" 1 ["iterable"] []).bind arguments
        match (← get).recursions[n]? with
        | none => return .nothing
        | some r =>
          let cs ← recur load fuel r n (valueAt given 0 .nothing) (depth + 1)
          return if ← printsEscaped r.place then .html cs else .text cs
    | .part name depth context =>
      let _ ← (Signature.ofNames "BlockReference.__call__" 1 [] []).bind arguments
      let cs ← Chunk.join (← performPart load fuel name depth context)
      return if (← contextOf context).escapes then .html cs else .text cs
    | .cell .separator place _ =>
      let _ ← (Signature.ofNames "Joiner.__call__" 1 [] []).bind arguments
      callSeparator place
    | value => throw (.broken .kind ("'" ++ value.kind ++ "' object is not callable"))
termination_by structural fuel => fuel

/-- What a definition prints for arguments. -/
def invoke (load : Loader) (here : Here) : Nat → Routine → Arguments → Play Value
  | 0, _, _ => throw endless
  | fuel + 1, r, arguments => do
    let escapes ← escapesNow here
    let (taken, left) := takeParameters r.parameters arguments.plain arguments.named
    let extras ← r.extras arguments left
    let frame ← openFrame (some r.frame) r.body
    let inside : Here := ⟨frame, r.context, r.root, r.template, some r.escapes, false, false⟩
    changeFrame frame fun f ↦
      { f with
        names := taken.map (fun (p, value) ↦ (p.1, value)) ++
          extras.map (fun (name, value) ↦ (name, some value)) ++
          f.names.filter fun (name, _) ↦
            (extras.lookup name).isNone && (r.parameters.lookup name).isNone }
    taken.forM fun (p, value) ↦ do
      match value, p.2 with
      | some _, _ => return ()
      | none, some default => give frame p.1 (← evaluate load inside fuel default)
      | none, none =>
        give frame p.1 (.undefined ("parameter " ++ Text.quoted p.1 ++ " was not provided"))
    let cs ← Chunk.join (← perform load inside fuel r.body)
    return if escapes then .html cs else .text cs
termination_by structural fuel => fuel

/-- What a part prints, as the template of some depth has it. -/
def performPart (load : Loader) : Nat → String → Nat → Nat → Play (List Chunk)
  | 0, _, _, _ => throw endless
  | fuel + 1, name, depth, context => do
    match (← bodiesOf context name)[depth]? with
    | none => return []
    | some part =>
      let frame ← openFrame none part.body
      if asksFor part.body "self" then
        give frame "self" (.parts (← contextOf context).template context)
      if asksFor part.body "super" then
        give frame "super" (← partAt context name (depth + 1))
      perform load ⟨frame, context, frame, part.template, some (isEscaped part.template), false,
        false⟩ fuel part.body
termination_by structural fuel => fuel

/-- What statements print. -/
def perform (load : Loader) (here : Here) : Nat → List Statement → Play (List Chunk)
  | 0, _ => throw endless
  | fuel + 1, statements => do
    return (← statements.mapM (performOne load here fuel)).flatten
termination_by structural fuel => fuel

/-- What a statement prints. -/
def performOne (load : Loader) (here : Here) : Nat → Statement → Play (List Chunk)
  | 0, _ => throw endless
  | fuel + 1, statement => do
    match statement with
    | .data cs => if here.isSilenced && (← isLeftOut here) then return [] else return [.text cs]
    | .print e =>
      if here.isSilenced && (← isLeftOut here) then return []
      let value ← evaluate load here fuel e
      return [.text (value.print (← printsEscaped here))]
    | .branch cases otherwise => performBranch load here fuel cases otherwise
    | .loop target items condition isRecursive body otherwise =>
      let n := (← get).recursions.size
      let recursion : Recursion := ⟨target, condition, body, otherwise, here⟩
      if isRecursive then
        modify fun s ↦ { s with recursions := s.recursions.push recursion }
        let cs ← recur load fuel recursion n (← evaluate load here fuel items) 0
        return [.text cs]
      else
        performLoop load fuel recursion none (← evaluate load here fuel items) 0
    | .assign target e =>
      checkRecords here target
      let value ← evaluate load here fuel e
      giveTarget here here.frame mentionDepth target value
      publish here (target.names mentionDepth) true
      return []
    | .capture target filters body =>
      checkRecords here target
      let inside ← openInner here
      let chunks ← perform load { inside with isSilenced := false } fuel body
      let escapes ← escapesNow here
      let value ← match filters with
        | .name "" => Value.text <$> (Chunk.join chunks : Result (List Char))
        | filters => applyFilters load inside fuel filters chunks
      giveTarget here here.frame mentionDepth target
        (if escapes then .html (if value.isHtml then value.toHtml else value.toText) else value)
      publish here (target.names mentionDepth) true
      return []
    | .define name parameters body =>
      let r := routineAt here (← escapesNow here) (some name) parameters body
      give here.frame name (.routine r)
      publish here [name] true
      return []
    | .callWith parameters e body =>
      let caller := Value.routine (routineAt here (← escapesNow here) none parameters body)
      match e with
      | .call function arguments =>
        let value ← evaluate load here fuel function
        let arguments ← evaluateArguments load here fuel arguments
        let arguments := { arguments with named := arguments.named ++ [("caller", caller)] }
        return [.ofValue (← call load here fuel value arguments)]
      | _ => return []
    | .filtered filters body =>
      let inside ← openInner here
      let chunks ← perform load inside fuel body
      return [.ofValue (← applyFilters load inside fuel filters chunks)]
    | .scope names body =>
      let inside ← openInner here
      changeFrame inside.frame fun f ↦
        { f with names := (ownNames body).map fun name ↦ (name, none) }
      names.forM fun (target, e) ↦ do
        let value ← evaluate load here fuel e
        giveTarget here inside.frame mentionDepth target value
      perform load inside fuel body
    | .escaping isOn body =>
      let inside ← openInner here
      let value ← evaluate load inside fuel isOn
      let before ← escapesNow here
      changeContext here.context fun c ↦ { c with escapes := value.truth }
      let escapes := if isOn.isFixed mentionDepth then some value.truth else none
      let chunks ← perform load { inside with escapes } fuel body
      changeContext here.context fun c ↦ { c with escapes := before }
      return chunks
    | .part name isScoped _ _ =>
      if here.isTop && (← isLeftOut here) then return []
      let bodies ← bodiesOf here.context name
      if bodies.length ≤ 1 && bodies.any PartBody.isRequired then
        throw (.complaint ("Required block " ++ Text.quoted name ++ " not found"))
      let context ← if isScoped then do
          let outer ← contextOf here.context
          addContext { outer with given := ← namesAround here, vars := [], exported := [] }
        else pure here.context
      performPart load fuel name 0 context
    | .insert e ignoreMissing withContext =>
      match ← chooseTemplate load (← evaluate load here fuel e) with
      | .error complaint =>
        if ignoreMissing then return [] else throw (.complaint complaint)
      | .ok name =>
        let given ← if withContext then namesAround here else pure builtinNames
        return (← performTemplate load fuel name given).1
    | .bring e name withContext =>
      let value ← bringTemplate load here fuel e withContext
      give here.frame name value
      publish here [name] false
      return []
    | .bringNames line e names withContext =>
      let value ← bringTemplate load here fuel e withContext
      match value with
      | .module template _ fields =>
        names.forM fun (name, shown) ↦ do
          let missing := Value.undefined ("the template " ++ Text.quoted template ++
            " (imported on line " ++ toString line ++ " in " ++ Text.quoted here.template ++
            ") does not export the requested name " ++ Text.quoted name)
          give here.frame shown ((fields.lookup name).getD missing)
        publish here (names.map (·.2)) false
      | _ => pure ()
      return []
    | .buildOn e =>
      if ← isLeftOut here then throw (.complaint "extended multiple times")
      let name ← templateName (← evaluate load here fuel e)
      addParts here.context name (← statementsOf load name)
      changeFrame here.root fun f ↦ { f with base := some name }
      return []
termination_by structural fuel => fuel

/-- What filters make of chunks. -/
def applyFilters (load : Loader) (here : Here) : Nat → Expr → List Chunk → Play Value
  | 0, _, _ => throw endless
  | fuel + 1, filters, chunks => do
    let cs ← Chunk.join chunks
    give here.frame capturedName (if ← printsEscaped here then .html cs else .text cs)
    evaluate load here fuel filters
termination_by structural fuel => fuel

/-- What the first body prints whose condition holds. -/
def performBranch (load : Loader) (here : Here) :
    Nat → List (Expr × List Statement) → List Statement → Play (List Chunk)
  | 0, _, _ => throw endless
  | fuel + 1, [], otherwise => perform load here fuel otherwise
  | fuel + 1, (condition, body) :: rest, otherwise => do
    if (← evaluate load here fuel condition).truth then perform load here fuel body
    else performBranch load here fuel rest otherwise
termination_by structural fuel => fuel

/-- What a loop prints that may be run again, put together. -/
def recur (load : Loader) : Nat → Recursion → Nat → Value → Nat → Play (List Char)
  | 0, _, _, _, _ => throw endless
  | fuel + 1, r, n, value, depth => do
    Chunk.join (← performLoop load fuel r (some n) value depth)
termination_by structural fuel => fuel

/-- What a loop prints for the items of a value. -/
def performLoop (load : Loader) :
    Nat → Recursion → Option Nat → Value → Nat → Play (List Chunk)
  | 0, _, _, _, _ => throw endless
  | fuel + 1, r, recursion, value, depth => do
    let items ← value.items
    let items ← match r.condition with
      | none => pure items
      | some condition =>
        items.filterM fun item ↦ do
          let inside ← openInner r.place
          giveTarget r.place inside.frame mentionDepth r.target item
          return (← evaluate load inside fuel condition).truth
    let needsLoop := recursion.isSome || asksFor r.body "loop" ||
      (allStatements r.body).any fun s ↦ s matches .part _ true _ _
    let changes ← addCell []
    let chunks ← items.zipIdx.mapM fun (item, position) ↦ do
      let frame ← openFrame (some r.place.frame) r.body
      giveTarget r.place frame mentionDepth r.target item
      if needsLoop then give frame "loop" (.loop items position depth changes recursion)
      perform load { r.place with frame, isTop := false } fuel r.body
    if items.isEmpty then
      let inside ← openInner r.place
      perform load inside fuel r.otherwise
    else return chunks.flatten
termination_by structural fuel => fuel

/-- What a template prints that is given names, and the number of its context. -/
def performTemplate (load : Loader) :
    Nat → String → List (String × Value) → Play (List Chunk × Nat)
  | 0, _, _ => throw endless
  | fuel + 1, name, given => do
    let statements ← statementsOf load name
    let context ← addContext ⟨name, given, [], [], [], isEscaped name⟩
    addParts context name statements
    return (← performRoot load fuel name context, context)
termination_by structural fuel => fuel

/-- What a template prints in a context. -/
def performRoot (load : Loader) : Nat → String → Nat → Play (List Chunk)
  | 0, _, _ => throw endless
  | fuel + 1, name, context => do
    let statements ← statementsOf load name
    let frame ← openFrame none statements
    if asksFor statements "self" then
      give frame "self" (.parts (← contextOf context).template context)
    let here : Here :=
      ⟨frame, context, frame, name, some (isEscaped name), hasBase statements, true⟩
    let chunks ← perform load here fuel statements
    match (← frameOf frame).base with
    | none => return chunks
    | some base => return chunks ++ (← performRoot load fuel base context)
termination_by structural fuel => fuel

/-- The definitions of another template as a whole. -/
def bringTemplate (load : Loader) (here : Here) : Nat → Expr → Bool → Play Value
  | 0, _, _ => throw endless
  | fuel + 1, e, withContext => do
    let name ← templateName (← evaluate load here fuel e)
    let given ← if withContext then namesAround here else pure builtinNames
    let (chunks, context) ← performTemplate load fuel name given
    let context ← contextOf context
    let fields := context.vars.filter fun (name, _) ↦ context.exported.contains name
    return .module name (← Chunk.join chunks) fields
termination_by structural fuel => fuel

end

/-- How deep a run may go. -/
def depthLimit : Nat := 4000

/-- What a template of a name prints where some names have values. -/
def render (load : Loader) (name : String) (names : List (String × Value)) :
    Except Problem (List Char) :=
  match (performTemplate load depthLimit name (names ++ builtinNames)).run Scene.start with
  | .ok ((chunks, _), _) => Chunk.join chunks
  | .error problem => .error problem

end Guidebook.Template
