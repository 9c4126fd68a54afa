import Guidebook.Template.Scan
import Guidebook.Template.Statement

/-!
# Reading templates

Statements from tokens, by descent. Complaints say what was found and what was looked for; at the
end of a template they say which tags are still open.
-/

namespace Guidebook.Template

/-- How far the reading of a template is: the tokens ahead, the open tags and the tags that close
them, innermost first. -/
structure Progress where
  tokens : List Lexeme
  tags : List String
  endings : List (List String)
  deriving Repr

/-- A reading step. -/
abbrev Read := StateT Progress (Except String)

namespace Read

/-- The token ahead. -/
def peek : Read (Option Token) := do
  match (← get).tokens with
  | [] => return none
  | ⟨.broken complaint, _⟩ :: _ => throw complaint
  | lexeme :: _ => return some lexeme.token

/-- The token behind the one ahead. -/
def peekBehind : Read (Option Token) := do
  match (← get).tokens with
  | _ :: ⟨.broken complaint, _⟩ :: _ => throw complaint
  | _ :: lexeme :: _ => return some lexeme.token
  | _ => return none

/-- The line of the token ahead. -/
def line : Read Nat := return ((← get).tokens.head?.map Lexeme.line).getD 1

/-- Passes the token ahead. -/
def advance : Read Unit := modify fun p ↦ { p with tokens := p.tokens.drop 1 }

/-- Whether a token is ahead. -/
def isAhead (token : Token) : Read Bool := return (← peek) == some token

/-- Passes a token if it is ahead. -/
def skipIf (token : Token) : Read Bool := do
  if ← isAhead token then
    advance
    return true
  else return false

/-- Passes two names if they are ahead. -/
def skipNames (first second : String) : Read Bool := do
  if (← isAhead (.name first)) && (← peekBehind) == some (.name second) then
    advance
    advance
    return true
  else return false

/-- How a complaint calls the token ahead. -/
def describeAhead : Read String := return ((← peek).map Token.describe).getD endOfTemplate

/-- Complains that something else was looked for. -/
def failExpected {α : Type} (wanted : String) : Read α := do
  match ← peek with
  | none => throw ("unexpected end of template, expected " ++ Text.quoted wanted ++ ".")
  | some token =>
    throw ("expected token " ++ Text.quoted wanted ++ ", got " ++ Text.quoted token.describe)

/-- Passes a token that has to be ahead. -/
def expect (token : Token) : Read Unit := do
  if ← skipIf token then return () else failExpected token.describe

/-- Passes a name that has to be ahead. -/
def expectName : Read String := do
  match ← peek with
  | some (.name name) =>
    advance
    return name
  | _ => failExpected "name"

/-- Passes a name if one is ahead. -/
def nameIf : Read (Option String) := do
  match ← peek with
  | some (.name name) =>
    advance
    return some name
  | _ => return none

end Read

open Read

/-- How tightly operators bind, the loosest first. -/
inductive Level where
  | either
  | both
  | sum
  | join
  | product
  | power
  deriving Repr, DecidableEq

/-- The operators of a level. -/
def Level.operators : Level → List (Token × Operator)
  | either => [(.name "or", .either)]
  | both => [(.name "and", .both)]
  | sum => [(.symbol "+", .add), (.symbol "-", .subtract)]
  | join => [(.symbol "~", .join)]
  | product => [(.symbol "*", .multiply), (.symbol "/", .quotient), (.symbol "//", .divide),
      (.symbol "%", .modulo)]
  | power => [(.symbol "**", .power)]

/-- The comparisons by their symbols. -/
def comparisons : List (Token × Comparison) :=
  [(.symbol "==", .equal), (.symbol "!=", .different), (.symbol "<", .less),
    (.symbol "<=", .atMost), (.symbol ">", .greater), (.symbol ">=", .atLeast),
    (.name "in", .within)]

/-- Passes a comparison if one is ahead. -/
def comparisonIf : Read (Option Comparison) := do
  if ← skipNames "not" "in" then return some .outside
  else match (← peek).bind fun token ↦ comparisons.lookup token with
    | some comparison =>
      advance
      return some comparison
    | none => return none

/-- Whether an expression list ends here. -/
def atTupleEnd (stops : List Token) : Read Bool := do
  match ← peek with
  | some token => return (.printEnd :: .blockEnd :: .symbol ")" :: stops).contains token
  | none => return false

/-- Whether the token ahead starts the argument of a test without brackets. -/
def startsArgument : Token → Bool
  | .name name => !(["else", "or", "and"].contains name)
  | .text _ | .int _ | .decimal .. => true
  | .symbol "(" | .symbol "[" | .symbol "\x7b" => true
  | _ => false

/-- Names that are written for values. -/
def constantNames : List String := ["true", "True", "false", "False", "none", "None"]

/-- What is said when a template is nested too deep to be read. -/
def tooDeep : String := "template is nested too deep"

/-- What is said of arguments in a wrong order. -/
def wrongArguments : String := "invalid syntax for function call expression"

/-- Reads what says how the argument ahead is given. -/
def readPassing : Read Passing := do
  if ← skipIf (.symbol "*") then return .items
  else if ← skipIf (.symbol "**") then return .fields
  else match ← peek with
    | some (.name name) =>
      if (← peekBehind) == some (.symbol "=") then
        advance
        advance
        return .named name
      else return .plain
    | _ => return .plain

/-- Reads the name of a filter or test, which may have dots in it. -/
def readDotted : Nat → Read String
  | 0 => throw tooDeep
  | fuel + 1 => do
    let name ← expectName
    if ← skipIf (.symbol ".") then return name ++ "." ++ (← readDotted fuel) else return name

/-- Whether an argument may be given behind others. -/
def mayFollow (before : List Passing) : Passing → Bool
  | .plain => before.all (· == .plain)
  | .items => !before.contains .items && !before.contains .fields
  | .named _ | .fields => !before.contains .fields

mutual

/-- Reads expressions between commas: one by itself, several as a tuple. -/
def readTuple (choices explicit : Bool) (stops : List Token) : Nat → Read Expr
  | 0 => throw tooDeep
  | fuel + 1 => do
    let (items, commas) ← readItems choices stops fuel
    match items, commas with
    | [item], false => return item
    | [], _ =>
      if explicit then return .tuple []
      else throw ("Expected an expression, got " ++ Text.quoted (← describeAhead))
    | items, _ => return .tuple items

/-- Reads expressions between commas and says whether there is a comma. -/
def readItems (choices : Bool) (stops : List Token) : Nat → Read (List Expr × Bool)
  | 0 => throw tooDeep
  | fuel + 1 => do
    if ← atTupleEnd stops then return ([], false)
    else
      let item ← if choices then readChoice fuel else readBinary .either fuel
      if ← skipIf (.symbol ",") then
        let (items, _) ← readItems choices stops fuel
        return (item :: items, true)
      else return ([item], false)

/-- Reads an expression with its conditions. -/
def readChoice : Nat → Read Expr
  | 0 => throw tooDeep
  | fuel + 1 => do
    let start ← line
    readConditions start (← readBinary .either fuel) fuel

/-- Reads the conditions behind an expression. -/
def readConditions (start : Nat) (yes : Expr) : Nat → Read Expr
  | 0 => throw tooDeep
  | fuel + 1 => do
    if ← skipIf (.name "if") then
      let condition ← readBinary .either fuel
      let other ← if ← skipIf (.name "else") then some <$> readChoice fuel else pure none
      readConditions (← line) (.choose start condition yes other) fuel
    else return yes

/-- Reads operators of a level and their operands. -/
def readBinary (level : Level) : Nat → Read Expr
  | 0 => throw tooDeep
  | fuel + 1 => do readOperators level (← readOperand level fuel) fuel

/-- Reads the operators behind a left operand. -/
def readOperators (level : Level) (left : Expr) : Nat → Read Expr
  | 0 => throw tooDeep
  | fuel + 1 => do
    match (← peek).bind fun token ↦ level.operators.lookup token with
    | none => return left
    | some operator =>
      advance
      let right ← readOperand level fuel
      readOperators level (.binary operator left right) fuel

/-- Reads an operand of a level. -/
def readOperand (level : Level) : Nat → Read Expr
  | 0 => throw tooDeep
  | fuel + 1 =>
    match level with
    | .either => readBinary .both fuel
    | .both => readNegation fuel
    | .sum => readBinary .join fuel
    | .join => readBinary .product fuel
    | .product => readBinary .power fuel
    | .power => readSigned true fuel

/-- Reads an expression behind any number of negations. -/
def readNegation : Nat → Read Expr
  | 0 => throw tooDeep
  | fuel + 1 => do
    if ← skipIf (.name "not") then return .no (← readNegation fuel)
    else
      let left ← readBinary .sum fuel
      match ← readComparisons fuel with
      | [] => return left
      | rest => return .compare left rest

/-- Reads comparisons with their right sides. -/
def readComparisons : Nat → Read (List (Comparison × Expr))
  | 0 => throw tooDeep
  | fuel + 1 => do
    match ← comparisonIf with
    | none => return []
    | some comparison =>
      let right ← readBinary .sum fuel
      return (comparison, right) :: (← readComparisons fuel)

/-- Reads a signed expression with what is written behind it. -/
def readSigned (filters : Bool) : Nat → Read Expr
  | 0 => throw tooDeep
  | fuel + 1 => do
    let inner ←
      if ← skipIf (.symbol "-") then Expr.negative <$> readSigned false fuel
      else if ← skipIf (.symbol "+") then Expr.positive <$> readSigned false fuel
      else readPrimary fuel
    let inner ← readBehind inner fuel
    if filters then readFilters inner fuel else return inner

/-- Reads a name, a literal or an expression in brackets. -/
def readPrimary : Nat → Read Expr
  | 0 => throw tooDeep
  | fuel + 1 => do
    match ← peek with
    | some (.name name) =>
      advance
      match name with
      | "true" | "True" => return .bool true
      | "false" | "False" => return .bool false
      | "none" | "None" => return .nothing
      | name => return .name name
    | some (.text text) =>
      advance
      readTexts text fuel
    | some (.int n) =>
      advance
      return .int n
    | some (.decimal digits exponent) =>
      advance
      return .decimal digits exponent
    | some (.symbol "(") =>
      advance
      let inner ← readTuple true true [] fuel
      expect (.symbol ")")
      return inner
    | some (.symbol "[") =>
      advance
      return .list (← readListed fuel)
    | some (.symbol "\x7b") =>
      advance
      return .record (← readFields fuel)
    | _ => throw ("unexpected " ++ Text.quoted (← describeAhead))

/-- Reads the texts that follow a text directly. -/
def readTexts (text : List Char) : Nat → Read Expr
  | 0 => throw tooDeep
  | fuel + 1 => do
    match ← peek with
    | some (.text more) =>
      advance
      readTexts (text ++ more) fuel
    | _ => return .text text

/-- Reads the items of a list and its closing bracket. -/
def readListed : Nat → Read (List Expr)
  | 0 => throw tooDeep
  | fuel + 1 => do
    if ← skipIf (.symbol "]") then return []
    else
      let item ← readChoice fuel
      if ← skipIf (.symbol "]") then return [item]
      else
        expect (.symbol ",")
        return item :: (← readListed fuel)

/-- Reads the fields of a record and its closing bracket. -/
def readFields : Nat → Read (List (Expr × Expr))
  | 0 => throw tooDeep
  | fuel + 1 => do
    if ← skipIf (.symbol "\x7d") then return []
    else
      let key ← readChoice fuel
      expect (.symbol ":")
      let value ← readChoice fuel
      if ← skipIf (.symbol "\x7d") then return [(key, value)]
      else
        expect (.symbol ",")
        return (key, value) :: (← readFields fuel)

/-- Reads the keys of an item and the closing bracket. A comma in front of the bracket is none of
them. -/
def readKeys : Nat → Read (List Expr)
  | 0 => throw tooDeep
  | fuel + 1 => do
    let key ← readKey fuel
    if ← skipIf (.symbol "]") then return [key]
    else
      expect (.symbol ",")
      return key :: (← readKeys fuel)

/-- Reads a key or a range of places. -/
def readKey : Nat → Read Expr
  | 0 => throw tooDeep
  | fuel + 1 => do
    let start ← if ← isAhead (.symbol ":") then pure .nothing else readChoice fuel
    if ← skipIf (.symbol ":") then
      let stop ← readBound fuel
      let step ← if ← skipIf (.symbol ":") then readBound fuel else pure .nothing
      return .slice start stop step
    else return start

/-- Reads an end or a step of a range of places; there may be none. -/
def readBound : Nat → Read Expr
  | 0 => throw tooDeep
  | fuel + 1 => do
    match ← peek with
    | some (.symbol ":") | some (.symbol "]") | some (.symbol ",") => return .nothing
    | _ => readChoice fuel

/-- Reads the attributes, items and calls behind an expression. -/
def readBehind (inner : Expr) : Nat → Read Expr
  | 0 => throw tooDeep
  | fuel + 1 => do
    match ← peek with
    | some (.symbol ".") =>
      advance
      match ← peek with
      | some (.name name) =>
        advance
        readBehind (.member inner name) fuel
      | some (.int n) =>
        advance
        readBehind (.item inner (.int n)) fuel
      | _ => throw "expected name or number"
    | some (.symbol "[") =>
      advance
      if ← skipIf (.symbol "]") then readBehind (.item inner (.tuple [])) fuel
      else match ← readKeys fuel with
        | [key] => readBehind (.item inner key) fuel
        | keys => readBehind (.item inner (.tuple keys)) fuel
    | some (.symbol "(") =>
      advance
      readBehind (.call inner (← readArguments [] fuel)) fuel
    | _ => return inner

/-- Reads the arguments of a call behind others, and its closing bracket. -/
def readArguments (before : List Passing) : Nat → Read (List (Passing × Expr))
  | 0 => throw tooDeep
  | fuel + 1 => do
    if ← skipIf (.symbol ")") then return []
    else
      if !before.isEmpty then expect (.symbol ",")
      if ← skipIf (.symbol ")") then return []
      else
        let passing ← readPassing
        if !mayFollow before passing then throw wrongArguments
        let value ← readChoice fuel
        return (passing, value) :: (← readArguments (passing :: before) fuel)

/-- Reads the arguments of a filter or test, if there are any. -/
def readOptions : Nat → Read (List (Passing × Expr))
  | 0 => throw tooDeep
  | fuel + 1 => do if ← skipIf (.symbol "(") then readArguments [] fuel else return []

/-- Reads the filters behind an expression, `first` of them without its mark. -/
def readPipes (first : Bool) (inner : Expr) : Nat → Read Expr
  | 0 => throw tooDeep
  | fuel + 1 => do
    let isFilter ← if first then pure true else skipIf (.symbol "|")
    if isFilter then
      let name ← readDotted fuel
      readPipes false (.filter name inner (← readOptions fuel)) fuel
    else return inner

/-- Reads a test behind an expression. -/
def readTest (inner : Expr) : Nat → Read Expr
  | 0 => throw tooDeep
  | fuel + 1 => do
    let negated ← skipIf (.name "not")
    let name ← readDotted fuel
    let arguments ←
      if ← isAhead (.symbol "(") then readOptions fuel
      else if ((← peek).map startsArgument).getD false then do
        if ← isAhead (.name "is") then throw "You cannot chain multiple tests with is"
        pure [(.plain, ← readBehind (← readPrimary fuel) fuel)]
      else pure []
    let result := Expr.test name inner arguments
    return if negated then .no result else result

/-- Reads filters, tests and calls behind an expression. -/
def readFilters (inner : Expr) : Nat → Read Expr
  | 0 => throw tooDeep
  | fuel + 1 => do
    match ← peek with
    | some (.symbol "|") => readFilters (← readPipes false inner fuel) fuel
    | some (.name "is") =>
      advance
      readFilters (← readTest inner fuel) fuel
    | some (.symbol "(") =>
      advance
      readFilters (.call inner (← readArguments [] fuel)) fuel
    | _ => return inner

end

/-- The complaint about a tag in the wrong place, or about the end of the template. -/
def strayComplaint (p : Progress) (tag : Option String) : String :=
  let opening := match tag with
    | none => "Unexpected end of template."
    | some tag => "Encountered unknown tag " ++ Text.quoted tag ++ "."
  let looking := match p.endings with
    | [] => none
    | wanted :: _ => some (Text.joinStrings " or " (wanted.map Text.quoted))
  let looking := match looking, tag with
    | none, _ => ""
    | some looking, some tag =>
      if p.endings.any (·.contains tag) then
        " You probably made a nesting mistake. Jinja is expecting this tag, " ++
          "but currently looking for " ++ looking ++ "."
      else " Jinja was looking for the following tags: " ++ looking ++ "."
    | some looking, none => " Jinja was looking for the following tags: " ++ looking ++ "."
  let innermost := match p.tags with
    | [] => ""
    | tag :: _ => " The innermost block that needs to be closed is " ++ Text.quoted tag ++ "."
  opening ++ looking ++ innermost

/-- How a complaint calls an expression that cannot be given a value. -/
def Expr.kind : Expr → String
  | nothing | bool _ | int _ | decimal .. | text _ => "const"
  | name _ => "name"
  | member .. => "getattr"
  | item .. => "getitem"
  | call .. => "call"
  | list _ => "list"
  | tuple _ => "tuple"
  | record _ => "dict"
  | _ => "expr"

/-- An expression as what is given a value. -/
def Expr.target? : Nat → Expr → Option Target
  | 0, _ => none
  | _, name n => if constantNames.contains n then none else some (.name n)
  | fuel + 1, tuple items => (items.mapM (Expr.target? fuel)).map .items
  | _, _ => none

/-- What is given a value, from the expression that names it. -/
def targetOf (e : Expr) : Except String Target :=
  match e.target? tooDeep.length with
  | some target => .ok target
  | none => .error ("can't assign to " ++ Text.quoted e.kind)

/-- Reads the name of a definition. -/
def readDefinedName : Read String := do
  let name ← expectName
  if constantNames.contains name then throw "can't assign to 'name'" else return name

/-- Reads plain expressions between commas that are given values. Fields are among them only if
they may be. -/
def readTargets (fields : Bool) (stops : List Token) : Nat → Read (List (Expr ⊕ Target) × Bool)
  | 0 => throw tooDeep
  | fuel + 1 => do
    if ← atTupleEnd stops then return ([], false)
    else
      let item ← match ← peek, ← peekBehind with
        | some (.name name), some (.symbol ".") =>
          if fields && !constantNames.contains name then do
            advance
            advance
            pure (Sum.inr (Target.field name (← expectName)))
          else Sum.inl <$> readPrimary fuel
        | _, _ => Sum.inl <$> readPrimary fuel
      if ← skipIf (.symbol ",") then
        let (items, _) ← readTargets fields stops fuel
        return (item :: items, true)
      else return ([item], false)

/-- What is given a value, from the expression or the field that was read for it. -/
def targetOfItem : Expr ⊕ Target → Except String Target
  | .inl e => targetOf e
  | .inr target => .ok target

/-- What is given values, from what was read for them. -/
def targetOfItems (items : List (Expr ⊕ Target)) (commas : Bool) : Except String Target :=
  match items, commas with
  | [item], false => targetOfItem item
  | items, _ =>
    match items.mapM targetOfItem with
    | .ok targets => .ok (.items targets)
    | .error _ => .error "can't assign to 'tuple'"

/-- Reads what is given a value. -/
def readTarget (fields : Bool) (stops : List Token) (fuel : Nat) : Read Target := do
  let (items, commas) ← readTargets fields stops fuel
  if items.isEmpty && !commas then
    throw ("Expected an expression, got " ++ Text.quoted (← describeAhead))
  targetOfItems items commas

/-- Reads the parameters of a definition and the closing bracket. -/
def readParameters (before : List Parameter) : Nat → Read (List Parameter)
  | 0 => throw tooDeep
  | fuel + 1 => do
    if ← skipIf (.symbol ")") then return []
    else
      if !before.isEmpty then expect (.symbol ",")
      let name ← readDefinedName
      let fallback ← if ← skipIf (.symbol "=") then some <$> readChoice fuel else pure none
      if fallback.isNone && before.any (·.2.isSome) then
        throw "non-default argument follows default argument"
      return (name, fallback) :: (← readParameters ((name, fallback) :: before) fuel)

/-- Runs a step with tags that would close the current body. -/
def withEndings {α : Type} (endings : List String) (step : Read α) : Read α := do
  modify fun p ↦ { p with endings := endings :: p.endings }
  let result ← step
  modify fun p ↦ { p with endings := p.endings.drop 1 }
  return result

/-- Reads whether another template sees the names around it. -/
def readContext (default : Bool) : Read Bool := do
  if ← skipNames "with" "context" then return true
  else if ← skipNames "without" "context" then return false
  else return default

/-- Reads whether other templates see the names around them, if it is written here. -/
def contextIf : Read (Option Bool) := do
  if ← skipNames "with" "context" then return some true
  else if ← skipNames "without" "context" then return some false
  else return none

/-- Reads names of another template with the names they get here, and whether that template sees
the names around it. -/
def readBroughtNames (before : List (String × String)) :
    Nat → Read (List (String × String) × Bool)
  | 0 => throw tooDeep
  | fuel + 1 => do
    if !before.isEmpty then expect (.symbol ",")
    match ← peek with
    | some (.name _) =>
      match ← contextIf with
      | some seen => return (before.reverse, seen)
      | none =>
        let name ← readDefinedName
        if name.startsWith "_" then throw "names starting with an underline can not be imported"
        let shown ← if ← skipIf (.name "as") then readDefinedName else pure name
        let names := (name, shown) :: before
        match ← contextIf with
        | some seen => return (names.reverse, seen)
        | none =>
          if ← isAhead (.symbol ",") then readBroughtNames names fuel
          else return (names.reverse, false)
    | _ => failExpected "name"

/-- Whether statements print nothing but blanks. -/
def isBlankBody (body : List Statement) : Bool :=
  body.all fun statement ↦
    match statement with
    | .data text => text.all Text.isBlank
    | _ => false

mutual

/-- Reads statements up to one of the closing tags, whose opening is passed. -/
def readStatements (endings : List String) : Nat → Read (List Statement)
  | 0 => throw tooDeep
  | fuel + 1 => do
    match ← peek with
    | none => return []
    | some (.data text) =>
      advance
      let rest ← readStatements endings fuel
      return if text.isEmpty then rest else .data text :: rest
    | some .printBegin =>
      advance
      let value ← readTuple true false [] fuel
      expect .printEnd
      return .print value :: (← readStatements endings fuel)
    | some .blockBegin =>
      advance
      match ← peek with
      | some (.name tag) =>
        if endings.contains tag then return []
        else
          let statements ← readStatement fuel
          expect .blockEnd
          return statements ++ (← readStatements endings fuel)
      | _ => throw "tag name expected"
    | some _ => throw "internal parsing error"

/-- Reads the rest of a tag and the body up to a closing tag, and gives the closing tag. -/
def readBody (endings : List String) : Nat → Read (List Statement × String)
  | 0 => throw tooDeep
  | fuel + 1 => do
    let _ ← skipIf (.symbol ":")
    expect .blockEnd
    let body ← withEndings endings (readStatements endings fuel)
    match ← nameIf with
    | some tag => return (body, tag)
    | none =>
      modify fun p ↦ { p with endings := endings :: p.endings }
      throw (strayComplaint (← get) none)

/-- Reads the branches of a condition. -/
def readBranches : Nat → Read (List (Expr × List Statement) × List Statement)
  | 0 => throw tooDeep
  | fuel + 1 => do
    let condition ← readTuple false false [] fuel
    let (body, tag) ← readBody ["elif", "else", "endif"] fuel
    match tag with
    | "elif" =>
      let (cases, otherwise) ← readBranches fuel
      return ((condition, body) :: cases, otherwise)
    | "else" => return ([(condition, body)], (← readBody ["endif"] fuel).1)
    | _ => return ([(condition, body)], [])

/-- Reads the names that a scope gives values to. -/
def readScope (isFirst : Bool) : Nat → Read (List (Target × Expr))
  | 0 => throw tooDeep
  | fuel + 1 => do
    if ← isAhead .blockEnd then return []
    else
      if !isFirst then expect (.symbol ",")
      let target ← readTarget false [] fuel
      expect (.symbol "=")
      let value ← readChoice fuel
      return (target, value) :: (← readScope false fuel)

/-- Reads printed expressions between commas. -/
def readPrinted (isFirst : Bool) : Nat → Read (List Statement)
  | 0 => throw tooDeep
  | fuel + 1 => do
    if ← isAhead .blockEnd then return []
    else
      if !isFirst then expect (.symbol ",")
      let value ← readChoice fuel
      return .print value :: (← readPrinted false fuel)

/-- Reads the body of a loop behind its tag's name. -/
def readLoop : Nat → Read Statement
  | 0 => throw tooDeep
  | fuel + 1 => do
    let target ← readTarget false [.name "in"] fuel
    expect (.name "in")
    let items ← readTuple false false [.name "recursive"] fuel
    let condition ← if ← skipIf (.name "if") then some <$> readChoice fuel else pure none
    let isRecursive ← skipIf (.name "recursive")
    let (body, tag) ← readBody ["endfor", "else"] fuel
    let otherwise ← if tag == "else" then (·.1) <$> readBody ["endfor"] fuel else pure []
    return .loop target items condition isRecursive body otherwise

/-- Reads a part that other templates may replace, behind its tag's name. -/
def readPart : Nat → Read Statement
  | 0 => throw tooDeep
  | fuel + 1 => do
    let name ← expectName
    let isScoped ← skipIf (.name "scoped")
    let isRequired ← skipIf (.name "required")
    if ← isAhead (.symbol "-") then
      throw ("Block names in Jinja have to be valid Python identifiers and may not contain " ++
        "hyphens, use an underscore instead.")
    let (body, _) ← readBody ["endblock"] fuel
    if isRequired && !isBlankBody body then
      throw "Required blocks can only contain comments or whitespace"
    let _ ← skipIf (.name name)
    return .part name isScoped isRequired body

/-- Reads a call with a body, behind its tag's name. -/
def readCallWith : Nat → Read Statement
  | 0 => throw tooDeep
  | fuel + 1 => do
    let parameters ← if ← skipIf (.symbol "(") then readParameters [] fuel else pure []
    match ← readChoice fuel with
    | .call function arguments =>
      return .callWith parameters (.call function arguments) (← readBody ["endcall"] fuel).1
    | _ => throw "expected call"

/-- Reads statements behind the name of their tag. -/
def readTag (tag : String) : Nat → Read (List Statement)
  | 0 => throw tooDeep
  | fuel + 1 => do
    match tag with
    | "if" =>
      let (cases, otherwise) ← readBranches fuel
      return [.branch cases otherwise]
    | "for" => return [← readLoop fuel]
    | "set" =>
      let target ← readTarget true [] fuel
      if ← skipIf (.symbol "=") then return [.assign target (← readTuple true false [] fuel)]
      else
        let filters ← readPipes false (.name capturedName) fuel
        return [.capture target filters (← readBody ["endset"] fuel).1]
    | "macro" =>
      let name ← readDefinedName
      expect (.symbol "(")
      let parameters ← readParameters [] fuel
      return [.define name parameters (← readBody ["endmacro"] fuel).1]
    | "call" => return [← readCallWith fuel]
    | "filter" =>
      let filters ← readPipes true (.name capturedName) fuel
      return [.filtered filters (← readBody ["endfilter"] fuel).1]
    | "with" =>
      let names ← readScope true fuel
      return [.scope names (← readBody ["endwith"] fuel).1]
    | "autoescape" =>
      let isOn ← readChoice fuel
      return [.escaping isOn (← readBody ["endautoescape"] fuel).1]
    | "block" => return [← readPart fuel]
    | "include" =>
      let template ← readChoice fuel
      let missing ← skipNames "ignore" "missing"
      return [.insert template missing (← readContext true)]
    | "import" =>
      let template ← readChoice fuel
      expect (.name "as")
      let name ← readDefinedName
      return [.bring template name (← readContext false)]
    | "from" =>
      let start ← line
      let template ← readChoice fuel
      expect (.name "import")
      let (names, seen) ← readBroughtNames [] fuel
      return [.bringNames start template names seen]
    | "extends" => return [.buildOn (← readChoice fuel)]
    | "print" => readPrinted true fuel
    | tag =>
      modify fun p ↦ { p with tags := p.tags.drop 1 }
      throw (strayComplaint (← get) (some tag))

/-- Reads statements from the name of their tag on. -/
def readStatement : Nat → Read (List Statement)
  | 0 => throw tooDeep
  | fuel + 1 => do
    let tag ← expectName
    modify fun p ↦ { p with tags := tag :: p.tags }
    let statements ← readTag tag fuel
    modify fun p ↦ { p with tags := p.tags.drop 1 }
    return statements

end

/-- Reads a template, or says why it cannot be read. -/
def read (text : List Char) : Except String (List Statement) :=
  let tokens := scan text
  match (readStatements [] (64 * tokens.length + 64)).run ⟨tokens, [], []⟩ with
  | .error complaint => .error complaint
  | .ok (statements, _) => .ok statements

end Guidebook.Template
