import Guidebook.Template.ItemMethod
import Guidebook.Template.Links
import Guidebook.Text.Wrap

/-!
# Filters of text and numbers
-/

namespace Guidebook.Template.Value

/-- A value as text: clean text stays clean. -/
def soft (value : Value) : Value :=
  match value with
  | html _ => value
  | value => text value.toText

/-! Numbers -/

/-- A number whose value has no end cannot be made whole. -/
def wholeOf (x : Float) : Result Int :=
  if x.isNaN then .error (.broken .value "cannot convert float NaN to integer")
  else if x.isInf then .error (.broken .overflow "cannot convert float infinity to integer")
  else .ok (Text.truncated x)

/-- A value as a number with a point, if it can be one. -/
def floatOf? : Value → Option Float
  | text cs | html cs => Text.float? cs
  | value => value.number?.map Number.toFloat

/-- A value as a number with a point. -/
def needFloat (value : Value) : Result Float :=
  match value with
  | undefined complaint => complain complaint
  | text cs | html cs =>
    match Text.float? cs with
    | some x => .ok x
    | none =>
      .error (.broken .value ("could not convert string to float: " ++
        Text.quoted (String.ofList cs)))
  | value =>
    match value.number? with
    | some n => .ok n.toFloat
    | none =>
      wrongKind ("float() argument must be a string or a real number, not '" ++ value.kind ++ "'")

/-- The whole number of a value, or another value if it has none. -/
def toInt (value default base : Value) : Result Value :=
  let viaFloat := match floatOf? value with
    | some x => match wholeOf x with
      | .ok n => int n
      | .error _ => default
    | none => default
  match value with
  | undefined complaint => complain complaint
  | text cs | html cs =>
    let found := do
      let base ← base.int?
      if base == 0 || (2 ≤ base && base ≤ 36) then Text.integerIn? base.toNat cs else none
    .ok ((found.map int).getD viaFloat)
  | float x =>
    if x.isInf then (wholeOf x).map int else .ok viaFloat
  | value => .ok ((value.int?.map int).getD default)

/-- A power of ten with a whole exponent. -/
def powerOfTen (n : Int) : Result Value := power (int 10) (int n)

/-- A whole number rounded to places in front of the point, to the even side if it is in the
middle. -/
def roundInt (n places : Int) : Int :=
  if 0 ≤ places then n
  else
    let unit := Nat.pow 10 (-places).toNat
    let size : Int := Text.roundDiv n.natAbs unit * unit
    if n < 0 then -size else size

/-- A rounded number. -/
def roundTo (value precision : Value) (method : String) : Result Value := do
  if !(["common", "ceil", "floor"].contains method) then
    complain "method must be common, ceil or floor"
  if method == "common" then
    match value.number?, precision with
    | none, _ => wrongKind ("type " ++ value.kind ++ " doesn't define __round__ method")
    | some (.int n), nothing => return int n
    | some (.float x), nothing =>
      let _ ← wholeOf x
      return int (Text.truncated (Text.rounded 0 x))
    | some (.int n), precision => return int (roundInt n (← precision.needInt))
    | some (.float x), precision =>
      let places ← precision.needInt
      return float (if x.isNaN || x.isInf || 330 < places then x else Text.rounded places x)
  else
    let unit ← power (int 10) precision
    let scaled ← multiply value unit
    match scaled.number? with
    | none =>
      match scaled with
      | undefined complaint => complain complaint
      | scaled => wrongKind ("must be real number, not " ++ scaled.kind)
    | some (.int n) => quotient (int n) unit
    | some (.float x) =>
      let _ ← wholeOf x
      let whole := if method == "floor" then Text.floorOf x else -(Text.floorOf (-x))
      quotient (int whole) unit

/-- A size in bytes as people write it. -/
def fileSize (value : Value) (binary : Bool) : Result Value := do
  let x ← value.needFloat
  let base : Nat := if binary then 1024 else 1000
  let units := ["kB", "MB", "GB", "TB", "PB", "EB", "ZB", "YB"]
  let units := if binary then units.map fun u ↦ ((u.take 1).toString.toUpper ++ "iB") else units
  let write := fun (n : Nat) (unit : String) ↦
    let size := Text.floatOfInt base * x / Text.floatOfInt (Nat.pow base (n + 2))
    text (Text.writeFixed 1 size ++ ' ' :: unit.toList)
  if x == 1 then return ofString "1 Byte"
  else if x < Text.floatOfInt base then
    return ofString (toString (← wholeOf x) ++ " Bytes")
  else
    match units.zipIdx.find? fun (_, n) ↦ x < Text.floatOfInt (Nat.pow base (n + 2)) with
    | some (unit, n) => return write n unit
    | none => return write 7 (units.getLast?.getD "")

/-! Text -/

/-- Whether words start behind a character. -/
def startsWord (c : Char) : Bool := Text.isBlank c || ['-', '(', '{', '[', '<'].contains c

/-- Pieces that are all between words or all words. -/
def titlePieces : Nat → List Char → List (List Char)
  | 0, _ => []
  | _, [] => []
  | fuel + 1, c :: rest =>
    let piece := (c :: rest).takeWhile fun d ↦ startsWord d == startsWord c
    piece :: titlePieces fuel ((c :: rest).drop piece.length)

/-- Text with each word large at its start. -/
def titled (cs : List Char) : List Char :=
  (titlePieces cs.length cs).flatMap fun piece ↦
    Text.upperAll (piece.take 1) ++ Text.lowerAll (piece.drop 1)

/-- The number of words. -/
def wordCount (inWord : Bool) : List Char → Nat
  | [] => 0
  | c :: rest =>
    let isWord := Text.isWordChar c
    (if isWord && !inWord then 1 else 0) + wordCount isWord rest

/-- A value as a part of an address. -/
def quoteUrl (value : Value) (inQuery : Bool) : List Char :=
  (Utf8.encode value.toText).flatMap fun b ↦
    if inQuery && b == 0x20 then ['+']
    else if inQuery && b == 0x2f then "%2F".toList
    else Theme.encodeByte b

/-- A value as an address or as its query. -/
def urlEncode (value : Value) : Result Value := do
  let pair := fun (item : Value) ↦ do
    match ← item.items with
    | [key, field] => return quoteUrl key true ++ '=' :: quoteUrl field true
    | [] => (.error (.broken .value "not enough values to unpack (expected 2, got 0)") :
        Result (List Char))
    | [_] => .error (.broken .value "not enough values to unpack (expected 2, got 1)")
    | _ => .error (.broken .value "too many values to unpack (expected 2)")
  match value with
  | text _ | html _ => return text (quoteUrl value false)
  | record fields =>
    return text (Text.joinWith ['&'] (fields.map fun (key, field) ↦
      quoteUrl key true ++ '=' :: quoteUrl field true))
  | value =>
    if value.hasItems then return text (Text.joinWith ['&'] (← (← value.items).mapM pair))
    else return text (quoteUrl value false)

/-- There is no such attribute. -/
def noAttribute {α : Type} (value : Value) (name : String) : Result α :=
  match value with
  | undefined complaint => complain complaint
  | value =>
    .error (.broken .attribute ("'" ++ value.kind ++ "' object has no attribute " ++
      Text.quoted name))

/-- Attributes of a tag from a record. -/
def tagAttributes (escapes : Bool) (value : Value) (space : Bool) : Result Value := do
  match value with
  | record fields =>
    let written ← fields.filterMapM fun (key, field) ↦ do
      match field with
      | nothing | undefined _ => return none
      | field =>
        let isBad := fun c ↦ c == ' ' || (0x09 ≤ c.toNat && c.toNat ≤ 0x0d) ||
          ['/', '>', '='].contains c
        if !key.isText then
          (wrongKind ("expected string or bytes-like object, got '" ++ key.kind ++ "'") :
            Result Unit)
        if key.toText.any isBad then
          (.error (.broken .value ("Invalid character in attribute name: " ++
            String.ofList key.showInside)) : Result Unit)
        return some (key.toHtml ++ '=' :: '"' :: field.toHtml ++ ['"'])
    let line := Text.joinWith [' '] written
    let line := if space && !line.isEmpty then ' ' :: line else line
    return if escapes then html line else text line
  | value => noAttribute value "items"

/-- Text with its lines moved in. -/
def indented (value width first blank : Value) : Result Value := do
  match value with
  | text cs | html cs =>
    let indent ← match width with
      | text indent | html indent => pure indent
      | width =>
        match width.int? with
        | some n => pure (List.replicate n.toNat ' ')
        | none =>
          wrongKind ("can't multiply sequence by non-int of type '" ++ width.kind ++ "'")
    let lines := Text.lines (cs ++ ['\n'])
    let body := if blank.truth then Text.joinWith ('\n' :: indent) lines
      else Text.joinWith ['\n'] (lines.zipIdx.map fun (line, n) ↦
        if n == 0 || line.isEmpty then line else indent ++ line)
    return value.withText (if first.truth then indent ++ body else body)
  | undefined complaint => complain complaint
  | list _ => noAttribute value "splitlines"
  | value => misfit "+=" value (text [])

/-- Text cut to a length, with an ending in place of what is left out. -/
def truncateText (value length killWords ending leeway : Value) : Result Value := do
  let leeway ← match leeway with
    | nothing => pure 5
    | leeway => leeway.needInt
  let length ← length.needInt
  let room := length - (← ending.length)
  if room < 0 then
    .error (.broken .condition ("expected length >= " ++ toString (← ending.length) ++ ", got " ++
      toString length))
  if leeway < 0 then
    .error (.broken .condition ("expected leeway >= 0, got " ++ toString leeway))
  if (← value.length) ≤ length + leeway then return value
  let front ← value.cut nothing (int room) nothing
  if killWords.truth then add front ending
  else match front with
    | text cs | html cs =>
      let (before, found, _) := Text.partitionLast [' '] cs
      add (front.withText (if found.isEmpty then cs else before)) ending
    | front => noAttribute front "rsplit"

/-- Text in lines of a width. -/
def wrapped (value width cuts ending hyphens : Value) : Result Value := do
  match value with
  | text cs | html cs =>
    let ending := match ending with
      | nothing => ['\n']
      | ending => ending.toText
    let width ← width.needInt
    let lines := Text.lines cs
    if width ≤ 0 && lines.any (!·.isEmpty) then
      .error (.broken .value ("invalid width " ++ toString width ++ " (must be > 0)"))
    return text (Text.joinWith ending (lines.map fun line ↦
      Text.joinWith ending (Text.wrap width.toNat cuts.truth hyphens.truth line)))
  | value => noAttribute value "splitlines"

/-- Text with a piece replaced. -/
def replaced (escapes : Bool) (value old new count : Value) : Result Value := do
  let count ← match count with
    | nothing => pure (-1)
    | count => count.needInt
  let subject := if !escapes then text value.toText
    else if old.isHtml || (new.isHtml && !value.isHtml) then html value.toHtml
    else value.soft
  let inserted := if subject.isHtml then new.toHtml else new.toText
  let cs := subject.toText
  return subject.withText (Text.replaceFirst old.toText inserted (limitOf cs.length count) cs)

/-- Escaped text with links. -/
def withLinks (escapes : Bool) (value limit noFollow target rel schemes : Value) :
    Result Value := do
  let words := ["noopener".toList] ++ (if noFollow.truth then ["nofollow".toList] else []) ++
    (if rel.truth then Text.words rel.toText else [])
  let relation := Text.joinWith [' '] ((words.eraseDups).mergeSort fun a b ↦
    !Text.lessThan b a)
  let targetText := if target.truth then
      " target=\"".toList ++ target.toHtml ++ ['"'] else []
  let limit ← match limit with
    | nothing => pure none
    | limit => some <$> limit.needInt
  let schemes ← match schemes with
    | nothing => pure []
    | schemes => schemes.items
  let style : LinkStyle :=
    ⟨" rel=\"".toList ++ Theme.escape relation ++ ['"'] ++ targetText, limit,
      schemes.map toText⟩
  let linked := style.linked value.toHtml
  return if escapes then html linked else text linked

end Guidebook.Template.Value
