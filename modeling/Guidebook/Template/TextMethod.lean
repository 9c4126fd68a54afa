import Guidebook.Html.Reference
import Guidebook.Template.Arguments
import Guidebook.Text.Search

/-!
# Methods of text

What can be asked of text by name. Clean text answers with clean text, and whatever is put into it
is escaped.
-/

namespace Guidebook.Template.Value

/-! Arguments of methods -/

/-- The text an argument has to be; `subject` is how a complaint calls the argument. -/
def needTextFor (subject : String) : Value → Result (List Char)
  | text cs | html cs => .ok cs
  | nothing => wrongKind (subject ++ "must be str, not " ++
      if subject.isEmpty then "NoneType" else "None")
  | value => wrongKind (subject ++ "must be str, not " ++ value.kind)

/-- The text an argument has to be. -/
def needText (value : Value) : Result (List Char) := value.needTextFor ""

/-- The whole number an argument has to be. -/
def needInt (value : Value) : Result Int :=
  match value.int? with
  | some n => .ok n
  | none => wrongKind ("'" ++ value.kind ++ "' object cannot be interpreted as an integer")

/-- A whole number that may be left out. -/
def optionalInt (value : Option Value) (default : Int) : Result Int :=
  match value with
  | none => .ok default
  | some value => value.needInt

/-- Text that goes into another text: escaped if that is clean. -/
def intoText (value other : Value) : Result (List Char) :=
  if value.isHtml then .ok other.toHtml else other.needTextFor "replace() argument 2 "

/-- The part of a text between two places, and where it starts. There is none if it would end before
it starts. -/
def searched (cs : List Char) (start stop : Option Value) :
    Result (Int × Option (List Char)) := do
  let length : Int := cs.length
  let place := fun (value : Option Value) (default : Int) ↦ do
    match value with
    | none | some nothing => return default
    | some value =>
      match value.int? with
      | some n => return if n < 0 then max 0 (n + length) else n
      | none =>
        (wrongKind "slice indices must be integers or None or have an __index__ method" :
          Result Int)
  let start ← place start 0
  let stop := min length (← place stop length)
  return (start, if stop < start then none else some ((cs.take stop.toNat).drop start.toNat))

/-- Whether a text has one of the texts a value stands for. -/
def hasOneOf (name : String) (has : List Char → Bool) : Value → Result Bool
  | text piece | html piece => .ok (has piece)
  | tuple pieces =>
    pieces.foldlM (fun found piece ↦
      match piece with
      | text piece | html piece => .ok (found || has piece)
      | piece =>
        wrongKind ("tuple for " ++ name ++ " must only contain str, not " ++ piece.kind)) false
  | value =>
    wrongKind (name ++ " first arg must be str or a tuple of str, not " ++ value.kind)

/-- Text without the given characters at its ends. -/
def stripped (method : String) (cs : List Char) (chars : Option Value) : Result (List Char) := do
  let p : Char → Bool ← match chars with
    | none | some nothing => pure Text.isBlank
    | some (text chars) | some (html chars) => pure chars.contains
    | some _ => wrongKind (method ++ " arg must be None or str")
  return match method with
    | "lstrip" => cs.dropWhile p
    | "rstrip" => Text.stripEnd p cs
    | _ => Text.stripBy p cs

/-- Text in the middle of a width; `fill` is what is beside it. -/
def centered (width : Int) (fill : Char) (cs : List Char) : List Char :=
  let room := width.toNat - cs.length
  let left := room / 2 + room % 2 * (width.toNat % 2)
  List.replicate left fill ++ cs ++ List.replicate (room - left) fill

/-- Text set to a width. -/
def setToWidth (value : Value) (method : String) (cs : List Char) (width : Value)
    (fill : Option Value) : Result (List Char) := do
  let width ← width.needInt
  let fill ← match fill with
    | none => pure [' ']
    | some (text fill) => pure (if value.isHtml then Theme.escape fill else fill)
    | some (html fill) => pure fill
    | some fill =>
      wrongKind ("The fill character must be a unicode character, not " ++ fill.kind)
  match fill with
  | [c] =>
    let room := List.replicate (width.toNat - cs.length) c
    return match method with
      | "ljust" => cs ++ room
      | "rjust" => room ++ cs
      | _ => centered width c cs
  | _ => wrongKind "The fill character must be exactly one character long"

/-- A number of pieces: any if it is negative. -/
def limitOf (length : Nat) (n : Int) : Nat := if n < 0 then length + 1 else n.toNat

/-- Text between the occurrences of a separator, or between blanks. -/
def splitText (fromEnd : Bool) (cs : List Char) (separator : Value) (limit : Int) :
    Result (List (List Char)) :=
  let limit := limitOf cs.length limit
  match separator with
  | nothing => .ok (if fromEnd then Text.splitLastWords limit cs else Text.splitWords limit cs)
  | text [] | html [] => .error (.broken .value "empty separator")
  | text piece | html piece =>
    .ok (if fromEnd then Text.splitOnLast piece limit cs else Text.splitOn piece limit cs)
  | value => wrongKind ("must be str or None, not " ++ value.kind)

/-! Kinds of characters -/

/-- A letter that has a small form. -/
def isCapital (c : Char) : Bool :=
  Text.lowerChar c != c || (Text.isCased c && Text.upperChar c == [c])

/-- A letter that is small. -/
def isSmall (c : Char) : Bool := Text.isCased c && !isCapital c

/-- Whether all letters of a text are of a kind and there are some. -/
def casedAs (p : Char → Bool) (cs : List Char) : Bool :=
  let cased := cs.filter Text.isCased
  !cased.isEmpty && cased.all p

/-- Whether each word starts with a capital and goes on with small letters. -/
def isTitled (inWord : Bool) : List Char → Bool
  | [] => true
  | c :: rest =>
    if !Text.isCased c then isTitled false rest
    else if isCapital c then !inWord && isTitled true rest
    else inWord && isTitled true rest

/-- Whether a text has characters, all of them of a kind. -/
def consistsOf (p : Char → Bool) (cs : List Char) : Bool := !cs.isEmpty && cs.all p

/-- A decimal digit of any script. -/
def isAnyDigit (c : Char) : Bool := (Text.digitValue? c).isSome

/-- Digits above or below the line or in circles. -/
def raisedDigits : List (Nat × Nat) :=
  [(0xb2, 0xb3), (0xb9, 0xb9), (0x2070, 0x2070), (0x2074, 0x2079), (0x2080, 0x2089),
    (0x2460, 0x2468), (0x2474, 0x247c), (0x2488, 0x2490)]

/-- Fractions and numbers in circles. -/
def otherNumbers : List (Nat × Nat) :=
  [(0xbc, 0xbe), (0x2150, 0x2182), (0x2185, 0x2189), (0x2469, 0x2473), (0x247d, 0x2487),
    (0x2491, 0x249b)]

/-- A digit in any form. -/
def isDigitForm (c : Char) : Bool := isAnyDigit c || Text.inRanges c.toNat raisedDigits

/-- A number in any form. -/
def isNumberForm (c : Char) : Bool := isDigitForm c || Text.inRanges c.toNat otherNumbers

/-- What a text says of its characters. -/
def textProperty (name : String) (cs : List Char) : Bool :=
  let isWord := fun c ↦ Text.isWordChar c && c != '_'
  match name with
  | "isalnum" => consistsOf isWord cs
  | "isalpha" => consistsOf (fun c ↦ isWord c && !isNumberForm c) cs
  | "isascii" => cs.all fun c ↦ c.toNat < 0x80
  | "isdecimal" => consistsOf isAnyDigit cs
  | "isdigit" => consistsOf isDigitForm cs
  | "isidentifier" =>
    consistsOf (fun c ↦ Text.isWordChar c && (isAnyDigit c || !isNumberForm c)) cs &&
      !cs.head?.any isAnyDigit
  | "isnumeric" => consistsOf isNumberForm cs
  | "islower" => casedAs isSmall cs
  | "isprintable" => cs.all Text.isPrintable
  | "isspace" => consistsOf Text.isBlank cs
  | "istitle" => cs.any Text.isCased && isTitled false cs
  | _ => casedAs (fun c ↦ isCapital c && Text.upperChar c == [c]) cs

/-- Text with large and small letters changed for each other, given the characters before, the
nearest first. -/
def swapFrom (before : List Char) : List Char → List Char
  | [] => []
  | c :: rest =>
    let shown := if c == 'Σ' then (Text.lowerFrom before (c :: rest)).take 1
      else if isCapital c then Text.lowerAll [c] else Text.upperChar c
    shown ++ swapFrom (c :: before) rest

/-- Text with large and small letters changed for each other. -/
def swapCase (cs : List Char) : List Char := swapFrom [] cs

/-- Text without differences of case. -/
def foldCase (cs : List Char) : List Char :=
  cs.flatMap fun c ↦
    if c == 'İ' then Text.lowerAll [c] else (Text.upperChar c).map Text.lowerChar

/-- A number with zeros in front. -/
def zeroFilled (width : Int) (cs : List Char) : List Char :=
  let room := List.replicate (width.toNat - cs.length) '0'
  match cs with
  | '+' :: rest => '+' :: (room ++ rest)
  | '-' :: rest => '-' :: (room ++ rest)
  | cs => room ++ cs

/-! Markup -/

/-- Markup without comments, tags and runs of blanks. `fuel` bounds what is taken out. -/
def withoutBetween (opening closing : List Char) (after : Nat) : Nat → List Char → List Char
  | 0, cs => cs
  | fuel + 1, cs =>
    match Text.place? opening cs with
    | none => cs
    | some start =>
      match Text.place? closing (cs.drop start) with
      | none => cs
      | some length =>
        withoutBetween opening closing after fuel
          (cs.take start ++ cs.drop (start + length + after))

/-- What a reader sees of markup. -/
def stripTags (cs : List Char) : List Char :=
  let bare := withoutBetween "<!--".toList "-->".toList 3 cs.length cs
  let bare := withoutBetween ['<'] ['>'] 1 bare.length bare
  let line := Text.joinWith [' '] (Text.words bare)
  Html.plainText line.length line

/-! Places with braces -/

/-- A place in a text that is filled with a value. -/
structure Slot where
  field : List Char
  conversion : Option Char
  spec : List Char
  deriving Repr, DecidableEq

/-- Something wrong with the places of a text. -/
def badFormat {α : Type} (text : String) : Result α := .error (.broken .value text)

/-- The name of a place, the character behind it and what follows. -/
def readField : Nat → List Char → Result (List Char × Option Char × List Char)
  | 0, cs => .ok (cs, none, [])
  | _, [] => .ok ([], none, [])
  | fuel + 1, c :: rest =>
    match c with
    | '\x7b' => badFormat "unexpected '\x7b' in field name"
    | '\x7d' | ':' | '!' => .ok ([], some c, rest)
    | '[' =>
      let key := rest.takeWhile (· != ']')
      (readField fuel (rest.drop key.length)).map fun (name, after) ↦ ('[' :: key ++ name, after)
    | c => (readField fuel rest).map fun (name, after) ↦ (c :: name, after)

/-- How the value of a place is set, up to its closing brace, with braces inside it. -/
def readSpec (depth : Nat) : List Char → Result (List Char × List Char)
  | [] => badFormat "unmatched '\x7b' in format spec"
  | c :: rest =>
    if c == '\x7d' then
      if depth == 0 then .ok ([], rest)
      else (readSpec (depth - 1) rest).map fun (spec, after) ↦ (c :: spec, after)
    else
      (readSpec (if c == '\x7b' then depth + 1 else depth) rest).map fun (spec, after) ↦
        (c :: spec, after)

/-- A place behind its opening brace, and what follows it. -/
def readSlot (cs : List Char) : Result (Slot × List Char) := do
  let (field, mark, rest) ← readField cs.length cs
  match mark, rest with
  | some '\x7d', rest => return (⟨field, none, []⟩, rest)
  | some ':', rest =>
    let (spec, rest) ← readSpec 0 rest
    return (⟨field, none, spec⟩, rest)
  | some '!', [] => badFormat "end of string while looking for conversion specifier"
  | some '!', [_] => badFormat "unmatched '\x7b' in format spec"
  | some '!', c :: '\x7d' :: rest => return (⟨field, some c, []⟩, rest)
  | some '!', c :: ':' :: rest =>
    let (spec, rest) ← readSpec 0 rest
    return (⟨field, some c, spec⟩, rest)
  | some '!', _ :: _ => badFormat "expected ':' after conversion specifier"
  | _, _ => badFormat "expected '\x7d' before end of string"

/-- Whether places are counted or say their numbers. -/
inductive Numbering where
  | unknown
  | counted (next : Nat)
  | written
  deriving Repr, DecidableEq

/-- The value a place starts from. -/
def slotStart (arguments : Arguments) (numbering : Numbering) (name : List Char) :
    Result (Value × Numbering) := do
  let itemAt := fun (n : Nat) ↦
    match arguments.plain[n]? with
    | some value => (.ok value : Result Value)
    | none =>
      .error (.broken .place
        ("Replacement index " ++ toString n ++ " out of range for positional args tuple"))
  if name.isEmpty then
    match numbering with
    | .written =>
      badFormat ("cannot switch from manual field specification to automatic field numbering")
    | .counted n => return (← itemAt n, .counted (n + 1))
    | .unknown => return (← itemAt 0, .counted 1)
  else if name.all Text.isDigit then
    match numbering with
    | .counted _ =>
      badFormat ("cannot switch from automatic field numbering to manual field specification")
    | _ => return (← itemAt ((String.ofList name).toNat?.getD 0), .written)
  else
    match arguments.named.lookup (String.ofList name) with
    | some value => return (value, numbering)
    | none => .error (.broken .key (Text.quoted (String.ofList name)))

/-- The complaint about an item that a value does not have. -/
def noSlotItem {α : Type} (value index : Value) : Result α :=
  let kind := if value.isText then "string" else value.kind
  let outOf : Result α := .error (.broken .place (kind ++ " index out of range"))
  match value, index with
  | record _, _ => .error (.broken .key (String.ofList index.showInside))
  | text _, int _ | html _, int _ | list _, int _ | tuple _, int _ => outOf
  | text _, _ | html _, _ => wrongKind "string indices must be integers, not 'str'"
  | list _, _ | tuple _, _ => wrongKind (kind ++ " indices must be integers or slices, not str")
  | _, _ => wrongKind ("'" ++ kind ++ "' object is not subscriptable")

/-- The value behind attributes and items of another one. -/
def slotPath (value : Value) : Nat → List Char → Result Value
  | 0, _ => .ok value
  | _, [] => .ok value
  | fuel + 1, '.' :: rest =>
    let name := rest.takeWhile fun c ↦ c != '.' && c != '['
    if name.isEmpty then badFormat "Empty attribute in format string"
    else
      match value.attribute? (String.ofList name) with
      | some found => slotPath found fuel (rest.drop name.length)
      | none =>
        .error (.broken .attribute ("'" ++ value.kind ++ "' object has no attribute " ++
          Text.quoted (String.ofList name)))
  | fuel + 1, '[' :: rest =>
    let (key, closed, rest) := Text.partitionAt ']' rest
    if !closed then badFormat "Missing ']' in format string"
    else if key.isEmpty then badFormat "Empty attribute in format string"
    else do
      let index := match (String.ofList key).toNat? with
        | some n => int n
        | none => text key
      match ← value.findItem index with
      | some found => slotPath found fuel rest
      | none => noSlotItem value index
  | _, _ => badFormat "Only '.' or '[' may follow ']' in format field specifier"

/-- The value of a place, changed as the place asks for. -/
def slotValue (arguments : Arguments) (numbering : Numbering) (slot : Slot) :
    Result (Value × Numbering) := do
  let name := slot.field.takeWhile fun c ↦ c != '.' && c != '['
  let (value, numbering) ← slotStart arguments numbering name
  let value ← slotPath value slot.field.length (slot.field.drop name.length)
  match slot.conversion with
  | none => return (value, numbering)
  | some 's' => return (text value.toText, numbering)
  | some 'r' => return (text value.showInside, numbering)
  | some 'a' => return (text (asciiOnly value.showInside), numbering)
  | some c => badFormat ("Unknown conversion specifier " ++ String.ofList [c])

/-- A value set into text at a place. -/
def setSlot (clean : Bool) (spec : List Char) (value : Value) : Result (List Char) :=
  match clean, value with
  | true, html cs =>
    if spec.isEmpty then .ok cs
    else badFormat "Unsupported format specification for Markup."
  | true, value => (setBraces spec value).map Theme.escape
  | false, value => setBraces spec value

/-- A text with its places filled. `depth` is how deep places may lie in one another. -/
def fillSlots (clean : Bool) (arguments : Arguments) (depth : Nat) :
    Nat → Numbering → List Char → Result (List Char × Numbering)
  | 0, numbering, cs => .ok (cs, numbering)
  | _, numbering, [] => .ok ([], numbering)
  | fuel + 1, numbering, c :: rest =>
    let kept := fun (after : List Char) ↦
      (fillSlots clean arguments depth fuel numbering after).map fun (filled, numbering) ↦
        (c :: filled, numbering)
    if c == '\x7b' then
      match rest with
      | [] => badFormat "Single '\x7b' encountered in format string"
      | '\x7b' :: after => kept after
      | rest => do
        let (slot, after) ← readSlot rest
        let (value, numbering) ← slotValue arguments numbering slot
        let (spec, numbering) ← match depth with
          | 0 => pure (slot.spec, numbering)
          | depth + 1 =>
            if slot.spec.contains '\x7b' then
              fillSlots false arguments depth fuel numbering slot.spec
            else pure (slot.spec, numbering)
        let shown ← setSlot clean spec value
        let (filled, numbering) ← fillSlots clean arguments depth fuel numbering after
        return (shown ++ filled, numbering)
    else if c == '\x7d' then
      match rest with
      | '\x7d' :: after => kept after
      | _ => badFormat "Single '\x7d' encountered in format string"
    else kept rest

/-- A text with its places filled from arguments. -/
def formatted (clean : Bool) (arguments : Arguments) (cs : List Char) : Result (List Char) :=
  (fillSlots clean arguments 1 (cs.length + 1) .unknown cs).map (·.1)

/-! Methods -/

/-- Methods of text whose complaints count arguments in brackets. -/
def countedMethods : List String :=
  ["count", "find", "rfind", "index", "rindex", "startswith", "endswith", "split", "rsplit",
    "splitlines", "expandtabs"]

/-- Checks that a method has no more arguments than it takes and no fewer than it needs. -/
def checkArity (name : String) (arguments : Arguments) (least most : Nat) : Result Unit :=
  let count := arguments.plain.length + arguments.named.length
  let complaint := fun (word : String) (n : Nat) ↦
    wrongKind (name ++ "() takes at " ++ word ++ " " ++ toString n ++ " argument" ++
      (if n == 1 then "" else "s") ++ " (" ++ toString count ++ " given)")
  if !countedMethods.contains name then arguments.atMost "str" name least most
  else if count < least then complaint "least" least
  else if most < count then complaint "most" most
  else .ok ()

/-- How many arguments a method of text takes. -/
def textArity : String → Nat × Nat
  | "center" | "ljust" | "rjust" => (1, 2)
  | "count" | "find" | "rfind" | "index" | "rindex" | "startswith" | "endswith" => (1, 3)
  | "strip" | "lstrip" | "rstrip" => (0, 1)
  | "join" | "partition" | "rpartition" | "removeprefix" | "removesuffix" | "zfill" => (1, 1)
  | "format_map" => (1, 1)
  | "replace" => (2, 3)
  | _ => (0, 0)

/-- Text joined by a value. -/
def joinTexts (separator : Value) (items : List Value) : Result Value := do
  if separator.isHtml then return html (Text.joinWith separator.toHtml (items.map toHtml))
  let texts ← items.zipIdx.mapM fun (item, n) ↦
    match item with
    | text cs | html cs => (.ok cs : Result (List Char))
    | item =>
      wrongKind ("sequence item " ++ toString n ++ ": expected str instance, " ++ item.kind ++
        " found")
  return text (Text.joinWith separator.toText texts)

/-- The answer of a text to a method with few arguments. -/
def askText (value : Value) (cs : List Char) (name : String) (given : List Value) :
    Result Value := do
  let same := fun (cs : List Char) ↦ value.withText cs
  let first := given.headD nothing
  let three := fun (before piece after : List Char) ↦ tuple [same before, same piece, same after]
  match name with
  | "capitalize" => return same (Text.capitalize cs)
  | "casefold" => return same (foldCase cs)
  | "lower" => return same (Text.lowerAll cs)
  | "swapcase" => return same (swapCase cs)
  | "title" => return same (Text.titleAll cs)
  | "upper" => return same (Text.upperAll cs)
  | "striptags" => return text (stripTags cs)
  | "unescape" => return text (Html.plainText cs.length cs)
  | "center" | "ljust" | "rjust" => return same (← setToWidth value name cs first given[1]?)
  | "count" =>
    let piece ← first.needText
    let (_, inside) ← searched cs given[1]? given[2]?
    return int ((inside.map (Text.countOf piece)).getD 0)
  | "find" | "rfind" | "index" | "rindex" =>
    let piece ← first.needText
    let (start, inside) ← searched cs given[1]? given[2]?
    let search := if name.startsWith "r" then Text.lastPlace? piece else Text.place? piece
    match inside.bind search with
    | some n => return int (start + n)
    | none =>
      if name.endsWith "find" then return int (-1)
      else .error (.broken .value "substring not found")
  | "startswith" | "endswith" =>
    let (_, inside) ← searched cs given[1]? given[2]?
    let has := fun (wanted : List Char) ↦
      inside.any (if name == "startswith" then Text.startsWith wanted else Text.endsWith wanted)
    return bool (← hasOneOf name has first)
  | "join" =>
    match first.items with
    | .ok items => joinTexts value items
    | .error (.broken .kind _) => wrongKind "can only join an iterable"
    | .error problem => throw problem
  | "lstrip" | "rstrip" | "strip" => return same (← stripped name cs given.head?)
  | "partition" | "rpartition" =>
    match ← first.needText with
    | [] => .error (.broken .value "empty separator")
    | piece =>
      let (before, piece, after) :=
        if name == "partition" then Text.partition piece cs else Text.partitionLast piece cs
      return three before piece after
  | "removeprefix" =>
    let piece ← first.needTextFor "removeprefix() argument "
    return same ((Text.dropPrefix? piece cs).getD cs)
  | "removesuffix" =>
    let piece ← first.needTextFor "removesuffix() argument "
    return same (if Text.endsWith piece cs then cs.take (cs.length - piece.length) else cs)
  | "replace" =>
    let count ← optionalInt given[2]? (-1)
    let piece ← first.needTextFor "replace() argument 1 "
    let replacement ← value.intoText (given.getD 1 nothing)
    return same (Text.replaceFirst piece replacement (limitOf cs.length count) cs)
  | "zfill" => return same (zeroFilled (← first.needInt) cs)
  | "format_map" =>
    match first with
    | record fields =>
      let named := fields.map fun (key, field) ↦ (String.ofList key.toText, field)
      return same (← formatted value.isHtml ⟨[], named⟩ cs)
    | _ => wrongKind "format_map() argument must be a mapping"
  | name => return bool (textProperty name cs)

/-- The answer of a text to a method. -/
def callTextMethod (value : Value) (name : String) (arguments : Arguments) : Result Value := do
  let cs := value.toText
  match name with
  | "format" => return value.withText (← formatted value.isHtml arguments cs)
  | "split" | "rsplit" =>
    checkArity name arguments 0 2
    let given ← (Signature.ofNames name 0 [] ["sep", "maxsplit"]).bind arguments
    let limit ← (valueAt given 1 (int (-1))).needInt
    let pieces ← splitText (name == "rsplit") cs (valueAt given 0 nothing) limit
    return list (pieces.map value.withText)
  | "splitlines" =>
    checkArity name arguments 0 1
    let given ← (Signature.ofNames name 0 [] ["keepends"]).bind arguments
    let keep := (← (valueAt given 0 (int 0)).needInt) != 0
    return list ((Text.linesWithEnds cs).map fun (line, ending) ↦
      value.withText (if keep then line ++ ending else line))
  | "expandtabs" =>
    checkArity name arguments 0 1
    let given ← (Signature.ofNames name 0 [] ["tabsize"]).bind arguments
    let size ← (valueAt given 0 (int 8)).needInt
    return value.withText (Text.expandTabs size.toNat 0 cs)
  | name =>
    let (least, most) := textArity name
    checkArity name arguments least most
    askText value cs name arguments.plain

end Guidebook.Template.Value
