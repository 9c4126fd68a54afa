import Guidebook.Text.Decimal
import Guidebook.Text.Number
import Guidebook.Toml.Value

/-!
# Settings files: strings, numbers and names

The parts of a line. Every reader takes the text from its place on and gives what it read and the
text behind it.
-/

namespace Guidebook.Toml

/-- A space or a tab. -/
def isSpace (c : Char) : Bool := c == ' ' || c == '\t'

/-- A space, a tab or the end of a line. -/
def isSpaceOrNewline (c : Char) : Bool := isSpace c || c == '\n' || c == '\r'

/-- Control characters, which strings of one line and comments may not hold; a tab may stand. -/
def isForbidden (c : Char) : Bool := c.toNat == 0x7f || (c.toNat < 0x20 && c != '\t')

/-- Control characters that strings of several lines may not hold. -/
def isForbiddenInBlock (c : Char) : Bool := isForbidden c && c != '\n' && c != '\r'

/-- The character of a one-letter escape. -/
def simpleEscape? : Char → Option Char
  | 'b' => some '\x08'
  | 't' => some '\t'
  | 'n' => some '\n'
  | 'f' => some '\x0c'
  | 'r' => some '\r'
  | 'e' => some '\x1b'
  | '"' => some '"'
  | '\\' => some '\\'
  | _ => none

/-- The value of a hexadecimal digit. -/
def hexValue? (c : Char) : Option Nat :=
  if '0' ≤ c && c ≤ '9' then some (c.toNat - 48)
  else if 'a' ≤ c && c ≤ 'f' then some (c.toNat - 87)
  else if 'A' ≤ c && c ≤ 'F' then some (c.toNat - 55)
  else none

/-- The character that hexadecimal digits name; surrogates are none. -/
def hexChar? (digits : List Char) : Option Char :=
  match digits.foldl (fun acc c ↦ acc.bind fun n ↦ (hexValue? c).map (n * 16 + ·)) (some 0) with
  | some n => if n.isValidChar then some (Char.ofNat n) else none
  | none => none

/-- Reads a string of one line behind its opening quote. Only basic strings have escapes. -/
def readLine (basic : Bool) (quote : Char) : List Char → Except Fault (List Char × List Char)
  | [] => .error .malformed
  | c :: rest =>
    if isForbidden c then .error .malformed
    else if c == quote then .ok ([], rest)
    else if basic && c == '\\' then
      match rest with
      | 'x' :: a :: b :: rest =>
        match hexChar? [a, b] with
        | some e => (readLine basic quote rest).map fun (s, r) ↦ (e :: s, r)
        | none => .error .malformed
      | 'u' :: a :: b :: c :: d :: rest =>
        match hexChar? [a, b, c, d] with
        | some e => (readLine basic quote rest).map fun (s, r) ↦ (e :: s, r)
        | none => .error .malformed
      | 'U' :: a :: b :: c :: d :: e :: f :: g :: h :: rest =>
        match hexChar? [a, b, c, d, e, f, g, h] with
        | some e => (readLine basic quote rest).map fun (s, r) ↦ (e :: s, r)
        | none => .error .malformed
      | e :: rest =>
        match simpleEscape? e with
        | some e => (readLine basic quote rest).map fun (s, r) ↦ (e :: s, r)
        | none => .error .malformed
      | [] => .error .malformed
    else (readLine basic quote rest).map fun (s, r) ↦ (c :: s, r)

/-- What the reader of a string of several lines is doing. -/
inductive BlockMode where
  /-- It has just seen a number of quotes in a row. -/
  | plain (quotes : Nat)
  /-- It skips white space behind a backslash, and whether a line ended there. -/
  | trimming (newline : Bool)
  deriving DecidableEq

/-- Reads a string of several lines behind its three opening quotes. Up to two quotes may stand
in front of the three that close it. -/
def readBlock (basic : Bool) (quote : Char) (mode : BlockMode) :
    List Char → Except Fault (List Char × List Char)
  | [] =>
    match mode with
    | .plain quotes => if quotes < 3 then .error .malformed else
      .ok (List.replicate (quotes - 3) quote, [])
    | .trimming _ => .error .malformed
  | c :: rest =>
    match mode with
    | .trimming newline =>
      if isSpaceOrNewline c then readBlock basic quote (.trimming (newline || c == '\n')) rest
      else if !newline then .error .malformed
      else if c == quote then readBlock basic quote (.plain 1) rest
      else if c == '\\' then
        readEscape rest
      else if isForbiddenInBlock c then .error .malformed
      else (readBlock basic quote (.plain 0) rest).map fun (s, r) ↦ (c :: s, r)
    | .plain quotes =>
      if c == quote then
        if quotes == 5 then .error .malformed
        else readBlock basic quote (.plain (quotes + 1)) rest
      else if 3 ≤ quotes then .ok (List.replicate (quotes - 3) quote, c :: rest)
      else
        let before := List.replicate quotes quote
        if isForbiddenInBlock c then .error .malformed
        else if basic && c == '\\' then
          (readEscape rest).map fun (s, r) ↦ (before ++ s, r)
        else (readBlock basic quote (.plain 0) rest).map fun (s, r) ↦ (before ++ c :: s, r)
where
  /-- Reads on behind a backslash. -/
  readEscape : List Char → Except Fault (List Char × List Char)
    | 'x' :: a :: b :: rest =>
      match hexChar? [a, b] with
      | some e => (readBlock basic quote (.plain 0) rest).map fun (s, r) ↦ (e :: s, r)
      | none => .error .malformed
    | 'u' :: a :: b :: c :: d :: rest =>
      match hexChar? [a, b, c, d] with
      | some e => (readBlock basic quote (.plain 0) rest).map fun (s, r) ↦ (e :: s, r)
      | none => .error .malformed
    | 'U' :: a :: b :: c :: d :: e :: f :: g :: h :: rest =>
      match hexChar? [a, b, c, d, e, f, g, h] with
      | some e => (readBlock basic quote (.plain 0) rest).map fun (s, r) ↦ (e :: s, r)
      | none => .error .malformed
    | e :: rest =>
      if isSpaceOrNewline e then readBlock basic quote (.trimming (e == '\n')) rest
      else
        match simpleEscape? e with
        | some e => (readBlock basic quote (.plain 0) rest).map fun (s, r) ↦ (e :: s, r)
        | none => .error .malformed
    | [] => .error .malformed

/-- Reads a string from its opening quote on, and whether it was one line. -/
def readString (quote : Char) : List Char → Except Fault ((List Char × Bool) × List Char)
  | q :: q' :: q'' :: rest =>
    if q == quote && q' == quote && q'' == quote then
      let body := match rest with
        | '\r' :: '\n' :: rest => rest
        | '\n' :: rest => rest
        | rest => rest
      (readBlock (quote == '"') quote (.plain 0) body).map fun (s, r) ↦ ((s, false), r)
    else (readLine (quote == '"') quote (q' :: q'' :: rest)).map fun (s, r) ↦ ((s, true), r)
  | _ :: rest => (readLine (quote == '"') quote rest).map fun (s, r) ↦ ((s, true), r)
  | [] => .error .malformed

/-- A character that ends a number or a moment. -/
def endsScalar (c : Char) : Bool :=
  isSpaceOrNewline c || c == '#' || c == ',' || c == ']' || c == '}'

/-- A text without the underscores that stand between two digits of a class. -/
def dropUnderscores (p : Char → Bool) : List Char → List Char
  | a :: '_' :: b :: rest =>
    if p a && p b then a :: dropUnderscores p (b :: rest)
    else a :: '_' :: dropUnderscores p (b :: rest)
  | c :: rest => c :: dropUnderscores p rest
  | [] => []

/-- The base of a number and the digits between which underscores may stand. -/
def baseOf : List Char → Nat × (Char → Bool)
  | '0' :: 'x' :: _ => (16, Text.isHexDigit)
  | '0' :: 'o' :: _ => (8, fun c ↦ '0' ≤ c && c ≤ '7')
  | '0' :: 'b' :: _ => (2, fun c ↦ c == '0' || c == '1')
  | _ => (10, Text.isDigit)

/-- Whether a written number may start as it does: a zero in front of further digits may not stand,
nor a sign in front of a point or of the mark of a base. -/
def startsWell (signed : Bool) : List Char → Bool
  | '0' :: c :: _ => ['.', 'e', 'E'].contains c || (!signed && ['x', 'o', 'b'].contains c)
  | '.' :: _ :: _ => !signed
  | _ => true

/-- Whether a written scalar without its sign is a number: a whole one, a fraction with digits
behind its point, or one of the two words for numbers without digits. -/
def isUnsigned (signed : Bool) (cs : List Char) : Bool :=
  let (base, digit) := baseOf cs
  let clean := (dropUnderscores digit cs).map Text.lowerChar
  let mantissa := clean.takeWhile (· != 'e')
  if cs == "inf".toList || cs == "nan".toList then true
  else if !startsWell signed cs || clean.contains '_' then false
  else if Text.endsWith ['.'] clean || (base != 16 && Text.endsWith ['.'] mantissa) then false
  else if (Text.integerIn? base clean).isSome then true
  else (clean.contains '.' || clean.contains 'e') && (Text.float? clean).isSome

/-- Whether a written scalar is a number. -/
def isNumber : List Char → Bool
  | '+' :: cs => startsPlain cs && isUnsigned true cs
  | '-' :: cs => startsPlain cs && isUnsigned true cs
  | cs => isUnsigned false cs
where
  /-- Behind a sign stands neither a second one nor a blank. -/
  startsPlain : List Char → Bool
    | c :: _ => !(c == '+' || c == '-' || Text.isBlank c)
    | [] => false

/-- The number that decimal digits write. -/
def decimalValue (cs : List Char) : Nat := cs.foldl (fun n c ↦ n * 10 + (c.toNat - 48)) 0

/-- The number of days of a month. -/
def daysOf (year month : Nat) : Nat :=
  if month == 2 then
    if year % 4 == 0 && (year % 100 != 0 || year % 400 == 0) then 29 else 28
  else if month == 4 || month == 6 || month == 9 || month == 11 then 30 else 31

/-- Whether a text is a date of the calendar. -/
def isDate : List Char → Bool
  | [a, b, c, d, '-', m, n, '-', x, y] =>
    let year := decimalValue [a, b, c, d]
    let month := decimalValue [m, n]
    let day := decimalValue [x, y]
    [a, b, c, d, m, n, x, y].all Text.isDigit && 1 ≤ year && 1 ≤ month && month ≤ 12 && 1 ≤ day &&
      day ≤ daysOf year month
  | _ => false

/-- Whether a text is a distance from universal time. -/
def isOffset : List Char → Bool
  | [z] => z == 'Z' || z == 'z'
  | [sign, a, b, ':', c, d] =>
    (sign == '+' || sign == '-') && [a, b, c, d].all Text.isDigit && decimalValue [a, b] < 24 &&
      decimalValue [c, d] < 60
  | _ => false

/-- What follows a time of day at the front of a text. -/
def dropTime? : List Char → Option (List Char)
  | a :: b :: ':' :: c :: d :: rest =>
    if [a, b, c, d].all Text.isDigit && decimalValue [a, b] < 24 && decimalValue [c, d] < 60 then
      match rest with
      | ':' :: e :: f :: rest =>
        if [e, f].all Text.isDigit && decimalValue [e, f] < 60 then
          match rest with
          | '.' :: g :: rest =>
            if Text.isDigit g then some (rest.dropWhile Text.isDigit) else none
          | rest => some rest
        else none
      | rest => some rest
    else none
  | _ => none

/-- Whether a text is a time of day. -/
def isTime (cs : List Char) : Bool := dropTime? cs == some []

/-- Whether a text is a date and a time of day. -/
def isMoment (cs : List Char) : Bool :=
  isDate (cs.take 10) &&
    match cs.drop 10 with
    | sep :: time =>
      (sep == 'T' || sep == 't' || sep == ' ') &&
        match dropTime? time with
        | some [] => true
        | some offset => isOffset offset
        | none => false
    | [] => false

/-- Reads a number, a date or a time. A time may follow its date behind a space. -/
def readScalar (cs : List Char) : Except Fault (List Char × List Char) :=
  let raw := cs.takeWhile (!endsScalar ·)
  let rest := cs.dropWhile (!endsScalar ·)
  if isDate raw then
    let more := rest.takeWhile fun c ↦ c == ' ' || !endsScalar c
    let time := Text.stripEnd Text.isBlank more
    if time.isEmpty then .ok (raw, rest.dropWhile fun c ↦ c == ' ' || !endsScalar c)
    else if isMoment (raw ++ time) then
      .ok (raw ++ time, rest.dropWhile fun c ↦ c == ' ' || !endsScalar c)
    else .error .malformed
  else if isMoment raw || isTime raw || isNumber raw then .ok (raw, rest)
  else .error .malformed

/-- A character of a name without quotes. -/
def isBareChar (c : Char) : Bool := Text.isLetter c || Text.isDigit c || c == '-' || c == '_'

/-- How many components a name may have, and how many arrays and tables between braces may lie in
each other. -/
def maxNesting : Nat := 100

/-- Reads a name of one or more components, at most a given number. -/
def readName (most : Nat) (cs : List Char) : Except Fault (List String × List Char) :=
  match most with
  | 0 => .error .malformed
  | most + 1 =>
    let cs := cs.dropWhile isSpace
    let first : Except Fault (String × List Char) :=
      match cs with
      | q :: _ =>
        if q == '"' || q == '\'' then
          match readString q cs with
          | .ok ((s, true), rest) => .ok (String.ofList s, rest.dropWhile isSpace)
          | .ok ((_, false), _) => .error .malformed
          | .error fault => .error fault
        else
          let raw := Text.strip (cs.takeWhile fun c ↦ isBareChar c || isSpace c)
          if raw.isEmpty || raw.any isSpace then .error .malformed
          else .ok (String.ofList raw, cs.dropWhile fun c ↦ isBareChar c || isSpace c)
      | [] => .error .malformed
    match first with
    | .error fault => .error fault
    | .ok (name, '.' :: rest) => (readName most rest).map fun (names, r) ↦ (name :: names, r)
    | .ok (name, rest) => .ok ([name], rest)

/-- Reads a comment up to the end of its line. -/
def readComment : List Char → Except Fault (List Char)
  | [] => .ok []
  | c :: rest =>
    if c == '\n' || c == '\r' then .ok (c :: rest)
    else if isForbidden c then .error .malformed
    else readComment rest

/-- Reads what may follow a value or a header on its line, and the end of the line. -/
def readLineEnd (cs : List Char) : Except Fault (List Char) :=
  let skipped := cs.dropWhile fun c ↦ isSpace c || c == '\r'
  let dropEnd : List Char → List Char
    | '\r' :: '\n' :: rest => rest
    | '\r' :: rest => rest
    | '\n' :: rest => rest
    | rest => rest
  match skipped with
  | [] => .ok []
  | '\n' :: rest => .ok rest
  | '#' :: rest => (readComment rest).map dropEnd
  | _ => .error .malformed

end Guidebook.Toml
