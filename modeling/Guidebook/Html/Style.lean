import Guidebook.Html.Token

/-!
# Styles of elements

The value of a style attribute is a list of declarations: a property, a colon and a value, with
semicolons between them. A value is read piece by piece and written anew, one blank between two
pieces; what stands in brackets belongs to the piece that opens them.
-/

namespace Guidebook.Html.Style

/-- A piece of a style. -/
inductive Piece where
  | blank
  | ident (name : List Char)
  /-- A name behind an at sign. -/
  | atName (name : List Char)
  /-- A name behind a hash. -/
  | hash (name : List Char)
  /-- A text in quotes; one that a line end cuts off has no closing quote. -/
  | quoted (closed : Bool) (text : List Char)
  | address (text : List Char)
  /-- What stands in an address that is none. -/
  | badAddress (text : List Char)
  /-- A number with its unit, as they are written. -/
  | number (written unit : List Char)
  /-- Signs. -/
  | sign (written : List Char)
  /-- A name with an opening bracket. -/
  | call (name : List Char)
  deriving Repr, DecidableEq

/-- A line end. -/
def isLineEnd (c : Char) : Bool := c == '\n' || c == '\r' || c == '\x0c'

/-- A character that a name may start with. -/
def isNameStart (c : Char) : Bool := Text.isLetter c || c == '_' || c == '\x00' || 0x80 ≤ c.toNat

/-- A character of a name. -/
def isNameChar (c : Char) : Bool := isNameStart c || Text.isDigit c || c == '-'

/-- Whether a backslash in front of a text is an escape. -/
def isEscape (rest : List Char) : Bool := !rest.head?.any isLineEnd

/-- Whether a name starts at the front of a text. -/
def startsName : List Char → Bool
  | '-' :: '\\' :: rest => isEscape rest
  | '-' :: c :: _ => isNameStart c || c == '-'
  | '\\' :: rest => isEscape rest
  | c :: _ => isNameStart c
  | [] => false

/-- A character as it is kept: a null character is replaced. -/
def kept (c : Char) : Char := if c == '\x00' then replacement else c

/-- The character behind a backslash, and what follows. Hexadecimal digits are a number and may have
a blank behind them. -/
def readEscape : List Char → Char × List Char
  | [] => (replacement, [])
  | c :: rest =>
    let digits := ((c :: rest).take 6).takeWhile Text.isHexDigit
    if digits.isEmpty then (kept c, rest)
    else
      let n := numberOf 16 digits
      let after := match (c :: rest).drop digits.length with
        | '\r' :: '\n' :: after => after
        | d :: after => if isSpace d then after else d :: after
        | [] => []
      (if n == 0 || !n.isValidChar then replacement else Char.ofNat n, after)

/-- A name and what follows. -/
def readName : Nat → List Char → List Char × List Char
  | 0, cs => ([], cs)
  | _, [] => ([], [])
  | fuel + 1, c :: rest =>
    if c == '\\' && isEscape rest then
      let (e, rest) := readEscape rest
      let (name, after) := readName fuel rest
      (e :: name, after)
    else if isNameChar c then
      let (name, after) := readName fuel rest
      (kept c :: name, after)
    else ([], c :: rest)

/-- The text behind an opening quote, whether it is closed, and what follows. The end of the style
closes it too. -/
def readQuoted (quote : Char) : Nat → List Char → List Char × Bool × List Char
  | 0, cs => ([], true, cs)
  | _, [] => ([], true, [])
  | fuel + 1, c :: rest =>
    let more := fun (c : Char) (rest : List Char) ↦
      let (text, closed, after) := readQuoted quote fuel rest
      (c :: text, closed, after)
    if c == quote then ([], true, rest)
    else if isLineEnd c then ([], false, c :: rest)
    else if c == '\\' then
      match rest with
      | [] => ([], true, [])
      | '\r' :: '\n' :: rest => readQuoted quote fuel rest
      | d :: rest' =>
        if isLineEnd d then readQuoted quote fuel rest'
        else
          let (e, rest) := readEscape rest
          more e rest
    else more (kept c) rest

/-- What follows an address that is none, and its characters. -/
def readBadAddress : List Char → List Char × List Char
  | ')' :: rest => ([], rest)
  | '\\' :: c :: rest =>
    let (text, after) := readBadAddress rest
    ('\\' :: c :: text, after)
  | c :: rest =>
    let (text, after) := readBadAddress rest
    (c :: text, after)
  | [] => ([], [])

/-- An address without quotes, if it is one, and what follows its bracket. -/
def readAddress? : Nat → List Char → Option (List Char × List Char)
  | 0, _ => none
  | _, [] => some ([], [])
  | fuel + 1, c :: rest =>
    if c == ')' then some ([], rest)
    else if isSpace c then
      match rest.dropWhile isSpace with
      | [] => some ([], [])
      | d :: after => if d == ')' then some ([], after) else none
    else if c == '\\' then
      if isEscape rest then
        let (e, rest) := readEscape rest
        (readAddress? fuel rest).map fun (text, after) ↦ (e :: text, after)
      else none
    else if c == '"' || c == '\'' || c == '(' || (c.toNat < 0x20 && c != '\x00') || c == '\x7f' then
      none
    else (readAddress? fuel rest).map fun (text, after) ↦ (kept c :: text, after)

/-- The piece of a name, and what follows: in front of a bracket it is a call, or an address without
quotes. -/
def readWord (cs : List Char) : Piece × List Char :=
  let (name, rest) := readName (cs.length + 1) cs
  match rest with
  | '(' :: rest =>
    let start := rest.dropWhile isSpace
    if String.ofList (name.map lowerLetter) != "url" ||
        start.head?.any (fun c ↦ c == '"' || c == '\'') then (.call name, rest)
    else match readAddress? (start.length + 1) start with
      | some (text, after) => (.address text, after)
      | none =>
        let (text, after) := readBadAddress rest
        (.badAddress text, after)
  | rest => (.ident name, rest)

/-- Whether a number starts at the front of a text. -/
def startsNumber : List Char → Bool
  | '+' :: '.' :: c :: _ => Text.isDigit c
  | '-' :: '.' :: c :: _ => Text.isDigit c
  | '.' :: c :: _ => Text.isDigit c
  | '+' :: c :: _ => Text.isDigit c
  | '-' :: c :: _ => Text.isDigit c
  | c :: _ => Text.isDigit c
  | [] => false

/-- The digits of a number, with its sign, point and exponent, and what follows. -/
def readNumber (cs : List Char) : List Char × List Char :=
  let sign := (cs.take 1).filter fun c ↦ c == '+' || c == '-'
  let cs := cs.drop sign.length
  let whole := cs.takeWhile Text.isDigit
  let cs := cs.drop whole.length
  let fraction := match cs with
    | '.' :: c :: rest => if Text.isDigit c then '.' :: (c :: rest).takeWhile Text.isDigit else []
    | _ => []
  let cs := cs.drop fraction.length
  let exponent := match cs with
    | e :: c :: rest =>
      let mark := if c == '+' || c == '-' then [c] else []
      let digits := ((c :: rest).drop mark.length).takeWhile Text.isDigit
      if lowerLetter e == 'e' && !digits.isEmpty then e :: mark ++ digits else []
    | _ => []
  (sign ++ whole ++ fraction ++ exponent, cs.drop exponent.length)

/-- The piece of a number, and what follows. -/
def readQuantity (cs : List Char) : Piece × List Char :=
  let (written, rest) := readNumber cs
  match rest with
  | '%' :: rest => (.number written ['%'], rest)
  | rest =>
    if startsName rest then
      let (unit, rest) := readName (rest.length + 1) rest
      (.number written unit, rest)
    else (.number written [], rest)

/-- What follows a comment. -/
def afterComment : List Char → List Char
  | '*' :: '/' :: rest => rest
  | _ :: rest => afterComment rest
  | [] => []

/-- The next piece of a style, nothing for a comment, and what follows. -/
def nextPiece (c : Char) (rest : List Char) : Option Piece × List Char :=
  let cs := c :: rest
  let signs := ["<!--", "-->", "$=", "*=", "^=", "|=", "~="].map String.toList
  if isSpace c then (some .blank, rest.dropWhile isSpace)
  else if Text.startsWith ['/', '*'] cs then (none, afterComment (rest.drop 1))
  else if c == '"' || c == '\'' then
    let (text, closed, after) := readQuoted c (rest.length + 1) rest
    (some (.quoted closed text), after)
  else if startsNumber cs then
    let (piece, after) := readQuantity cs
    (some piece, after)
  else match signs.find? (Text.startsWith · cs) with
    | some sign => (some (.sign sign), cs.drop sign.length)
    | none =>
      if startsName cs then
        let (piece, after) := readWord cs
        (some piece, after)
      else if c == '@' && startsName rest then
        let (name, after) := readName (rest.length + 1) rest
        (some (.atName name), after)
      else if c == '#' && (startsName rest ||
          rest.head?.any (fun d ↦ Text.isDigit d || d == '-')) then
        let (name, after) := readName (rest.length + 1) rest
        (some (.hash name), after)
      else (some (.sign [c]), rest)

/-- The pieces of a style. -/
def pieces : Nat → List Char → List Piece
  | 0, _ => []
  | _, [] => []
  | fuel + 1, c :: rest =>
    let (piece, after) := nextPiece c rest
    piece.toList ++ pieces fuel after

/-! Writing -/

/-- A character by its number. -/
def escapeNumber (c : Char) : List Char := '\\' :: Nat.toDigits 16 c.toNat ++ [' ']

/-- A character of a name. -/
def writeNameChar (c : Char) : List Char :=
  if isNameChar c then [c]
  else if c.toNat < 0x20 || c == '\x7f' then escapeNumber c
  else ['\\', c]

/-- A name: a digit does not come first. -/
def writeName : List Char → List Char
  | ['-'] => ['\\', '-']
  | '-' :: '-' :: rest => '-' :: '-' :: rest.flatMap writeNameChar
  | '-' :: c :: rest =>
    '-' :: (if Text.isDigit c then escapeNumber c else writeNameChar c) ++
      rest.flatMap writeNameChar
  | c :: rest =>
    (if Text.isDigit c then escapeNumber c else writeNameChar c) ++ rest.flatMap writeNameChar
  | [] => []

/-- A character of a text in quotes. -/
def writeQuotedChar (c : Char) : List Char :=
  if c == '"' || c == '\\' then ['\\', c]
  else if c.toNat < 0x20 || c == '\x7f' then escapeNumber c
  else [c]

/-- A character of an address without quotes. -/
def writeAddressChar (c : Char) : List Char :=
  if c.toNat ≤ 0x20 || c == '\x7f' then escapeNumber c
  else if ['(', ')', '"', '\'', '\\'].contains c then ['\\', c]
  else [c]

/-- The digits of a number from the first that counts, and how many of them are whole; six count. -/
def significant (whole fraction : List Char) (exponent : Int) : List Char × Int :=
  let digits := whole ++ fraction
  let zeros := (digits.takeWhile (· == '0')).length
  let digits := digits.drop zeros
  let point := (whole.length : Int) - zeros + exponent
  if digits.isEmpty then ([], 0)
  else if digits.length ≤ 6 then (Text.stripEnd (· == '0') digits, point)
  else
    let rounded := numberOf 10 (digits.take 6) +
      (if (digits.drop 6).head?.any ('5' ≤ ·) then 1 else 0)
    let point := if rounded == Nat.pow 10 6 then point + 1 else point
    (Text.stripEnd (· == '0') (Nat.toDigits 10 rounded), point)

/-- A number in positional notation. One that is written with a point or an exponent keeps a
point. -/
def writeNumber (written : List Char) : List Char :=
  let sign := (written.take 1).filter fun c ↦ c == '+' || c == '-'
  let rest := written.drop sign.length
  let whole := rest.takeWhile Text.isDigit
  let after := rest.drop whole.length
  let fraction := if Text.startsWith ['.'] after then (after.drop 1).takeWhile Text.isDigit else []
  let power := after.dropWhile fun c ↦ c == '.' || Text.isDigit c
  let exponent : Int := match power.drop 1 with
    | '-' :: digits => -(numberOf 10 digits : Int)
    | '+' :: digits => numberOf 10 digits
    | digits => numberOf 10 digits
  let exponent := max (-60) (min 60 exponent)
  let (digits, point) := significant whole fraction exponent
  let size :=
    if digits.isEmpty then ['0']
    else if point ≤ 0 then "0.".toList ++ List.replicate (-point).toNat '0' ++ digits
    else if digits.length ≤ point.toNat then
      digits ++ List.replicate (point.toNat - digits.length) '0'
    else digits.take point.toNat ++ '.' :: digits.drop point.toNat
  let isWhole := after.isEmpty
  sign ++ size ++ (if isWhole || size.contains '.' || (digits.isEmpty && sign == ['-']) then []
    else ".0".toList)

/-- A unit. One that could be read as an exponent starts with an escape. -/
def writeUnit (unit : List Char) : List Char :=
  match unit with
  | ['%'] => ['%']
  | e :: rest =>
    if lowerLetter e == 'e' && (rest.isEmpty || rest.head? == some '-') then
      "\\65 ".toList ++ rest.flatMap writeNameChar
    else writeName unit
  | [] => []

/-- A piece. -/
def Piece.write : Piece → List Char
  | blank => [' ']
  | ident name => writeName name
  | atName name => '@' :: writeName name
  | hash name => '#' :: (if startsName name then writeName name else name.flatMap writeNameChar)
  | quoted closed text => '"' :: text.flatMap writeQuotedChar ++ (if closed then ['"'] else [])
  | address text => "url(".toList ++ text.flatMap writeAddressChar ++ [')']
  | badAddress text => "url(".toList ++ text ++ [')']
  | number written unit => writeNumber written ++ writeUnit unit
  | sign written => written
  | call name => writeName name ++ ['(']

/-! Declarations -/

/-- The sign that closes what a piece opens. -/
def Piece.closer? : Piece → Option Char
  | call _ => some ')'
  | sign ['('] => some ')'
  | sign ['['] => some ']'
  | sign ['\x7b'] => some '\x7d'
  | _ => none

/-- The pieces up to the sign that closes the innermost open bracket and so on, and those behind
the outermost. -/
def splitBlock : List Char → List Piece → List Piece × List Piece
  | [], ps => ([], ps)
  | _, [] => ([], [])
  | closer :: outer, p :: rest =>
    if p == .sign [closer] then
      match outer with
      | [] => ([], rest)
      | outer =>
        let (inner, after) := splitBlock outer rest
        (p :: inner, after)
    else
      let (inner, after) := splitBlock (p.closer?.toList ++ closer :: outer) rest
      (p :: inner, after)

/-- The pieces of a value as they are written. Of brackets only those of calls keep what is in
them. -/
def writeValue : Nat → List Piece → List (List Char)
  | 0, _ => []
  | _, [] => []
  | fuel + 1, p :: rest =>
    if p == .blank then writeValue fuel rest
    else match p.closer? with
      | none => p.write :: writeValue fuel rest
      | some closer =>
        let (inner, after) := splitBlock [closer] rest
        let written := match p with
          | .call _ => p.write ++ Text.joinWith [' '] (writeValue fuel inner) ++ [')']
          | p => p.write
        written :: writeValue fuel after

/-- The pieces up to the next semicolon outside of brackets, and those behind it. -/
def splitDeclaration : Nat → List Piece → List Piece × List Piece
  | 0, ps => (ps, [])
  | _, [] => ([], [])
  | fuel + 1, p :: rest =>
    if p == .sign [';'] then ([], rest)
    else
      let skipped := match p.closer? with
        | some closer => rest.length - (splitBlock [closer] rest).2.length
        | none => 0
      let (more, after) := splitDeclaration fuel (rest.drop skipped)
      (p :: rest.take skipped ++ more, after)

/-- The property and the value of a declaration. -/
def declaration? (ps : List Piece) : Option (List Char × List Char) :=
  let isBlank := (· == Piece.blank)
  match ps.dropWhile isBlank with
  | .ident name :: rest =>
    match rest.dropWhile isBlank with
    | .sign [':'] :: value =>
      some (name, Text.joinWith [' '] (writeValue (value.length + 1) value))
    | _ => none
  | _ => none

/-- The declarations of pieces. -/
def declarationsOf : Nat → List Piece → List (List Char × List Char)
  | 0, _ => []
  | _, [] => []
  | fuel + 1, ps =>
    let (first, rest) := splitDeclaration (ps.length + 1) ps
    (declaration? first).toList ++ declarationsOf fuel rest

/-- The declarations of a style. -/
def declarations (style : List Char) : List (List Char × List Char) :=
  let ps := pieces (style.length + 1) style
  declarationsOf (ps.length + 1) ps

end Guidebook.Html.Style
