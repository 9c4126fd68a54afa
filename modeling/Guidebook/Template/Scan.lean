import Guidebook.Text.Names
import Guidebook.Text.Number
import Guidebook.Text.Quoted

/-!
# Scanning templates

A template is text with tags in it: double braces print, braces with percent signs hold a statement
and braces with hashes a comment. A statement or comment that stands alone at the front of a line
takes the blanks before it along and the line end behind it. A minus sign at either end of a tag
takes all white space on that side, a plus sign keeps it. What cannot be scanned becomes a token of
its own, so that whatever is wrong before it is reported first.
-/

namespace Guidebook.Template

/-- A piece of a template. -/
inductive Token where
  | data (text : List Char)
  | printBegin
  | printEnd
  | blockBegin
  | blockEnd
  | name (name : String)
  | text (text : List Char)
  | int (n : Nat)
  | decimal (digits : Nat) (exponent : Int)
  | symbol (symbol : String)
  | broken (complaint : String)
  deriving Repr, DecidableEq

namespace Token

/-- How a complaint calls the token. -/
def describe : Token → String
  | data _ => "template data / text"
  | printBegin => "begin of print statement"
  | printEnd => "end of print statement"
  | blockBegin => "begin of statement block"
  | blockEnd => "end of statement block"
  | name word => word
  | text _ => "string"
  | int _ => "integer"
  | decimal .. => "float"
  | symbol mark => mark
  | broken complaint => complaint

end Token

/-- How a complaint calls the end of a template. -/
def endOfTemplate : String := "end of template"

/-- The sign at an end of a tag. -/
inductive Sign where
  | plain
  | strip
  | keep
  deriving Repr, DecidableEq

/-- Reads the sign behind the opening of a tag. -/
def readSign : List Char → Sign × List Char
  | '-' :: rest => (.strip, rest)
  | '+' :: rest => (.keep, rest)
  | cs => (.plain, cs)

/-- The kinds of tags. -/
inductive TagKind where
  | print
  | block
  | comment
  deriving Repr, DecidableEq

/-- The text before the first tag, and the tag's kind with what follows its opening. -/
def splitAtTag : List Char → List Char × Option (TagKind × List Char)
  | [] => ([], none)
  | '{' :: '{' :: rest => ([], some (.print, rest))
  | '{' :: '%' :: rest => ([], some (.block, rest))
  | '{' :: '#' :: rest => ([], some (.comment, rest))
  | c :: rest =>
    let (before, tag) := splitAtTag rest
    (c :: before, tag)

/-- Text without the blanks of its last line, if that line has nothing else and is a line of its
own. -/
def dropIndent (atLineStart : Bool) (cs : List Char) : List Char :=
  let last := cs.reverse.takeWhile (· != '\n')
  if last.all Text.isBlank && (atLineStart || cs.contains '\n') then
    cs.take (cs.length - last.length)
  else cs

/-- Text before a tag. -/
def trimBefore (kind : TagKind) (sign : Sign) (atLineStart : Bool) (cs : List Char) : List Char :=
  match sign with
  | .strip => Text.stripEnd Text.isBlank cs
  | .keep => cs
  | .plain => if kind == .print then cs else dropIndent atLineStart cs

/-- Text behind the end of a statement or comment. -/
def trimAfter (sign : Sign) (cs : List Char) : List Char :=
  match sign with
  | .strip => cs.dropWhile Text.isBlank
  | .keep => cs
  | .plain =>
    match cs with
    | '\n' :: rest => rest
    | cs => cs

/-- Reads the end of a tag of one kind and takes what it takes of the text behind it. -/
def readEnd (kind : TagKind) (cs : List Char) : Option (List Char) :=
  let mark := match kind with
    | .print => '}'
    | .block => '%'
    | .comment => '#'
  match kind, readSign cs with
  | .print, (.keep, _) => none
  | kind, (sign, a :: '}' :: rest) =>
    if a == mark then
      some (if kind == .print && sign != .strip then rest else trimAfter sign rest)
    else none
  | _, _ => none

/-- What follows the first place where the end of a comment can be read. -/
def afterComment : List Char → Option (List Char)
  | [] => none
  | c :: rest =>
    match readEnd .comment (c :: rest) with
    | some after => some after
    | none => afterComment rest

/-- Reads a statement that consists of one word, with what its end takes of the text behind it. -/
def readWordTag (word : String) (trims : Bool) (cs : List Char) : Option (List Char) :=
  match Text.dropPrefix? word.toList (cs.dropWhile Text.isBlank) with
  | none => none
  | some rest =>
    let rest := rest.dropWhile Text.isBlank
    if trims then readEnd .block rest
    else match rest with
      | '-' :: '%' :: '}' :: rest => some (rest.dropWhile Text.isBlank)
      | '%' :: '}' :: rest => some rest
      | _ => none

/-- The text up to the end of a raw section, with what follows it. -/
def splitRaw : List Char → Option (List Char × Sign × List Char)
  | [] => none
  | c :: rest =>
    let ending := match c, rest with
      | '{', '%' :: after =>
        let (sign, after) := readSign after
        (readWordTag "endraw" true after).map fun after ↦ (sign, after)
      | _, _ => none
    match ending with
    | some (sign, after) => some ([], sign, after)
    | none => (splitRaw rest).map fun (before, tail) ↦ (c :: before, tail)

/-- The symbols of expressions, longer ones first, with the names complaints use. -/
def symbols : List String :=
  ["//", "**", "==", "!=", ">=", "<=", "+", "-", "/", "*", "%", "~", "[", "]", "(", ")", "\x7b",
    "\x7d", ">", "<", "=", ".", ":", "|", ",", ";"]

/-- Reads a symbol. -/
def readSymbol (cs : List Char) : Option (String × List Char) :=
  symbols.findSome? fun symbol ↦
    (Text.dropPrefix? symbol.toList cs).map fun rest ↦ (symbol, rest)

/-- Reads quoted text up to its quote; backslashes stand for themselves and what follows them. -/
def readQuoted (quote : Char) : List Char → Option (List Char × List Char)
  | [] => none
  | '\\' :: c :: rest => (readQuoted quote rest).map fun (cs, tail) ↦ ('\\' :: c :: cs, tail)
  | c :: rest =>
    if c == quote then some ([], rest)
    else (readQuoted quote rest).map fun (cs, tail) ↦ (c :: cs, tail)

/-- Characters that single letters behind a backslash stand for. -/
def letterEscapes : List (Char × Char) :=
  [('\\', '\\'), ('\'', '\''), ('"', '"'), ('a', '\x07'), ('b', '\x08'), ('f', '\x0c'),
    ('n', '\n'), ('r', '\r'), ('t', '\t'), ('v', '\x0b')]

/-- The letters behind a backslash that write a character by its number, with their digits. -/
def numberEscapes : List (Char × Nat) := [('x', 2), ('u', 4), ('U', 8)]

/-- Reads the value of so many hexadecimal digits. -/
def readHex? (count : Nat) (cs : List Char) : Option (Nat × List Char) :=
  let digits := cs.take count
  if digits.length == count && digits.all Text.isHexDigit then
    some (digits.foldl (fun n c ↦ 16 * n + Text.hexValue c) 0, cs.drop count)
  else none

/-- A character above ASCII as its number is written. -/
def writtenNumber (c : Char) : List Char :=
  let n := c.toNat
  if n < 0x100 then 'x' :: Text.hexDigits 2 n
  else if n < 0x10000 then 'u' :: Text.hexDigits 4 n
  else 'U' :: Text.hexDigits 8 n

/-- Reads the name of a character in braces. -/
def readCharacterName (cs : List Char) : Except String (Char × List Char) :=
  match cs with
  | '\x7b' :: rest =>
    match Text.partitionAt '\x7d' rest with
    | (name, true, after) =>
      if name.isEmpty then .error "malformed \\N character escape"
      else match Text.characterNamed? (String.ofList name) with
        | some c => .ok (c, after)
        | none => .error "unknown Unicode character name"
    | _ => .error "malformed \\N character escape"
  | _ => .error "malformed \\N character escape"

/-- Quoted text with its escapes carried out. -/
def unescape : Nat → List Char → Except String (List Char)
  | 0, cs => .ok cs
  | _, [] => .ok []
  | fuel + 1, '\\' :: c :: rest =>
    if c == '\n' then unescape fuel rest
    else match letterEscapes.lookup c, numberEscapes.lookup c with
      | some meant, _ => (unescape fuel rest).map (meant :: ·)
      | none, some count =>
        match readHex? count rest with
        | none =>
          .error ("truncated \\" ++ String.ofList (c :: List.replicate count 'X') ++ " escape")
        | some (n, rest) =>
          if 0x10ffff < n then .error "illegal Unicode character"
          else (unescape fuel rest).map (Char.ofNat n :: ·)
      | none, none =>
        if c == 'N' then do
          let (named, rest) ← readCharacterName rest
          (unescape fuel rest).map (named :: ·)
        else if '0' ≤ c && c ≤ '7' then
          let digits := ((c :: rest).take 3).takeWhile fun d ↦ '0' ≤ d && d ≤ '7'
          let n := digits.foldl (fun n d ↦ 8 * n + (d.toNat - 48)) 0
          (unescape fuel ((c :: rest).drop digits.length)).map (Char.ofNat n :: ·)
        else if 0x80 ≤ c.toNat then
          (unescape fuel rest).map ('\\' :: writtenNumber c ++ ·)
        else (unescape fuel rest).map fun cs ↦ '\\' :: c :: cs
  | fuel + 1, c :: rest => (unescape fuel rest).map (c :: ·)

/-- Quoted text as a token. -/
def textToken (cs : List Char) : Token :=
  match unescape (cs.length + 1) cs with
  | .ok meant => .text meant
  | .error complaint => .broken complaint

/-- The bracket that closes another. -/
def closing (symbol : String) : Option String :=
  match symbol with
  | "(" => some ")"
  | "[" => some "]"
  | "\x7b" => some "\x7d"
  | _ => none

/-- The complaint about a closing bracket while brackets are open, innermost first. -/
def bracketComplaint (opened : List String) (symbol : String) : Option String :=
  if symbol == ")" || symbol == "]" || symbol == "\x7d" then
    match opened with
    | [] => some ("unexpected '" ++ symbol ++ "'")
    | expected :: _ =>
      if expected == symbol then none
      else some ("unexpected '" ++ symbol ++ "', expected '" ++ expected ++ "'")
  else none

/-! Numbers and names -/

/-- Reads digits with single underscores between them. -/
def readDigits : List Char → List Nat × List Char
  | [] => ([], [])
  | c :: rest =>
    match Text.digitValue? c, rest with
    | none, _ => ([], c :: rest)
    | some d, '_' :: e :: more =>
      if (Text.digitValue? e).isSome then
        let (ds, after) := readDigits (e :: more)
        (d :: ds, after)
      else ([d], rest)
    | some d, rest =>
      let (ds, after) := readDigits rest
      (d :: ds, after)

/-- Reads an exponent behind a number. -/
def readExponent? (cs : List Char) : Option (Int × List Char) :=
  match cs with
  | c :: rest =>
    if c != 'e' && c != 'E' then none
    else
      let (negative, rest) := match rest with
        | '-' :: rest => (true, rest)
        | '+' :: rest => (false, rest)
        | rest => (false, rest)
      match readDigits rest with
      | ([], _) => none
      | (ds, after) =>
        let n : Int := Text.ofDigits ds
        some (if negative then -n else n, after)
  | [] => none

/-- Reads a number with a point or an exponent. -/
def readDecimal? (cs : List Char) : Option (Token × List Char) :=
  let (whole, after) := readDigits cs
  let (fraction, after) := match after with
    | '.' :: rest =>
      match readDigits rest with
      | ([], _) => ([], after)
      | found => found
    | after => ([], after)
  let digits := Text.ofDigits (whole ++ fraction)
  match readExponent? after with
  | some (e, rest) => some (.decimal digits (e - (fraction.length : Int)), rest)
  | none =>
    if fraction.isEmpty then none else some (.decimal digits (-(fraction.length : Int)), after)

/-- Reads digits of a base, each behind an underscore or not. -/
def readBased (base : Nat) : List Char → List Nat × List Char
  | '_' :: c :: rest =>
    if Text.isHexDigit c && Text.hexValue c < base then
      let (ds, after) := readBased base rest
      (Text.hexValue c :: ds, after)
    else ([], '_' :: c :: rest)
  | c :: rest =>
    if Text.isHexDigit c && Text.hexValue c < base then
      let (ds, after) := readBased base rest
      (Text.hexValue c :: ds, after)
    else ([], c :: rest)
  | [] => ([], [])

/-- The bases by the letters behind a zero. -/
def bases : List (Char × Nat) :=
  [('b', 2), ('B', 2), ('o', 8), ('O', 8), ('x', 16), ('X', 16)]

/-- Reads a whole number. A zero in front of another digit is a number of its own. -/
def readWhole? (cs : List Char) : Option (Token × List Char) :=
  match cs with
  | '0' :: rest =>
    let based? := match rest with
      | letter :: digits => do
        let base ← bases.lookup letter
        match readBased base digits with
        | ([], _) => none
        | (ds, after) => some (Token.int (ds.foldl (fun n d ↦ base * n + d) 0), after)
      | [] => none
    based?.orElse fun _ ↦ some (.int 0, (readBased 1 rest).2)
  | c :: _ =>
    if '1' ≤ c && c ≤ '9' then
      let (ds, after) := readDigits cs
      some (.int (Text.ofDigits ds), after)
    else none
  | [] => none

/-- A character of a name or number. -/
def isNameChar (c : Char) : Bool :=
  Text.isWordChar c || (0x300 ≤ c.toNat && c.toNat ≤ 0x36f)

/-- A number that is no digit. No name has one. -/
def isNumeral (c : Char) : Bool :=
  let n := c.toNat
  [0xb2, 0xb3, 0xb9, 0xbc, 0xbd, 0xbe].contains n || (0x2070 ≤ n && n ≤ 0x2089) ||
    (0x2150 ≤ n && n ≤ 0x215f) || (0x2460 ≤ n && n ≤ 0x249b) || (0x2776 ≤ n && n ≤ 0x2793)

/-- A word as a token. -/
def wordToken (word : List Char) : Token :=
  let isName := !(word.head?.any fun c ↦ (Text.digitValue? c).isSome || !Text.isWordChar c)
  if isName && !word.any isNumeral then .name (String.ofList (word.map Text.composed))
  else .broken "Invalid character in identifier"

/-- Reads a number or a name. -/
def readWord? (afterPoint : Bool) (cs : List Char) : Option (Token × List Char) :=
  match cs with
  | [] => none
  | c :: _ =>
    let decimal? := if afterPoint || (Text.digitValue? c).isNone then none else readDecimal? cs
    (decimal?.orElse fun _ ↦ readWhole? cs).orElse fun _ ↦
      if isNameChar c then some (wordToken (cs.takeWhile isNameChar), cs.dropWhile isNameChar)
      else none

/-- Whether the text between two places ends in a line end. -/
def endsLine (start after : List Char) : Bool :=
  (start.take (start.length - after.length)).getLast? == some '\n'

/-- A token with the number of characters from its start on. -/
abbrev Placed := Nat × Token

mutual

/-- The tokens of text outside tags. `total` is the length of the whole template. -/
def scanText (total : Nat) (atLineStart : Bool) : Nat → List Char → List Placed
  | 0, _ => []
  | _, [] => []
  | fuel + 1, cs =>
    let here := cs.length
    match splitAtTag cs with
    | (text, none) => [(here, .data text)]
    | (text, some (kind, rest)) =>
      let start := rest.length + 2
      let (sign, rest) := readSign rest
      let text := (here, Token.data (trimBefore kind sign atLineStart text))
      match kind with
      | .print => text :: (start, .printBegin) :: scanTag total .print [] false fuel rest
      | .block =>
        match readWordTag "raw" false rest with
        | some rest => text :: scanRaw total fuel rest
        | none => text :: (start, .blockBegin) :: scanTag total .block [] false fuel rest
      | .comment =>
        match rest, afterComment rest with
        | [], _ => [text]
        | _, some after =>
          text :: scanText total (endsLine rest after) fuel after
        | _, none => [text, (start, .broken "Missing end of comment tag")]

/-- The tokens of a raw section and of what follows it. -/
def scanRaw (total : Nat) : Nat → List Char → List Placed
  | 0, _ => []
  | fuel + 1, cs =>
    match cs, splitRaw cs with
    | [], _ => []
    | _, some (text, sign, after) =>
      (cs.length, .data (trimBefore .block sign false text)) ::
        scanText total (endsLine cs after) fuel after
    | _, none => [(cs.length, .broken "Missing end of raw directive")]

/-- The tokens inside a tag, while brackets are open, and of what follows it. -/
def scanTag (total : Nat) (kind : TagKind) (opened : List String) (afterPoint : Bool) :
    Nat → List Char → List Placed
  | 0, _ => []
  | _, [] => []
  | fuel + 1, c :: rest =>
    let here := rest.length + 1
    match if opened.isEmpty then readEnd kind (c :: rest) else none with
    | some after =>
      (here, if kind == .print then .printEnd else .blockEnd) ::
        scanText total (endsLine (c :: rest) after) fuel after
    | none =>
      if Text.isBlank c then scanTag total kind opened false fuel rest
      else match readWord? afterPoint (c :: rest) with
      | some (token, rest) => (here, token) :: scanTag total kind opened false fuel rest
      | none =>
        match if c == '"' || c == '\'' then readQuoted c rest else none with
        | some (text, rest) =>
          (here, textToken text) :: scanTag total kind opened false fuel rest
        | none =>
          match readSymbol (c :: rest) with
          | none =>
            [(here, .broken ("unexpected char " ++ Text.quoted (String.ofList [c]) ++ " at " ++
              toString (total - here)))]
          | some (symbol, rest) =>
            match bracketComplaint opened symbol, closing symbol with
            | some complaint, _ => [(here, .broken complaint)]
            | none, some expected =>
              (here, .symbol symbol) :: scanTag total kind (expected :: opened) false fuel rest
            | none, none =>
              let opened := if symbol == opened.headD "" then opened.drop 1 else opened
              (here, .symbol symbol) :: scanTag total kind opened (symbol == ".") fuel rest

end

/-- A template's text with its line ends made line feeds, without the last of them. -/
def normalizeText (text : List Char) : List Char :=
  Text.removeEnding ['\n'] (Text.universalNewlines text)

/-- A token with the line it starts in. -/
structure Lexeme where
  token : Token
  line : Nat
  deriving Repr, DecidableEq

/-- The tokens of a template. -/
def scan (text : List Char) : List Lexeme :=
  let text := normalizeText text
  let total := text.length
  (scanText total true (2 * total + 2) text).map fun (left, token) ↦
    ⟨token, 1 + ((text.take (total - left)).filter (· == '\n')).length⟩

end Guidebook.Template
