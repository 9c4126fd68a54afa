import Guidebook.Template.Value

/-!
# Formats

Values set into a text: at places marked with a percent sign, or at places marked with braces. A
place says how wide a value is set, how it is aligned, and how numbers are written.
-/

namespace Guidebook.Template

/-- How a value is set. -/
structure Format where
  fill : Char
  align : Option Char
  /-- Numbers are filled with zeros behind their sign. -/
  zeros : Bool
  /-- What a number that is not negative has in front, if anything. -/
  sign : Option Char
  /-- Numbers of other bases are marked. -/
  marks : Bool
  width : Nat
  grouping : Option Char
  precision : Option Nat
  type : Option Char
  deriving Repr, DecidableEq

namespace Format

/-- Text set to a width. -/
def pad (f : Format) (default : Char) (cs : List Char) : List Char :=
  let room := f.width - cs.length
  match f.align.getD default with
  | '<' => cs ++ List.replicate room f.fill
  | '^' => List.replicate (room / 2) f.fill ++ cs ++ List.replicate (room - room / 2) f.fill
  | _ => List.replicate room f.fill ++ cs

/-- Digits in groups, the last group first. -/
def groupDigits (mark : Char) (size : Nat) (digits : List Char) : Nat → List Char
  | 0 => digits
  | fuel + 1 =>
    if digits.length ≤ size then digits
    else
      let front := digits.take (digits.length - size)
      groupDigits mark size front fuel ++ mark :: digits.drop (digits.length - size)

/-- Digits in groups, with zeros in front up to a length. `fuel` bounds the zeros. -/
def groupFilled (mark : Char) (size length : Nat) : Nat → List Char → List Char
  | 0, digits => groupDigits mark size digits digits.length
  | fuel + 1, digits =>
    let grouped := groupDigits mark size digits digits.length
    if length ≤ grouped.length then grouped
    else groupFilled mark size length fuel ('0' :: digits)

/-- Whether a number is written in a base that has digits of its own. -/
def isBased (f : Format) : Bool := f.type.any fun c ↦ ['b', 'o', 'x', 'X'].contains c

/-- A number, from its sign, the mark of its base and its digits, set to a width. -/
def setNumber (f : Format) (negative : Bool) (mark digits : List Char) : List Char :=
  let sign := if negative then ['-'] else (f.sign.filter (· != '-')).toList
  let isDigit := if f.isBased then Text.isHexDigit else Text.isDigit
  let whole := digits.takeWhile isDigit
  let rest := digits.drop whole.length
  let isFilled := f.align == some '=' || (f.zeros && f.align.isNone)
  let room := f.width - (sign ++ mark ++ rest).length
  let grouped := match f.grouping with
    | some mark =>
      let length := if isFilled && f.fill == '0' then room else 0
      groupFilled mark (if f.isBased then 4 else 3) length f.width whole ++ rest
    | none => digits
  if isFilled then
    let room := f.width - (sign ++ mark ++ grouped).length
    sign ++ mark ++ List.replicate room f.fill ++ grouped
  else f.pad '>' (sign ++ mark ++ grouped)

/-- Digits with zeros in front, as many as a precision asks for. -/
def padDigits (f : Format) (digits : List Char) : List Char :=
  List.replicate (f.precision.getD 0 - digits.length) '0' ++ digits

/-- A number with a point that keeps the zeros at its end, with so many digits that count. -/
def keepZeros (count : Nat) (digits : List Char) : List Char :=
  let mantissa := digits.takeWhile fun c ↦ c != 'e'
  let seen := (mantissa.filter Text.isDigit).dropWhile (· == '0')
  let mantissa := if mantissa.contains '.' then mantissa else mantissa ++ ['.']
  mantissa ++ List.replicate (max count 1 - max seen.length 1) '0' ++
    digits.dropWhile fun c ↦ c != 'e'

/-- A number with as many digits as count. -/
def writeGeneral (f : Format) (x : Float) : List Char :=
  let count := f.precision.getD 6
  let digits := Text.writeGeneral count x
  if f.marks && !x.isNaN && !x.isInf then keepZeros count digits else digits

/-- The digits of a whole number in a base. -/
def digitsIn (base n : Nat) : List Char := Nat.toDigits base n

/-- A whole number. -/
def setInt (f : Format) (n : Int) : Option (List Char) :=
  let size := n.natAbs
  let based := fun (base : Nat) (mark : String) ↦
    f.setNumber (n < 0) (if f.marks then mark.toList else []) (f.padDigits (digitsIn base size))
  match f.type with
  | none | some 'd' | some 'n' =>
    some (f.setNumber (n < 0) [] (f.padDigits (toString size).toList))
  | some 'x' => some (based 16 "0x")
  | some 'X' => some ((based 16 "0x").flatMap Text.upperChar)
  | some 'o' => some (based 8 "0o")
  | some 'b' => some (based 2 "0b")
  | some 'c' => some (f.pad '<' [Char.ofNat size])
  | _ => none

/-- A number with a point. -/
def setFloat (f : Format) (x : Float) : Option (List Char) :=
  let write : Option (List Char) := match f.type with
    | none =>
      some (match f.precision with
        | none => Text.writeFloat x
        | some count => Text.writeGeneral count x)
    | some 'f' | some 'F' => some (Text.writeFixed (f.precision.getD 6) x)
    | some 'e' => some (Text.writeExponent (f.precision.getD 6) x)
    | some 'E' => some ((Text.writeExponent (f.precision.getD 6) x).flatMap Text.upperChar)
    | some 'g' | some 'n' => some (f.writeGeneral x)
    | some 'G' => some ((f.writeGeneral x).flatMap Text.upperChar)
    | some '%' => some (Text.writeFixed (f.precision.getD 6) (x * 100) ++ ['%'])
    | _ => none
  write.map fun cs ↦
    match cs with
    | '-' :: digits => f.setNumber true [] digits
    | digits => f.setNumber false [] digits

/-- Text. -/
def setText (f : Format) (cs : List Char) : List Char :=
  f.pad '<' (match f.precision with
    | some count => cs.take count
    | none => cs)

end Format

/-! Places with percent signs -/

/-- Reads the signs that say how a value is set. -/
def readFlags : List Char → List Char × List Char :=
  List.span (['-', '+', ' ', '0', '#'].contains ·)

/-- Reads a number. -/
def readCount (cs : List Char) : Option Nat × List Char :=
  let digits := cs.takeWhile Text.isDigit
  (if digits.isEmpty then none else (String.ofList digits).toNat?, cs.drop digits.length)

/-- The format that signs, a width and a precision ask for. -/
def percentFormat (flags : List Char) (width precision : Option Nat) (type : Char) : Format :=
  let left := flags.contains '-'
  let zeros := flags.contains '0' && !left
  { fill := if zeros then '0' else ' '
    align := some (if left then '<' else if zeros then '=' else '>')
    zeros := false
    sign := if flags.contains '+' then some '+' else if flags.contains ' ' then some ' ' else none
    marks := flags.contains '#'
    width := width.getD 0
    grouping := none
    precision := precision
    type := some type }

/-- The character of a number. -/
def characterOf (n : Int) : Result Char :=
  if 0 ≤ n && n < 0x110000 then .ok (Char.ofNat n.toNat)
  else .error (.broken .overflow "%c arg not in range(0x110000)")

/-- Text in which everything outside ASCII is escaped. -/
def asciiOnly (cs : List Char) : List Char :=
  cs.flatMap fun c ↦
    let n := c.toNat
    if n < 0x80 then [c]
    else if n < 0x100 then ['\\', 'x'] ++ Text.hexDigits 2 n
    else if n < 0x10000 then ['\\', 'u'] ++ Text.hexDigits 4 n
    else ['\\', 'U'] ++ Text.hexDigits 8 n

/-- A value at a place with a percent sign. -/
def setPercent (escapes : Bool) (f : Format) (type : Char) (position : Nat) (value : Value) :
    Result (List Char) :=
  let shown := fun (cs : List Char) ↦
    ({ f with fill := ' ', align := if f.align == some '<' then f.align else some '>' }).setText
      (if escapes && !value.isHtml then Theme.escape cs else cs)
  let real := "must be real number, not " ++ value.kind
  match type with
  | 's' => .ok (shown value.toText)
  | 'r' => .ok (shown value.showInside)
  | 'a' => .ok (shown (asciiOnly value.showInside))
  | 'c' =>
    match value, value.int? with
    | _, some n => (characterOf n).map fun c ↦ shown [c]
    | .text [c], _ | .html [c], _ => .ok (shown [c])
    | _, _ => wrongKind "%c requires int or char"
  | 'd' | 'i' | 'u' =>
    match value.number? with
    | some (.int n) => .ok (({ f with type := none }.setInt n).getD [])
    | some (.float x) => .ok (({ f with type := none }.setInt (Text.truncated x)).getD [])
    | none =>
      match value with
      | .undefined complaint => complain complaint
      | _ =>
        wrongKind ("%" ++ String.ofList [type] ++ " format: a real number is required, not " ++
          value.kind)
  | 'x' | 'X' | 'o' =>
    match value.int? with
    | some n => .ok ((f.setInt n).getD [])
    | none =>
      wrongKind ("%" ++ String.ofList [type] ++ " format: an integer is required, not " ++
        value.kind)
  | 'f' | 'F' | 'e' | 'E' | 'g' | 'G' =>
    match value.number? with
    | some n => .ok ((f.setFloat n.toFloat).getD [])
    | none =>
      match value with
      | .undefined complaint => complain complaint
      | _ => wrongKind real
  | type =>
    let visible := if 0x20 < type.toNat && type.toNat < 0x7f then type else '?'
    .error (.broken .value ("unsupported format character '" ++ String.ofList [visible] ++
      "' (0x" ++ String.ofList (Text.hexDigits 1 type.toNat) ++ ") at index " ++
      toString position))

/-- What fills places with percent signs: values one after another, or the fields of a record. -/
structure Filling where
  values : List Value
  fields : Option Value
  /-- Some values may be left over. -/
  isLoose : Bool

/-- What a value fills places with. -/
def Filling.ofValue (value : Value) : Filling :=
  match value with
  | .tuple items => ⟨items, none, false⟩
  | .record _ => ⟨[value], some value, true⟩
  | .list _ | .range .. => ⟨[value], none, true⟩
  | value => ⟨[value], none, false⟩

/-- A field that a place asks for by name. -/
def Filling.field (filling : Filling) (name : List Char) : Result Value :=
  match filling.fields with
  | some (.record fields) =>
    match Value.field? fields (.text name) with
    | some value => .ok value
    | none => .error (.broken .key (Text.quoted (String.ofList name)))
  | _ => wrongKind "format requires a mapping"

/-- The next value that a place asks for. -/
def Filling.next (filling : Filling) : Result (Value × Filling) :=
  match filling.values with
  | value :: rest => .ok (value, { filling with values := rest })
  | [] => wrongKind "not enough arguments for format string"

/-- A width or precision: a number, or a star for the next value. -/
def Filling.count (filling : Filling) (cs : List Char) :
    Result (Option Nat × List Char × Filling) :=
  match cs with
  | '*' :: rest => do
    let (value, filling) ← filling.next
    match value.int? with
    | some n => .ok (some n.toNat, rest, filling)
    | none => wrongKind "* wants int"
  | cs =>
    let (count, rest) := readCount cs
    .ok (count, rest, filling)

/-- A text with its places with percent signs filled. `total` is the length of the whole text. -/
def fillPercent (escapes : Bool) (total : Nat) : Nat → Filling → List Char → Result (List Char)
  | 0, _, cs => .ok cs
  | _, filling, [] =>
    if filling.values.isEmpty || filling.isLoose then .ok []
    else wrongKind "not all arguments converted during string formatting"
  | fuel + 1, filling, '%' :: rest => do
    let (named?, rest) := match rest with
      | '(' :: inner =>
        let (name, found, after) := Text.partitionAt ')' inner
        (if found then some name else none, if found then after else [])
      | rest => (none, rest)
    let (flags, rest) := readFlags rest
    let (width, rest, filling) ← filling.count rest
    let (precision, rest, filling) ← match rest with
      | '.' :: rest => do
        let (precision, rest, filling) ← filling.count rest
        pure (some (precision.getD 0), rest, filling)
      | rest => pure (none, rest, filling)
    let rest := rest.dropWhile (['h', 'l', 'L'].contains ·)
    match rest with
    | [] => .error (.broken .value "incomplete format")
    | '%' :: rest => (fillPercent escapes total fuel filling rest).map ('%' :: ·)
    | type :: rest =>
      let f := percentFormat flags width precision type
      let position := total - (rest.length + 1)
      match named? with
      | some name =>
        let shown ← setPercent escapes f type position (← filling.field name)
        (fillPercent escapes total fuel filling rest).map (shown ++ ·)
      | none =>
        let (value, filling) ← filling.next
        let shown ← setPercent escapes f type position value
        (fillPercent escapes total fuel filling rest).map (shown ++ ·)
  | fuel + 1, filling, c :: rest => (fillPercent escapes total fuel filling rest).map (c :: ·)

/-- A text with its places with percent signs filled. -/
def percentFormatted (escapes : Bool) (cs : List Char) (value : Value) : Result (List Char) :=
  fillPercent escapes cs.length (cs.length + 1) (Filling.ofValue value) cs

/-! Places with braces -/

/-- Reads how a value is set at a place with braces. -/
def readFormat (cs : List Char) : Format × List Char :=
  let isAlign := fun (c : Char) ↦ ['<', '>', '=', '^'].contains c
  let (fill?, align, rest) : Option Char × Option Char × List Char := match cs with
    | c :: d :: rest =>
      if isAlign d then (some c, some d, rest)
      else if isAlign c then (none, some c, d :: rest) else (none, none, cs)
    | [c] => if isAlign c then (none, some c, []) else (none, none, cs)
    | [] => (none, none, [])
  let (sign, rest) : Option Char × List Char := match rest with
    | '+' :: rest => (some '+', rest)
    | ' ' :: rest => (some ' ', rest)
    | '-' :: rest => (some '-', rest)
    | rest => (none, rest)
  let (marks, rest) := match rest with
    | '#' :: rest => (true, rest)
    | rest => (false, rest)
  let (zeros, rest) := match rest with
    | '0' :: rest => (true, rest)
    | rest => (false, rest)
  let (width, rest) := readCount rest
  let (grouping, rest) : Option Char × List Char := match rest with
    | ',' :: rest => (some ',', rest)
    | '_' :: rest => (some '_', rest)
    | rest => (none, rest)
  let (precision, rest) := match rest with
    | '.' :: rest => readCount rest
    | rest => (none, rest)
  let fill := fill?.getD (if zeros then '0' else ' ')
  (⟨fill, align, zeros, sign, marks, width.getD 0, grouping, precision, rest.head?⟩, rest.drop 1)

/-- Something wrong with a format. -/
def badSpec {α : Type} (text : String) : Result α := .error (.broken .value text)

/-- Checks what a format asks of text. -/
def checkText (f : Format) : Result Unit :=
  if f.sign == some ' ' then badSpec "Space not allowed in string format specifier"
  else if f.sign.isSome then badSpec "Sign not allowed in string format specifier"
  else if f.marks then badSpec "Alternate form (#) not allowed in string format specifier"
  else if f.align == some '=' then
    badSpec "'=' alignment not allowed in string format specifier"
  else .ok ()

/-- Checks that digits are grouped only where there are some. -/
def checkGrouping (f : Format) (default : Char) : Result Unit :=
  let type := f.type.getD default
  match f.grouping with
  | none => .ok ()
  | some mark =>
    if ['d', 'e', 'f', 'g', 'E', 'G', '%', 'F', '-'].contains type || (mark == '_' && f.isBased)
    then .ok ()
    else badSpec ("Cannot specify '" ++ String.ofList [mark] ++ "' with '" ++
      String.ofList [type] ++ "'.")

/-- Checks what a format asks of a whole number. -/
def checkInt (f : Format) : Result Unit :=
  let isWhole := f.type.all fun c ↦ ['d', 'b', 'o', 'x', 'X', 'c', 'n'].contains c
  if f.precision.isSome && isWhole && f.type != some 'n' then
    badSpec "Precision not allowed in integer format specifier"
  else if f.type == some 'c' && f.sign.isSome then
    badSpec "Sign not allowed with integer format specifier 'c'"
  else if f.type == some 'c' && f.marks then
    badSpec "Alternate form (#) not allowed with integer format specifier 'c'"
  else .ok ()

/-- A value at a place with braces. -/
def setBraces (spec : List Char) (value : Value) : Result (List Char) := do
  if spec.isEmpty then return value.toText
  let (f, rest) := readFormat spec
  let unknown : Result (List Char) :=
    badSpec ("Unknown format code '" ++ String.ofList f.type.toList ++
      "' for object of type '" ++ value.kind ++ "'")
  match value, value.number? with
  | .undefined complaint, _ => complain complaint
  | .text _, _ | .html _, _ | _, some _ =>
    if !rest.isEmpty then
      badSpec ("Invalid format specifier '" ++ String.ofList spec ++ "' for object of type '" ++
        value.kind ++ "'")
  | value, none =>
    wrongKind ("unsupported format string passed to " ++ value.kind ++ ".__format__")
  match value.number? with
  | none =>
    checkGrouping f 's'
    if f.type == none || f.type == some 's' then
      checkText f
      return f.setText value.toText
    else unknown
  | some (.int n) =>
    checkGrouping f 'd'
    checkInt f
    if f.type == some 'c' then return f.pad '>' [← characterOf n]
    match f.setInt n with
    | some shown => return shown
    | none => ((f.setFloat (Text.floatOfInt n)).map Except.ok).getD unknown
  | some (.float x) =>
    checkGrouping f '-'
    ((f.setFloat x).map Except.ok).getD unknown

end Guidebook.Template
