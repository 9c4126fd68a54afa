import Guidebook.Html.Punycode
import Guidebook.Text.Chars
import Guidebook.Text.Direction
import Guidebook.Text.Marks
import Guidebook.Text.Utf8

/-!
# Hosts

Which names and numbers can be a host. A name is read in the spelling in which it is looked up: its
escaped bytes are UTF-8, its characters count as `hostSpelling?` says, and a part that starts with
`xn--` stands for other characters. A name that ends in a number has to be an address of four
bytes; an address of eight groups stands in brackets.

In that spelling letters count in lower case, characters that only show a letter or a digit of ASCII
in another shape count as it, and some characters do not count. No host has a character that is not
shown, or one that stands for a character that ends a host.
-/

namespace Guidebook.Html.Url

/-! ## Characters -/

/-- Characters that do not count in a host name. -/
def uncountedRanges : List (Nat × Nat) :=
  [(0xad, 0xad), (0x34f, 0x34f), (0x115f, 0x1160), (0x17b4, 0x17b5), (0x180b, 0x180d),
    (0x180f, 0x180f), (0x200b, 0x200b), (0x2060, 0x2060), (0x2064, 0x2064), (0x3164, 0x3164),
    (0xfe00, 0xfe0f), (0xfeff, 0xfeff), (0xffa0, 0xffa0), (0x1bca0, 0x1bca3), (0xe0100, 0xe01ef)]

/-- Characters outside ASCII that stand for one that no host name has. -/
def refusedRanges : List (Nat × Nat) :=
  [(0xa8, 0xa8), (0xaf, 0xaf), (0xb4, 0xb4), (0xb8, 0xb8), (0x2d8, 0x2dd), (0x37a, 0x37a),
    (0x384, 0x385), (0x1fbd, 0x1fbd), (0x1fbf, 0x1fc1), (0x1fcd, 0x1fcf), (0x1fdd, 0x1fdf),
    (0x1fed, 0x1fee), (0x1ffd, 0x1ffe), (0x2017, 0x2017), (0x2024, 0x2026), (0x203e, 0x203e),
    (0x2047, 0x2049), (0x2100, 0x2101), (0x2105, 0x2106), (0x2488, 0x249b), (0x2a74, 0x2a74),
    (0x2ff0, 0x2ffb), (0x309b, 0x309c), (0x33c2, 0x33c2), (0x33c7, 0x33c7), (0x33d8, 0x33d8),
    (0xfc5e, 0xfc63), (0xfdfa, 0xfdfb), (0xfe13, 0xfe13), (0xfe16, 0xfe16), (0xfe19, 0xfe19),
    (0xfe30, 0xfe30), (0xfe47, 0xfe4c), (0xfe52, 0xfe52), (0xfe55, 0xfe56), (0xfe5f, 0xfe5f),
    (0xfe64, 0xfe65), (0xfe68, 0xfe68), (0xfe6a, 0xfe6b), (0xfe70, 0xfe70), (0xfe72, 0xfe72),
    (0xfe74, 0xfe74), (0xfe76, 0xfe76), (0xfe78, 0xfe78), (0xfe7a, 0xfe7a), (0xfe7c, 0xfe7c),
    (0xfe7e, 0xfe7e), (0xffe3, 0xffe3), (0xfffc, 0xfffd), (0x1f100, 0x1f100)]

/-- Characters that show letters or digits of ASCII: the first of some in a row, and what it and
those after it show. -/
def shownRows : List (Nat × String) :=
  [(0xaa, "a"), (0xb2, "2 3"), (0xb9, "1 o"), (0x132, "ij ij"), (0x17f, "s"),
    (0x1c7, "lj lj lj nj nj nj"), (0x1f1, "dz dz dz"), (0x2b0, "h"), (0x2b2, "j r"),
    (0x2b7, "w y"), (0x2e1, "l s x"), (0x1d2c, "a"), (0x1d2e, "b"), (0x1d30, "d e"),
    (0x1d33, "g h i j k l m n"), (0x1d3c, "o"), (0x1d3e, "p r t u w a"), (0x1d47, "b d e"),
    (0x1d4d, "g"), (0x1d4f, "k m"), (0x1d52, "o"), (0x1d56, "p t u"), (0x1d5b, "v"),
    (0x1d62, "i r u v"), (0x1d9c, "c"), (0x1da0, "f"), (0x1dbb, "z"), (0x2070, "0 i"),
    (0x2074, "4 5 6 7 8 9"), (0x207f, "n 0 1 2 3 4 5 6 7 8 9"), (0x2090, "a e o x"),
    (0x2095, "h k l m n p s t"), (0x20a8, "rs"), (0x2102, "c"), (0x210a, "g h h h h"),
    (0x2110, "i i l l"), (0x2115, "n no"), (0x2119, "p q r r r"), (0x2120, "sm tel tm"),
    (0x2124, "z"), (0x2128, "z"), (0x212a, "k"), (0x212c, "b c"), (0x212f, "e e f"),
    (0x2133, "m o"), (0x2139, "i"), (0x213b, "fax"), (0x2145, "d d e i j"),
    (0x2160, "i ii iii iv v vi vii viii ix x xi xii l c d m i ii iii iv v vi vii viii"),
    (0x2178, "ix x xi xii l c d m"),
    (0x2460, "1 2 3 4 5 6 7 8 9 10 11 12 13 14 15 16 17 18 19 20"),
    (0x24b6, "a b c d e f g h i j k l m n o p q r s t u v w x"),
    (0x24ce, "y z a b c d e f g h i j k l m n o p q r s t u v"), (0x24e6, "w x y z 0"),
    (0x2c7c, "j v"), (0x3250, "pte 21 22 23 24 25 26 27 28 29 30 31 32 33 34 35"),
    (0x32b1, "36 37 38 39 40 41 42 43 44 45 46 47 48 49 50"), (0x32cc, "hg erg ev ltd"),
    (0x3371, "hpa da au bar ov pc dm dm2 dm3 iu"), (0x3380, "pa na"),
    (0x3383, "ma ka kb mb gb cal kcal pf nf"), (0x338e, "mg kg hz khz mhz ghz thz"),
    (0x3396, "ml dl kl fm nm"), (0x339c, "mm cm km mm2 cm2 m2 km2 mm3 cm3 m3 km3"),
    (0x33a9, "pa kpa mpa gpa rad"), (0x33b0, "ps ns"), (0x33b3, "ms pv nv"),
    (0x33b7, "mv kv mv pw nw"), (0x33bd, "mw kw mw"), (0x33c3, "bq cc cd"),
    (0x33c8, "db gy ha hp in kk km kt lm ln log lx mb mil mol ph"), (0x33d9, "ppm pr sr sv wb"),
    (0x33ff, "gal"), (0xa7f2, "c f q"), (0xfb00, "ff fi fl ffi ffl st st"), (0x107a5, "q"),
    (0x1f12b, "c r cd wz"), (0x1f130, "a b c d e f g h i j k l m n o p q r s t u v w x"),
    (0x1f148, "y z hv mv sd ss ppv wc"), (0x1f16a, "mc md mr"), (0x1f190, "dj"),
    (0x1fbf0, "0 1 2 3 4 5 6 7 8 9")]

/-- The letters and digits of ASCII that a character outside it shows. -/
def shown? (n : Nat) : List (Nat × String) → Option (List Char)
  | [] => none
  | (first, words) :: rest =>
    if n < first then none
    else (Text.splitOnChar ' ' words.toList)[n - first]? <|> shown? n rest

/-- Signs that divide a host name as a dot does. -/
def isDot (c : Char) : Bool := ['.', '。', '．', '｡'].contains c

/-- How a character is spelled in a host name, if one can have it. -/
def hostSpelling? (c : Char) : Option (List Char) :=
  let n := c.toNat
  if isDot c then some ['.']
  else if n < 0x80 || Text.isJoiner c then some [Text.lowerChar c]
  else if Text.inRanges n uncountedRanges then some []
  else if !Text.isPrintable c || Text.inRanges n refusedRanges then none
  else if 0xff01 ≤ n && n ≤ 0xff5e then some [Text.lowerChar (Char.ofNat (n - 0xfee0))]
  else if 0x1d400 ≤ n && n ≤ 0x1d6a3 then some [Char.ofNat (0x61 + (n - 0x1d400) % 26)]
  else if 0x1d7ce ≤ n && n ≤ 0x1d7ff then some [Char.ofNat (0x30 + (n - 0x1d7ce) % 10)]
  else some ((shown? n shownRows).getD [Text.lowerChar c])

/-! ## Names and numbers -/

/-- The value of digits in a base. -/
def valueIn (base : Nat) (digits : List Char) : Nat :=
  digits.foldl (fun n c ↦ n * base +
    (if Text.isDigit c then c.toNat - 48 else (Text.lowerChar c).toNat - 87)) 0

/-- A part of an address in numbers: decimal, octal or hexadecimal. -/
def number? (label : List Char) : Option Nat :=
  match label with
  | [] => none
  | '0' :: 'x' :: digits => if digits.all Text.isHexDigit then some (valueIn 16 digits) else none
  | '0' :: d :: digits =>
    if (d :: digits).all fun c ↦ '0' ≤ c && c ≤ '7' then some (valueIn 8 (d :: digits)) else none
  | _ => if label.all Text.isDigit then some (valueIn 10 label) else none

/-- Whether the parts of a host are a number of four bytes. -/
def isNumericHost (labels : List (List Char)) : Bool :=
  match labels.mapM number? with
  | none => false
  | some numbers =>
    let count := numbers.length
    count ≤ 4 && numbers.dropLast.all (· ≤ 255) &&
      (numbers.getLast?.getD 0) < Nat.pow 256 (5 - count)

/-- The bytes of text with its escaped bytes replaced. -/
def unescapedBytes : List Char → List UInt8
  | '%' :: a :: b :: rest =>
    if Text.isHexDigit a && Text.isHexDigit b then
      UInt8.ofNat (valueIn 16 [a, b]) :: unescapedBytes rest
    else Utf8.encodeChar '%' ++ unescapedBytes (a :: b :: rest)
  | c :: rest => Utf8.encodeChar c ++ unescapedBytes rest
  | [] => []

/-- A host name as it is spelled when it is looked up, if each of its characters can be in one. -/
def spelled? (cs : List Char) : Option (List Char) := do
  let chars ← (Utf8.decode (unescapedBytes cs)).toOption
  let spellings ← chars.mapM hostSpelling?
  some spellings.flatten

/-- Characters of ASCII that no host has. -/
def isForbidden (c : Char) : Bool :=
  c.toNat ≤ 0x20 || c == '\x7f' ||
    ['#', '/', ':', '<', '>', '?', '@', '[', '\\', ']', '^', '|', '%'].contains c

/-- What a part of a host name stands for. A part that starts with `xn--` stands for characters that
could not be written as they are, in their own spelling. -/
def word? (label : List Char) : Option (List Char) :=
  match Text.dropPrefix? "xn--".toList label with
  | none => some label
  | some code => do
    let word ← Punycode.decode? code
    if word.any (0x80 ≤ ·.toNat) && word.all (fun c ↦ hostSpelling? c == some [c]) then some word
    else none

/-- Whether a word can be a part of a host name: it does not start with a mark, and its joiners have
their places. -/
def isHostWord (word : List Char) : Bool :=
  !word.head?.any Text.isMark && Text.joinersFit [] word

/-- Whether words can stand together: once one is written from right to left, each has one
direction. -/
def isDrawnOneWay (words : List (List Char)) : Bool :=
  !words.any (·.any Text.mixesDirections) || words.all Text.hasOneDirection

/-- The parts of a host, without an empty one at the end. -/
def hostLabels (host : List Char) : List (List Char) :=
  let labels := Text.splitOnChar '.' host
  if 1 < labels.length && labels.getLast? == some [] then labels.dropLast else labels

/-- Whether a name in its spelling can be a host. -/
def isSpelledHost (host : List Char) : Bool :=
  let labels := hostLabels host
  let endsInNumber := labels.getLast?.any fun label ↦
    (!label.isEmpty && label.all Text.isDigit) || (number? label).isSome
  let areWords := match (Text.splitOnChar '.' host).mapM word? with
    | some words => words.all isHostWord && isDrawnOneWay words
    | none => false
  !host.isEmpty && !host.any isForbidden && areWords && (!endsInNumber || isNumericHost labels)

/-- Whether a name can be a host. -/
def isHostName (cs : List Char) : Bool := (spelled? cs).any isSpelledHost

/-- Whether a group of an address is one of hexadecimal digits. -/
def isGroup (group : List Char) : Bool :=
  1 ≤ group.length && group.length ≤ 4 && group.all Text.isHexDigit

/-- Whether a group of an address is four bytes in decimal, without a zero in front. -/
def isDotted (group : List Char) : Bool :=
  let parts := Text.splitOnChar '.' group
  parts.length == 4 && parts.all fun part ↦
    !part.isEmpty && part.length ≤ 3 && part.all Text.isDigit &&
      (part == ['0'] || part.head? != some '0') && valueIn 10 part ≤ 255

/-- Whether groups of digits and colons are an address of eight groups. -/
def isGroupedHost (cs : List Char) : Bool :=
  let groups := Text.splitOnChar ':' cs
  let last := groups.getLast?.getD []
  let size := groups.length + (if isDotted last then 1 else 0)
  let plain := fun (gs : List (List Char)) ↦
    gs.dropLast.all isGroup && (gs.getLast?.all fun g ↦ isGroup g || isDotted g)
  let gaps := (groups.filter List.isEmpty).length
  if gaps == 0 then size == 8 && plain groups
  else
    let opens := groups.head? == some []
    let closes := last.isEmpty
    let inner := ((if opens then groups.drop 1 else groups) |> fun gs ↦
      if closes then gs.dropLast else gs)
    let filled := inner.filter (!·.isEmpty)
    (inner.filter List.isEmpty).length == 1 && plain filled &&
      filled.length + (if isDotted last then 1 else 0) ≤ 7 &&
      (!opens || (groups.drop 1).head? == some []) &&
        (!closes || groups.dropLast.getLast? == some [])

end Guidebook.Html.Url
