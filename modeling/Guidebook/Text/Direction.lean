import Guidebook.Text.Chars
import Guidebook.Text.Marks

/-!
# Writing direction

Which way the characters of a word are written, and when a word in a line of mixed directions can
be drawn in one way only.
-/

namespace Guidebook.Text

/-- Letters written from right to left, with the marks among them. -/
def leftwardRanges : List (Nat × Nat) :=
  [(0x5be, 0x5f4), (0x608, 0x608), (0x60b, 0x60b), (0x60d, 0x60d), (0x61b, 0x64a),
    (0x66d, 0x6d5), (0x6e5, 0x6e6), (0x6ee, 0x6ef), (0x6fa, 0x7f5), (0x7fa, 0x88e),
    (0x8a0, 0x8c9), (0x200f, 0x200f), (0xfb1d, 0xfb28), (0xfb2a, 0xfd3d), (0xfd50, 0xfdc7),
    (0xfdf0, 0xfdfc), (0xfe70, 0xfefc), (0x10800, 0x1091b), (0x10920, 0x10b35),
    (0x10b40, 0x10d23), (0x10e80, 0x10ff6), (0x1e800, 0x1eebb)]

/-- Digits and signs of numbers in the Arabic script. -/
def arabicDigitRanges : List (Nat × Nat) :=
  [(0x600, 0x605), (0x660, 0x669), (0x66b, 0x66c), (0x6dd, 0x6dd), (0x890, 0x891),
    (0x8e2, 0x8e2), (0x10d30, 0x10e7e)]

/-- Digits outside ASCII that are written as those of ASCII are. -/
def plainDigitRanges : List (Nat × Nat) :=
  [(0xb2, 0xb3), (0xb9, 0xb9), (0x6f0, 0x6f9), (0x2070, 0x2070), (0x2074, 0x2079),
    (0x2080, 0x2089), (0xff10, 0xff19), (0x102e1, 0x102fb), (0x1d7ce, 0x1d7ff),
    (0x1fbf0, 0x1fbf9)]

/-- How a character takes part in the direction of a word. -/
inductive Direction where
  | rightward
  | leftward
  | digit
  | arabicDigit
  | mark
  | neutral
  deriving DecidableEq, Repr

/-- How a character takes part in the direction of a word. -/
def direction (c : Char) : Direction :=
  let n := c.toNat
  if n < 0x80 then if isLetter c then .rightward else if isDigit c then .digit else .neutral
  else if isMark c then .mark
  else if inRanges n arabicDigitRanges then .arabicDigit
  else if inRanges n plainDigitRanges then .digit
  else if inRanges n leftwardRanges then .leftward
  else if isWordChar c then .rightward
  else .neutral

/-- Whether a character makes its line one of mixed directions. -/
def mixesDirections (c : Char) : Bool :=
  match direction c with
  | .leftward | .arabicDigit => true
  | _ => false

/-- Whether a word can be drawn in one way only: it starts with a letter; one written from right to
left has letters of that direction and digits of one kind, another has neither; and only marks
follow its last letter or digit. -/
def hasOneDirection (word : List Char) : Bool :=
  let kinds := word.map direction
  let last := (stripEnd (· == Direction.mark) kinds).getLast?
  match kinds.head? with
  | none => true
  | some .leftward =>
    !kinds.contains .rightward &&
      last.any [Direction.leftward, .digit, .arabicDigit].contains &&
      !(kinds.contains .digit && kinds.contains .arabicDigit)
  | some .rightward =>
    !kinds.contains .leftward && !kinds.contains .arabicDigit &&
      last.any [Direction.rightward, .digit].contains
  | some _ => false

end Guidebook.Text
