import Guidebook.Text.Chars

/-!
# Numbers in text

Whole numbers as people write them: blanks around, a sign, digits of any script and single
underscores between digits.
-/

namespace Guidebook.Text

/-- The value of a hexadecimal digit. -/
def hexValue (c : Char) : Nat :=
  if isDigit c then c.toNat - 48
  else if 'a' ≤ c && c ≤ 'f' then c.toNat - 87
  else c.toNat - 55

/-- The most digits a number may be read from. -/
def maxDigits : Nat := 4300

/-- Digits with single underscores between them. -/
def digitsOf? : List Char → Option (List Nat)
  | [] => none
  | [c] => (digitValue? c).map ([·])
  | c :: '_' :: rest => do
    let d ← digitValue? c
    let ds ← digitsOf? rest
    pure (d :: ds)
  | c :: rest => do
    let d ← digitValue? c
    let ds ← digitsOf? rest
    pure (d :: ds)

/-- The number with some decimal digits. -/
def ofDigits (ds : List Nat) : Nat := ds.foldl (fun n d ↦ 10 * n + d) 0

/-- A written whole number without sign. -/
def natural? (cs : List Char) : Option Nat := do
  let ds ← digitsOf? cs
  if ds.length ≤ maxDigits then some (ofDigits ds) else none

/-- A written whole number. -/
def integer? (cs : List Char) : Option Int :=
  match strip cs with
  | '-' :: rest => (natural? rest).map fun n ↦ -(Int.ofNat n)
  | '+' :: rest => (natural? rest).map Int.ofNat
  | digits => (natural? digits).map Int.ofNat

/-- The value of a digit of some base up to 36: a decimal digit of any script, or a letter. -/
def baseDigit? (base : Nat) (c : Char) : Option Nat :=
  let value := (digitValue? c).or (if isLetter c then some (lowerChar c).toNat else none)
  let value := value.map fun n ↦ if n < 10 then n else n - 87
  value.filter (· < base)

/-- A written whole number of a base without sign, with single underscores between its digits. -/
def naturalIn? (base : Nat) (cs : List Char) : Option Nat := do
  let groups := splitOnChar '_' cs
  if groups.any List.isEmpty then none
  else
    let ds ← groups.flatten.mapM (baseDigit? base)
    if Nat.pow 2 base.log2 != base && maxDigits < ds.length then none
    else some (ds.foldl (fun n d ↦ base * n + d) 0)

/-- The base that a mark in front of a number stands for, and what is behind the mark. -/
def basePrefix? : List Char → Option (Nat × List Char)
  | '0' :: c :: rest =>
    let base := match lowerChar c with
      | 'x' => some 16
      | 'o' => some 8
      | 'b' => some 2
      | _ => none
    base.map fun base ↦ (base, match rest with
      | '_' :: digits => digits
      | digits => digits)
  | _ => none

/-- A written whole number of a base, which may be marked in front of it. Base zero is any base that
is marked, or ten. -/
def integerIn? (base : Nat) (cs : List Char) : Option Int :=
  let cs := strip cs
  let (sign, size) : Int × List Char := match cs with
    | '-' :: rest => (-1, rest)
    | '+' :: rest => (1, rest)
    | _ => (1, cs)
  let found := match basePrefix? size with
    | some (marked, digits) =>
      if base == marked || base == 0 then naturalIn? marked digits else naturalIn? base size
    | none =>
      if base == 0 then
        if size.head? == some '0' then (naturalIn? 10 size).filter (· == 0) else naturalIn? 10 size
      else naturalIn? base size
  found.map fun n ↦ sign * n

end Guidebook.Text
