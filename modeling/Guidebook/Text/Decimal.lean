import Guidebook.Text.Number

/-!
# Decimals

How a number of binary fractions is written in decimal: with the fewest digits that read back to
it, or rounded to a number of places. Both are decided by exact arithmetic on the bits.
-/

namespace Guidebook.Text

/-- A binary fraction that is not negative: `m · 2 ^ q`. -/
structure Dyadic where
  m : Nat
  q : Int
  deriving Repr, DecidableEq

namespace Dyadic

/-- The size of a finite number. -/
def ofFloat (x : Float) : Dyadic :=
  let bits := x.toBits.toNat
  let fraction := bits % Nat.pow 2 52
  let exponent : Nat := bits / Nat.pow 2 52 % Nat.pow 2 11
  if exponent == 0 then ⟨fraction, -1074⟩ else ⟨Nat.pow 2 52 + fraction, (exponent : Int) - 1075⟩

/-- A power with an exponent that may be negative: the factor on either side of a fraction. -/
def scale (base : Nat) (e : Int) : Nat × Nat :=
  (Nat.pow base e.toNat, Nat.pow base (-e).toNat)

/-- A number as a fraction of whole numbers. -/
def fraction (x : Dyadic) : Nat × Nat :=
  let (up, down) := scale 2 x.q
  (x.m * up, down)

/-- The ends of the numbers that round to a number of 53 bits, and whether the ends do. -/
def interval (x : Dyadic) : Dyadic × Dyadic × Bool :=
  let low := if x.m == Nat.pow 2 52 && -1074 < x.q then 4 * x.m - 1 else 4 * x.m - 2
  (⟨low, x.q - 2⟩, ⟨4 * x.m + 2, x.q - 2⟩, x.m % 2 == 0)

/-- How `digits · 10 ^ p` compares with a number. -/
def compareDecimal (digits : Nat) (p : Int) (x : Dyadic) : Ordering :=
  let (up, down) := scale 10 p
  let (n, d) := x.fraction
  compare (digits * up * d) (n * down)

/-- Whether `digits · 10 ^ p` reads back to a number. -/
def readsBack (x : Dyadic) (digits : Nat) (p : Int) : Bool :=
  let (low, high, closed) := x.interval
  let below := compareDecimal digits p low
  let above := compareDecimal digits p high
  (below == .gt || (closed && below == .eq)) && (above == .lt || (closed && above == .eq))

/-- The number of digits before the point of a number that is at least one. -/
def wholeDigits (x : Dyadic) : Nat :=
  let (n, d) := x.fraction
  (toString (n / d)).length

/-- The number of zeros behind the point before the first digit of a number below one. -/
def leadingZeros (x : Dyadic) : Nat → Nat
  | 0 => 0
  | fuel + 1 =>
    let (n, d) := x.fraction
    if n * Nat.pow 10 (400 - fuel) < d then leadingZeros x fuel else 399 - fuel

/-- The place of the first digit: one for a digit just before the point. -/
def place (x : Dyadic) : Int :=
  let (n, d) := x.fraction
  if d ≤ n then x.wholeDigits else -(x.leadingZeros 400 : Int)

/-- The decimal with the fewest digits, from `n` digits on, that reads back to a number; of two the
nearer one, and of two as near the even one. -/
def shortestFrom (x : Dyadic) (place : Int) (n : Nat) : Nat → Nat × Int
  | 0 => (x.m, x.q)
  | fuel + 1 =>
    let p := place - n
    let (up, down) := scale 10 p
    let (a, b) := x.fraction
    let floor := a * down / (b * up)
    let nearest := match compare (2 * a * down) ((2 * floor + 1) * (b * up)) with
      | .lt => [floor, floor + 1]
      | .gt => [floor + 1, floor]
      | .eq => if floor % 2 == 0 then [floor, floor + 1] else [floor + 1, floor]
    match nearest.find? fun digits ↦ x.readsBack digits p with
    | some digits => (digits, p)
    | none => shortestFrom x place (n + 1) fuel

/-- The decimal with the fewest digits that reads back to a number, as digits and the place of the
point behind the first of them. -/
def shortest (x : Dyadic) : List Char × Int :=
  let (digits, p) := x.shortestFrom x.place 1 17
  let written := (toString digits).toList
  let kept := written.reverse.dropWhile (· == '0')
  (kept.reverse, p + written.length)

end Dyadic

/-- A fraction rounded to a whole number, a half to the even neighbour. -/
def roundDiv (n d : Nat) : Nat :=
  let floor := n / d
  match compare (2 * (n % d)) d with
  | .lt => floor
  | .gt => floor + 1
  | .eq => floor + floor % 2

/-- The digits of a number with a number of places behind the point. -/
def placed (places n : Nat) : List Char :=
  let digits := (toString n).toList
  let digits := List.replicate (places + 1 - digits.length) '0' ++ digits
  let whole := digits.take (digits.length - places)
  if places == 0 then whole else whole ++ '.' :: digits.drop (digits.length - places)

/-- A finite number that is not negative, rounded to a number of places. -/
def fixedSize (places : Nat) (x : Dyadic) : List Char :=
  let (n, d) := x.fraction
  placed places (roundDiv (n * Nat.pow 10 places) d)

/-- Whether the sign of a number is negative, zeros included. -/
def isNegative (x : Float) : Bool := x.toBits.toNat / Nat.pow 2 63 == 1

/-- A number that has no digits. -/
def unwritten? (x : Float) : Option (List Char) :=
  if x.isNaN then some "nan".toList
  else if x.isInf then some (if isNegative x then "-inf" else "inf").toList
  else none

/-- A number with its sign. -/
def signed (x : Float) (digits : List Char) : List Char :=
  if isNegative x then '-' :: digits else digits

/-- Digits with a point behind the first and an exponent of at least two digits. -/
def withExponent (digits : List Char) (e : Int) : List Char :=
  let power := toString e.natAbs
  let power := if power.length < 2 then "0" ++ power else power
  digits.take 1 ++ (if digits.length ≤ 1 then [] else '.' :: digits.drop 1) ++
    'e' :: (if e < 0 then '-' else '+') :: power.toList

/-- The fewest digits that read back, by places from `10 ^ -4` up to below `10 ^ 16` and with an
exponent of at least two digits elsewhere. -/
def writeFloat (x : Float) : List Char :=
  match unwritten? x with
  | some word => word
  | none =>
    if x == 0 then signed x "0.0".toList
    else
      let (digits, point) := (Dyadic.ofFloat x).shortest
      let count := digits.length
      signed x <|
        if -4 < point && point ≤ 16 then
          if point ≤ 0 then '0' :: '.' :: List.replicate (-point).toNat '0' ++ digits
          else if point < count then digits.take point.toNat ++ '.' :: digits.drop point.toNat
          else digits ++ List.replicate (point.toNat - count) '0' ++ ['.', '0']
        else
          withExponent digits (point - 1)

/-- A number rounded to a number of places. -/
def writeFixed (places : Nat) (x : Float) : List Char :=
  (unwritten? x).getD (signed x (fixedSize places (Dyadic.ofFloat x)))

/-- The digits of a finite number that is not negative, one before the point and so many behind it,
and the exponent of the first. -/
def exponentDigits (places : Nat) (x : Dyadic) : List Char × Int :=
  if x.m == 0 then (List.replicate (places + 1) '0', 0)
  else
    let e := x.place - 1
    let (n, d) := x.fraction
    let (up, down) := Dyadic.scale 10 (places - e)
    let digits := (toString (roundDiv (n * up) (d * down))).toList
    if places + 1 < digits.length then (digits.take (places + 1), e + 1) else (digits, e)

/-- A number with an exponent, rounded to so many places behind the point. -/
def writeExponent (places : Nat) (x : Float) : List Char :=
  match unwritten? x with
  | some word => word
  | none =>
    let (digits, e) := exponentDigits places (Dyadic.ofFloat x)
    signed x (withExponent digits e)

/-- A number rounded to so many digits, without zeros at the end, by places where its exponent is
small. -/
def writeGeneral (count : Nat) (x : Float) : List Char :=
  match unwritten? x with
  | some word => word
  | none =>
    let count := max count 1
    let (digits, e) := exponentDigits (count - 1) (Dyadic.ofFloat x)
    let bare := fun (cs : List Char) ↦
      if cs.contains '.' then stripEnd (· == '.') (stripEnd (· == '0') cs) else cs
    if -4 ≤ e && e < count then
      signed x (bare (fixedSize (count - 1 - e).toNat (Dyadic.ofFloat x)))
    else signed x (withExponent (stripEnd (· == '0') (digits.drop 1) |> (digits.take 1 ++ ·)) e)

/-- The number next to a decimal `digits · 10 ^ e`. -/
def floatOf (digits : Nat) (e : Int) : Float := Float.ofScientific digits (e < 0) e.natAbs

/-- The number next to a whole number. -/
def floatOfInt (n : Int) : Float :=
  let size := floatOf n.natAbs 0
  if n < 0 then -size else size

/-- A finite number without what is behind its point. -/
def truncated (x : Float) : Int :=
  let (n, d) := (Dyadic.ofFloat x).fraction
  if isNegative x then -((n / d : Nat) : Int) else (n / d : Nat)

/-- The greatest whole number that is not above a finite number. -/
def floorOf (x : Float) : Int :=
  let (n, d) := (Dyadic.ofFloat x).fraction
  (if isNegative x then -(n : Int) else n).fdiv d

/-- A finite number rounded to places behind the point, or before it if they are negative. -/
def rounded (places : Int) (x : Float) : Float :=
  let (n, d) := (Dyadic.ofFloat x).fraction
  let (up, down) := Dyadic.scale 10 places
  let size := floatOf (roundDiv (n * up) (d * down)) (-places)
  if isNegative x then -size else size

/-- A written number with a point or an exponent, and the names of those without digits. -/
def float? (cs : List Char) : Option Float :=
  let cs := strip cs
  let (negative, size) := match cs with
    | '-' :: rest => (true, rest)
    | '+' :: rest => (false, rest)
    | _ => (false, cs)
  let word := lowerAll size
  let found := if word == "inf".toList || word == "infinity".toList then some (1.0 / 0.0)
    else if word == "nan".toList then some (0.0 / 0.0)
    else
      let (mantissa, hasExponent, exponent) := partitionAt 'e' word
      let (whole, _, fraction) := partitionAt '.' mantissa
      let digits := fun (cs : List Char) ↦ if cs.isEmpty then some [] else digitsOf? cs
      do
        let whole ← digits whole
        let fraction ← digits fraction
        let e ← if hasExponent then
            if exponent.head?.any isBlank || exponent.getLast?.any isBlank then none
            else integer? exponent
          else some 0
        if whole.isEmpty && fraction.isEmpty then none
        else if 400 < e then some (if ofDigits (whole ++ fraction) == 0 then 0.0 else 1.0 / 0.0)
        else if e < -800 - (whole.length + fraction.length : Nat) then some 0.0
        else some (floatOf (ofDigits (whole ++ fraction)) (e - fraction.length))
  found.map fun x ↦ if negative then -x else x

end Guidebook.Text
