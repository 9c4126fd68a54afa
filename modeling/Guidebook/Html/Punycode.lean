/-!
# Punycode

A part of a host name whose characters are not all of ASCII is written in ASCII: first its
characters that are, then, behind a hyphen, a row of numbers that say which other characters stand
between them and where. A number is written in digits of base 36, the lowest first; a digit below a
threshold ends it, and the thresholds follow the size of the numbers before.
-/

namespace Guidebook.Html.Punycode

/-- The value of a digit: letters come before the digits of ASCII. -/
def digit? (c : Char) : Option Nat :=
  if 'a' ≤ c && c ≤ 'z' then some (c.toNat - 0x61)
  else if '0' ≤ c && c ≤ '9' then some (c.toNat - 0x30 + 26)
  else none

/-- The least digit at a place that does not end its number. -/
def threshold (bias place : Nat) : Nat := max 1 (min 26 (36 * (place + 1) - bias))

/-- Reads a number from a place on: its value, where a one at that place counts `weight`, and the
digits behind it. -/
def readNumber? (bias : Nat) : Nat → Nat → List Char → Option (Nat × List Char)
  | _, _, [] => none
  | place, weight, c :: rest => do
    let d ← digit? c
    let t := threshold bias place
    if d < t then some (d * weight, rest)
    else
      let (higher, rest) ← readNumber? bias (place + 1) (weight * (36 - t)) rest
      some (d * weight + higher, rest)

/-- Divides a number by 35 until it is at most 455: 36 for every division, and what is left. Each
division makes it smaller, so a number of `steps` divisions at most needs no more. -/
def scaled : Nat → Nat → Nat × Nat
  | 0, n => (0, n)
  | steps + 1, n =>
    if 455 < n then
      let (k, rest) := scaled steps (n / 35)
      (k + 36, rest)
    else (0, n)

/-- How far the thresholds lie behind a number that placed one of `count` characters. -/
def nextBias (n count : Nat) (isFirst : Bool) : Nat :=
  let n := n / (if isFirst then 700 else 2)
  let n := n + n / count
  let (k, rest) := scaled n n
  k + 36 * rest / (rest + 38)

/-- Puts the characters that numbers stand for into a text: `code` is the least code point of the
next one and `pos` the place in the text from which numbers count. Each number takes at least one
digit, so `fuel` is the count of digits. -/
def insertAll? : Nat → Nat → Nat → Nat → List Char → List Char → Option (List Char)
  | _, _, _, _, text, [] => some text
  | 0, _, _, _, _, _ => none
  | fuel + 1, bias, code, pos, text, digits => do
    let (n, rest) ← readNumber? bias 0 1 digits
    let count := text.length + 1
    let code := code + (pos + n) / count
    let place := (pos + n) % count
    if code.isValidChar then
      let text := text.take place ++ Char.ofNat code :: text.drop place
      insertAll? fuel (nextBias n count (pos == 0)) code (place + 1) text rest
    else none

/-- The text that a part of a host name stands for. -/
def decode? (cs : List Char) : Option (List Char) :=
  let tail := (cs.reverse.takeWhile (· != '-')).reverse
  let plain := cs.take (cs.length - tail.length - 1)
  if plain.all (·.toNat < 0x80) then
    insertAll? cs.length 72 0x80 0 plain (if plain.isEmpty then cs else tail)
  else none

end Guidebook.Html.Punycode
