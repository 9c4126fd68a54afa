/-!
# UTF-8

Text as bytes. Decoding is one pass that reads a byte at a time and yields characters and faults;
the strict reading stops at the first fault and says where it lies and why, the lenient reading
puts the replacement character in place of each.
-/

namespace Guidebook.Utf8

/-- Why bytes are not a character. -/
inductive Reason where
  | invalidStart
  | invalidContinuation
  | unexpectedEnd
  deriving DecidableEq, Repr

/-- The words for a reason. -/
def Reason.message : Reason → String
  | .invalidStart => "invalid start byte"
  | .invalidContinuation => "invalid continuation byte"
  | .unexpectedEnd => "unexpected end of data"

/-- Bytes that are not a character: where they start, which they are and why. -/
structure Fault where
  start : Nat
  bytes : List UInt8
  reason : Reason
  deriving DecidableEq, Repr

/-- A character whose first bytes were read: how many bytes it still needs, the bounds of the next
one, the bits so far, where it started and its bytes, last first. -/
structure Pending where
  owed : Nat
  low : Nat
  high : Nat
  bits : Nat
  start : Nat
  bytes : List UInt8
  deriving DecidableEq, Repr

/-- One finding of the pass. -/
inductive Item where
  | char (c : Char)
  | fault (f : Fault)
  deriving DecidableEq, Repr

/-- Reads a byte that starts a character. -/
def readLead (pos : Nat) (b : UInt8) : List Item × Option Pending :=
  let n := b.toNat
  if n < 0x80 then ([.char (Char.ofNat n)], none)
  else if n < 0xc2 then ([.fault ⟨pos, [b], .invalidStart⟩], none)
  else if n < 0xe0 then ([], some ⟨1, 0x80, 0xbf, n - 0xc0, pos, [b]⟩)
  else if n < 0xf0 then
    ([], some ⟨2, if n = 0xe0 then 0xa0 else 0x80, if n = 0xed then 0x9f else 0xbf, n - 0xe0,
      pos, [b]⟩)
  else if n < 0xf5 then
    ([], some ⟨3, if n = 0xf0 then 0x90 else 0x80, if n = 0xf4 then 0x8f else 0xbf, n - 0xf0,
      pos, [b]⟩)
  else ([.fault ⟨pos, [b], .invalidStart⟩], none)

/-- Reads one byte. A byte that cannot continue a character ends it as a fault and starts anew. -/
def readByte (pending : Option Pending) (pos : Nat) (b : UInt8) : List Item × Option Pending :=
  match pending with
  | none => readLead pos b
  | some p =>
    if p.low ≤ b.toNat ∧ b.toNat ≤ p.high then
      let bits := p.bits * 64 + (b.toNat - 0x80)
      if p.owed = 1 then ([.char (Char.ofNat bits)], none)
      else ([], some ⟨p.owed - 1, 0x80, 0xbf, bits, p.start, b :: p.bytes⟩)
    else
      let (items, next) := readLead pos b
      (.fault ⟨p.start, p.bytes.reverse, .invalidContinuation⟩ :: items, next)

/-- The findings over bytes that start at a position. -/
def scan (pending : Option Pending) (pos : Nat) : List UInt8 → List Item
  | [] =>
    match pending with
    | none => []
    | some p => [.fault ⟨p.start, p.bytes.reverse, .unexpectedEnd⟩]
  | b :: rest =>
    let (items, next) := readByte pending pos b
    items ++ scan next (pos + 1) rest

/-- The characters of findings without a fault, or the first fault. -/
def collect : List Item → Except Fault (List Char)
  | [] => .ok []
  | .fault f :: _ => .error f
  | .char c :: rest => (collect rest).map (c :: ·)

/-- The text of bytes, or the first fault in them. -/
def decode (bytes : List UInt8) : Except Fault (List Char) := collect (scan none 0 bytes)

/-- The text of bytes, or `none` if they are not UTF-8. -/
def decode? (bytes : List UInt8) : Option String := (decode bytes).toOption.map String.ofList

/-- The text of bytes with a replacement character for each fault. -/
def decodeLenient (bytes : List UInt8) : List Char :=
  (scan none 0 bytes).map fun
    | .char c => c
    | .fault _ => '\ufffd'

/-- The bytes of one character. -/
def encodeChar (c : Char) : List UInt8 :=
  let n := c.toNat
  if n < 0x80 then [UInt8.ofNat n]
  else if n < 0x800 then [UInt8.ofNat (0xc0 + n / 64), UInt8.ofNat (0x80 + n % 64)]
  else if n < 0x10000 then
    [UInt8.ofNat (0xe0 + n / 4096), UInt8.ofNat (0x80 + n / 64 % 64), UInt8.ofNat (0x80 + n % 64)]
  else
    [UInt8.ofNat (0xf0 + n / 262144), UInt8.ofNat (0x80 + n / 4096 % 64),
      UInt8.ofNat (0x80 + n / 64 % 64), UInt8.ofNat (0x80 + n % 64)]

/-- The bytes of a text. -/
def encode (cs : List Char) : List UInt8 := cs.flatMap encodeChar

/-- The bytes of a string. -/
def ofString (s : String) : List UInt8 := encode s.toList

end Guidebook.Utf8
