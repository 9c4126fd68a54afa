import Guidebook.Text.Utf8
import Guidebook.Text.Chars

/-!
# Pieces of markup

The output of the theme is a list of pieces: markup of the theme itself, text of the guide, which is
escaped when it is written, and the HTML of a page, which is clean already.
-/

namespace Guidebook.Theme

/-- A piece of output. -/
inductive Piece where
  | fixed (markup : String)
  | shown (text : List Char)
  | trusted (html : List Char)
  deriving Repr

/-- A character of text in markup. -/
def escapeChar (c : Char) : List Char :=
  match c with
  | '&' => "&amp;".toList
  | '<' => "&lt;".toList
  | '>' => "&gt;".toList
  | '"' => "&#34;".toList
  | '\'' => "&#39;".toList
  | c => [c]

/-- Text in markup. -/
def escape (text : List Char) : List Char := text.flatMap escapeChar

/-- A piece as it is written. -/
def Piece.write : Piece → List Char
  | fixed markup => markup.toList
  | shown text => escape text
  | trusted html => html

/-- Pieces as they are written, one after another. -/
def writePieces (pieces : List Piece) : List Char := pieces.flatMap Piece.write

/-- Bytes that stand for themselves in an address. -/
def isPlainByte (b : UInt8) : Bool :=
  let c := Char.ofNat b.toNat
  b < 0x80 && (Text.isLetter c || Text.isDigit c || ['_', '.', '-', '~', '/'].contains c)

/-- A byte of a path in an address. -/
def encodeByte (b : UInt8) : List Char :=
  if isPlainByte b then [Char.ofNat b.toNat]
  else '%' :: (Text.hexDigits 2 b.toNat).flatMap Text.upperChar

/-- A path in an address. -/
def urlencode (path : List Char) : List Char := (Utf8.encode path).flatMap encodeByte

end Guidebook.Theme
