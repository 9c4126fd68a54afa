import Guidebook.Text.Chars

/-!
# Writing settings files

Strings are written between double quotes. Quotes, backslashes and control characters are
escaped, everything else stands as it is.
-/

namespace Guidebook.Toml

/-- One character of a written string. -/
def escapeChar (c : Char) : List Char :=
  if c == '"' then ['\\', '"']
  else if c == '\\' then ['\\', '\\']
  else if c == '\x08' then ['\\', 'b']
  else if c == '\t' then ['\\', 't']
  else if c == '\n' then ['\\', 'n']
  else if c == '\x0c' then ['\\', 'f']
  else if c == '\r' then ['\\', 'r']
  else if c.toNat < 0x20 || c.toNat == 0x7f then ['\\', 'u'] ++ Text.hexDigits 4 c.toNat
  else [c]

/-- A string as it is written. -/
def writeString (s : List Char) : List Char := '"' :: s.flatMap escapeChar ++ ['"']

/-- A line that gives a name a string. -/
def writeEntry (name s : List Char) : List Char := name ++ " = ".toList ++ writeString s ++ ['\n']

end Guidebook.Toml
