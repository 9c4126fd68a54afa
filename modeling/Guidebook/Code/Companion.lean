import Guidebook.Text.Chars

/-!
# Companions

The companion of a workspace file shows its text in a page. The text of a language is brought into
the form highlighting needs: line feeds only, no byte order mark, a final line feed. Other text is
shown as it is, with quotes escaped as well. Languages are known by the file extensions whose text
is highlighted.
-/

namespace Guidebook.Code

/-! ## Languages and styles -/

/-- Extensions with a highlighter. -/
def extensions : List String :=
  ["py", "rs", "txt", "json", "c", "html", "css", "toml", "yaml", "md", "sh", "js", "ts"]

/-- The text behind the last place of a character, if it is there. -/
def behindLast? (c : Char) (cs : List Char) : Option (List Char) :=
  if cs.contains c then some (cs.reverse.takeWhile (· != c)).reverse else none

/-- Whether files of an extension are highlighted; the case of letters does not matter. Of an
extension with further dots or with directories the last dot of the last name counts. -/
def isHighlighted (extension : String) : Bool :=
  let file := "file.".toList ++ (Text.lower extension).toList
  match behindLast? '.' ((behindLast? '/' file).getD file) with
  | some last => extensions.contains (String.ofList last)
  | none => false

/-- A style by its background and text colours. -/
structure Style where
  name : String
  background : String
  color : String
  deriving Repr, DecidableEq

/-- The default style. -/
def defaultStyle : Style := ⟨"default", "#f8f8f8", "inherit"⟩

/-- The styles. -/
def styles : List Style :=
  [⟨"monokai", "#272822", "#F8F8F2"⟩, defaultStyle, ⟨"friendly", "#f0f0f0", "inherit"⟩,
    ⟨"emacs", "#f8f8f8", "#008000"⟩, ⟨"vs", "#ffffff", "inherit"⟩]

/-- The style of a name. -/
def style? (name : String) : Option Style := styles.find? (·.name == name)

/-- The class of highlighted blocks. -/
def cssClass : String := "codehilite"

/-- The style sheet of a style, scoped to highlighted blocks; that of the default style if there
is none of the name. -/
def stylesheet (name : String) : String :=
  let style := (style? name).getD defaultStyle
  "." ++ cssClass ++ " \x7b background: " ++ style.background ++ "; color: " ++ style.color ++
    " \x7d"

/-! ## Companions of files -/

/-- One character of highlighted text. -/
def escapeHighlighted (c : Char) : List Char :=
  match c with
  | '&' => "&amp;".toList
  | '<' => "&lt;".toList
  | '>' => "&gt;".toList
  | c => [c]

/-- One character of plain text. -/
def escapePlain (c : Char) : List Char :=
  match c with
  | '"' => "&quot;".toList
  | '\'' => "&#x27;".toList
  | c => escapeHighlighted c

/-- Text without a byte order mark. -/
def dropMark : List Char → List Char
  | '\ufeff' :: rest => rest
  | cs => cs

/-- Text that ends in a line feed. -/
def withFinalNewline (cs : List Char) : List Char :=
  if Text.endsWith ['\n'] cs then cs else cs ++ ['\n']

/-- Text as highlighting takes it. -/
def highlightedSource (cs : List Char) : List Char :=
  withFinalNewline (dropMark (Text.universalNewlines cs))

/-- The text of a file of an extension as HTML. -/
def companionText (text : List Char) (extension : String) : List Char :=
  if isHighlighted extension then (highlightedSource text).flatMap escapeHighlighted
  else text.flatMap escapePlain

/-- The companion of binary files. -/
def binaryPlaceholder : String := "BINARY FILE"

/-- The ending of a companion's name. -/
def companionSuffix : String := ".html"

/-- The number of bytes in which a zero makes a file binary. -/
def sniffedBytes : Nat := 8000

/-- Whether bytes are binary: a zero byte among the first. -/
def isBinary (bytes : List UInt8) : Bool := (bytes.take sniffedBytes).contains 0

end Guidebook.Code
