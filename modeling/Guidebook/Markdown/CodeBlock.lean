import Guidebook.Code.Display

/-!
# Code blocks

The HTML of a block of code in a page. A fenced block may ask for a display of its own. An indented
block may name its language in a first line of its own.
-/

namespace Guidebook.Markdown

/-- What the line that opens a fenced block says of it. -/
structure FenceInfo where
  id : List Char
  /-- The language, if any class is given. -/
  language : Option (List Char)
  /-- The further classes. -/
  classes : List (List Char)
  settings : Code.Settings
  deriving Repr, DecidableEq

/-- A line that says nothing. -/
def FenceInfo.plain : FenceInfo := ⟨[], none, [], []⟩

/-- Settings that say what the block itself says. -/
def ownSettings : List String := ["lang", "style"]

/-- Settings that would take the place of the code. -/
def codeSettings : List String := ["self", "src"]

/-- The HTML of code in a style. -/
def styledCode (style : String) (info : FenceInfo) (code : List Char) :
    Except Code.Problem (List Char) :=
  let names := info.settings.map (·.1)
  match names.find? ownSettings.contains, names.find? codeSettings.contains with
  | some name, _ => .error (.repeatedSetting name)
  | none, some name => .error (.repeatedCode name)
  | none, none =>
    let style := (info.settings.get? "pygments_style").getD style
    let frame := (info.settings.get? "css_class").getD Code.cssClass
    let frame := Text.joinWith [' '] (info.classes ++ [frame.toList])
    Code.displayed style (String.ofList frame) info.settings code

/-- One character of code without highlighting. -/
def escapeBare (c : Char) : List Char :=
  if c == '"' then "&quot;".toList else Code.escapeHighlighted c

/-- The HTML of code that is not highlighted. -/
def bareCode (info : FenceInfo) (code : List Char) : List Char :=
  let shown := fun (name : String) (value : List Char) ↦
    Code.attributeText name (value.flatMap escapeBare)
  let language := match info.language with
    | none | some [] => []
    | some language => "language-".toList ++ language
  let classes := if info.classes.isEmpty then []
    else " class=\"".toList ++ (Text.joinWith [' '] info.classes).flatMap escapeBare ++ ['"']
  "<pre".toList ++ shown "id" info.id ++ classes ++ "><code".toList ++
    shown "class" language ++ '>' :: code.flatMap escapeBare ++ "</code></pre>".toList

/-- Whether a fenced block is highlighted. -/
def FenceInfo.isHighlighted (info : FenceInfo) : Bool :=
  match info.settings.get? "use_pygments" with
  | none => true
  | some word => Code.answer? word == some true

/-- The HTML of a fenced block. -/
def fencedCode (style : String) (info : FenceInfo) (code : List Char) :
    Except Code.Problem (List Char) :=
  if info.isHighlighted then styledCode style info code else .ok (bareCode info code)

/-- What follows the mark of a line that names a language. -/
def afterLanguageMark? (line : List Char) : Option (List Char) :=
  match line with
  | '#' :: '!' :: rest => some rest
  | ':' :: ':' :: rest => some (rest.dropWhile (· == ':'))
  | _ => none

/-- Code without the first line that names its language. A line that names a program's path is
code itself. -/
def dropLanguageLine (code : List Char) : List Char :=
  let code := Code.stripLines code
  match afterLanguageMark? (code.takeWhile (· != '\n')) with
  | none | some (' ' :: _) | some ('/' :: _) => code
  | some _ => Code.stripLines (code.dropWhile (· != '\n'))

end Guidebook.Markdown
