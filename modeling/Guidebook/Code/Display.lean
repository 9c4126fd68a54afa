import Guidebook.Code.Companion
import Guidebook.Text.Number
import Guidebook.Text.Quoted

/-!
# Displayed code

How a block of code is displayed: its frame, its file name, the numbers and the anchors of its
lines. A display is read off the settings a page gives the block. A setting that cannot be read is
an error; one that is not known is passed over.
-/

namespace Guidebook.Code

/-- What is wrong with the settings of a block of code. -/
inductive Problem where
  /-- There is no such style. -/
  | unknownStyle (style : String)
  /-- A setting says again what the block itself says. -/
  | repeatedSetting (name : String)
  /-- A setting takes the place of the code. -/
  | repeatedCode (name : String)
  /-- A setting is neither on nor off. -/
  | badSwitch (name value : String)
  /-- A setting that is turned on or off was given something else before it was looked at. -/
  | noSwitch (name : String)
  /-- A setting is no number. -/
  | badNumber (name value : String)
  /-- There is no such filter. -/
  | unknownFilter (name : String)
  /-- There is no list of tags to link names with. -/
  | noTags
  /-- Lines cannot be numbered in steps of zero. -/
  | zeroStep
  deriving Repr, DecidableEq

/-- The words for what may turn a setting on or off. -/
def switchWords : String := "; use 1/0, yes/no, true/false, on/off"

/-- The words for a problem. -/
def Problem.message : Problem → String
  | unknownStyle style =>
    "Could not find style module " ++ Text.quoted ("pygments.styles." ++ style) ++ "."
  | repeatedSetting name =>
    "markdown.extensions.codehilite.CodeHilite() got multiple values for keyword argument '" ++
      name ++ "'"
  | repeatedCode name => "CodeHilite.__init__() got multiple values for argument '" ++ name ++ "'"
  | badSwitch name value =>
    "Invalid value " ++ Text.quoted value ++ " for option " ++ name ++ switchWords
  | noSwitch name => "Invalid type None for option " ++ name ++ switchWords
  | badNumber name value =>
    "Invalid value " ++ Text.quoted value ++ " for option " ++ name ++
      "; you must give an integer value"
  | unknownFilter name => "filter " ++ Text.quoted name ++ " not found"
  | noTags =>
    "The \"ctags\" package must to be installed to be able to use the \"tagsfile\" feature."
  | zeroStep => "integer modulo by zero"

/-! Settings -/

/-- Settings by name, the last of a name counting. -/
abbrev Settings := List (String × String)

/-- The value of a setting. -/
def Settings.get? (settings : Settings) (name : String) : Option String :=
  List.lookup name settings.reverse

/-- The text of a setting, empty if it is not given. -/
def Settings.text (settings : Settings) (name : String) : List Char :=
  ((settings.get? name).getD "").toList

/-- Whether a word turns a setting on or off, if it does either. -/
def switch? (word : String) : Option Bool :=
  let word := Text.lower word
  if ["1", "yes", "true", "on"].contains word then some true
  else if ["0", "no", "false", "off"].contains word then some false
  else none

/-- Whether a word is for or against something; single letters do as well. -/
def answer? (word : String) : Option Bool :=
  let word := Text.lower word
  if word == "none" then none
  else if word == "y" then some true
  else if word == "n" then some false
  else switch? word

/-- Whether a setting is on. -/
def Settings.switch (settings : Settings) (name : String) (default : Bool) :
    Except Problem Bool :=
  match settings.get? name with
  | none => .ok default
  | some word =>
    match switch? word with
    | some isOn => .ok isOn
    | none => .error (.badSwitch name word)

/-- A setting that is a number. Its sign does not count. -/
def Settings.number (settings : Settings) (name : String) (default : Nat) :
    Except Problem Nat :=
  match settings.get? name with
  | none => .ok default
  | some word =>
    match Text.integer? word.toList with
    | some n => .ok n.natAbs
    | none => .error (.badNumber name word)

/-! Displays -/

/-- Where lines are numbered. -/
inductive Numbering where
  | none
  | column
  | inline
  deriving Repr, DecidableEq

/-- How a block is displayed. -/
structure Display where
  /-- Only the code is shown. -/
  isBare : Bool
  frameClass : List Char
  frameStyle : List Char
  blockStyle : List Char
  fileName : List Char
  /-- The code is marked as code inside its block. -/
  marksCode : Bool
  numbering : Numbering
  firstNumber : Nat
  numberStep : Nat
  lineEnd : List Char
  /-- The start of the names of the lines' anchors. -/
  anchors : List Char
  /-- The start of the names numbers lead to. -/
  targets : List Char
  /-- Numbers are links. -/
  linksNumbers : Bool

/-- What becomes of code before it is shown. -/
structure Trimming where
  stripsLines : Bool
  stripsBlanks : Bool
  endsLine : Bool

/-- Filters for highlighted code. -/
def filters : List String :=
  ["codetagify", "keywordcase", "highlight", "raiseonerror", "whitespace", "gobble", "tokenmerge",
    "symbols"]

/-- The trimming that settings ask for. -/
def Trimming.ofSettings (settings : Settings) : Except Problem Trimming := do
  let stripsLines ← settings.switch "stripnl" true
  let stripsBlanks ← settings.switch "stripall" false
  let endsLine ← settings.switch "ensurenl" true
  let _ ← settings.number "tabsize" 0
  let names := (Text.splitBy Text.isBlank (settings.text "filters")).filter (!·.isEmpty)
  match names.find? fun name ↦ !filters.contains (String.ofList name) with
  | some name => .error (.unknownFilter (String.ofList name))
  | none => .ok ⟨stripsLines, stripsBlanks, endsLine⟩

/-- Where settings ask for numbers. -/
def Numbering.ofSettings (settings : Settings) : Numbering :=
  match settings.get? "linenos" with
  | some "inline" => inline
  | some "" => none
  | some _ => column
  | Option.none => if (settings.get? "linenums").bind answer? == some true then column else none

/-- The display that settings ask for. -/
def Display.ofSettings (style frameClass : String) (settings : Settings) :
    Except Problem Display := do
  if (style? style).isNone then throw (.unknownStyle style)
  let isBare ← settings.switch "nowrap" false
  if (settings.get? "noclasses").any fun word ↦ (answer? word).isNone then
    throw (.noSwitch "noclasses")
  let _ ← settings.switch "noclobber_cssfile" false
  let marksCode ← settings.switch "wrapcode" true
  let _ ← settings.switch "debug_token_types" false
  if !(settings.text "tagsfile").isEmpty then throw .noTags
  let firstNumber ← settings.number "linenostart" 1
  let numberStep ← settings.number "linenostep" 1
  let _ ← settings.number "linenospecial" 0
  let _ ← settings.switch "nobackground" false
  let linksNumbers ← settings.switch "anchorlinenos" false
  let anchors := settings.text "lineanchors"
  return {
    isBare, marksCode, firstNumber, numberStep, linksNumbers, anchors
    frameClass := ((settings.get? "cssclass").getD frameClass).toList
    frameStyle := settings.text "cssstyles"
    blockStyle := settings.text "prestyles"
    fileName := settings.text "filename"
    numbering := Numbering.ofSettings settings
    lineEnd := ((settings.get? "lineseparator").getD "\n").toList
    targets := if anchors.isEmpty then settings.text "linespans" else anchors }

/-! HTML -/

/-- Code without the line feeds around it. -/
def stripLines (code : List Char) : List Char := Text.stripBy (· == '\n') code

/-- The lines of code as a block shows them. -/
def Trimming.lines (t : Trimming) (code : List Char) : List (List Char) :=
  let code := Text.universalNewlines (dropMark (stripLines code))
  let code := if t.stripsBlanks then Text.strip code
    else if t.stripsLines then stripLines code
    else code
  let code := if t.endsLine then withFinalNewline code else code
  match (Text.splitOnChar '\n' code).reverse with
  | [] :: ls => ls.reverse
  | ls => ls.reverse

/-- Text between tags. -/
def shown (s : String) : List Char := s.toList

/-- An attribute, if it has a value. -/
def attributeText (name : String) (value : List Char) : List Char :=
  if value.isEmpty then [] else shown (" " ++ name ++ "=\"") ++ value ++ ['"']

namespace Display

variable (d : Display)

/-- Lines with their numbers. -/
def numbered {α : Type} (lines : List α) : List (Nat × α) :=
  lines.zipIdx.map fun (line, i) ↦ (d.firstNumber + i, line)

/-- A number among `count` numbered lines, right-aligned; blank where numbers are left out. -/
def numberText (count n : Nat) : List Char :=
  let width := (toString ((count : Int) + d.firstNumber - 1)).length
  let digits := if n % d.numberStep == 0 then shown (toString n) else []
  List.replicate (width - digits.length) ' ' ++ digits

/-- A link to a line around its number. -/
def numberLink (n : Nat) (text : List Char) : List Char :=
  shown "<a href=\"#" ++ d.targets ++ shown ("-" ++ toString n ++ "\">") ++ text ++ shown "</a>"

/-- The anchor of a line. Where lines are numbered it leads nowhere. -/
def anchor (n : Nat) : List Char :=
  let name := d.anchors ++ shown ("-" ++ toString n)
  let link := if d.numbering == .none then attributeText "href" ('#' :: name) else []
  shown "<a id=\"" ++ name ++ shown "\" name=\"" ++ name ++ shown "\"" ++ link ++ shown "></a>"

/-- One line of code. -/
def lineHtml (count : Nat) (numberedLine : Nat × List Char) : List Char :=
  let (n, line) := numberedLine
  let text := line.flatMap escapeHighlighted ++ d.lineEnd
  if d.isBare then text
  else
    let number := if d.numbering == .inline then d.numberText count n else []
    let number := if d.numbering == .inline && d.linksNumbers then d.numberLink n number
      else number
    let anchor := if d.anchors.isEmpty then [] else d.anchor n
    anchor ++ number ++ text

/-- The block of code inside its frame. -/
def blockHtml (lines : List (List Char)) : List Char :=
  let inner := (d.numbered lines).flatMap (d.lineHtml lines.length)
  let inner := if d.marksCode then shown "<code>" ++ inner ++ shown "</code>" else inner
  let name := if d.fileName.isEmpty || d.numbering == .column then []
    else shown "<span class=\"filename\">" ++ d.fileName ++ shown "</span>"
  name ++ shown "<pre" ++ attributeText "style" d.blockStyle ++ shown "><span></span>" ++ inner ++
    shown "</pre>"

/-- The numbers in front of a block, a line each. -/
def numberColumn (count : Nat) : List Char :=
  let numbers := (List.range count).map fun i ↦
    let n := d.firstNumber + i
    let text := d.numberText count n
    if d.linksNumbers && n % d.numberStep == 0 then d.numberLink n text else text
  Text.joinWith ['\n'] numbers

/-- A block with its numbers in a column of their own. -/
def tableHtml (count : Nat) (block : List Char) : List Char :=
  let name := if d.fileName.isEmpty then []
    else shown "<tr><th colspan=\"2\" class=\"filename\"><span class=\"filename\">" ++
      d.fileName ++ shown "</span></th></tr>"
  shown "<table class=\"" ++ d.frameClass ++ shown "table\">" ++ name ++
    shown "<tr><td class=\"linenos\"><div class=\"linenodiv\"><pre>" ++ d.numberColumn count ++
    shown "</pre></div></td><td class=\"code\"><div>" ++ block ++
    shown "</div></td></tr></table>"

/-- Lines of code in this display. -/
def html (lines : List (List Char)) : Except Problem (List Char) :=
  let isNumbered := !d.isBare && d.numbering != .none
  if isNumbered && d.numberStep == 0 && !lines.isEmpty then .error .zeroStep
  else if d.isBare then .ok ((d.numbered lines).flatMap (d.lineHtml lines.length))
  else
    let block := d.blockHtml lines
    let block := if d.numbering == .column then d.tableHtml lines.length block else block
    .ok (shown "<div" ++ attributeText "class" d.frameClass ++
      attributeText "style" d.frameStyle ++ '>' :: block ++ shown "</div>\n")

end Display

/-- Code as settings ask for it: as plain text, or as the HTML of a display. -/
def displayed (style frameClass : String) (settings : Settings) (code : List Char) :
    Except Problem (List Char) := do
  let trimming ← Trimming.ofSettings settings
  let lines := trimming.lines code
  if ["text", "null"].contains ((settings.get? "pygments_formatter").getD "") then
    if (style? style).isNone then throw (.unknownStyle style)
    pure (lines.flatMap (· ++ ['\n']))
  else (← Display.ofSettings style frameClass settings).html lines

end Guidebook.Code
