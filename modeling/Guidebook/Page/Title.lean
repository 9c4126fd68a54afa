import Guidebook.Html.Reference
import Guidebook.Markdown.Inline
import Guidebook.Markdown.RawHtml

/-!
# Page titles

The title of a page is the text of its first heading that has any, as a reader sees it.
-/

namespace Guidebook.Page

open Markdown

/-- The title of a page without headings. -/
def untitled : List Char := "Untitled".toList

/-- Text with finished HTML and entities as they are written. -/
def writtenWords (text : Run) : List Char :=
  text.flatMap fun g ↦
    match g with
    | .char c => [c]
    | .kept c => [c]
    | .held cs => cs
    | .amp => "\x02amp\x03".toList
    | .raw html => html
    | .node _ => []

/-- The text of a heading as a reader sees it. -/
def headingText (heading : Element) : List Char :=
  let words := writtenWords heading.words
  Text.strip (Html.plainText words.length words)

mutual

/-- The text of the first heading with any in an element. -/
def headingIn? : Element → Option (List Char)
  | .mk tag attributes text sealed children tail =>
    let own :=
      if isHeading tag then headingText (.mk tag attributes text sealed children tail) else []
    if own.isEmpty then headingAmong? children else some own

/-- The text of the first heading with any among elements. -/
def headingAmong? : List Element → Option (List Char)
  | [] => none
  | e :: rest => (headingIn? e).or (headingAmong? rest)

end

/-- The title of a page. -/
def title (text : List Char) : List Char :=
  if !Text.hasInk text then untitled
  else
    let lines := RawHtml.setAside (Text.joinWith ['\n'] (sourceLines text))
    let (page, references) := Block.readPage .plain lines
    (headingIn? (Inline.readPage .plain references page)).getD untitled

end Guidebook.Page
