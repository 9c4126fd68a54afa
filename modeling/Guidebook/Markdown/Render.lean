import Guidebook.Markdown.Inline

/-!
# Pages as HTML

A page is read in the full dialect and written as HTML. Code is set in the style of the guide, so a
page with code needs a style that is known.
-/

namespace Guidebook.Markdown

mutual

/-- An element with the indented code in it set in a style. -/
def setCode (style : String) : Element → Except Code.Problem Element
  | .mk tag attributes text sealed children tail => do
    match tag, children with
    | "pre", [.mk "code" _ code _ _ _] =>
      let html ← styledCode style .plain (dropLanguageLine (code.filterMap Glyph.char?))
      pure (Element.leaf "p" [.raw html])
    | _, _ => pure (.mk tag attributes text sealed (← setAllCode style children) tail)

/-- Elements with the indented code in them set in a style. -/
def setAllCode (style : String) : List Element → Except Code.Problem (List Element)
  | [] => pure []
  | e :: rest => do
    let e ← setCode style e
    let rest ← setAllCode style rest
    pure (e :: rest)

end

/-- A page as HTML, with its fences in their one form. -/
def toHtml (style : String) (text : List Char) : Except Code.Problem (List Char) := do
  let text := normalizeFences text
  if !Text.hasInk text then pure []
  else
    let lines := sourceLines text
    let (page, references) := Block.readPage .full (← setFencesAside style lines.length lines)
    pure (pageHtml (Inline.readPage .full references (← setCode style page)))

end Guidebook.Markdown
