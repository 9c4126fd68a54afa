import Guidebook.Html.Clean
import Guidebook.Markdown.Render

/-!
# Page content

The content of a page is its HTML, cleaned so that it can be embedded in the guide.
-/

namespace Guidebook.Page

/-- The content of a page, with its code in a style. -/
def content (style : String) (text : List Char) :
    Except Code.Problem (List Char) :=
  (Markdown.toHtml style text).map Html.sanitize

end Guidebook.Page
