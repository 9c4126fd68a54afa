import Guidebook.Path
import Guidebook.Text.Quoted

/-!
# Page names

A page is a document under the pages directory whose name carries the page extension. Its code is
its name without the extension; a code names the page's directory in the export, so the names of
the shared directories are reserved.
-/

namespace Guidebook.Page

/-- The extension of pages unless the guide sets another. -/
def defaultExtension : String := ".md"

/-- The directory of the preview in the export. -/
def previewDir : String := "preview"

/-- The directory of the shared files in the export. -/
def publicDir : String := "public"

/-- Codes no page may have. -/
def reservedCodes : List String := [previewDir, publicDir]

/-- Whether a code is one the export reserves. -/
def isReserved (code : String) : Bool := reservedCodes.contains code

/-- Text for a page whose code is reserved. -/
def reservedMessage (code path : String) : String :=
  "page " ++ path ++ " uses the reserved code " ++ Text.quoted code ++ " (reserved: " ++
    Text.joinStrings ", " reservedCodes ++ ")"

/-- The code of the page at a path. -/
def slug (path extension : String) : String :=
  String.ofList (Text.removeEnding extension.toList (Path.ofString path).name.toList)

/-- Whether a path is a page of a pages directory. -/
def isPagePath (path pagesDir extension : String) : Bool :=
  let name := (Path.ofString path).name
  Path.isUnder path pagesDir && Text.endsWith extension.toList name.toList && name != extension

end Guidebook.Page
