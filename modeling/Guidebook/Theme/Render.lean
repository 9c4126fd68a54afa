import Guidebook.Failure
import Guidebook.Files
import Guidebook.Template.Evaluate
import Guidebook.Theme.Packaged

/-!
# Rendering with a theme

A guide is rendered with the packaged theme, or with a theme of its own whose templates lie in a
directory of files.
-/

namespace Guidebook

/-- A theme: the packaged one, or that in a directory. -/
inductive Theme where
  | packaged
  | own (dir : Path)
  deriving Repr, DecidableEq

namespace Theme

/-- The template of pages. -/
def pageTemplate : String := "page.jinja"

/-- The template of the landing page. -/
def guideTemplate : String := "guide.jinja"

/-- How messages call the place of the packaged theme. -/
def packagedPlace : String := "<theme>"

/-- How messages call the place of a theme's templates. -/
def templatesPlace : Theme → String
  | packaged => packagedPlace ++ "/templates"
  | own dir => (dir.join (Path.ofNames ["templates"])).toString

/-- The components of the name of a template, unless it leads upwards. -/
def nameParts (name : String) : Option (List String) :=
  let pieces := (Text.splitOnChar '/' name.toList).map String.ofList
  if pieces.contains ".." then none else some (pieces.filter fun p ↦ p != "" && p != ".")

/-- The complaint about a template that does not exist. -/
def missingComplaint (theme : Theme) (name : String) : String :=
  Text.quoted name ++ " not found in search path: " ++ Text.quoted theme.templatesPlace

/-- The text of a template of a theme in a directory. -/
def load (tree : FileTree) (dir : Path) : Template.Loader := fun name ↦
  match nameParts name with
  | none => .error (.complaint name)
  | some parts =>
    match tree.read (dir.join (Path.ofNames ("templates" :: parts))) with
    | .error _ => .error (.complaint (missingComplaint (own dir) name))
    | .ok bytes => (Utf8.decode bytes).mapError .notText

/-- The names that templates know. -/
def contextNames (guide : GuideContext) (page : Option PageContext) :
    List (String × Template.Value) :=
  ("guide", .ofGuide guide) ::
    match page with
    | some page => [("page", .ofPage page)]
    | none => []

/-- What a template of the packaged theme prints. -/
def renderPackaged (name : String) (guide : GuideContext) (page : Option PageContext) :
    Except Template.Problem (List Char) :=
  match nameParts name, page with
  | none, _ => .error (.complaint name)
  | some [file], some page =>
    if file == pageTemplate then .ok (writePieces (pagePieces guide page))
    else if file == guideTemplate then .ok (writePieces (landingPieces guide))
    else .error (.complaint (missingComplaint packaged name))
  | some [file], none =>
    if file == pageTemplate then .error (.complaint "'page' is undefined")
    else if file == guideTemplate then .ok (writePieces (landingPieces guide))
    else .error (.complaint (missingComplaint packaged name))
  | some _, _ => .error (.complaint (missingComplaint packaged name))

/-- What a template of a theme prints; `slug` is the page that a complaint names. -/
def render (tree : FileTree) (theme : Theme) (name : String) (guide : GuideContext)
    (page : Option PageContext) (slug : Option String) : Except Failure (List Char) :=
  let result := match theme with
    | packaged => renderPackaged name guide page
    | own dir => Template.render (load tree dir) name (contextNames guide page)
  match result with
  | .ok html => .ok html
  | .error (.complaint reason) =>
    .error (.render (.template name theme.templatesPlace reason) slug)
  | .error (.broken breakage text) => .error (.broken breakage text)
  | .error (.notText fault) => .error (.notText fault)

end Theme

end Guidebook
