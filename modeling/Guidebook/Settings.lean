import Guidebook.Failure
import Guidebook.Project.Layout
import Guidebook.Toml.Reader
import Guidebook.Toml.Writer

/-!
# Settings of a guide

Only the title has to be set. All settings are strings that are not blank; they are kept without
surrounding white space and brought into their normal form: the base address ends in a slash, the
page extension starts with a dot and the two directories have no slash at either end.
-/

namespace Guidebook

/-- The settings of a guide. -/
structure Settings where
  title : String
  baseUrl : String
  style : String
  pagesDir : String
  workspaceDir : String
  extension : String
  deriving Repr, DecidableEq

namespace Settings

/-- The settings of a guide that sets only its title. -/
def ofTitle (title : String) : Settings :=
  ⟨title, "/", "monokai", Layout.defaultPagesDir, Layout.defaultWorkspaceDir, Page.defaultExtension⟩

/-- Text without surrounding white space. -/
def stripped (s : String) : String := String.ofList (Text.strip s.toList)

/-- Text without surrounding slashes. -/
def withoutSlashes (s : String) : String := String.ofList (Text.stripBy (· == '/') s.toList)

/-- Text that ends in a slash. -/
def withFinalSlash (s : String) : String :=
  if Text.endsWith ['/'] s.toList then s else s ++ "/"

/-- Text that starts with a dot. -/
def withDot (s : String) : String := if Text.startsWith ['.'] s.toList then s else "." ++ s

/-- The setting of a key, or its default. -/
def option (table : Toml.Value) (key fallback : String) : Except SettingsProblem String :=
  match (table.get? key).getD (.text fallback) with
  | .text s => if Text.hasInk s.toList then .ok (stripped s) else .error (.badOption key)
  | _ => .error (.badOption key)

/-- The settings that a table holds. -/
def ofTable (table : Toml.Value) : Except SettingsProblem Settings := do
  let title ← match table.get? "title" with
    | some (.text s) => if Text.hasInk s.toList then .ok s else .error .noTitle
    | _ => .error .noTitle
  let defaults := ofTitle title
  let baseUrl ← option table "base_url" defaults.baseUrl
  let extension ← option table "page_extension" defaults.extension
  let style ← option table "pygments_style" defaults.style
  let pagesDir ← option table "pages_dir" defaults.pagesDir
  let workspaceDir ← option table "workspace_dir" defaults.workspaceDir
  .ok ⟨stripped title, withFinalSlash baseUrl, style, withoutSlashes pagesDir,
    withoutSlashes workspaceDir, withDot extension⟩

/-- The settings that a file's bytes hold. -/
def ofBytes (path : String) (bytes : List UInt8) : Except Failure Settings :=
  match Utf8.decode bytes with
  | .error fault => .error (.notText fault)
  | .ok text =>
    match Toml.read (Text.universalNewlines text) with
    | .ok table => (ofTable table).mapError (.settings · path)
    | .error (.duplicateKey name) => .error (.toml (.duplicateKey name))
    | .error .redefined => .error (.toml .redefined)
    | .error _ => .error (.settings .notToml path)

/-- A fresh settings file that sets the title. -/
def writeTitle (title : String) : List Char := Toml.writeEntry "title".toList title.toList

end Settings

end Guidebook
