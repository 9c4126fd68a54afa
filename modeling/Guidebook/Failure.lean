import Guidebook.Code.Display
import Guidebook.Git.Command
import Guidebook.Outline.Builder
import Guidebook.Page
import Guidebook.Path
import Guidebook.Template.Problem
import Guidebook.Text.Utf8
import Guidebook.Toml.Value

/-!
# Failures

Everything that can end a command, by cause, and the text each cause is reported with.
-/

namespace Guidebook

/-- Content that is not what its place asks for. -/
inductive ContentProblem where
  | binaryPage
  | pageNotText
  | workspaceFileNotText
  deriving Repr, DecidableEq

/-- The words for a content problem. -/
def ContentProblem.message : ContentProblem → String
  | binaryPage => "page document is binary"
  | pageNotText => "page document is not valid UTF-8 text"
  | workspaceFileNotText => "workspace file is not valid UTF-8 text"

/-- What is wrong with a page index. -/
inductive IndexProblem where
  /-- The code is registered already. -/
  | duplicate (code : String)
  /-- The file cannot be read. -/
  | unreadable (path : String)
  /-- The file lists no tables. -/
  | notTables (path : String)
  /-- An entry lacks its name or its code. -/
  | badEntry (path : String) (position : Nat)
  /-- The file lists a code twice. -/
  | corrupt (path code : String)
  deriving Repr, DecidableEq

/-- Text for a code that is registered already. -/
def duplicateMessage (code : String) : String :=
  "page code '" ++ code ++ "' is already registered in the index"

/-- The words for an index problem. -/
def IndexProblem.message : IndexProblem → String
  | duplicate code => duplicateMessage code
  | unreadable path => "failed to read page registry " ++ path
  | notTables path => "page registry " ++ path ++ ": 'entries' must be an array of tables"
  | badEntry path position =>
    "page registry " ++ path ++ ": entry " ++ toString position ++
      " must have string 'name' and non-empty 'code'"
  | corrupt path code => "page registry " ++ path ++ " is corrupt: " ++ duplicateMessage code

/-- What is wrong with the settings of a guide. -/
inductive SettingsProblem where
  | notToml
  | noTitle
  | badOption (key : String)
  deriving Repr, DecidableEq

/-- The words for a settings problem in a file. -/
def SettingsProblem.message (path : String) : SettingsProblem → String
  | notToml => "Unable to parse guide config TOML at " ++ path
  | noTitle => "Guide config " ++ path ++ " must define a non-empty 'title'."
  | badOption key => "Guide config " ++ path ++ ": '" ++ key ++ "' must be a non-empty string."

/-- What hinders a file operation. -/
inductive FileProblem where
  | missing
  | occupied
  | notDirectory
  | isDirectory
  deriving Repr, DecidableEq

/-- The words for a file problem, with its number. -/
def FileProblem.message (path : String) (problem : FileProblem) : String :=
  let words := match problem with
    | missing => "[Errno 2] No such file or directory"
    | occupied => "[Errno 17] File exists"
    | notDirectory => "[Errno 20] Not a directory"
    | isDirectory => "[Errno 21] Is a directory"
  words ++ ": " ++ Text.quoted path

/-- Why a page is not rendered. -/
inductive RenderProblem where
  /-- A block of code in the Markdown of a page file cannot be shown. -/
  | codeOfPage (path : String) (problem : Code.Problem)
  /-- A block of code of a previewed page cannot be shown. -/
  | code (problem : Code.Problem)
  /-- A template does not work. -/
  | template (name dir reason : String)
  deriving Repr, DecidableEq

/-- The words for a render problem. -/
def RenderProblem.message : RenderProblem → String
  | codeOfPage path problem =>
    "failed to render markdown of " ++ path ++ ": " ++ problem.message
  | code problem => "failed to render markdown: " ++ problem.message
  | template name dir reason =>
    "failed to render template " ++ Text.quoted name ++ " from " ++ dir ++ ": " ++ reason

/-- Everything that ends a command. -/
inductive Failure where
  /-- No project at or above a directory. -/
  | projectNotFound (start : String)
  /-- A git command gave no answer. -/
  | git (command : Git.Command) (problem : Git.Problem)
  /-- A row of git's answer has too few or too many fields. -/
  | fields (expected found : Nat)
  /-- Content is not what its place asks for. -/
  | content (problem : ContentProblem) (revision : Option String) (path : String)
  /-- A page has a reserved code. -/
  | reservedCode (code path : String)
  /-- A revision adds several pages. -/
  | multiplePages (revision : String) (paths : List String)
  /-- A walk is no outline. -/
  | outline (fault : Outline.Fault)
  /-- A listed path has no component. -/
  | emptyPath
  /-- The page index is wrong. -/
  | index (problem : IndexProblem)
  /-- A page or the landing page is not rendered. -/
  | render (problem : RenderProblem) (slug : Option String)
  /-- An operation of a template is not possible. -/
  | broken (breakage : Template.Breakage) (text : String)
  /-- Nothing to save or preview. -/
  | noUnsavedPage (pagesDir : String)
  /-- Too much to save or preview. -/
  | multipleUnsavedPages (paths : List String)
  /-- The settings are wrong. -/
  | settings (problem : SettingsProblem) (path : String)
  /-- There are no settings. -/
  | settingsMissing (path : String)
  /-- A file operation is not possible. -/
  | file (problem : FileProblem) (path : String)
  /-- A directory to be removed with all below it is a file. -/
  | notTree (path : String)
  /-- A file is not text. -/
  | notText (fault : Utf8.Fault)
  /-- Definitions of a settings file clash. -/
  | toml (fault : Toml.Fault)
  /-- A listed path lies outside the directory it is listed for. -/
  | notBelow (path root : Path)
  /-- There is no such log level. -/
  | unknownLevel (level : String)
  /-- A word of a command has a NUL in it. -/
  | nullByte
  deriving Repr

/-- Text for a content problem at a path, with the revision if there is one. -/
def contentMessage (message : String) (revision : Option String) (path : String) : String :=
  let place := match revision with
    | some revision => if revision == "" then path else path ++ " at " ++ revision
    | none => path
  message ++ " (" ++ place ++ ")"

/-- Text for a revision with several pages. -/
def multiplePagesMessage (revision : String) (paths : List String) : String :=
  "revision " ++ revision ++ " adds multiple new pages (" ++ Text.joinStrings ", " paths ++
    "); pages must be introduced one per commit"

/-- Text for a render problem, with the page if there is one. -/
def renderMessage (message : String) (slug : Option String) : String :=
  match slug with
  | some slug => if slug == "" then message else "page '" ++ slug ++ "': " ++ message
  | none => message

/-- Text for bytes that are not UTF-8. -/
def notTextMessage (fault : Utf8.Fault) : String :=
  let place := match fault.bytes with
    | [b] => "byte 0x" ++ String.ofList (Text.hexDigits 2 b.toNat) ++ " in position " ++
        toString fault.start
    | bytes => "bytes in position " ++ toString fault.start ++ "-" ++
        toString (fault.start + bytes.length - 1)
  "'utf-8' codec can't decode " ++ place ++ ": " ++ fault.reason.message

/-- Text for a row with a wrong number of fields. -/
def fieldsMessage (expected found : Nat) : String :=
  if found < expected then
    "not enough values to unpack (expected " ++ toString expected ++ ", got " ++ toString found ++
      ")"
  else "too many values to unpack (expected " ++ toString expected ++ ")"

/-- Text for a clash in a settings file. -/
def clashMessage : Toml.Fault → String
  | .duplicateKey name => "Key \"" ++ name ++ "\" already exists."
  | .redefined => "Redefinition of an existing table"
  | _ => "malformed"

/-- The text a failure is reported with. -/
def Failure.message : Failure → String
  | projectNotFound start => "failed to find a codasai project at or above " ++ start
  | git command problem => problem.message command
  | fields expected found => fieldsMessage expected found
  | content problem revision path => contentMessage problem.message revision path
  | reservedCode code path => Page.reservedMessage code path
  | multiplePages revision paths => multiplePagesMessage revision paths
  | outline fault => fault.message
  | emptyPath => "tuple index out of range"
  | index problem => problem.message
  | render problem slug => renderMessage problem.message slug
  | broken _ text => text
  | noUnsavedPage pagesDir => "there are no unsaved pages under " ++ pagesDir ++ "/"
  | multipleUnsavedPages paths =>
    "there is more than one unsaved page: " ++ Text.joinStrings ", " paths
  | settings problem path => problem.message path
  | settingsMissing path => "Configuration file '" ++ path ++ "' not found."
  | file problem path => problem.message path
  | notTree path => "[Errno 20] Not a directory: PosixPath(" ++ Text.quoted path ++ ")"
  | notText fault => notTextMessage fault
  | toml fault => clashMessage fault
  | notBelow path root =>
    Text.quoted path.toString ++ " is not in the subpath of " ++
      Text.quoted (if root.parts.isEmpty then "" else root.toString) ++
      " OR one path is relative and the other is absolute."
  | unknownLevel level => "Unknown log level: " ++ Text.quoted level
  | nullByte => "embedded null byte"

/-- The components of a written path below a directory. -/
def Path.namesBelow (path root : String) : Except Failure (List String) :=
  match (Path.ofString path).relativeTo? (Path.ofString root) with
  | some names => .ok names
  | none => .error (.notBelow (Path.ofString path) (Path.ofString root))

/-- A result without effects in a run that may fail. -/
def ofResult {m : Type → Type} [Monad m] [MonadExceptOf Failure m] {α : Type} :
    Except Failure α → m α
  | .ok a => pure a
  | .error failure => throw failure

end Guidebook
