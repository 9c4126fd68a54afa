import Guidebook.Failure
import Guidebook.Git.Repository
import Guidebook.Path

/-!
# Listings of git

Git's answers as text, and how they are read. Rows end in a NUL, so paths may hold any other
character; the log writes a record as id, unit separator, summary, record separator, line feed.
-/

namespace Guidebook.Git

/-- The mode of a submodule. -/
def submoduleMode : String := "160000"

/-- A row of a tree listing. -/
structure TreeRow where
  mode : String
  kind : String
  oid : String
  path : String
  deriving Repr, DecidableEq

/-- A row of a comparison of trees. -/
structure AddedRow where
  oldMode : String
  newMode : String
  oldOid : String
  newOid : String
  path : String
  deriving Repr, DecidableEq

/-- Whether the row is that of a file: a blob that is no submodule. -/
def TreeRow.isFile (row : TreeRow) : Bool := row.kind == "blob" && row.mode != submoduleMode

/-- A row of a tree listing as git writes it. -/
def TreeRow.write (row : TreeRow) : List Char :=
  row.mode.toList ++ ' ' :: row.kind.toList ++ ' ' :: row.oid.toList ++ '\t' :: row.path.toList ++
    ['\x00']

/-- A row of a comparison as git writes it. -/
def AddedRow.write (row : AddedRow) : List Char :=
  ':' :: row.oldMode.toList ++ ' ' :: row.newMode.toList ++ ' ' :: row.oldOid.toList ++
    ' ' :: row.newOid.toList ++ ' ' :: 'A' :: '\x00' :: row.path.toList ++ ['\x00']

/-- Reads the row of a tree listing. -/
def TreeRow.ofRecord (record : List Char) : Except Failure TreeRow :=
  let (meta', _, path) := Text.partitionAt '\t' record
  match Text.splitOnChar ' ' meta' with
  | [mode, kind, oid] =>
    .ok ⟨String.ofList mode, String.ofList kind, String.ofList oid, String.ofList path⟩
  | fields => .error (.fields 3 fields.length)

/-- Reads the rows of a tree listing. -/
def readTreeRows (text : List Char) : Except Failure (List TreeRow) :=
  ((Text.splitOnChar '\x00' text).filter (· != [])).mapM TreeRow.ofRecord

/-- Reads the rows of a comparison from its fields: a description and a path for each row. Fields
that do not start with a colon describe no row. -/
def addedOfFields : List (List Char) → Except Failure (List (AddedFile String))
  | (':' :: meta') :: path :: rest =>
    match Text.splitOnChar ' ' meta' with
    | [_, mode, _, oid, _] => do
      let files ← addedOfFields rest
      if String.ofList mode == submoduleMode then .ok files
      else .ok (⟨String.ofList path, String.ofList oid⟩ :: files)
    | fields => .error (.fields 5 fields.length)
  | _ :: _ :: rest => addedOfFields rest
  | _ => .ok []

/-- Reads the leaves that a comparison of trees adds. -/
def readAdded (text : List Char) : Except Failure (List (AddedFile String)) :=
  addedOfFields (Text.splitOnChar '\x00' text)

/-- The character between the id and the summary of a record. -/
def fieldSeparator : Char := '\x1f'

/-- The character that ends a record. -/
def recordSeparator : Char := '\x1e'

/-- A commit as the log writes it. -/
def Revision.write (r : Revision) : List Char :=
  r.oid.toList ++ fieldSeparator :: r.summary.toList ++ [recordSeparator, '\n']

/-- Reads a record of the log. -/
def Revision.ofRecord (record : List Char) : Revision :=
  let (oid, _, summary) := Text.partitionAt fieldSeparator record
  ⟨String.ofList oid, String.ofList summary⟩

/-- Reads the log. Line feeds around a record and empty records do not count. -/
def readLog (text : List Char) : List Revision :=
  (((Text.splitOnChar recordSeparator text).map (Text.stripBy (· == '\n'))).filter
    (· != [])).map Revision.ofRecord

/-- Inserts a path into an ordered list, unless it is there already. -/
def insertPath (path : String) : List String → List String
  | [] => [path]
  | head :: rest =>
    if path == head then head :: rest
    else if Text.lessThan path.toList head.toList then path :: head :: rest
    else head :: insertPath path rest

/-- The paths of a file listing, each once and in order. -/
def readPaths (text : List Char) : List String :=
  (((Text.splitOnChar '\x00' text).filter (· != [])).map String.ofList).foldr insertPath []

/-- The walk entry of a row below a directory; rows elsewhere and submodules have none. -/
def TreeRow.entry? (dir : String) (row : TreeRow) : Except Failure (Option Outline.WalkEntry) := do
  if !Path.isUnder row.path dir || row.mode == submoduleMode then return none
  let parts ← Path.namesBelow row.path dir
  return some ⟨parts.getLastD "", if row.kind == "tree" then .directory else .file, parts.length,
    Text.joinStrings "/" parts⟩

end Guidebook.Git
