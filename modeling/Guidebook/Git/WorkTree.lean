import Guidebook.Files
import Guidebook.Git.Ignore
import Guidebook.Git.Listing
import Guidebook.Git.Pathspec
import Guidebook.Git.Store

/-!
# Work trees

The files beside a repository, seen from a directory in it. Files of repositories further down do
not belong to it. Staging a path takes what lies there now: new and changed files that are not
ignored, and the absence of tracked ones.
-/

namespace Guidebook.Git

/-- The files beside a repository: by their components from the repository's directory, the
components of the directory that commands are run in, and the repository itself. -/
structure WorkTree where
  files : List (List String × List UInt8)
  place : List String
  store : Store
  deriving Repr

namespace WorkTree

/-- A path of git of given components. -/
def gitPath (names : List String) : String := Text.joinStrings "/" names

/-- The ignore files. -/
def ignoreFiles (w : WorkTree) : IgnoreFiles :=
  w.files.filterMap fun (names, bytes) ↦
    if names.getLast? == some ".gitignore" then
      some (names.dropLast, readIgnore (Utf8.decodeLenient bytes))
    else none

/-- Whether a file is staged or recorded already. -/
def isTracked (w : WorkTree) (names : List String) : Bool :=
  w.store.staged.any (·.path == gitPath names)

/-- The files that are neither tracked nor ignored, at or below a place. -/
def others (w : WorkTree) (place : List String) : List (List String) :=
  let rules := w.ignoreFiles
  (w.files.map (·.1)).filter fun names ↦
    Path.hasPrefix place names && !w.isTracked names && !ignores rules names

/-- The tracked files at or below a place. -/
def tracked (w : WorkTree) (place : List String) : List (List String) :=
  (w.store.staged.map (Snapshot.components ·.path)).filter (Path.hasPrefix place)

/-- Components seen from a place: up to where the two part, and down from there. -/
def seenFrom : List String → List String → List String
  | dir :: place, name :: names =>
    if dir == name then seenFrom place names
    else (dir :: place).map (fun _ ↦ "..") ++ name :: names
  | place, names => place.map (fun _ ↦ "..") ++ names

/-- A place in the repository as commands show it: seen from the directory they are run in. -/
def shown (w : WorkTree) (names : List String) : String := gitPath (seenFrom w.place names)

/-- Paths in order, each once. -/
def listing (w : WorkTree) (places : List (List String)) : List String :=
  (places.map w.shown).foldr insertPath []

/-- The untracked files below a path. -/
def untracked (w : WorkTree) (path : String) : Except String (List String) :=
  (pathspec w.place path).map fun place ↦ w.listing (w.others place)

/-- The tracked and untracked files below a path. -/
def listed (w : WorkTree) (path : String) : Except String (List String) :=
  (pathspec w.place path).map fun place ↦ w.listing (w.tracked place ++ w.others place)

/-- The places that paths mean. -/
def places (w : WorkTree) (paths : List String) : Except String (List (List String)) :=
  paths.mapM (pathspec w.place)

/-- Whether a path lies at or below one of some places. -/
def covers (places : List (List String)) (path : String) : Bool :=
  places.any fun place ↦ Path.hasPrefix place (Snapshot.components path)

/-- Whether there is anything at or below a place. -/
def hasAny (w : WorkTree) (place : List String) : Bool :=
  place.isEmpty || (w.files.map (·.1)).any (Path.hasPrefix place) || !(w.tracked place).isEmpty

/-- The leaf that a file is staged as. An executable or linked file stays one. -/
def leafOf (w : WorkTree) (names : List String) (bytes : List UInt8) : Leaf :=
  let mode := match w.store.staged.leaf? (gitPath names) with
    | some ⟨_, .executable, _⟩ => .executable
    | _ => .regular
  ⟨gitPath names, mode, bytes⟩

/-- The staging area with what lies at or below places as it lies there. -/
def stage (w : WorkTree) (places : List (List String)) : Snapshot :=
  let rules := w.ignoreFiles
  let kept := w.store.staged.filter fun leaf ↦ !covers places leaf.path || leaf.isSubmodule
  let taken := w.files.filter fun (names, _) ↦
    covers places (gitPath names) && (w.isTracked names || !ignores rules names)
  taken.foldl (fun s (names, bytes) ↦ s.put (w.leafOf names bytes)) kept

/-- The front of a place that is ignored where it lies, as a directory or as a file that is not
tracked. -/
def ignoredFront? (w : WorkTree) (place : List String) : Option (List String) :=
  let rules := w.ignoreFiles
  let names := w.files.map (·.1)
  ((List.range place.length).map fun level ↦ place.take (level + 1)).find? fun front ↦
    if names.any fun file ↦ front.length < file.length && Path.hasPrefix front file then
      ignoresPlace rules front true
    else names.contains front && !w.isTracked front && ignoresPlace rules front false

/-- What git says of ignored paths that are to be staged by name. -/
def ignoredComplaint (paths : List String) : String :=
  "The following paths are ignored by one of your .gitignore files:\n" ++
    Text.joinStrings "\n" paths ++ "\nhint: Use -f if you really want to add them.\n" ++
    "hint: Turn this message off by running\n" ++
    "hint: \"git config advice.addIgnoredFile false\""

/-- The repository with paths staged, and what git complains of all the same: a path that means
nothing keeps anything from being staged, an ignored one is left out. -/
def add (w : WorkTree) (paths : List String) : Except String (Store × Option String) := do
  let places ← w.places paths
  match (paths.zip places).find? fun (_, place) ↦ !w.hasAny place with
  | some (path, _) => .error ("fatal: pathspec '" ++ path ++ "' did not match any files")
  | none =>
    let ignored := ((places.filterMap w.ignoredFront?).map gitPath).foldr insertPath []
    .ok ({ w.store with staged := w.stage places },
      if ignored.isEmpty then none else some (ignoredComplaint ignored))

/-- The repository with paths taken out of the staging area. -/
def reset (w : WorkTree) (paths : List String) : Except String Store := do
  let places ← w.places paths
  .ok (w.store.unstage (covers places))

/-- What git says when it does not know who commits. -/
def identityComplaint : String := "Author identity unknown\n\n*** Please tell me who you are."

/-- The repository with the staging area recorded. There has to be an author, something to say and
something to record. -/
def commit (w : WorkTree) (message name email : String) : Except String Store :=
  if !w.store.hasIdentity then .error identityComplaint
  else if w.store.staged == w.store.head then .error ""
  else if Store.cleanMessage message == "" then
    .error "Aborting commit due to empty commit message."
  else .ok (w.store.record (Store.cleanMessage message) (name ++ " <" ++ email ++ ">"))

end WorkTree

end Guidebook.Git
