import Guidebook.Path

/-!
# Paths in commands

A path given to a command is read from the directory the command is run in. It may not be empty and
may not lead out of the repository. A listing of a tree reads its path from the top. There a colon
at the front is not part of the path: it starts the magic of git's path patterns, in a short form of
single characters or in a long form of words in parentheses. All that a listing knows of it is that
the path is read from the top and without wild cards, which it is anyway.
-/

namespace Guidebook.Git

/-- What git says of an empty path. -/
def emptyComplaint : String :=
  "fatal: empty string is not a valid pathspec. " ++
    "please use . instead if you meant to match all paths"

/-- What git says of a path that leads out of the repository. -/
def outsideComplaint (path : String) : String :=
  "fatal: " ++ path ++ ": '" ++ path ++ "' is outside repository"

/-- What git says where there is no repository. -/
def noRepository : String :=
  "fatal: not a git repository (or any of the parent directories): .git"

/-- Components followed from a place in the repository; `none` if they lead out of it. -/
def followNames (place : List String) : List String → Option (List String)
  | [] => some place
  | name :: rest =>
    if name == ".." then if place.isEmpty then none else followNames place.dropLast rest
    else followNames (place ++ [name]) rest

/-- The place in the repository that a written path means, or what git says of the path. -/
def pathspec (place : List String) (path : String) : Except String (List String) :=
  if path == "" then .error emptyComplaint
  else
    let read := Path.ofString path
    if read.anchor != "" then .error (outsideComplaint path)
    else match followNames place read.names with
      | some names => .ok names
      | none => .error (outsideComplaint path)

/-- What git says of magic that a listing of a tree does not know. -/
def unsupportedComplaint (path magic : String) : String :=
  "fatal: " ++ path ++ ": pathspec magic not supported by this command: '" ++ magic ++ "'"

/-- What git says of magic that there is not. -/
def invalidComplaint (path magic : String) : String :=
  "fatal: Invalid pathspec magic '" ++ magic ++ "' in '" ++ path ++ "'"

/-- Characters that the short form keeps for meanings it may have one day. -/
def reservedMagic : List Char := "\"#%&',-;<=>@_`~".toList

/-- The rest of a path behind magic in the short form. A colon ends it. -/
def shortMagic (path : String) : List Char → Except String (List Char)
  | [] => .ok []
  | c :: rest =>
    if c == ':' then .ok rest
    else if c == '/' then shortMagic path rest
    else if c == '!' || c == '^' then .error (unsupportedComplaint path "exclude")
    else if reservedMagic.contains c then
      .error ("fatal: Unimplemented pathspec magic '" ++ String.ofList [c] ++ "' in '" ++ path ++ "'")
    else .ok (c :: rest)

/-- The words of the long form that a listing of a tree allows. -/
def allowedMagic : List String := ["", "top", "literal"]

/-- The words of the long form that have a meaning elsewhere. -/
def foreignMagic : List String := ["glob", "icase", "exclude"]

/-- What git says of a word of the long form, if a listing does not allow it. -/
def magicComplaint? (path word : String) : Option String :=
  if allowedMagic.contains word then none
  else if foreignMagic.contains word then some (unsupportedComplaint path word)
  else some (invalidComplaint path word)

/-- The rest of a path behind magic in the long form, which starts behind the parenthesis. -/
def longMagic (path : String) (cs : List Char) : Except String (List Char) :=
  let (inner, rest) := cs.span (· != ')')
  let words := (Text.splitOnChar ',' inner).map String.ofList
  match words.findSome? (magicComplaint? path), rest with
  | some complaint, _ => .error complaint
  | none, [] => .error ("fatal: Missing ')' at the end of pathspec magic in '" ++ path ++ "'")
  | none, _ :: rest => .ok rest

/-- The place in a tree that the rest of a path behind magic means. An empty rest
means everything. -/
def placeBehind (cs : List Char) : Except String (List String) :=
  if cs.isEmpty then .ok [] else pathspec [] (String.ofList cs)

/-- The place in a tree that the path of a listing means, or what git says of the path. -/
def treePathspec (path : String) : Except String (List String) :=
  match path.toList with
  | ':' :: '(' :: cs => (longMagic path cs).bind placeBehind
  | ':' :: cs => (shortMagic path cs).bind placeBehind
  | _ => pathspec [] path

end Guidebook.Git
