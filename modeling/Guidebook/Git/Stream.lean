import Guidebook.Git.Store

/-!
# History streams

A linear history as one stream of bytes, in the form in which git exchanges histories. Every commit
lists its whole tree after a `deleteall`, so that it can be read by itself; streams written by git
list only what a commit changes and keep the contents apart, under marks.
-/

namespace Guidebook.Git.Stream

/-- The line feed. -/
def newline : UInt8 := 10

/-- A line of text in a stream. -/
def line (text : String) : List UInt8 := Utf8.ofString text ++ [newline]

/-- A counted piece of a stream. -/
def counted (bytes : List UInt8) : List UInt8 :=
  line ("data " ++ toString bytes.length) ++ bytes ++ [newline]

/-- A path in a stream. -/
def quotePath (path : String) : String :=
  "\"" ++ String.ofList (path.toList.flatMap fun c ↦
    if c == '"' || c == '\\' then ['\\', c] else if c == '\n' then ['\\', 'n'] else [c]) ++ "\""

/-- The number of a mode. -/
def modeNumber : Mode → String
  | .regular => "100644"
  | .executable => "100755"
  | .symlink => "120000"
  | .submodule => "160000"

/-- A leaf in a stream. -/
def writeLeaf (leaf : Leaf) : List UInt8 :=
  line ("M " ++ modeNumber leaf.mode ++ " inline " ++ quotePath leaf.path) ++ counted leaf.bytes

/-- A commit in a stream. Submodules have no content to be kept and are left out. -/
def writeCommit (commit : Commit) : List UInt8 :=
  line "commit refs/heads/main" ++ line ("committer " ++ commit.committer ++ " 0 +0000") ++
    counted (Utf8.ofString commit.message) ++ line "deleteall" ++
    (commit.snapshot.filter (!·.isSubmodule)).flatMap writeLeaf ++ [newline]

/-- The stream of a repository's commits. -/
def write (store : Store) : List UInt8 := store.commits.flatMap writeCommit

/-- The first line of a stream and what follows it. -/
def splitLine (bytes : List UInt8) : List Char × List UInt8 :=
  let (front, rest) := bytes.span (· != newline)
  (Utf8.decodeLenient front, rest.drop 1)

/-- Reads a counted piece whose header is a line. -/
def readCounted (header : List Char) (rest : List UInt8) : Option (List UInt8 × List UInt8) := do
  let count ← (String.ofList (← Text.dropPrefix? "data ".toList header)).toNat?
  let after := rest.drop count
  return (rest.take count, if after.head? == some newline then after.drop 1 else after)

/-- The text inside quotes with its escapes carried out; bytes may be given by octal digits. -/
def unquote : List Char → List UInt8
  | '\\' :: a :: b :: c :: rest =>
    if Text.isDigit a && Text.isDigit b && Text.isDigit c then
      UInt8.ofNat ((a.toNat - 48) * 64 + (b.toNat - 48) * 8 + (c.toNat - 48)) :: unquote rest
    else (if a == 'n' then [newline] else if a == 't' then [9] else Utf8.encodeChar a) ++
      unquote (b :: c :: rest)
  | '\\' :: a :: rest => (if a == 'n' then [newline] else Utf8.encodeChar a) ++ unquote rest
  | '"' :: _ => []
  | c :: rest => Utf8.encodeChar c ++ unquote rest
  | [] => []

/-- Reads a path. -/
def readPath : List Char → String
  | '"' :: rest => String.ofList (Utf8.decodeLenient (unquote rest))
  | cs => String.ofList cs

/-- The mode of a number. -/
def readMode (number : String) : Mode :=
  match number with
  | "100755" | "755" => .executable
  | "120000" => .symlink
  | "160000" => .submodule
  | _ => .regular

/-- What is known while a stream is read: contents by their marks, and the repository so far. -/
structure Progress where
  marks : List (String × List UInt8)
  store : Store

/-- Reads the file changes of a commit, up to the first line that is none. -/
def readChanges (marks : List (String × List UInt8)) :
    Nat → Snapshot → List UInt8 → Option (Snapshot × List UInt8)
  | 0, _, _ => none
  | fuel + 1, s, bytes =>
    let (header, rest) := splitLine bytes
    match Text.splitOnChar ' ' header with
    | [['d', 'e', 'l', 'e', 't', 'e', 'a', 'l', 'l']] => readChanges marks fuel [] rest
    | ['D'] :: path =>
      readChanges marks fuel (Snapshot.remove s (readPath (Text.joinWith [' '] path))) rest
    | ['M'] :: mode :: source :: path => do
      let mode := readMode (String.ofList mode)
      let path := readPath (Text.joinWith [' '] path)
      if String.ofList source == "inline" then
        let (counting, rest) := splitLine rest
        let (content, rest) ← readCounted counting rest
        readChanges marks fuel (Snapshot.put s ⟨path, mode, content⟩) rest
      else
        let content := (marks.lookup (String.ofList source)).getD []
        readChanges marks fuel (Snapshot.put s ⟨path, mode, content⟩) rest
    | (['f', 'r', 'o', 'm'] :: _) => readChanges marks fuel s rest
    | _ => some (s, bytes)

/-- The name and address in the line of a committer. -/
def readCommitter (words : List (List Char)) : String :=
  String.ofList (Text.joinWith [' '] (words.dropLast.dropLast))

/-- Reads the header of a blob or commit up to its counted piece: its mark and its committer. -/
def readHeader (mark committer : String) :
    Nat → List UInt8 → Option (String × String × List UInt8 × List UInt8)
  | 0, _ => none
  | fuel + 1, bytes =>
    let (header, rest) := splitLine bytes
    match Text.splitOnChar ' ' header with
    | [['m', 'a', 'r', 'k'], mark] => readHeader (String.ofList mark) committer fuel rest
    | word :: words =>
      if String.ofList word == "data" then
        (readCounted header rest).map fun (content, rest) ↦ (mark, committer, content, rest)
      else if String.ofList word == "committer" then
        readHeader mark (readCommitter words) fuel rest
      else readHeader mark committer fuel rest
    | [] => none

/-- Reads the commands of a stream. -/
def readCommands : Nat → Progress → List UInt8 → Option Store
  | 0, _, _ => none
  | _, p, [] => some p.store
  | fuel + 1, p, bytes => do
    let (header, rest) := splitLine bytes
    if String.ofList header == "blob" then
      let (mark, _, content, rest) ← readHeader "" "" fuel rest
      readCommands fuel { p with marks := (mark, content) :: p.marks } rest
    else if Text.startsWith "commit ".toList header then
      let (_, committer, message, rest) ← readHeader "" "" fuel rest
      let (snapshot, rest) ← readChanges p.marks fuel p.store.head rest
      let text := String.ofList (Utf8.decodeLenient message)
      readCommands fuel
        { p with store := { p.store with staged := snapshot }.record text committer } rest
    else readCommands fuel p rest

/-- Reads a stream into a repository of a number, if it is one. -/
def read (number : Nat) (bytes : List UInt8) : Option Store :=
  readCommands (bytes.length + 1) ⟨[], { Store.empty number with hasIdentity := true }⟩ bytes

end Guidebook.Git.Stream
