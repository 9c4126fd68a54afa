/-!
# Outlines

The outline of a workspace is a tree of directories and files. Every node knows its depth: the
unnamed root has depth 0 and a node of a directory lies one level below it. A walk lists the tree
flat, each entry with its depth: a directory comes before what it holds and the files of a
directory before its subdirectories.
-/

namespace Guidebook.Outline

/-- What a walk entry stands for. -/
inductive EntryKind where
  | file
  | directory
  deriving DecidableEq, Repr

/-- One entry of a walk. The path of a file is kept as it was given. -/
structure WalkEntry where
  name : String
  kind : EntryKind
  depth : Int
  path : String
  deriving DecidableEq, Repr

/-- A file of an outline. -/
structure File where
  name : String
  depth : Int
  path : String
  deriving DecidableEq, Repr, Inhabited

/-- A directory of an outline with its subdirectories and files in order. -/
inductive Directory where
  | node (name : String) (depth : Int) (directories : List Directory) (files : List File)
  deriving Repr

namespace Directory

instance : Inhabited Directory := ⟨.node "" 0 [] []⟩

/-- The last component of the directory's path. -/
def name : Directory → String
  | node name _ _ _ => name

/-- The directory's distance from the root. -/
def depth : Directory → Int
  | node _ depth _ _ => depth

/-- The subdirectories in order. -/
def directories : Directory → List Directory
  | node _ _ directories _ => directories

/-- The files in order. -/
def files : Directory → List File
  | node _ _ _ files => files

/-- An open directory without content. -/
def empty (name : String) (depth : Int) : Directory := node name depth [] []

/-- The directory with one more subdirectory. -/
def addDirectory : Directory → Directory → Directory
  | node name depth directories files, d => node name depth (directories ++ [d]) files

/-- The directory with one more file. -/
def addFile : Directory → File → Directory
  | node name depth directories files, f => node name depth directories (files ++ [f])

/-- Whether the directory holds nothing. -/
def isEmpty (d : Directory) : Bool := d.directories.isEmpty && d.files.isEmpty

mutual

/-- Equality of directories as a test. -/
def beq : Directory → Directory → Bool
  | node n d ds fs, node n' d' ds' fs' => n == n' && d == d' && fs == fs' && beqs ds ds'

/-- Equality of lists of directories as a test. -/
def beqs : List Directory → List Directory → Bool
  | [], [] => true
  | a :: as, b :: bs => beq a b && beqs as bs
  | _, _ => false

end

instance : BEq Directory := ⟨beq⟩

/-- The entry of a file in a walk. -/
def fileEntry (f : File) : WalkEntry := ⟨f.name, .file, f.depth, f.path⟩

/-- A path without its trailing slashes. -/
def withoutSlashes (path : String) : String :=
  String.ofList (path.toList.reverse.dropWhile (· == '/')).reverse

mutual

/-- The number of directories in a directory, itself included. -/
def size : Directory → Nat
  | node _ _ directories _ => sizes directories + 1

/-- The number of directories in some directories. -/
def sizes : List Directory → Nat
  | [] => 0
  | d :: rest => size d + sizes rest

end

/-- The subdirectories of a directory, each with its written path, which ends in a slash. -/
def children (path : String) (d : Directory) : List (String × Directory) :=
  d.directories.map fun child ↦ (path ++ child.name ++ "/", child)

/-- The subdirectories taken together are smaller than their directory. -/
theorem sizes_children_lt (path : String) (d : Directory) :
    sizes ((d.children path).map (·.2)) < d.size := by
  cases d with
  | node _ _ directories _ => simp [children, Directory.directories, size, Function.comp_def]

/-- The directories of two lists are those of the lists taken together. -/
theorem sizes_append (ds es : List Directory) : sizes (ds ++ es) = sizes ds + sizes es := by
  induction ds with
  | nil => simp [sizes]
  | cons d ds ih => simp only [List.cons_append, sizes, ih]; omega

/-- The walk of directories that wait on a stack, topmost first. A directory gives way to its
subdirectories. -/
def walkStack : List (String × Directory) → List WalkEntry
  | [] => []
  | (path, d) :: rest =>
    ⟨d.name, .directory, d.depth, withoutSlashes path⟩ :: d.files.map fileEntry ++
      walkStack (d.children path ++ rest)
termination_by stack => sizes (stack.map (·.2))
decreasing_by
  have h := sizes_children_lt path d
  simp only [List.map_append, List.map_cons, sizes_append, sizes]
  omega

/-- The walk of an outline, without an entry for the outline itself. -/
def walk (d : Directory) : List WalkEntry :=
  d.files.map fileEntry ++ walkStack (d.children "")

end Directory

end Guidebook.Outline
