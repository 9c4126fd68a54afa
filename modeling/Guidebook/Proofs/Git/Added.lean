import Guidebook.Proofs.Git.Client
import Guidebook.Proofs.Text.Utf8

/-!
# The leaves that a tree adds

Git prints the paths of leaves as they are, and they may be any bytes but NUL. What a tree adds to
another is asked by comparing them, and what a first tree adds by listing it: another command with
another answer. Both are read leaf by leaf, submodules left out, if all the paths in the answer are
text. If one is not, that of a submodule included, nothing is read at all.
-/

namespace Guidebook.Git

open Text

/-- A leaf of a tree as git knows it. -/
structure ListedLeaf where
  path : List UInt8
  mode : String
  oid : String
  deriving DecidableEq, Repr

namespace ListedLeaf

variable {leaf : ListedLeaf} {zero : String}

/-- Whether the leaf is a submodule. -/
def isSubmodule (leaf : ListedLeaf) : Bool := leaf.mode == submoduleMode

/-- The kind of object at the leaf. -/
def kind (leaf : ListedLeaf) : String := if leaf.isSubmodule then "commit" else "blob"

/-- A leaf whose fields can be told apart. -/
structure Plain (leaf : ListedLeaf) : Prop where
  mode : IsWord leaf.mode
  oid : IsWord leaf.oid
  path : 0 ∉ leaf.path

instance (leaf : ListedLeaf) : Decidable leaf.Plain :=
  decidable_of_iff (IsWord leaf.mode ∧ IsWord leaf.oid ∧ 0 ∉ leaf.path)
    ⟨fun ⟨hmode, hoid, hpath⟩ ↦ ⟨hmode, hoid, hpath⟩, fun h ↦ ⟨h.mode, h.oid, h.path⟩⟩

/-- What stands in front of the path where a tree is listed. -/
def listingHead (leaf : ListedLeaf) : List Char :=
  leaf.mode.toList ++ ' ' :: leaf.kind.toList ++ ' ' :: leaf.oid.toList ++ ['\t']

/-- What stands in front of the path where trees are compared; no object goes by the name `zero`. -/
def comparisonHead (zero : String) (leaf : ListedLeaf) : List Char :=
  ':' :: "000000".toList ++ ' ' :: leaf.mode.toList ++ ' ' :: zero.toList ++
    ' ' :: leaf.oid.toList ++ [' ', 'A', '\x00']

/-- A leaf where it is printed behind a head. -/
def printed (head : ListedLeaf → List Char) (leaf : ListedLeaf) : List UInt8 :=
  Utf8.encode (head leaf) ++ leaf.path ++ [0]

/-- The path as text, if it is any. -/
def name (leaf : ListedLeaf) : String := String.ofList ((Utf8.decode leaf.path).toOption.getD [])

theorem path_eq_name (h : Utf8.IsText leaf.path) : leaf.path = Utf8.ofString leaf.name := by
  obtain ⟨cs, hcs⟩ := h
  rw [name, Utf8.decode_eq_ok_iff.mpr hcs, Utf8.ofString, String.toList_ofList]
  exact hcs

/-- The row that a leaf is read as where its tree is listed. -/
def treeRow (leaf : ListedLeaf) : TreeRow := ⟨leaf.mode, leaf.kind, leaf.oid, leaf.name⟩

/-- The row that a leaf is read as where its tree is compared. -/
def addedRow (zero : String) (leaf : ListedLeaf) : AddedRow :=
  ⟨"000000", leaf.mode, zero, leaf.oid, leaf.name⟩

/-- Leaves are printed as text exactly if their paths are text. -/
theorem isText_printed (head : ListedLeaf → List Char) {leaves : List ListedLeaf}
    (h : ∀ leaf ∈ leaves, leaf.Plain) :
    Utf8.IsText (leaves.flatMap (printed head)) ↔ ∀ leaf ∈ leaves, Utf8.IsText leaf.path := by
  induction leaves with
  | nil => exact iff_of_true ⟨[], rfl⟩ (List.forall_mem_nil _)
  | cons leaf leaves ih =>
    obtain ⟨hleaf, hleaves⟩ := List.forall_mem_cons.mp h
    rw [List.flatMap_cons, printed, List.append_assoc, List.append_assoc, List.singleton_append,
      Utf8.isText_encode_append, Utf8.isText_append_zero hleaf.path, ih hleaves,
      List.forall_mem_cons]

/-- Leaves whose paths are text are printed as their rows are written. -/
private theorem flatMap_printed {head : ListedLeaf → List Char} {write : ListedLeaf → List Char}
    (hwrite : ∀ leaf, write leaf = head leaf ++ leaf.name.toList ++ ['\x00'])
    {leaves : List ListedLeaf} (h : ∀ leaf ∈ leaves, Utf8.IsText leaf.path) :
    leaves.flatMap (printed head) = Utf8.encode (leaves.flatMap write) := by
  induction leaves with
  | nil => rfl
  | cons leaf leaves ih =>
    obtain ⟨hleaf, hleaves⟩ := List.forall_mem_cons.mp h
    have hzero : Utf8.encode ['\x00'] = [0] := rfl
    rw [List.flatMap_cons, List.flatMap_cons, Utf8.encode_append, hwrite, Utf8.encode_append,
      Utf8.encode_append, hzero, ih hleaves, printed]
    conv_lhs => rw [path_eq_name hleaf]
    rfl

private theorem Plain.not_mem_name (h : leaf.Plain) (htext : Utf8.IsText leaf.path) :
    '\x00' ∉ leaf.name.toList := by
  intro hmem
  refine h.path ?_
  rw [path_eq_name htext]
  exact List.mem_flatMap.mpr ⟨_, hmem, List.mem_singleton_self 0⟩

private theorem plain_treeRow (h : leaf.Plain) (htext : Utf8.IsText leaf.path) :
    leaf.treeRow.Plain where
  mode := h.mode
  kind := by
    rw [treeRow, kind]
    cases leaf.isSubmodule
    · exact (by decide : IsWord "blob")
    · exact (by decide : IsWord "commit")
  oid := h.oid
  path := h.not_mem_name htext

private theorem plain_addedRow (hzero : IsWord zero) (h : leaf.Plain)
    (htext : Utf8.IsText leaf.path) : (leaf.addedRow zero).Plain where
  oldMode := (by decide : IsWord "000000")
  newMode := h.mode
  oldOid := hzero
  newOid := h.oid
  path := h.not_mem_name htext

/-- The leaves of a tree whose paths are no leaf paths of an older tree. -/
def fresh (old new : List ListedLeaf) : List ListedLeaf :=
  new.filter fun leaf ↦ !old.any (·.path == leaf.path)

/-- The files among leaves. -/
def files (leaves : List ListedLeaf) : List ListedLeaf := leaves.filter fun leaf ↦ !leaf.isSubmodule

end ListedLeaf

/-- A file as git knows it: the bytes of its path, and the name of its blob. -/
def AddedFile.printed (file : AddedFile String) : List UInt8 × String :=
  (Utf8.ofString file.path, file.blob)

open ListedLeaf

/-- A client that prints of trees what git prints. Where trees are compared, leaves that changed
their mode or their kind are not added ones. -/
structure Client.Prints (client : Client (Except Failure)) (zero : String)
    (leaves : String → Option (List ListedLeaf)) : Prop where
  /-- A tree is listed leaf by leaf. -/
  listing : ∀ tree found, leaves tree = some found →
    client.run (.leaves tree) = .ok (found.flatMap (printed listingHead))
  /-- A comparison lists the leaves whose paths are no leaf paths of the older tree. -/
  comparison : ∀ older newer old new, leaves older = some old → leaves newer = some new →
    client.run (.added older newer) = .ok ((fresh old new).flatMap (printed (comparisonHead zero)))
  /-- The fields of leaves can be told apart. -/
  plain : ∀ tree found, leaves tree = some found → ∀ leaf ∈ found, leaf.Plain
  /-- The name of no object is a word. -/
  zero : IsWord zero

namespace Client

section Reading

variable {client : Client (Except Failure)} {zero older newer : String}
  {leaves : String → Option (List ListedLeaf)} {old new : List ListedLeaf}

/-- Leaves as they are read. -/
private def filesRead (leaves : List ListedLeaf) : List (AddedFile String) :=
  (files leaves).map fun leaf ↦ ⟨leaf.name, leaf.oid⟩

/-- What is printed and is no text is not read. -/
theorem runText_eq_error {command : Command} {bytes : List UInt8}
    (h : client.run command = .ok bytes) (htext : ¬ Utf8.IsText bytes) :
    client.runText command = .error (.git command .notText) := by
  obtain ⟨fault, hfault⟩ := Utf8.not_isText_iff.mp htext
  simp only [runText, h, bind, Except.bind, hfault]
  rfl

/-- Printed leaves are read as the rows that are written of them, if their paths are text. -/
private theorem runText_printed {command : Command} {head write : ListedLeaf → List Char}
    (hwrite : ∀ leaf, write leaf = head leaf ++ leaf.name.toList ++ ['\x00'])
    {found : List ListedLeaf} (hrun : client.run command = .ok (found.flatMap (printed head)))
    (hplain : ∀ leaf ∈ found, leaf.Plain) :
    client.runText command = if ∀ leaf ∈ found, Utf8.IsText leaf.path then
      .ok (found.flatMap write) else .error (.git command .notText) := by
  split
  · next htext =>
    rw [flatMap_printed hwrite htext] at hrun
    exact runText_eq hrun
  · next htext =>
    exact runText_eq_error hrun fun hall ↦ htext ((isText_printed _ hplain).mp hall)

/-- A comparison is read as the leaves that it lists. -/
theorem added_comparison (h : client.Prints zero leaves) (hold : leaves older = some old)
    (hnew : leaves newer = some new) :
    client.added (some older) newer = if ∀ leaf ∈ fresh old new, Utf8.IsText leaf.path then
      .ok (filesRead (fresh old new)) else .error (.git (.added older newer) .notText) := by
  have hplain : ∀ leaf ∈ fresh old new, leaf.Plain := fun leaf hleaf ↦
    h.plain newer new hnew leaf (List.mem_filter.mp hleaf).1
  have hwrite : ∀ leaf : ListedLeaf, (leaf.addedRow zero).write =
      comparisonHead zero leaf ++ leaf.name.toList ++ ['\x00'] := fun leaf ↦ by
    simp [AddedRow.write, addedRow, comparisonHead]
  rw [added]
  simp only [runText_printed hwrite (h.comparison older newer old new hold hnew) hplain]
  split
  · next htext =>
    have hrows : ∀ row ∈ (fresh old new).map (addedRow zero), row.Plain := by
      intro row hrow
      obtain ⟨leaf, hleaf, rfl⟩ := List.mem_map.mp hrow
      exact plain_addedRow h.zero (hplain leaf hleaf) (htext leaf hleaf)
    have hread := readAdded_write hrows
    rw [List.flatMap_map, List.filter_map, List.map_map] at hread
    simp only [bind, Except.bind, hread, ofResult]
    rfl
  · rfl

/-- A listing is read as the leaves that it lists. -/
theorem added_listing (h : client.Prints zero leaves) (hnew : leaves newer = some new) :
    client.added none newer = if ∀ leaf ∈ new, Utf8.IsText leaf.path then
      .ok (filesRead new) else .error (.git (.leaves newer) .notText) := by
  have hplain := h.plain newer new hnew
  have hwrite : ∀ leaf : ListedLeaf, leaf.treeRow.write =
      listingHead leaf ++ leaf.name.toList ++ ['\x00'] := fun leaf ↦ by
    simp [TreeRow.write, treeRow, listingHead]
  have hfile : ∀ leaf : ListedLeaf, leaf.treeRow.isFile = !leaf.isSubmodule := fun leaf ↦ by
    rw [TreeRow.isFile, treeRow, kind, bne, ← isSubmodule]
    cases leaf.isSubmodule <;> rfl
  have hfiles : ((new.map treeRow).filter TreeRow.isFile).map
      (fun row ↦ (⟨row.path, row.oid⟩ : AddedFile String)) = filesRead new := by
    rw [List.filter_map, List.map_map, filesRead, files]
    exact congrArg _ (List.filter_congr fun leaf _ ↦ hfile leaf)
  rw [added]
  simp only [runText_printed hwrite (h.listing newer new hnew) hplain]
  split
  · next htext =>
    have hrows : ∀ row ∈ new.map treeRow, row.Plain := by
      intro row hrow
      obtain ⟨leaf, hleaf, rfl⟩ := List.mem_map.mp hrow
      exact plain_treeRow (hplain leaf hleaf) (htext leaf hleaf)
    have hread := readTreeRows_write hrows
    rw [List.flatMap_map] at hread
    simp only [bind, Except.bind, hread, ofResult, pure, Except.pure, hfiles]
  · rfl

/-- What is read is told by what git knows of it. -/
private theorem eq_filesRead_iff {leaves : List ListedLeaf} {found : List (AddedFile String)}
    (h : ∀ leaf ∈ leaves, Utf8.IsText leaf.path) :
    filesRead leaves = found ↔
      found.map AddedFile.printed = (files leaves).map fun leaf ↦ (leaf.path, leaf.oid) := by
  have hread : (filesRead leaves).map AddedFile.printed =
      (files leaves).map fun leaf ↦ (leaf.path, leaf.oid) := by
    rw [filesRead, List.map_map]
    refine List.map_congr_left fun leaf hleaf ↦ Prod.ext ?_ rfl
    exact (path_eq_name (h leaf (List.mem_filter.mp hleaf).1)).symm
  have hinjective : Function.Injective AddedFile.printed := fun a b heq ↦ by
    obtain ⟨path, blob⟩ := a
    obtain ⟨hpath, hblob⟩ := Prod.mk.inj heq
    obtain rfl : path = b.path := String.toList_inj.mp (Utf8.encode_injective hpath)
    obtain rfl : blob = b.blob := hblob
    rfl
  rw [← hread, eq_comm]
  exact (List.map_injective_iff.mpr hinjective).eq_iff.symm

end Reading

/-- A tree adds to an older one, in the order of its own listing, the leaves that are no submodules
and whose paths are no leaf paths of the older tree, each with its blob; it does if all paths that
are new are text, and otherwise the answer of git is complained of. Without an older tree it adds
what it adds to a tree without leaves. -/
theorem added_of_prints {client : Client (Except Failure)} {zero : String}
    {leaves : String → Option (List ListedLeaf)} (h : client.Prints zero leaves)
    {newer : String} {new : List ListedLeaf} (hnew : leaves newer = some new) :
    (∀ older old, leaves older = some old →
      (∀ found, client.added (some older) newer = .ok found ↔
        (∀ leaf ∈ fresh old new, Utf8.IsText leaf.path) ∧
          found.map AddedFile.printed =
            (files (fresh old new)).map fun leaf ↦ (leaf.path, leaf.oid)) ∧
      ∀ failure, client.added (some older) newer = .error failure ↔
        (∃ leaf ∈ fresh old new, ¬ Utf8.IsText leaf.path) ∧
          failure = .git (.added older newer) .notText) ∧
    ∀ empty, leaves empty = some [] →
      (∀ found, client.added none newer = .ok found ↔
        client.added (some empty) newer = .ok found) ∧
      ∀ failure, client.added none newer = .error failure ↔
        (∃ leaf ∈ new, ¬ Utf8.IsText leaf.path) ∧ failure = .git (.leaves newer) .notText := by
  have hbad : ∀ {leaves : List ListedLeaf}, ¬ (∀ leaf ∈ leaves, Utf8.IsText leaf.path) ↔
      ∃ leaf ∈ leaves, ¬ Utf8.IsText leaf.path := by simp
  constructor
  · intro older old hold
    rw [added_comparison h hold hnew]
    by_cases htext : ∀ leaf ∈ fresh old new, Utf8.IsText leaf.path
    · rw [if_pos htext]
      refine ⟨fun found ↦ ?_, fun failure ↦ iff_of_false nofun fun hfails ↦ hbad.mpr hfails.1 htext⟩
      rw [Except.ok.injEq, eq_filesRead_iff htext, and_iff_right htext]
    · rw [if_neg htext]
      refine ⟨fun found ↦ iff_of_false nofun fun hfound ↦ htext hfound.1, fun failure ↦ ?_⟩
      rw [Except.error.injEq, and_iff_right (hbad.mp htext), eq_comm]
  · intro empty hempty
    have hall : fresh [] new = new := List.filter_eq_self.mpr fun _ _ ↦ rfl
    rw [added_comparison h hempty hnew, added_listing h hnew, hall]
    by_cases htext : ∀ leaf ∈ new, Utf8.IsText leaf.path
    · rw [if_pos htext, if_pos htext]
      exact ⟨fun found ↦ Iff.rfl,
        fun failure ↦ iff_of_false nofun fun hfails ↦ hbad.mpr hfails.1 htext⟩
    · rw [if_neg htext, if_neg htext]
      refine ⟨fun found ↦ iff_of_false nofun nofun, fun failure ↦ ?_⟩
      rw [Except.error.injEq, and_iff_right (hbad.mp htext), eq_comm]

/-- The client that prints of trees what git prints, and knows nothing else. -/
def printingTrees (zero : String) (trees : List (String × List ListedLeaf)) :
    Client (Except Failure) where
  run command :=
    let refused := Except.error (Failure.git command (.exited "fatal: Not a valid object name"))
    match command with
    | .leaves tree =>
      match trees.lookup tree with
      | some found => .ok (found.flatMap (printed listingHead))
      | none => refused
    | .added older newer =>
      match trees.lookup older, trees.lookup newer with
      | some old, some new => .ok ((fresh old new).flatMap (printed (comparisonHead zero)))
      | _, _ => refused
    | _ => refused

/-- Trees of any names are printed, if the fields of their leaves can be told apart. -/
theorem prints_printingTrees {zero : String} {trees : List (String × List ListedLeaf)}
    (hzero : IsWord zero) (hplain : ∀ tree ∈ trees, ∀ leaf ∈ tree.2, leaf.Plain) :
    (printingTrees zero trees).Prints zero (trees.lookup ·) where
  listing := by
    intro tree found hfound
    simp only [printingTrees, hfound]
  comparison := by
    intro older newer old new hold hnew
    simp only [printingTrees, hold, hnew]
  plain := by
    intro tree found hfound
    obtain ⟨front, back, heq, -⟩ := List.lookup_eq_some_iff.mp hfound
    exact hplain (tree, found) (heq ▸ List.mem_append_right _ List.mem_cons_self)
  zero := hzero

/-- A tree without leaves, one with a file, and one with a submodule, an executable, a link and a
changed file. -/
def mixedTrees : List (String × List ListedLeaf) :=
  [("4b825dc", []), ("a1", [⟨Utf8.ofString "a", "100644", "b1"⟩]),
    ("a2", [⟨Utf8.ofString "a", "100755", "b2"⟩, ⟨Utf8.ofString "b\tc\n", "100755", "b3"⟩,
      ⟨Utf8.ofString "é", "120000", "b4"⟩, ⟨Utf8.ofString "m", "160000", "c1"⟩])]

/-- The tree with a submodule adds the executable and the link, and to no tree the changed file
too. -/
theorem added_of_prints_mixed :
    (printingTrees noObject mixedTrees).added (some "a1") "a2" =
        .ok [⟨"b\tc\n", "b3"⟩, ⟨"é", "b4"⟩] ∧
      (printingTrees noObject mixedTrees).added none "a2" =
        .ok [⟨"a", "b2"⟩, ⟨"b\tc\n", "b3"⟩, ⟨"é", "b4"⟩] := by
  have hprints : (printingTrees noObject mixedTrees).Prints noObject (mixedTrees.lookup ·) :=
    prints_printingTrees (by decide) (by decide)
  have hnew : mixedTrees.lookup "a2" = some _ := rfl
  obtain ⟨hadded, hempty⟩ := added_of_prints hprints hnew
  refine ⟨((hadded "a1" _ rfl).1 _).mpr ⟨by decide, by decide⟩, ?_⟩
  exact ((hempty "4b825dc" rfl).1 _).mpr (((hadded _ _ rfl).1 _).mpr ⟨by decide, by decide⟩)

/-- A tree without leaves, and one with a leaf whose path is no text. -/
def latinTrees : List (String × List ListedLeaf) :=
  [("4b825dc", []), ("a1", [⟨[0xff], "100644", "b1"⟩])]

/-- A path that is no text is not read, with or without an older tree. -/
theorem added_latin :
    (printingTrees noObject latinTrees).Prints noObject (latinTrees.lookup ·) ∧
      ∀ found, (printingTrees noObject latinTrees).added (some "4b825dc") "a1" ≠ .ok found ∧
        (printingTrees noObject latinTrees).added none "a1" ≠ .ok found := by
  have hprints : (printingTrees noObject latinTrees).Prints noObject (latinTrees.lookup ·) :=
    prints_printingTrees (by decide) (by decide)
  have hnot : ¬ ∀ leaf ∈ [(⟨[0xff], "100644", "b1"⟩ : ListedLeaf)], Utf8.IsText leaf.path := by
    decide
  refine ⟨hprints, fun found ↦ ⟨?_, ?_⟩⟩
  · rw [added_comparison hprints rfl rfl]
    exact fun hfound ↦ nomatch (if_neg hnot).symm.trans hfound
  · rw [added_listing hprints rfl, if_neg hnot]
    nofun

end Client

end Guidebook.Git
