import Guidebook.Proofs.Files.Alike
import Guidebook.Proofs.Git.WorkTree
import Guidebook.Proofs.Outline.Paths
import Guidebook.Proofs.Outline.Rows

/-!
# Outlines in the order of trees

A listing of files is ordered component by component, a tree of git path by path, where a directory
counts as if its name ended in a slash. The outlines of both hold the same directories and files.
They differ in the order of sibling directories, and only there: one whose name goes on with a
character before the slash where that of another ends comes first in the tree and last in the
listing.
-/

namespace Guidebook.Outline

open Git.WorkTree
open Git.Snapshot (walkFrom shared isBelow_iff)

namespace Directory

/-- What a tree orders directories by: the name as if it ended in a slash. -/
def treeKey (d : Directory) : List Char := d.name.toList ++ ['/']

/-- A directory comes no later than another in a tree. -/
def TreeLE (a b : Directory) : Prop := a.treeKey ≤ b.treeKey

instance : DecidableRel TreeLE := fun a b ↦ inferInstanceAs (Decidable (a.treeKey ≤ b.treeKey))

instance : Std.Total TreeLE := ⟨fun a b ↦ le_total a.treeKey b.treeKey⟩

instance : IsTrans Directory TreeLE := ⟨fun _ _ _ hab hbc ↦ le_trans (α := List Char) hab hbc⟩

mutual

/-- The directory with its subdirectories in the order of a tree, at every level. -/
def inTreeOrder : Directory → Directory
  | node name depth directories files => node name depth (allInTreeOrder directories) files

/-- Directories in the order of a tree, at every level. -/
def allInTreeOrder : List Directory → List Directory
  | [] => []
  | d :: rest => (allInTreeOrder rest).orderedInsert TreeLE d.inTreeOrder

end

mutual

/-- The directory and all directories in it. -/
def all : Directory → List Directory
  | node name depth directories files => node name depth directories files :: allOf directories

/-- Some directories and all directories in them. -/
def allOf : List Directory → List Directory
  | [] => []
  | d :: rest => all d ++ allOf rest

end

theorem mem_allOf {d : Directory} {ds : List Directory} : d ∈ allOf ds ↔ ∃ e ∈ ds, d ∈ e.all := by
  induction ds with
  | nil => simp [allOf]
  | cons e ds ih => simp [allOf, ih]

@[simp] theorem name_inTreeOrder (d : Directory) : d.inTreeOrder.name = d.name := by
  cases d
  rw [inTreeOrder]
  rfl

theorem allInTreeOrder_eq (ds : List Directory) :
    allInTreeOrder ds = (ds.map inTreeOrder).insertionSort TreeLE := by
  induction ds with
  | nil => rw [allInTreeOrder]; rfl
  | cons d ds ih => rw [allInTreeOrder, ih]; rfl

/-- Directories are in the order of a tree exactly if they are so at every level. -/
theorem allInTreeOrder_eq_self_iff (ds : List Directory) :
    allInTreeOrder ds = ds ↔ ds.Pairwise TreeLE ∧ ∀ d ∈ ds, d.inTreeOrder = d := by
  have hmap : (ds.map inTreeOrder).Pairwise TreeLE ↔ ds.Pairwise TreeLE := by
    simp only [List.pairwise_map, TreeLE, treeKey, name_inTreeOrder]
    rfl
  have hself : ds.map inTreeOrder = ds ↔ ∀ d ∈ ds, d.inTreeOrder = d := by
    simpa using List.map_inj_left (f := inTreeOrder) (g := id) (l := ds)
  rw [allInTreeOrder_eq, ← hself]
  constructor
  · intro h
    have hsorted : ds.Pairwise TreeLE := h ▸ List.pairwise_insertionSort TreeLE _
    rw [(hmap.mpr hsorted).insertionSort_eq] at h
    exact ⟨hsorted, h⟩
  · rintro ⟨hsorted, h⟩
    rwa [(hmap.mpr hsorted).insertionSort_eq]

mutual

/-- A directory is in the order of a tree exactly if every directory in it has its subdirectories
in that order. -/
theorem inTreeOrder_eq_self_iff :
    ∀ d : Directory, d.inTreeOrder = d ↔ ∀ e ∈ d.all, e.directories.Pairwise TreeLE
  | node name depth directories files => by
    rw [inTreeOrder, all, List.forall_mem_cons, ← forall_inTreeOrder_eq_self_iff directories]
    simp [allInTreeOrder_eq_self_iff, Directory.directories]

theorem forall_inTreeOrder_eq_self_iff : ∀ ds : List Directory,
    (∀ d ∈ ds, d.inTreeOrder = d) ↔ ∀ e ∈ allOf ds, e.directories.Pairwise TreeLE
  | [] => by simp [allOf]
  | d :: rest => by
    rw [allOf, List.forall_mem_append, List.forall_mem_cons, inTreeOrder_eq_self_iff d,
      forall_inTreeOrder_eq_self_iff rest]

end

end Directory

/-! ## Names and directory names in order -/

/-- A name that goes on where another ends, with a character before the slash: as names the other
comes first, as directories this one. -/
def Overtakes (name other : String) : Prop :=
  ∃ c rest, name.toList = other.toList ++ c :: rest ∧ c < '/'

private theorem append_slash_lt_iff {a b : List Char} (h : b < a) :
    a ++ ['/'] < b ++ ['/'] ↔ ∃ c rest, a = b ++ c :: rest ∧ c < '/' := by
  induction b generalizing a with
  | nil =>
    cases a with
    | nil => exact absurd h (lt_irrefl _)
    | cons c a => simp [List.cons_lt_cons_iff]
  | cons d b ih =>
    cases a with
    | nil => exact absurd h (List.not_lt_nil _)
    | cons c a =>
      rw [List.cons_append, List.cons_append, List.cons_lt_cons_iff]
      rcases List.cons_lt_cons_iff.mp h with hlt | ⟨rfl, hlt⟩
      · simp [hlt.ne', hlt.not_gt]
      · simp [ih hlt]

private theorem append_slash_lt {a b u v : List Char} (ha : '/' ∉ a) (hb : '/' ∉ b) (hne : a ≠ b)
    (h : a ++ '/' :: u < b ++ '/' :: v) : a ++ ['/'] < b ++ ['/'] := by
  induction a generalizing b with
  | nil =>
    cases b with
    | nil => exact absurd rfl hne
    | cons d b =>
      have hd : '/' ≠ d := fun heq ↦ hb (heq ▸ List.mem_cons_self)
      simp only [List.nil_append, List.cons_append, List.cons_lt_cons_iff, hd, false_and,
        or_false] at h ⊢
      exact h
  | cons c a ih =>
    have hc : c ≠ '/' := fun heq ↦ ha (heq ▸ List.mem_cons_self)
    cases b with
    | nil =>
      simp only [List.nil_append, List.cons_append, List.cons_lt_cons_iff, hc, false_and,
        or_false] at h ⊢
      exact h
    | cons d b =>
      rw [List.cons_append, List.cons_append, List.cons_lt_cons_iff] at h ⊢
      refine h.imp_right fun ⟨heq, hlt⟩ ↦ ⟨heq, ih ?_ ?_ ?_ hlt⟩
      · exact fun hmem ↦ ha (List.mem_cons_of_mem _ hmem)
      · exact fun hmem ↦ hb (List.mem_cons_of_mem _ hmem)
      · rintro rfl
        exact hne (heq ▸ rfl)

private theorem prefix_of_between {front u v x : List Char} (hlow : front ++ u < x)
    (hhigh : x < front ++ v) : front <+: x := by
  induction front generalizing x with
  | nil => exact List.nil_prefix
  | cons c front ih =>
    cases x with
    | nil => exact absurd hlow (List.not_lt_nil _)
    | cons d x =>
      rw [List.cons_append, List.cons_lt_cons_iff] at hlow hhigh
      rcases hlow with hlow | ⟨rfl, hlow⟩
      · rcases hhigh with hhigh | ⟨rfl, -⟩
        · exact absurd hhigh hlow.not_gt
        · exact absurd hlow (lt_irrefl _)
      · have hrest := (hhigh.resolve_left (lt_irrefl _)).2
        exact List.cons_prefix_cons.mpr ⟨rfl, ih hlow hrest⟩

theorem append_lt_append_iff {front a b : List Char} :
    front ++ a < front ++ b ↔ a < b := by
  induction front with
  | nil => rfl
  | cons c front ih => simp [ih]

/-- What is ahead as a name is behind as a directory exactly if it is overtaken. -/
theorem overtakes_iff {a b : String} (h : b.toList < a.toList) :
    a.toList ++ ['/'] < b.toList ++ ['/'] ↔ Overtakes a b :=
  append_slash_lt_iff h

theorem Overtakes.lt {a b : String} (h : Overtakes a b) : b.toList < a.toList := by
  obtain ⟨c, rest, heq, -⟩ := h
  have hlt : b.toList ++ [] < b.toList ++ c :: rest := append_lt_append_iff.mpr (List.nil_lt_cons _ _)
  rwa [List.append_nil, ← heq] at hlt

/-! ## The two orders of rows -/

/-- The order of listings: component by component. -/
theorem rowOrder_names :
    RowOrder (fun a b ↦ Path.partsBefore a b = true) fun a b ↦ a.toList < b.toList where
  together := by
    intro name x y z hx hz hxy hyz
    obtain ⟨p, hp, rfl⟩ := isInside_iff.mp hx
    obtain ⟨q, hq, rfl⟩ := isInside_iff.mp hz
    rw [Path.partsBefore_iff] at hxy hyz
    rcases y with _ | ⟨head, rest⟩
    · exact absurd hxy (List.not_lt_nil _)
    rw [List.map_cons, List.map_cons, List.cons_lt_cons_iff] at hxy hyz
    obtain heq : name.toList = head.toList := by
      rcases hxy with hxy | ⟨heq, -⟩
      · exact (hyz.resolve_left hxy.not_gt).1.symm
      · exact heq
    obtain rfl := String.toList_inj.mp heq
    refine isInside_iff.mpr ⟨rest, ?_, rfl⟩
    rintro rfl
    exact List.not_lt_nil _ (hxy.resolve_left (lt_irrefl _)).2
  tail := by
    intro name x y hx hy h
    simpa [Path.partsBefore] using h
  directories := by
    intro a b x y hx hy hne h
    obtain ⟨p, -, rfl⟩ := isInside_iff.mp hx
    obtain ⟨q, -, rfl⟩ := isInside_iff.mp hy
    simpa [Path.partsBefore, hne, Text.lessThan_iff] using h
  files := by
    intro a b h
    simpa [Path.partsBefore_iff, List.cons_lt_cons_iff] using h

/-- The order of trees: path by path. -/
def pathBefore (a b : List String) : Prop :=
  Named a ∧ Named b ∧ (gitPath a).toList < (gitPath b).toList

private theorem toList_gitPath_singleton (name : String) :
    (gitPath [name]).toList = name.toList := by
  rw [gitPath, Text.joinStrings, String.toList_ofList]
  rfl

private theorem toList_gitPath_cons {name : String} {rest : List String} (h : rest ≠ []) :
    (gitPath (name :: rest)).toList =
      name.toList ++ '/' :: (gitPath rest).toList := by
  have happend := toList_gitPath_append (List.cons_ne_nil name []) h
  rwa [toList_gitPath_singleton] at happend

theorem rowOrder_paths :
    RowOrder pathBefore fun a b ↦ a.toList ++ ['/'] < b.toList ++ ['/'] where
  together := by
    rintro name x y z hx hz ⟨hnamed', hnamed, hxy⟩ ⟨-, -, hyz⟩
    obtain ⟨p, hp, rfl⟩ := isInside_iff.mp hx
    have hname : Named [name] :=
      ⟨List.cons_ne_nil _ _, by simpa using hnamed'.2 name List.mem_cons_self⟩
    obtain ⟨q, hq, rfl⟩ := isInside_iff.mp hz
    rw [toList_gitPath_cons hp, ← List.singleton_append, ← List.append_assoc] at hxy
    rw [toList_gitPath_cons hq, ← List.singleton_append, ← List.append_assoc] at hyz
    have hbelow := prefix_of_between hxy hyz
    rw [← toList_gitPath_singleton, ← isBelow_iff, isBelow_gitPath hnamed hname] at hbelow
    obtain ⟨hlength, rest, rfl⟩ := hbelow
    refine isInside_iff.mpr ⟨rest, ?_, rfl⟩
    rintro rfl
    simp at hlength
  tail := by
    rintro name x y hx hy ⟨hnamed, hnamed', h⟩
    rw [toList_gitPath_cons hx, toList_gitPath_cons hy, append_lt_append_iff] at h
    exact ⟨⟨hx, fun other hother ↦ hnamed.2 other (List.mem_cons_of_mem _ hother)⟩,
      ⟨hy, fun other hother ↦ hnamed'.2 other (List.mem_cons_of_mem _ hother)⟩,
      (List.cons_lt_cons_iff.mp h).resolve_left (lt_irrefl _) |>.2⟩
  directories := by
    rintro a b x y hx hy hne ⟨hnamed, hnamed', h⟩
    obtain ⟨p, hp, rfl⟩ := isInside_iff.mp hx
    obtain ⟨q, hq, rfl⟩ := isInside_iff.mp hy
    rw [toList_gitPath_cons hp, toList_gitPath_cons hq] at h
    exact append_slash_lt (hnamed.2 a List.mem_cons_self).noSlash
      (hnamed'.2 b List.mem_cons_self).noSlash (fun heq ↦ hne (String.toList_inj.mp heq)) h
  files := by
    rintro a b ⟨-, -, h⟩
    rwa [toList_gitPath_singleton, toList_gitPath_singleton] at h

/-! ## The same rows in both orders -/

section

variable {rows listed : List (List String)} (hrows : rows.Pairwise pathBefore)
  (hlisted : listed.Pairwise fun a b ↦ Path.partsBefore a b = true)
  (hmem : ∀ row, row ∈ rows ↔ row ∈ listed)

include hrows hlisted hmem

/-- The files of a directory are the same. -/
private theorem filesAt_eq (front : List String) : filesAt front rows = filesAt front listed := by
  have : Std.Irrefl fun a b : File ↦ a.name.toList < b.name.toList := ⟨fun _ ↦ lt_irrefl _⟩
  have : Std.Antisymm fun a b : File ↦ a.name.toList < b.name.toList :=
    ⟨fun _ _ hab hba ↦ absurd hba hab.asymm⟩
  exact (rowOrder_paths.pairwise_filesAt hrows front).eq_of_mem_iff
    (rowOrder_names.pairwise_filesAt hlisted front) fun f ↦ by simp only [mem_filesAt, hmem]

/-- The directories are the same once they are sorted. -/
private theorem insertionSort_heads :
    (heads listed).insertionSort (fun a b ↦ a.toList ++ ['/'] ≤ b.toList ++ ['/']) = heads rows := by
  have htotal : Std.Total fun a b : String ↦ a.toList ++ ['/'] ≤ b.toList ++ ['/'] :=
    ⟨fun a b ↦ le_total (a.toList ++ ['/']) (b.toList ++ ['/'])⟩
  have htrans : IsTrans String fun a b ↦ a.toList ++ ['/'] ≤ b.toList ++ ['/'] :=
    ⟨fun _ _ _ hab hbc ↦ le_trans (α := List Char) hab hbc⟩
  have hsorted := rowOrder_paths.pairwise_heads hrows
  have hperm : (heads listed).Perm (heads rows) :=
    (List.perm_ext_iff_of_nodup
      ((rowOrder_names.pairwise_heads hlisted).imp fun hlt heq ↦ hlt.ne (congrArg _ heq))
      (hsorted.imp fun hlt heq ↦ hlt.ne (congrArg (·.toList ++ ['/']) heq))).mpr
      fun name ↦ by simp only [mem_heads, hmem]
  refine ((List.perm_insertionSort _ _).trans hperm).eq_of_pairwise ?_
    (List.pairwise_insertionSort _ _) (hsorted.imp le_of_lt)
  intro a b _ _ hab hba
  exact String.toList_inj.mp (List.append_cancel_right (le_antisymm hab hba))

/-- The subdirectories of a directory are the same once they are sorted, at every level. -/
theorem subtrees_eq_allInTreeOrder (n : Nat) (front : List String) :
    subtrees n front rows = Directory.allInTreeOrder (subtrees n front listed) := by
  induction n generalizing front rows listed with
  | zero => rw [subtrees, subtrees, Directory.allInTreeOrder]
  | succ n ih =>
    rw [Directory.allInTreeOrder_eq, subtrees, subtrees, List.map_map,
      ← List.map_insertionSort (r := fun a b : String ↦ a.toList ++ ['/'] ≤ b.toList ++ ['/']),
      insertionSort_heads hrows hlisted hmem]
    · refine List.map_congr_left fun name _ ↦ ?_
      have hbelow : ∀ row, row ∈ below name rows ↔ row ∈ below name listed :=
        fun row ↦ by simp only [mem_below, hmem]
      have hinner := rowOrder_paths.pairwise_below hrows name
      have hinner' := rowOrder_names.pairwise_below hlisted name
      rw [Function.comp_apply, Directory.inTreeOrder, ih hinner hinner' hbelow,
        filesAt_eq hinner hinner' hbelow]
    · intro a _ b _
      rw [Function.comp_apply, Function.comp_apply, Directory.TreeLE, Directory.treeKey,
        Directory.treeKey, Directory.name_inTreeOrder, Directory.name_inTreeOrder]
      rfl

end

/-- A listing has the subdirectories of every directory in the order of their names. -/
theorem pairwise_subtrees {rows : List (List String)}
    (hrows : rows.Pairwise fun a b ↦ Path.partsBefore a b = true) (n : Nat) (front : List String) :
    (subtrees n front rows).Pairwise (fun a b ↦ a.name.toList < b.name.toList) ∧
      ∀ d ∈ Directory.allOf (subtrees n front rows),
        d.directories.Pairwise fun a b ↦ a.name.toList < b.name.toList := by
  induction n generalizing front rows with
  | zero => simp [subtrees, Directory.allOf]
  | succ n ih =>
    rw [subtrees, List.pairwise_map]
    refine ⟨rowOrder_names.pairwise_heads hrows, fun d hd ↦ ?_⟩
    obtain ⟨e, he, hd⟩ := Directory.mem_allOf.mp hd
    obtain ⟨name, -, rfl⟩ := List.mem_map.mp he
    obtain ⟨hhere, hdeeper⟩ := ih (rowOrder_names.pairwise_below hrows name) (front ++ [name])
    rw [Directory.all, List.mem_cons] at hd
    rcases hd with rfl | hd
    · exact hhere
    · exact hdeeper d hd

/-! ## Outlines of a listing and of a tree -/

private theorem sharedLength_eq (a b : List String) : sharedLength a b = shared a b := by
  induction a generalizing b with
  | nil => rfl
  | cons x a ih =>
    cases b with
    | nil => rfl
    | cons y b => rw [sharedLength, shared, ih]

/-- A listing is walked as a tree is. -/
theorem entriesFrom_eq {opened : List String} {rows : List (List String)}
    (h : ∀ row ∈ rows, row ≠ []) : entriesFrom opened rows = some (walkFrom opened rows) := by
  induction rows generalizing opened with
  | nil => rfl
  | cons row rest ih =>
    obtain ⟨hrow, hrest⟩ := List.forall_mem_cons.mp h
    rw [entriesFrom, if_neg (by simpa using hrow)]
    simp only [ih hrest, walkFrom, sharedLength_eq]
    rfl

private theorem sorted_insertParts {row : List String} {rows : List (List String)}
    (h : rows.Pairwise fun a b ↦ Path.partsBefore a b = true) :
    (insertParts row rows).Pairwise fun a b ↦ Path.partsBefore a b = true := by
  induction rows with
  | nil => exact List.pairwise_singleton _ _
  | cons head rest ih =>
    obtain ⟨hhead, hrest⟩ := List.pairwise_cons.mp h
    rw [insertParts]
    split
    · exact h
    · next hne =>
      split
      · next hlt =>
        refine List.pairwise_cons.mpr ⟨List.forall_mem_cons.mpr ⟨hlt, fun other hother ↦ ?_⟩, h⟩
        rw [Path.partsBefore_iff] at hlt ⊢
        exact hlt.trans (Path.partsBefore_iff.mp (hhead other hother))
      · next hge =>
        refine List.pairwise_cons.mpr ⟨fun other hother ↦ ?_, ih hrest⟩
        rcases mem_insertParts.mp hother with rfl | hother
        · rw [Path.partsBefore_iff, not_lt] at hge
          refine Path.partsBefore_iff.mpr (lt_of_le_of_ne hge fun heq ↦ hne (beq_iff_eq.mpr ?_))
          exact (List.map_injective_iff.mpr (fun _ _ ↦ String.toList_inj.mp) heq).symm
        · exact hhead other hother

/-- The components of paths are listed in order. -/
theorem pairwise_orderedParts (paths : List String) :
    (orderedParts paths).Pairwise fun a b ↦ Path.partsBefore a b = true := by
  rw [orderedParts]
  generalize (paths.filter (· != "")).map (fun path ↦ (Path.ofString path).parts) = rows
  induction rows with
  | nil => exact .nil
  | cons row rest ih => exact sorted_insertParts ih

/-- The paths of rows have the rows as their components. -/
private theorem mem_orderedParts_gitPath {rows : List (List String)}
    (h : ∀ row ∈ rows, Named row) (row : List String) :
    row ∈ orderedParts (rows.map gitPath) ↔ row ∈ rows := by
  have hparts : ∀ row ∈ rows, (Path.ofString (gitPath row)).parts = row := fun row hrow ↦ by
    rw [ofString_gitPath (h row hrow)]
    rfl
  simp only [mem_orderedParts, List.mem_map, exists_exists_and_eq_and]
  constructor
  · rintro ⟨other, hother, -, rfl⟩
    rwa [hparts other hother]
  · intro hrow
    refine ⟨row, hrow, fun hempty ↦ (h row hrow).1 ?_, hparts row hrow⟩
    rw [← hparts row hrow, hempty]
    rfl

/-- Rows in the order of a tree make two outlines: that of the listing of their paths, and that of
the tree, which is the first in the order of trees. -/
theorem exists_outlines {rows : List (List String)} (hnamed : ∀ row ∈ rows, Named row)
    (hsorted : rows.Pairwise fun a b ↦
      (gitPath a).toList < (gitPath b).toList) :
    ∃ walk listing, entriesOfPaths (rows.map gitPath) = some walk ∧
      build walk = .ok listing ∧ build (walkFrom [] rows) = .ok listing.inTreeOrder ∧
      ∀ d ∈ listing.all, d.directories.Pairwise fun a b ↦ a.name.toList < b.name.toList := by
  have hlisted := pairwise_orderedParts (rows.map gitPath)
  have hmem := mem_orderedParts_gitPath hnamed
  have hrows : rows.Pairwise pathBefore :=
    hsorted.imp_of_mem fun ha hb hlt ↦ ⟨hnamed _ ha, hnamed _ hb, hlt⟩
  have hnonempty : ∀ row ∈ rows, row ≠ [] := fun row hrow ↦ (hnamed row hrow).1
  obtain ⟨n, hn⟩ : ∃ n, ∀ row ∈ rows, row.length ≤ n :=
    ⟨_, fun row hrow ↦ (List.sublist_flatten_of_mem hrow).length_le⟩
  have hnonempty' := fun row hrow ↦ hnonempty row ((hmem row).mp hrow)
  refine ⟨_, _, entriesFrom_eq hnonempty',
    rowOrder_names.build_walkFrom hlisted hnonempty' fun row hrow ↦ hn row ((hmem row).mp hrow),
    ?_, ?_⟩
  · rw [rowOrder_paths.build_walkFrom hrows hnonempty hn, Directory.inTreeOrder,
      subtrees_eq_allInTreeOrder hrows hlisted (fun row ↦ (hmem row).symm),
      filesAt_eq hrows hlisted (fun row ↦ (hmem row).symm)]
  · obtain ⟨hhere, hdeeper⟩ := pairwise_subtrees hlisted n []
    rw [Directory.all]
    exact List.forall_mem_cons.mpr ⟨hhere, hdeeper⟩

/-- An outline whose subdirectories are ordered by their names is in the order of trees exactly if
no directory in it is overtaken by a sibling. -/
theorem Directory.inTreeOrder_eq_self_iff_not_overtakes {d : Directory}
    (h : ∀ e ∈ d.all, e.directories.Pairwise fun a b ↦ a.name.toList < b.name.toList) :
    d.inTreeOrder = d ↔
      ∀ e ∈ d.all, ∀ a ∈ e.directories, ∀ b ∈ e.directories, ¬ Overtakes a.name b.name := by
  rw [inTreeOrder_eq_self_iff]
  refine forall₂_congr fun e he ↦ ⟨fun htree a ha b hb hover ↦ ?_, fun hnot ↦ ?_⟩
  · -- the one that overtakes comes second as a name, and first as a directory
    have hself : ∀ x ∈ e.directories, ¬ Overtakes x.name x.name :=
      fun x _ hover ↦ lt_irrefl _ hover.lt
    have hahead : e.directories.Pairwise fun x y ↦ ¬ Overtakes x.name y.name :=
      (h e he).imp fun hlt hover ↦ hover.lt.asymm hlt
    have hbehind : e.directories.Pairwise fun x y ↦ ¬ Overtakes y.name x.name :=
      ((h e he).and htree).imp fun ⟨hlt, hle⟩ hover ↦ not_lt.mpr hle ((overtakes_iff hlt).mpr hover)
    exact hahead.forall_of_forall_of_flip hself hbehind ha hb hover
  · refine (h e he).imp_of_mem fun ha hb hlt ↦ not_lt.mp fun hkey ↦ ?_
    exact hnot _ hb _ ha ((overtakes_iff hlt).mp hkey)

end Guidebook.Outline
