import Guidebook.Proofs.Git.WorkTree
import Guidebook.Proofs.Outline.Paths

/-!
# Walks of snapshots

The walk of a directory lists its files in the order of the snapshot, each by its path relative to
the directory. Submodules are left out, though the directories on the way to them are not.
-/

namespace Guidebook.Git

open Outline WorkTree

namespace Snapshot

/-- The files below a directory that is given by its components. -/
def filesIn (s : Snapshot) (dir : List String) : Snapshot :=
  s.filter fun leaf ↦ !leaf.isSubmodule &&
    (dir.length < (components leaf.path).length && Path.hasPrefix dir (components leaf.path))

theorem mem_filesIn {s : Snapshot} {dir : List String} {leaf : Leaf} :
    leaf ∈ s.filesIn dir ↔ leaf ∈ s ∧ leaf.isSubmodule = false ∧
      dir.length < (components leaf.path).length ∧ dir <+: components leaf.path := by
  rw [filesIn, List.mem_filter, Bool.and_eq_true, Bool.and_eq_true, Bool.not_eq_true',
    decide_eq_true_eq, Path.hasPrefix_iff]

theorem Sound.filesIn {s : Snapshot} (h : s.Sound) (dir : List String) : (s.filesIn dir).Sound :=
  h.filter _

/-- A path relative to a directory. -/
def pathFrom (dir : List String) (path : String) : String :=
  gitPath ((components path).drop dir.length)

/-- Paths below a directory are told apart by what follows the directory. -/
theorem pathFrom_inj {dir : List String} {a b : String} (ha : dir <+: components a)
    (hb : dir <+: components b) (hlong : dir.length < (components a).length)
    (hlong' : dir.length < (components b).length) (h : pathFrom dir a = pathFrom dir b) :
    a = b := by
  obtain ⟨rest, hrest⟩ := ha
  obtain ⟨rest', hrest'⟩ := hb
  have hne : ∀ {names tail : List String}, dir ++ tail = names → dir.length < names.length →
      tail ≠ [] := by
    rintro names tail rfl hlength rfl
    rw [List.append_nil] at hlength
    exact lt_irrefl _ hlength
  have hpath : gitPath (dir ++ rest) = gitPath (dir ++ rest') := by
    rw [pathFrom, pathFrom, ← hrest, ← hrest', List.drop_left, List.drop_left] at h
    by_cases hdir : dir = []
    · rw [hdir, List.nil_append, List.nil_append, h]
    · rw [← String.toList_inj, toList_gitPath_append hdir (hne hrest hlong),
        toList_gitPath_append hdir (hne hrest' hlong'), h]
  rw [← gitPath_components a, ← gitPath_components b, ← hrest, ← hrest', hpath]

private theorem filePaths_walkFrom (opened : List String) (rows : List (List String)) :
    filePaths (walkFrom opened rows) = rows.map gitPath := by
  induction rows generalizing opened with
  | nil => rfl
  | cons names rest ih =>
    have hdirectories : ∀ levels : List Nat, filePaths (levels.map fun level ↦
        entry .directory (names.dropLast.take (level + 1))) = [] := by
      intro levels
      rw [filePaths, List.filter_eq_nil_iff.mpr, List.map_nil]
      intro e he
      obtain ⟨level, -, rfl⟩ := List.mem_map.mp he
      exact Bool.false_ne_true
    rw [walkFrom, filePaths_append, hdirectories, List.nil_append, ← List.singleton_append,
      filePaths_append, ih]
    rfl

private theorem filePaths_filter (q : String → Bool) (entries : List WalkEntry) :
    filePaths (entries.filter fun e ↦ !(e.kind == .file && q e.path)) =
      (filePaths entries).filter (!q ·) := by
  rw [filePaths, filePaths, List.filter_filter, List.filter_map, List.filter_filter]
  congr 1
  refine List.filter_congr fun e _ ↦ ?_
  cases e.kind == .file <;> simp

private theorem nodup_relative {s : Snapshot} (hs : s.Sound) (dir : List String) :
    ((relative dir s).map fun row ↦ gitPath row.1).Nodup := by
  rw [List.Nodup, List.pairwise_map, relative, List.pairwise_filterMap]
  refine hs.sorted.imp fun {a b} hlt row hrow row' hrow' heq ↦ ?_
  simp only [Option.ite_none_right_eq_some, Option.some.injEq, Bool.and_eq_true, decide_eq_true_eq,
    Path.hasPrefix_iff] at hrow hrow'
  obtain ⟨⟨hlong, hfront⟩, rfl⟩ := hrow
  obtain ⟨⟨hlong', hfront'⟩, rfl⟩ := hrow'
  exact hlt.ne (congrArg String.toList (pathFrom_inj hfront hfront' hlong hlong' heq))

private theorem map_relative (s : Snapshot) (dir : List String) :
    ((relative dir s).filter (!·.2)).map (fun row ↦ gitPath row.1) =
      (s.filesIn dir).map fun leaf ↦ pathFrom dir leaf.path := by
  induction s with
  | nil => rfl
  | cons leaf rest ih =>
    rw [filesIn] at ih ⊢
    rw [relative, List.filterMap_cons, List.filter_cons]
    by_cases hbelow : (dir.length < (components leaf.path).length &&
        Path.hasPrefix dir (components leaf.path)) = true
    · cases hmodule : leaf.isSubmodule with
      | true => simpa [hbelow, hmodule, relative] using ih
      | false => simpa [hbelow, hmodule, relative, pathFrom] using ih
    · simpa [hbelow, relative] using ih

/-- The files of a walk are those below its directory, in their order. -/
theorem filePaths_walk {s : Snapshot} (hs : s.Sound) (dir : List String) :
    filePaths (s.walk dir) = (s.filesIn dir).map fun leaf ↦ pathFrom dir leaf.path := by
  have hnodup := nodup_relative hs dir
  -- the path of a submodule is that of no other row
  have hmodule : ∀ row ∈ relative dir s,
      (((relative dir s).filter (·.2)).map (·.1)).any (fun names ↦ gitPath names == gitPath row.1) =
        row.2 := by
    intro row hrow
    rw [Bool.eq_iff_iff, List.any_eq_true]
    constructor
    · rintro ⟨names, hnames, heq⟩
      obtain ⟨other, hother, rfl⟩ := List.mem_map.mp hnames
      obtain ⟨hother, hkind⟩ := List.mem_filter.mp hother
      rw [List.inj_on_of_nodup_map hnodup hother hrow (beq_iff_eq.mp heq)] at hkind
      exact hkind
    · intro hkind
      exact ⟨row.1, List.mem_map_of_mem (List.mem_filter.mpr ⟨hrow, hkind⟩), beq_self_eq_true _⟩
  refine (filePaths_filter (fun path ↦ (((relative dir s).filter (·.2)).map (·.1)).any
    fun names ↦ gitPath names == path) _).trans ?_
  rw [filePaths_walkFrom, List.map_map, List.filter_map, ← map_relative]
  congr 1
  refine List.filter_congr fun row hrow ↦ ?_
  exact congrArg _ (hmodule row hrow)

/-- Without submodules the walk of a directory is that of its files. -/
theorem walk_eq_walkFrom {s : Snapshot} {dir : List String}
    (h : ∀ leaf ∈ s, dir <+: components leaf.path → leaf.isSubmodule = false) :
    s.walk dir =
      walkFrom [] ((s.filesIn dir).map fun leaf ↦ (components leaf.path).drop dir.length) := by
  have hrow : ∀ row ∈ relative dir s, row.2 = false := by
    intro row hrow
    obtain ⟨leaf, hleaf, heq⟩ := List.mem_filterMap.mp hrow
    simp only [Option.ite_none_right_eq_some, Option.some.injEq, Bool.and_eq_true,
      Path.hasPrefix_iff] at heq
    obtain ⟨⟨-, hfront⟩, rfl⟩ := heq
    exact h leaf hleaf hfront
  have hrows : (relative dir s).map (·.1) =
      (s.filesIn dir).map fun leaf ↦ (components leaf.path).drop dir.length := by
    rw [relative, List.map_filterMap, filesIn, ← List.filterMap_eq_map, List.filterMap_filter]
    refine List.filterMap_congr fun leaf hleaf ↦ ?_
    by_cases hbelow : (dir.length < (components leaf.path).length &&
        Path.hasPrefix dir (components leaf.path)) = true
    · have hfront := Path.hasPrefix_iff.mp (Bool.and_eq_true_iff.mp hbelow).2
      simp [hbelow, h leaf hleaf hfront]
    · simp [hbelow]
  have hmodules : (relative dir s).filter (·.2) = [] :=
    List.filter_eq_nil_iff.mpr fun row hmem ↦ by simp [hrow row hmem]
  rw [walk, hmodules, hrows]
  exact List.filter_eq_self.mpr fun e _ ↦ by simp

end Snapshot

end Guidebook.Git
