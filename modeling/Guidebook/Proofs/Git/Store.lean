import Guidebook.Git.Recorded
import Guidebook.Proofs.Git.WorkTree
import Guidebook.Proofs.Git.Client
import Guidebook.Text.Number

/-!
# Stores as histories

The commits of a store have different ids, so the store records its own history. The paths in its
snapshots are made of components, which every way to change the store keeps.
-/

namespace Guidebook

namespace Text

private theorem hexValue_digitChar {n : Nat} (h : n < 16) : hexValue n.digitChar = n := by
  have hall : ∀ k < 16, hexValue (Nat.digitChar k) = k := by decide
  exact hall n h

/-- The number that hexadecimal digits stand for. -/
private def hexNumber (digits : List Char) : Nat :=
  digits.foldl (fun n c ↦ 16 * n + hexValue c) 0

private theorem hexNumber_toDigits (n : Nat) : hexNumber (Nat.toDigits 16 n) = n := by
  induction n using Nat.strongRecOn with
  | ind n ih =>
    rw [Nat.toDigits_eq_if (by decide)]
    split
    · next hlt => simp [hexNumber, hexValue_digitChar hlt]
    · next hge =>
      have hrest := ih (n / 16) (by omega)
      have hlast := hexValue_digitChar (Nat.mod_lt n (by decide : 0 < 16))
      rw [hexNumber] at hrest ⊢
      rw [List.foldl_append, hrest, List.foldl_cons, List.foldl_nil, hlast]
      omega

private theorem hexNumber_zeros (count : Nat) (digits : List Char) :
    hexNumber (List.replicate count '0' ++ digits) = hexNumber digits := by
  induction count with
  | zero => rfl
  | succ count ih => exact ih

/-- Different numbers have different digits. -/
theorem hexDigits_inj {width a b : Nat} (h : hexDigits width a = hexDigits width b) : a = b := by
  have hnumber := congrArg hexNumber h
  simp only [hexDigits, hexNumber_zeros, hexNumber_toDigits] at hnumber
  exact hnumber

/-- Hexadecimal digits are those. -/
theorem isHexDigit_of_mem_hexDigits {width n : Nat} {c : Char} (h : c ∈ hexDigits width n) :
    isHexDigit c = true := by
  have hdigit : ∀ k < 16, isHexDigit (Nat.digitChar k) = true := by decide
  rw [hexDigits, List.mem_append] at h
  rcases h with h | h
  · rw [List.eq_of_mem_replicate h]
    rfl
  · induction n using Nat.strongRecOn with
    | ind n ih =>
      rw [Nat.toDigits_eq_if (by decide)] at h
      split at h
      · next hlt =>
        rw [List.mem_singleton.mp h]
        exact hdigit n hlt
      · rcases List.mem_append.mp h with h | h
        · exact ih (n / 16) (by omega) h
        · rw [List.mem_singleton.mp h]
          exact hdigit _ (Nat.mod_lt n (by decide))

end Text

namespace Git

/-- A command can be handed over exactly if none of its words has a NUL in it. -/
theorem handOver_eq_ok_iff {command : Command} :
    handOver command = .ok () ↔ ∀ word ∈ command.arguments, '\x00' ∉ word.toList := by
  have hnul : command.arguments.any (·.toList.contains '\x00') = true ↔
      ∃ word ∈ command.arguments, '\x00' ∈ word.toList := by
    simp only [List.any_eq_true, List.contains_iff_mem]
  rw [handOver]
  split
  · next h =>
    refine iff_of_false (by rintro ⟨⟩) fun hall ↦ ?_
    obtain ⟨word, hword, hmem⟩ := hnul.mp h
    exact hall word hword hmem
  · next h => exact iff_of_true rfl fun word hword hmem ↦ h (hnul.mpr ⟨word, hword, hmem⟩)

private theorem toList_commitId (number position : Nat) : (commitId number position).toList =
    "c0de".toList ++ Text.hexDigits 12 number ++ Text.hexDigits 24 position :=
  String.toList_ofList

/-- Commits of a repository have different ids at different positions. -/
theorem commitId_inj {number a b : Nat} (h : commitId number a = commitId number b) : a = b := by
  have hchars := String.ofList_injective h
  exact Text.hexDigits_inj (List.append_cancel_left hchars)

/-- Ids of commits are names. -/
theorem isName_commitId (number position : Nat) : IsName (commitId number position) := by
  intro c hc
  rw [toList_commitId, List.mem_append, List.mem_append] at hc
  rcases hc with (hc | hc) | hc
  · have hall : ("c0de".toList.all Text.isHexDigit) = true := by decide
    exact List.all_eq_true.mp hall c hc
  · exact Text.isHexDigit_of_mem_hexDigits hc
  · exact Text.isHexDigit_of_mem_hexDigits hc

namespace Snapshot

/-- A snapshot whose paths are made of components. -/
def Named (s : Snapshot) : Prop :=
  ∀ leaf ∈ s, ∃ names, WorkTree.Named names ∧ leaf.path = WorkTree.gitPath names

/-- A path is made of components if it comes apart into components. -/
theorem named_iff {s : Snapshot} :
    s.Named ↔ ∀ leaf ∈ s, ∀ name ∈ components leaf.path, Path.IsPart name := by
  constructor
  · intro h leaf hleaf
    obtain ⟨names, hnames, hpath⟩ := h leaf hleaf
    rw [hpath, WorkTree.components_gitPath hnames]
    exact hnames.2
  · intro h leaf hleaf
    refine ⟨components leaf.path, ⟨?_, h leaf hleaf⟩, (WorkTree.gitPath_components _).symm⟩
    simpa [components, Text.splitOnChar] using Text.splitBy_ne_nil leaf.path.toList

instance (s : Snapshot) : Decidable s.Named := decidable_of_iff _ named_iff.symm

private theorem path_walkFrom {rows : List (List String)} (h : ∀ names ∈ rows, WorkTree.Named names)
    (opened : List String) :
    ∀ e ∈ walkFrom opened rows, e.kind = .file →
      ∃ names, WorkTree.Named names ∧ e.path = WorkTree.gitPath names := by
  induction rows generalizing opened with
  | nil => simp [walkFrom]
  | cons names rows ih =>
    intro e he hfile
    rw [walkFrom, List.mem_append, List.mem_cons] at he
    rcases he with he | rfl | he
    · obtain ⟨level, -, rfl⟩ := List.mem_map.mp he
      cases hfile
    · exact ⟨names, h names (by simp), rfl⟩
    · exact ih (fun other ho ↦ h other (by simp [ho])) _ e he hfile

/-- The files that the walk of a directory lists have paths made of components. -/
theorem Named.walk {s : Snapshot} (h : s.Named) (dir : List String) :
    ∀ e ∈ s.walk dir, e.kind = .file →
      ∃ names, WorkTree.Named names ∧ e.path = WorkTree.gitPath names := by
  intro e he hfile
  refine path_walkFrom ?_ [] e (List.mem_filter.mp he).1 hfile
  intro rest hrest
  obtain ⟨row, hrow, rfl⟩ := List.mem_map.mp hrest
  obtain ⟨leaf, hleaf, hsome⟩ := List.mem_filterMap.mp hrow
  obtain ⟨names, hnames, hpath⟩ := h leaf hleaf
  simp only at hsome
  split at hsome
  · next hbelow =>
    rw [hpath, WorkTree.components_gitPath hnames] at hsome hbelow
    rw [Bool.and_eq_true, decide_eq_true_eq] at hbelow
    rw [← Option.some.inj hsome]
    refine ⟨?_, fun name hname ↦ hnames.2 name (List.mem_of_mem_drop hname)⟩
    intro hnil
    have hlength := List.drop_eq_nil_iff.mp hnil
    omega
  · cases hsome

end Snapshot

/-- A leaf of a tree is read by its path. -/
theorem Snapshot.Sound.blobAt_eq {s : Snapshot} (h : s.Sound) {leaf : Leaf} (hleaf : leaf ∈ s)
    (oid : String) : (TreeHandle.mk oid s).blobAt leaf.path = .ok leaf.bytes := by
  rw [TreeHandle.blobAt]
  simp only [h.leaf?_eq hleaf]

/-- What is listed has paths made of components. -/
theorem WorkTree.Sound.named_listed {w : WorkTree} (hw : w.Sound) (hstaged : w.store.staged.Named)
    {place names : List String} (h : names ∈ w.tracked place ++ w.others place) :
    WorkTree.Named names := by
  rcases List.mem_append.mp h with htracked | hother
  · obtain ⟨⟨leaf, hleaf, rfl⟩, -⟩ := WorkTree.mem_tracked.mp htracked
    obtain ⟨parts, hparts, heq⟩ := hstaged leaf hleaf
    rwa [heq, WorkTree.components_gitPath hparts]
  · obtain ⟨⟨file, hfile, rfl⟩, -⟩ := WorkTree.mem_others.mp hother
    exact hw.named file hfile

namespace Store

/-- A store that came about by staging files and recording what is staged. -/
structure Tidy (s : Store) : Prop where
  staged : s.staged.Named
  commits : ∀ commit ∈ s.commits, commit.snapshot.Named
  ids : s.commits.map (·.oid) = (List.range s.commits.length).map (commitId s.number)

variable {s : Store}

theorem Tidy.head (h : s.Tidy) : s.head.Named := by
  rw [Store.head]
  split
  · next commit hcommit => exact h.commits commit (List.mem_of_getLast? hcommit)
  · intro leaf hleaf
    cases hleaf

/-- A fresh store is tidy. -/
theorem tidy_empty (number : Nat) : (empty number).Tidy :=
  ⟨by simp [empty, Snapshot.Named], by simp [empty], rfl⟩

/-- Staging other leaves whose paths are made of components keeps a store tidy. -/
theorem Tidy.withStaged (h : s.Tidy) {staged : Snapshot} (hstaged : staged.Named) :
    (s.withStaged staged).Tidy :=
  ⟨hstaged, h.commits, h.ids⟩

/-- Setting back what is staged keeps a store tidy. -/
theorem Tidy.unstage (h : s.Tidy) (covers : String → Bool) : (s.unstage covers).Tidy := by
  refine ⟨fun leaf hleaf ↦ ?_, h.commits, h.ids⟩
  rcases Snapshot.mem_of_mem_foldl_put hleaf with hleaf | hleaf
  · exact h.head leaf (List.mem_filter.mp hleaf).1
  · exact h.staged leaf (List.mem_filter.mp hleaf).1

/-- Recording keeps a store tidy. -/
theorem Tidy.record (h : s.Tidy) (message committer : String) :
    (s.record message committer).Tidy := by
  refine ⟨h.staged, fun commit hcommit ↦ ?_, ?_⟩
  · rcases List.mem_append.mp hcommit with hcommit | hcommit
    · exact h.commits commit hcommit
    · rw [List.mem_singleton.mp hcommit]
      exact h.staged
  · rw [Store.record]
    simp only [List.map_append, List.length_append, List.length_singleton, List.range_succ, h.ids,
      List.map_singleton]

/-- What is recorded is the new head. -/
@[simp] theorem head_record (s : Store) (message committer : String) :
    (s.record message committer).head = s.staged := by
  rw [Store.record, Store.head, List.getLast?_concat]

theorem Tidy.nodup (h : s.Tidy) : (s.commits.map (·.oid)).Nodup := by
  rw [h.ids]
  exact List.nodup_range.map fun a b hab ↦ commitId_inj hab

/-- Different commits have different ids. -/
theorem Tidy.eq_of_oid_eq (h : s.Tidy) {a b : Commit} (ha : a ∈ s.commits) (hb : b ∈ s.commits)
    (heq : a.oid = b.oid) : a = b :=
  List.inj_on_of_nodup_map h.nodup ha hb heq

theorem Tidy.oid_eq (h : s.Tidy) {commit : Commit} (hcommit : commit ∈ s.commits) :
    ∃ position, commit.oid = commitId s.number position := by
  have hmem : commit.oid ∈ s.commits.map (·.oid) := List.mem_map_of_mem hcommit
  rw [h.ids] at hmem
  obtain ⟨position, -, heq⟩ := List.mem_map.mp hmem
  exact ⟨position, heq.symm⟩

/-- No commit has the name of the current one for its id. -/
theorem Tidy.oid_ne_headName (h : s.Tidy) {commit : Commit} (hcommit : commit ∈ s.commits) :
    commit.oid ≠ headName := by
  obtain ⟨position, hoid⟩ := h.oid_eq hcommit
  rw [hoid]
  intro heq
  have hhead := congrArg String.toList heq
  rw [toList_commitId] at hhead
  cases hhead

/-- A commit is found by its id. -/
theorem Tidy.commit?_oid (h : s.Tidy) {commit : Commit} (hcommit : commit ∈ s.commits) :
    s.commit? commit.oid = some commit := by
  have hname := beq_eq_false_iff_ne.mpr (h.oid_ne_headName hcommit)
  rw [Store.commit?, hname, if_neg Bool.false_ne_true]
  cases hfind : s.commits.find? (·.oid == commit.oid) with
  | none =>
    have := List.find?_eq_none.mp hfind commit hcommit
    simp at this
  | some found =>
    have hfound : found.oid = commit.oid := by simpa using List.find?_some hfind
    rw [h.eq_of_oid_eq (List.mem_of_find?_eq_some hfind) hcommit hfound]

/-- A store records its history. -/
theorem Tidy.records (h : s.Tidy) (root : String) :
    (s.repository root).Records (fun commit ↦ ⟨treeId commit.oid, commit.snapshot⟩) (·.bytes)
      s.commits where
  treeOf := by
    intro commit hcommit revision hoid
    change s.treeOf revision = _
    rw [Store.treeOf, hoid, h.commit?_oid hcommit]
  added := by
    intro old _ new _
    change Except.ok (TreeHandle.addedTo _ _) = _
    rw [TreeHandle.addedTo, Option.map_map]
    rfl
  bytes _ _ _ _ _ := rfl

theorem mem_of_commit? {name : String} {commit : Commit} (h : s.commit? name = some commit) :
    commit ∈ s.commits := by
  rw [commit?] at h
  split at h
  · exact List.mem_of_getLast? h
  · exact List.mem_of_find?_eq_some h

/-- The walk of a directory of a commit lists what lies where git takes the path to lead. -/
theorem Tidy.walkTree_eq (h : s.Tidy) {commit : Commit} (hcommit : commit ∈ s.commits)
    {root dir : String} (hdir : '\x00' ∉ dir.toList) {place : List String}
    (hplace : treePathspec dir = .ok place) :
    (s.repository root).walkTree ⟨treeId commit.oid, commit.snapshot⟩ dir =
      .ok ((commit.snapshot.within place).walk (Path.ofString dir).parts) := by
  have htree : '\x00' ∉ (treeId commit.oid).toList := by
    obtain ⟨position, hoid⟩ := h.oid_eq hcommit
    have hname : IsName commit.oid := hoid ▸ isName_commitId _ _
    rw [treeId, String.toList_append, List.mem_append, not_or]
    refine ⟨by decide, fun hmem ↦ ?_⟩
    rw [String.toList_ofList] at hmem
    have hdigit := hname _ (List.mem_of_mem_drop hmem)
    revert hdigit
    decide
  have hwords : handOver (.subtree (treeId commit.oid) dir) = .ok () := by
    rw [handOver_eq_ok_iff]
    simpa [Command.arguments] using ⟨htree, hdir⟩
  change TreeHandle.walk _ _ = _
  rw [TreeHandle.walk]
  simp only [bind, Except.bind, hwords, hplace]

/-- The files of a directory of a commit have paths made of components. -/
theorem Tidy.walkTree (h : s.Tidy) {root dir : String} {revision : Revision} {tree : TreeHandle}
    {walk : List Outline.WalkEntry} (htree : (s.repository root).treeOf revision = .ok tree)
    (hwalk : (s.repository root).walkTree tree dir = .ok walk) :
    ∀ e ∈ walk, e.kind = .file →
      ∃ names, WorkTree.Named names ∧ e.path = WorkTree.gitPath names := by
  change s.treeOf revision = _ at htree
  change tree.walk dir = _ at hwalk
  rw [Store.treeOf] at htree
  split at htree
  · next commit hcommit =>
    obtain rfl := Except.ok.inj htree
    rw [TreeHandle.walk] at hwalk
    simp only [bind, Except.bind] at hwalk
    split at hwalk
    · cases hwalk
    · split at hwalk
      · cases hwalk
      · obtain rfl := Except.ok.inj hwalk
        have hnamed := h.commits commit (mem_of_commit? hcommit)
        exact Snapshot.Named.walk (fun leaf hleaf ↦ hnamed leaf (List.mem_filter.mp hleaf).1) _
  · cases htree

/-- The log of a store is read as its commits, each with the strays of its summary. -/
theorem Tidy.readLog (h : s.Tidy) :
    Git.readLog s.log = s.commits.flatMap fun commit ↦ commit.listed :: commit.strays := by
  refine readLog_write fun commit hcommit ↦ ?_
  obtain ⟨position, hoid⟩ := h.oid_eq hcommit
  exact IsName.loggable (hoid ▸ isName_commitId s.number position)

end Store

end Git

end Guidebook
