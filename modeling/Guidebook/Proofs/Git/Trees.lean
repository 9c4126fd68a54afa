import Guidebook.Proofs.Git.Store
import Guidebook.Proofs.Outline.Paths

/-!
# Trees listed

A tree is listed row by row, every directory right before the first leaf below it. What is printed
of the listing are the rows at or below a place, and the directories on the way there. Such rows are
read as a walk that a builder takes: a directory that is read comes before everything read below it.
-/

namespace Guidebook.Git

open Outline WorkTree

/-- What git knows of the trees that it has names for, and how it takes the paths of listings. -/
structure Trees extends ObjectNames where
  /-- The leaves of a tree. -/
  held : String → Snapshot
  /-- The name of a directory of a tree. -/
  directory : String → List String → String
  /-- The place in a tree that a path leads to, or the failure to list it. -/
  place : String → String → Except Failure (List String)

/-- The leaves below a directory, submodules left out. -/
def Snapshot.filesBelow (s : Snapshot) (dir : String) : List Leaf :=
  s.filter fun leaf ↦ !leaf.isSubmodule && isBelow leaf.path.toList dir.toList

/-- Whether the row is printed in a listing of a place. -/
def TreeRow.reaches (place : List String) (row : TreeRow) : Bool :=
  let names := Snapshot.components row.path
  Path.hasPrefix place names || row.kind == "tree" && Path.hasPrefix names place

/-- The walk entry of a row below a directory that is given by its components. -/
def TreeRow.below (dir : List String) (row : TreeRow) : Option WalkEntry :=
  let names := Snapshot.components row.path
  if (dir.length < names.length && Path.hasPrefix dir names) && row.mode != submoduleMode then
    some (Snapshot.entry (if row.kind == "tree" then .directory else .file)
      (names.drop dir.length))
  else none

/-- The walk entry of a row below a directory, if it is printed. -/
def TreeRow.shown (dir place : List String) (row : TreeRow) : Option WalkEntry :=
  if row.reaches place then row.below dir else none

namespace Trees

/-- The row of a directory of a tree. -/
def directoryRow (t : Trees) (tree : String) (names : List String) : TreeRow :=
  ⟨"040000", "tree", t.directory tree names, gitPath names⟩

/-- The rows of the directories on the way to a leaf that are not listed yet. -/
def parentRows (t : Trees) (tree : String) (opened parents : List String) : List TreeRow :=
  ((List.range parents.length).drop (Snapshot.shared opened parents)).map fun level ↦
    t.directoryRow tree (parents.take (level + 1))

/-- The rows of leaves, with the directories on the way to them, while some are listed already. -/
def rowsFrom (t : Trees) (tree : String) (opened : List String) : Snapshot → List TreeRow
  | [] => []
  | leaf :: rest =>
    let parents := (Snapshot.components leaf.path).dropLast
    t.parentRows tree opened parents ++ t.treeRow leaf :: t.rowsFrom tree parents rest

/-- The rows that a listing of a place prints. -/
def rows (t : Trees) (tree : String) (place : List String) : List TreeRow :=
  (t.rowsFrom tree [] (t.held tree)).filter (·.reaches place)

/-- What is read of a listing of a place, below a directory. -/
def walk (t : Trees) (tree : String) (dir place : List String) : List WalkEntry :=
  (t.rows tree place).filterMap (·.below dir)

end Trees

/-- A client that prints for trees what git prints for them: those that commits have. -/
structure Client.Lists (client : Client (Except Failure)) (t : Trees) (history : List Commit) :
    Prop where
  /-- The tree of a commit holds the leaves of the commit. -/
  held : ∀ commit ∈ history, t.held (t.tree commit) = commit.snapshot
  /-- Trees can exist. -/
  sound : ∀ revision tree, client.treeOf revision = .ok tree → (t.held tree).Sound
  /-- Paths in trees are made of components, none of them with a NUL. -/
  named : ∀ revision tree, client.treeOf revision = .ok tree →
    (t.held tree).Named ∧ ∀ leaf ∈ t.held tree, '\x00' ∉ leaf.path.toList
  /-- Blobs and directories are named by hexadecimal digits. -/
  names : ∀ revision tree, client.treeOf revision = .ok tree →
    (∀ leaf ∈ t.held tree, IsName (t.blob leaf)) ∧ ∀ names, IsName (t.directory tree names)
  /-- A listing prints the rows at the place that its path leads to. -/
  rows : ∀ revision tree, client.treeOf revision = .ok tree → ∀ dir,
    client.run (.subtree tree dir) =
      (t.place tree dir).map fun place ↦ Utf8.encode ((t.rows tree place).flatMap TreeRow.write)
  /-- A path that leads nowhere is refused by git, or cannot be handed to it. -/
  refused : ∀ revision tree, client.treeOf revision = .ok tree → ∀ dir failure,
    t.place tree dir = .error failure →
      (∃ problem, failure = .git (.subtree tree dir) problem) ∨ failure = .nullByte
  /-- A path that does not start with a colon leads to the place it names. -/
  literal : ∀ revision tree, client.treeOf revision = .ok tree → ∀ names, Named names →
    '\x00' ∉ (gitPath names).toList → (gitPath names).toList.head? ≠ some ':' →
      t.place tree (gitPath names) = .ok names
  /-- A blob is printed by its path in a tree. -/
  blobAt : ∀ revision tree, client.treeOf revision = .ok tree → ∀ leaf ∈ t.held tree,
    leaf.isSubmodule = false → client.run (.blob (tree ++ ":" ++ leaf.path)) = .ok leaf.bytes

/-! ## Rows below a directory -/

/-- The components of a path that a listing of a place prints below a directory. -/
structure Shown (dir place names : List String) : Prop where
  deeper : dir.length < names.length
  below : dir <+: names
  reached : place <+: names ∨ names <+: place

/-- The directories on the way to something shown are shown. -/
theorem Shown.take {dir place names : List String} (h : Shown dir place names) {k : Nat}
    (hdeep : dir.length < k) (hk : k ≤ names.length) : Shown dir place (names.take k) := by
  have htake : names.take k <+: names := List.take_prefix k names
  have hlength : (names.take k).length = k := List.length_take_of_le hk
  refine ⟨by omega, ?_, ?_⟩
  · apply List.prefix_of_prefix_length_le h.below htake
    omega
  · rcases h.reached with hplace | hplace
    · by_cases hle : place.length ≤ k
      · left
        apply List.prefix_of_prefix_length_le hplace htake
        omega
      · right
        apply List.prefix_of_prefix_length_le htake hplace
        omega
    · right
      exact htake.trans hplace

/-- A directory that is shown has an entry. -/
theorem Trees.shown_directoryRow (t : Trees) (tree : String) (dir place : List String)
    {names : List String} (hnames : Named names) :
    (Shown dir place names → (t.directoryRow tree names).shown dir place =
        some (Snapshot.entry .directory (names.drop dir.length))) ∧
      (¬ Shown dir place names → (t.directoryRow tree names).shown dir place = none) := by
  have hreaches : (t.directoryRow tree names).reaches place = true ↔
      place <+: names ∨ names <+: place := by
    simp [TreeRow.reaches, directoryRow, components_gitPath hnames, Path.hasPrefix_iff]
  have hbelow : (t.directoryRow tree names).below dir =
      if dir.length < names.length ∧ dir <+: names then
        some (Snapshot.entry .directory (names.drop dir.length)) else none := by
    simp [TreeRow.below, directoryRow, components_gitPath hnames, Path.hasPrefix_iff,
      submoduleMode]
  constructor
  · intro h
    rw [TreeRow.shown, if_pos (hreaches.mpr h.reached), hbelow, if_pos ⟨h.deeper, h.below⟩]
  · intro h
    unfold TreeRow.shown
    split
    · next hrow =>
      rw [hbelow, if_neg]
      exact fun hdir ↦ h ⟨hdir.1, hdir.2, hreaches.mp hrow⟩
    · rfl

/-- A leaf has an entry if it lies at or below the place, below the directory, and is
no submodule. -/
theorem Trees.shown_treeRow (t : Trees) (dir place : List String) {leaf : Leaf}
    {names : List String} (hnames : Named names) (hpath : leaf.path = gitPath names) :
    (t.treeRow leaf).shown dir place =
      if (dir.length < names.length ∧ dir <+: names) ∧ place <+: names ∧ leaf.isSubmodule = false
      then some (Snapshot.entry .file (names.drop dir.length)) else none := by
  have hkind : ((t.treeRow leaf).kind == "tree") = false := by
    cases hmodule : leaf.isSubmodule <;> simp [ObjectNames.treeRow, hmodule]
  have hmode : ((t.treeRow leaf).mode != submoduleMode) = !leaf.isSubmodule := by
    rw [bne]
    exact congrArg _ (modeNumber_eq_submoduleMode leaf)
  have hcomponents : Snapshot.components (t.treeRow leaf).path = names := by
    rw [ObjectNames.treeRow, hpath, components_gitPath hnames]
  simp only [TreeRow.shown, TreeRow.reaches, TreeRow.below, hkind, hmode, hcomponents,
    Bool.false_and, Bool.or_false, Path.hasPrefix_iff, Bool.and_eq_true, decide_eq_true_eq,
    Bool.not_eq_true', Bool.false_eq_true, if_false]
  by_cases hplace : place <+: names
  · simp [hplace]
  · simp [hplace]

/-- Components at the front of others are components of a path. -/
theorem named_take {names : List String} (h : ∀ name ∈ names, Path.IsPart name) {level : Nat}
    (hlevel : level < names.length) : Named (names.take (level + 1)) := by
  refine ⟨?_, fun name hname ↦ h name (List.mem_of_mem_take hname)⟩
  intro hnil
  have hlength := congrArg List.length hnil
  rw [List.length_take, List.length_nil] at hlength
  omega

/-! ## Listings that fit -/

/-- Where a builder stands once directories are listed: what is shown of them is open. -/
structure Open (dir place : List String) (cursor : Int) (names : List String) : Prop where
  nonneg : 0 ≤ cursor
  shown : ∀ front, front <+: names → Shown dir place front →
    (front.length : Int) - dir.length ≤ cursor

/-- What is open stays so on the way back. -/
theorem Open.of_prefix {dir place front names : List String} {cursor : Int}
    (h : Open dir place cursor names) (hfront : front <+: names) : Open dir place cursor front :=
  ⟨h.nonneg, fun other ho ↦ h.shown other (ho.trans hfront)⟩

/-- With everything on the way to it open, an entry lies at most one level below the cursor. -/
theorem Open.depth_le {dir place names : List String} {cursor : Int}
    (h : Open dir place cursor names.dropLast) (hshown : Shown dir place names) :
    (names.length : Int) - dir.length ≤ cursor + 1 := by
  have hdeeper := hshown.deeper
  have hnonneg := h.nonneg
  by_cases hparent : dir.length < names.length - 1
  · have hfront := hshown.take hparent (by omega)
    rw [← List.dropLast_eq_take] at hfront
    have hcursor := h.shown _ List.prefix_rfl hfront
    rw [List.length_dropLast] at hcursor
    omega
  · omega

/-- Everything on the way to a directory is open once the directory is. -/
theorem Open.of_length_le {dir place names : List String} {cursor : Int} (hnonneg : 0 ≤ cursor)
    (h : (names.length : Int) - dir.length ≤ cursor) : Open dir place cursor names := by
  refine ⟨hnonneg, fun front hfront _ ↦ ?_⟩
  have hlength := hfront.length_le
  omega

private theorem take_shared (opened parents : List String) :
    parents.take (Snapshot.shared opened parents) <+: opened := by
  induction opened generalizing parents with
  | nil => cases parents <;> simp [Snapshot.shared]
  | cons a opened ih =>
    cases parents with
    | nil => simp
    | cons b parents =>
      by_cases hab : a = b
      · subst hab
        simpa [Snapshot.shared, List.cons_prefix_cons] using ih parents
      · simp [Snapshot.shared, hab]

private theorem shared_le (opened parents : List String) :
    Snapshot.shared opened parents ≤ parents.length := by
  induction opened generalizing parents with
  | nil => cases parents <;> simp [Snapshot.shared]
  | cons a opened ih =>
    cases parents with
    | nil => simp [Snapshot.shared]
    | cons b parents =>
      have hrest := ih parents
      rw [Snapshot.shared, List.length_cons]
      split <;> omega

namespace Trees

variable {t : Trees} {tree : String} {dir place : List String}

private theorem fits_parentRows {parents : List String}
    (hparents : ∀ name ∈ parents, Path.IsPart name)
    {back : List WalkEntry} (hback : ∀ cursor, Open dir place cursor parents → Fits cursor back)
    (count first : Nat) (hcount : first + count = parents.length) {cursor : Int}
    (h : Open dir place cursor (parents.take first)) :
    Fits cursor (((List.range' first count).map fun level ↦
      t.directoryRow tree (parents.take (level + 1))).filterMap (·.shown dir place) ++ back) := by
  induction count generalizing first cursor with
  | zero =>
    rw [List.take_of_length_le (by omega)] at h
    exact hback cursor h
  | succ count ih =>
    have hnamed := named_take hparents (show first < parents.length by omega)
    have hlength : (parents.take (first + 1)).length = first + 1 :=
      List.length_take_of_le (by omega)
    have hdrop : (parents.take (first + 1)).dropLast = parents.take first := by
      rw [List.dropLast_eq_take, hlength, List.take_take]
      congr 1
      omega
    obtain ⟨hentry, hnone⟩ := shown_directoryRow t tree dir place hnamed
    rw [List.range'_succ, List.map_cons]
    by_cases hshown : Shown dir place (parents.take (first + 1))
    · rw [List.filterMap_cons_some (hentry hshown), List.cons_append]
      have hdepth := (hdrop ▸ h : Open dir place cursor _).depth_le hshown
      have hdeeper := hshown.deeper
      have hcursor : ((parents.take (first + 1)).drop dir.length).length =
          first + 1 - dir.length := by rw [List.length_drop, hlength]
      rw [hlength] at hdepth hdeeper
      refine ⟨?_, ?_⟩
      · simp only [Snapshot.entry, hcursor]
        omega
      · apply ih (first + 1) (by omega)
        apply Open.of_length_le
        · simp only [WalkEntry.cursor, Snapshot.entry, hcursor]
          omega
        · simp only [WalkEntry.cursor, Snapshot.entry, hcursor, hlength]
          omega
    · rw [List.filterMap_cons_none (hnone hshown)]
      apply ih (first + 1) (by omega)
      refine ⟨h.nonneg, fun front hfront hfrontShown ↦ ?_⟩
      by_cases hwhole : front = parents.take (first + 1)
      · exact absurd (hwhole ▸ hfrontShown) hshown
      · apply h.shown front ?_ hfrontShown
        rw [← hdrop]
        apply List.prefix_of_prefix_length_le hfront (List.dropLast_prefix _)
        have hle := hfront.length_le
        have hne : front.length ≠ (parents.take (first + 1)).length := fun heq ↦
          hwhole (hfront.eq_of_length heq)
        rw [List.length_dropLast]
        omega

/-- What a listing shows below a directory is taken by a builder. -/
theorem fits_rowsFrom {s : Snapshot} (hs : s.Named) (opened : List String) {cursor : Int}
    (h : Open dir place cursor opened) :
    Fits cursor ((t.rowsFrom tree opened s).filterMap (·.shown dir place)) := by
  induction s generalizing opened cursor with
  | nil => trivial
  | cons leaf rest ih =>
    obtain ⟨names, hnames, hpath⟩ := hs leaf List.mem_cons_self
    have hrest : Snapshot.Named rest := fun other ho ↦ hs other (List.mem_cons_of_mem _ ho)
    have hcomponents : Snapshot.components leaf.path = names := by
      rw [hpath, components_gitPath hnames]
    have hrow := shown_treeRow t dir place hnames hpath
    have hfront : Open dir place cursor
        (names.dropLast.take (Snapshot.shared opened names.dropLast)) :=
      h.of_prefix (take_shared opened names.dropLast)
    have hshared := shared_le opened names.dropLast
    rw [rowsFrom]
    simp only [hcomponents]
    rw [parentRows, List.filterMap_append, List.range_eq_range', List.drop_range']
    simp only [Nat.zero_add, Nat.mul_one]
    apply fits_parentRows (fun name hname ↦ hnames.2 name (List.dropLast_subset _ hname))
      ?_ _ _ (by omega) hfront
    intro cursor hopen
    by_cases hshown : (dir.length < names.length ∧ dir <+: names) ∧ place <+: names ∧
        leaf.isSubmodule = false
    · rw [List.filterMap_cons_some (hrow.trans (if_pos hshown))]
      have hdeep := hshown.1.1
      have hdepth := hopen.depth_le ⟨hdeep, hshown.1.2, .inl hshown.2.1⟩
      refine ⟨?_, ?_⟩
      · simp only [Snapshot.entry, List.length_drop]
        omega
      · apply ih hrest
        apply Open.of_length_le
        · simp only [WalkEntry.cursor, Snapshot.entry, List.length_drop]
          omega
        · simp only [WalkEntry.cursor, Snapshot.entry, List.length_drop, List.length_dropLast]
          omega
    · rw [List.filterMap_cons_none (hrow.trans (if_neg hshown))]
      exact ih hrest _ hopen

/-- The leaves, no submodules, that lie at or below the place and below the directory. -/
def leavesBelow (t : Trees) (tree : String) (dir place : List String) : List Leaf :=
  ((t.held tree).filesBelow (gitPath dir)).filter fun leaf ↦
    Path.hasPrefix place (Snapshot.components leaf.path)

private theorem filePaths_parentRows (t : Trees) (tree : String) (dir place opened : List String)
    {parents : List String} (hparents : ∀ name ∈ parents, Path.IsPart name) :
    filePaths ((t.parentRows tree opened parents).filterMap (·.shown dir place)) = [] := by
  have hdirectory : ∀ e ∈ (t.parentRows tree opened parents).filterMap (·.shown dir place),
      e.kind = .directory := by
    intro e he
    obtain ⟨row, hrow, hshown⟩ := List.mem_filterMap.mp he
    obtain ⟨level, hlevel, rfl⟩ := List.mem_map.mp hrow
    have hlevel := List.mem_range.mp (List.mem_of_mem_drop hlevel)
    have hnamed := named_take hparents hlevel
    obtain ⟨hentry, hnone⟩ := shown_directoryRow t tree dir place hnamed
    by_cases h : Shown dir place (parents.take (level + 1))
    · rw [hentry h] at hshown
      obtain rfl := Option.some.inj hshown
      rfl
    · rw [hnone h] at hshown
      cases hshown
  rw [filePaths, List.filter_eq_nil_iff.mpr, List.map_nil]
  intro e he
  rw [hdirectory e he]
  decide

/-- What a listing shows of files below a directory are leaves. -/
theorem filePaths_rowsFrom (hdir : Named dir) {s : Snapshot} (hs : s.Named) (opened : List String) :
    filePaths ((t.rowsFrom tree opened s).filterMap (·.shown dir place)) =
      ((s.filesBelow (gitPath dir)).filter fun leaf ↦
        Path.hasPrefix place (Snapshot.components leaf.path)).map fun leaf ↦
          gitPath ((Snapshot.components leaf.path).drop dir.length) := by
  induction s generalizing opened with
  | nil => rfl
  | cons leaf rest ih =>
    obtain ⟨names, hnames, hpath⟩ := hs leaf List.mem_cons_self
    have hrest : Snapshot.Named rest := fun other ho ↦ hs other (List.mem_cons_of_mem _ ho)
    have hcomponents : Snapshot.components leaf.path = names := by
      rw [hpath, components_gitPath hnames]
    have hrow := shown_treeRow t dir place hnames hpath
    have hparents := filePaths_parentRows t tree dir place opened fun name hname ↦
      hnames.2 name (List.dropLast_subset names hname)
    have hkept : (Path.hasPrefix place (Snapshot.components leaf.path) &&
        (!leaf.isSubmodule && Snapshot.isBelow leaf.path.toList (gitPath dir).toList)) = true ↔
        (dir.length < names.length ∧ dir <+: names) ∧ place <+: names ∧
          leaf.isSubmodule = false := by
      rw [hcomponents, hpath, Bool.and_eq_true, Bool.and_eq_true, Path.hasPrefix_iff,
        isBelow_gitPath hnames hdir, Bool.not_eq_true']
      tauto
    have hrest := ih hrest names.dropLast
    rw [Snapshot.filesBelow, List.filter_filter] at hrest ⊢
    rw [rowsFrom]
    simp only [hcomponents]
    rw [List.filterMap_append, filePaths_append, hparents, List.nil_append]
    by_cases hshown : (dir.length < names.length ∧ dir <+: names) ∧ place <+: names ∧
        leaf.isSubmodule = false
    · rw [List.filterMap_cons_some (hrow.trans (if_pos hshown)), ← List.singleton_append,
        filePaths_append, hrest, List.filter_cons, if_pos (hkept.mpr hshown), List.map_cons,
        hcomponents]
      rfl
    · rw [List.filterMap_cons_none (hrow.trans (if_neg hshown)), hrest, List.filter_cons,
        if_neg fun h ↦ hshown (hkept.mp h)]

end Trees

/-! ## Listings read -/

/-- The row of a path is read as its entry below a directory. -/
theorem TreeRow.entry?_eq {row : TreeRow} {names dir : List String} (hnames : Named names)
    (hdir : Named dir) (hpath : row.path = gitPath names) :
    row.entry? (gitPath dir) = .ok (row.below dir) := by
  have hunder : Path.isUnder row.path (gitPath dir) =
      (dir.length < names.length && Path.hasPrefix dir names) := by
    rw [Path.isUnder, hpath, ofString_gitPath hnames, ofString_gitPath hdir]
    rfl
  have hrelative : dir <+: names →
      Path.namesBelow (gitPath names) (gitPath dir) = .ok (names.drop dir.length) := by
    intro hfront
    rw [namesBelow_gitPath_eq_ok_iff hnames, ofString_gitPath hdir]
    exact ⟨hfront, rfl⟩
  unfold entry? below
  rw [hunder]
  simp only [hpath, components_gitPath hnames]
  by_cases hbelow : dir.length < names.length ∧ dir <+: names
  · have htest : (decide (dir.length < names.length) && Path.hasPrefix dir names) = true := by
      simpa [Path.hasPrefix_iff] using hbelow
    rw [htest, hrelative hbelow.2]
    cases hmode : row.mode == submoduleMode with
    | true =>
      simp only [Bool.not_true, Bool.or_true, if_true, bne, hmode, Bool.and_false,
        Bool.false_eq_true, if_false]
      rfl
    | false => simp [bne, hmode, Snapshot.entry]
  · have htest : (decide (dir.length < names.length) && Path.hasPrefix dir names) = false := by
      rw [← Bool.not_eq_true]
      simpa [Path.hasPrefix_iff] using hbelow
    rw [htest]
    rfl

private theorem mem_rowsFrom {t : Trees} {tree : String} {opened : List String} {s : Snapshot}
    {row : TreeRow} (h : row ∈ t.rowsFrom tree opened s) :
    ∃ leaf ∈ s, row = t.treeRow leaf ∨ ∃ level < (Snapshot.components leaf.path).length - 1,
      row = t.directoryRow tree ((Snapshot.components leaf.path).take (level + 1)) := by
  induction s generalizing opened with
  | nil => cases h
  | cons leaf rest ih =>
    simp only [Trees.rowsFrom, List.mem_append, List.mem_cons] at h
    rcases h with h | rfl | h
    · obtain ⟨level, hlevel, rfl⟩ := List.mem_map.mp h
      have hlevel := List.mem_range.mp (List.mem_of_mem_drop hlevel)
      rw [List.length_dropLast] at hlevel
      refine ⟨leaf, List.mem_cons_self, .inr ⟨level, hlevel, ?_⟩⟩
      rw [List.dropLast_eq_take, List.take_take, Nat.min_eq_left (by omega)]
    · exact ⟨leaf, List.mem_cons_self, .inl rfl⟩
    · obtain ⟨other, hother, hrow⟩ := ih h
      exact ⟨other, List.mem_cons_of_mem _ hother, hrow⟩

/-- Nothing is read below a directory that no leaf lies below. -/
theorem Trees.walk_eq_nil {t : Trees} {tree : String} {dir : List String}
    (hnamed : (t.held tree).Named) (hdir : Named dir)
    (hnone : ∀ leaf ∈ t.held tree,
      Snapshot.isBelow leaf.path.toList (gitPath dir).toList = false) (place : List String) :
    t.walk tree dir place = [] := by
  apply List.filterMap_eq_nil_iff.mpr
  intro row hrow
  obtain ⟨leaf, hleaf, hrow⟩ := mem_rowsFrom (List.mem_filter.mp hrow).1
  obtain ⟨names, hnames, hpath⟩ := hnamed leaf hleaf
  have hcomponents : Snapshot.components leaf.path = names := by
    rw [hpath, components_gitPath hnames]
  have hfront : Snapshot.components row.path <+: names := by
    rcases hrow with rfl | ⟨level, hlevel, rfl⟩
    · rw [← hcomponents]
      exact List.prefix_rfl
    · rw [hcomponents] at hlevel ⊢
      have hnamed := named_take hnames.2 (show level < names.length by omega)
      rw [directoryRow, components_gitPath hnamed]
      exact List.take_prefix _ _
  unfold TreeRow.below
  apply if_neg
  rw [Bool.and_eq_true, Bool.and_eq_true, decide_eq_true_eq, Path.hasPrefix_iff]
  rintro ⟨⟨hdeeper, hbelow⟩, -⟩
  have hlength := hfront.length_le
  have hleaf := hnone leaf hleaf
  rw [hpath, ← Bool.not_eq_true, isBelow_gitPath hnames hdir] at hleaf
  exact hleaf ⟨by omega, hbelow.trans hfront⟩

/-- The rows of a tree have paths made of components, and they can be read. -/
theorem Trees.plain_rowsFrom {t : Trees} {tree : String} {s : Snapshot} (hs : s.Named)
    (hnul : ∀ leaf ∈ s, '\x00' ∉ leaf.path.toList) (hblob : ∀ leaf ∈ s, IsName (t.blob leaf))
    (hdirectory : ∀ names, IsName (t.directory tree names)) (opened : List String) :
    ∀ row ∈ t.rowsFrom tree opened s,
      row.Plain ∧ ∃ names, Named names ∧ row.path = gitPath names := by
  intro row hrow
  obtain ⟨leaf, hleaf, hrow⟩ := mem_rowsFrom hrow
  obtain ⟨names, hnames, hpath⟩ := hs leaf hleaf
  have hcomponents : Snapshot.components leaf.path = names := by
    rw [hpath, components_gitPath hnames]
  rcases hrow with rfl | ⟨level, hlevel, rfl⟩
  · exact ⟨treeRow_plain (hblob leaf hleaf) (hnul leaf hleaf), names, hnames, hpath⟩
  · rw [hcomponents] at hlevel ⊢
    have hnamed := named_take hnames.2 (show level < names.length by omega)
    refine ⟨⟨(by decide : IsWord "040000"), (by decide : IsWord "tree"),
      (hdirectory _).isWord, ?_⟩, _, hnamed, rfl⟩
    intro hmem
    obtain ⟨name, hname, hc⟩ := mem_gitPath hmem (by decide)
    have hname := List.mem_of_mem_take hname
    rw [← hcomponents] at hname
    obtain ⟨piece, hpiece, rfl⟩ := List.mem_map.mp hname
    rw [String.toList_ofList] at hc
    exact hnul leaf hleaf (Text.of_mem_splitBy hpiece hc).2

namespace Client

variable {client : Client (Except Failure)} {t : Trees} {history : List Commit}

/-- The walk of a directory of a tree is read of the listing. -/
theorem Lists.walkTree_eq (h : client.Lists t history) {revision : Revision} {tree : String}
    (htree : client.treeOf revision = .ok tree) {dir : List String} (hdir : Named dir) :
    client.walkTree tree (gitPath dir) =
      (t.place tree (gitPath dir)).map (t.walk tree dir) := by
  have hrun := h.rows revision tree htree (gitPath dir)
  obtain ⟨hnamed, hnul⟩ := h.named revision tree htree
  obtain ⟨hblob, hdirectory⟩ := h.names revision tree htree
  cases hplace : t.place tree (gitPath dir) with
  | error failure =>
    rw [hplace] at hrun
    rw [walkTree, runText, hrun]
    rfl
  | ok place =>
    rw [hplace] at hrun
    have hplain : ∀ row ∈ t.rows tree place,
        row.Plain ∧ ∃ names, Named names ∧ row.path = gitPath names := fun row hrow ↦
      Trees.plain_rowsFrom hnamed hnul hblob hdirectory [] row (List.mem_filter.mp hrow).1
    have hrows := readTreeRows_write fun row hrow ↦ (hplain row hrow).1
    have hentries : (t.rows tree place).mapM (TreeRow.entry? (gitPath dir)) =
        .ok ((t.rows tree place).map (TreeRow.below dir)) := by
      apply mapM_eq_map
      intro row hrow
      obtain ⟨-, names, hnames, hpath⟩ := hplain row hrow
      exact TreeRow.entry?_eq hnames hdir hpath
    rw [walkTree, runText_eq hrun]
    simp only [bind, Except.bind, hrows, ofResult, hentries, pure, Except.pure, Except.map]
    rw [Trees.walk, List.filterMap_map]
    rfl

end Client

/-! ## A client that lists -/

/-- The trees of a history, with the paths of listings taken as git takes them. -/
def Trees.ofHistory (names : ObjectNames) (history : List Commit)
    (directory : String → List String → String) : Trees where
  toObjectNames := names
  held tree := ((history.find? (names.tree · == tree)).map (·.snapshot)).getD []
  directory := directory
  place tree dir := do
    handOver (.subtree tree dir)
    (treePathspec dir).mapError fun complaint ↦ .git (.subtree tree dir) (.exited complaint)

/-- The client that prints for a history what git prints for it, listings included. -/
def Client.listing (t : Trees) (history : List Commit) : Client (Except Failure) where
  run
    | .subtree tree dir =>
      (t.place tree dir).map fun place ↦ Utf8.encode ((t.rows tree place).flatMap TreeRow.write)
    | .blob name =>
      match Text.partitionAt ':' name.toList with
      | (tree, true, path) =>
        match (t.held (String.ofList tree)).leaf? (String.ofList path) with
        | some leaf => .ok leaf.bytes
        | none => .error (.git (.blob name) (.exited "fatal: Not a valid object name"))
      | _ => (Client.printing t.toObjectNames history).run (.blob name)
    | command => (Client.printing t.toObjectNames history).run command

/-- A path without a colon at the front is taken as it is written. -/
theorem treePathspec_gitPath {names : List String} (h : Named names)
    (hcolon : (gitPath names).toList.head? ≠ some ':') :
    treePathspec (gitPath names) = .ok names := by
  have hne : gitPath names ≠ "" := by
    intro hempty
    have hcomponents := components_gitPath h
    rw [hempty] at hcomponents
    have hpart := h.2 "" (hcomponents ▸ (by decide : "" ∈ Snapshot.components ""))
    exact hpart.notEmpty rfl
  have hup : ".." ∉ names := fun hmem ↦ (h.2 _ hmem).notUp rfl
  have hplain : pathspec [] (gitPath names) = .ok names := by
    rw [pathspec, if_neg (by simpa using hne), ofString_gitPath h]
    simp only [Path.ofNames, bne_self_eq_false, Bool.false_eq_true, if_false,
      followNames_eq hup, List.nil_append]
  unfold treePathspec
  split
  · next heq =>
    rw [heq] at hcolon
    exact absurd rfl hcolon
  · next heq =>
    rw [heq] at hcolon
    exact absurd rfl hcolon
  · exact hplain

namespace Client

variable {names : ObjectNames} {history : List Commit} {directory : String → List String → String}

private theorem colon_not_mem {name : String} (h : IsName name) : ':' ∉ name.toList := fun hmem ↦ by
  have hdigit := h ':' hmem
  revert hdigit
  decide

/-- Listings come on top of what the client prints that serves a history. -/
theorem serves_listing (root : String) (hne : history ≠ []) (hnamed : names.Named history)
    (hdistinct : names.Distinct history) :
    (Client.listing (.ofHistory names history directory) history).Serves root names history := by
  have hserves := serves_printing root hne hnamed hdistinct
  refine ⟨hserves.head, hserves.log, hserves.tree, hserves.leaves, hserves.added, ?_, hnamed⟩
  intro commit hcommit leaf hleaf hmodule
  have hcolon := colon_not_mem ((hnamed commit hcommit).2.2 leaf hleaf).1
  simp only [Client.listing, Text.partitionAt_of_not_mem hcolon]
  exact hserves.blob commit hcommit leaf hleaf hmodule

private theorem held_tree (hdistinct : names.Distinct history) {commit : Commit}
    (hcommit : commit ∈ history) :
    (Trees.ofHistory names history directory).held (names.tree commit) = commit.snapshot := by
  cases hfind : history.find? (names.tree · == names.tree commit) with
  | none => exact absurd (List.find?_eq_none.mp hfind commit hcommit) (by simp)
  | some found =>
    have hmem := List.mem_of_find?_eq_some hfind
    have hname : names.tree found = names.tree commit := by simpa using List.find?_some hfind
    rw [Trees.ofHistory]
    simp only [hfind, Option.map_some, Option.getD_some]
    exact (hdistinct.1 found hmem commit hcommit).2 hname

private theorem treeOf_listing (hnamed : names.Named history) (hdistinct : names.Distinct history)
    (hne : history ≠ []) {revision : Revision} {tree : String}
    (h : (Client.listing (.ofHistory names history directory) history).treeOf revision = .ok tree) :
    ∃ commit ∈ history, tree = names.tree commit ∧
      (Trees.ofHistory names history directory).held tree = commit.snapshot := by
  cases hfind : history.find? (·.oid == revision.oid) with
  | none =>
    rw [treeOf, runText] at h
    simp only [Client.listing, printing, hfind] at h
    cases h
  | some commit =>
    have hcommit := List.mem_of_find?_eq_some hfind
    have hoid : commit.oid = revision.oid := by simpa using List.find?_some hfind
    have hserves : (Client.listing (.ofHistory names history directory) history).Serves "" names
        history := serves_listing "" hne hnamed hdistinct
    have hrecorded := hserves.records.treeOf commit hcommit revision hoid.symm
    obtain rfl := Except.ok.inj (h.symm.trans hrecorded)
    exact ⟨commit, hcommit, rfl, held_tree hdistinct hcommit⟩

/-- A place that a history does not have is refused by git, or cannot be handed to it. -/
private theorem place_refused {tree dir : String} {failure : Failure}
    (h : (Trees.ofHistory names history directory).place tree dir = .error failure) :
    (∃ problem, failure = .git (.subtree tree dir) problem) ∨ failure = .nullByte := by
  rw [Trees.ofHistory] at h
  simp only [bind, Except.bind, handOver] at h
  split at h
  · next hrefused =>
    obtain rfl := Except.error.inj h
    right
    split at hrefused
    · exact (Except.error.inj hrefused).symm
    · cases hrefused
  · left
    cases hread : treePathspec dir with
    | error complaint =>
      rw [hread] at h
      obtain rfl := Except.error.inj h
      exact ⟨_, rfl⟩
    | ok place =>
      rw [hread] at h
      cases h

/-- A path without a colon at the front leads to the place it names in a tree of a history. -/
private theorem place_gitPath {commit : Commit} (htree : IsName (names.tree commit))
    {path : List String} (hpath : Named path) (hnul : '\x00' ∉ (gitPath path).toList)
    (hcolon : (gitPath path).toList.head? ≠ some ':') :
    (Trees.ofHistory names history directory).place (names.tree commit) (gitPath path) =
      .ok path := by
  have hhanded : handOver (.subtree (names.tree commit) (gitPath path)) = .ok () := by
    have htree : '\x00' ∉ (names.tree commit).toList := by
      intro hmem
      have hdigit := htree _ hmem
      revert hdigit
      decide
    rw [handOver, if_neg]
    simp [Command.arguments, htree, hnul]
  change (do
    handOver (.subtree (names.tree commit) (gitPath path))
    (treePathspec (gitPath path)).mapError _) = _
  rw [hhanded, treePathspec_gitPath hpath hcolon]
  rfl

/-- The client that prints listings for a history lists its trees. -/
theorem lists_listing (hne : history ≠ []) (hnamed : names.Named history)
    (hdistinct : names.Distinct history) (hdirectory : ∀ tree path, IsName (directory tree path))
    (hsound : ∀ commit ∈ history, commit.snapshot.Sound ∧ commit.snapshot.Named) :
    (Client.listing (.ofHistory names history directory) history).Lists
      (.ofHistory names history directory) history where
  held _ hcommit := held_tree hdistinct hcommit
  sound := by
    intro revision tree htree
    obtain ⟨commit, hcommit, -, hheld⟩ := treeOf_listing hnamed hdistinct hne htree
    exact hheld ▸ (hsound commit hcommit).1
  named := by
    intro revision tree htree
    obtain ⟨commit, hcommit, -, hheld⟩ := treeOf_listing hnamed hdistinct hne htree
    rw [hheld]
    exact ⟨(hsound commit hcommit).2, fun leaf hleaf ↦ ((hnamed commit hcommit).2.2 leaf hleaf).2⟩
  names := by
    intro revision tree htree
    obtain ⟨commit, hcommit, -, hheld⟩ := treeOf_listing hnamed hdistinct hne htree
    rw [hheld]
    exact ⟨fun leaf hleaf ↦ ((hnamed commit hcommit).2.2 leaf hleaf).1, hdirectory _⟩
  rows _ _ _ _ := rfl
  refused _ _ _ _ _ := place_refused
  literal := by
    intro revision tree htree path hpath hnul hcolon
    obtain ⟨commit, hcommit, rfl, -⟩ := treeOf_listing hnamed hdistinct hne htree
    exact place_gitPath (hnamed commit hcommit).2.1 hpath hnul hcolon
  blobAt := by
    intro revision tree htree leaf hleaf _
    obtain ⟨commit, hcommit, rfl, hheld⟩ := treeOf_listing hnamed hdistinct hne htree
    rw [hheld] at hleaf
    have hcut : Text.partitionAt ':' (names.tree commit ++ ":" ++ leaf.path).toList =
        ((names.tree commit).toList, true, leaf.path.toList) := by
      rw [String.toList_append, String.toList_append, List.append_assoc]
      exact Text.partitionAt_append _ (colon_not_mem (hnamed commit hcommit).2.1)
    have hfound := (hsound commit hcommit).1.leaf?_eq hleaf
    simp only [Client.listing, hcut, String.ofList_toList, hheld, hfound]

end Client

end Guidebook.Git
