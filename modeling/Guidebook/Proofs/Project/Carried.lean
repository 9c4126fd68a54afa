import Guidebook.Proofs.Git.Walk
import Guidebook.Proofs.Project.Saved
import Guidebook.Proofs.Project.Step

/-!
# Workspaces carried by saves

Two listings have to agree on the workspace: that of the files which git would commit, and that of
the tree which a save commits. Both are read off one work tree, before and after the index is
written. A save may add one page more than the unsaved one: the index file itself.
-/

namespace Guidebook.Workflow

open Git Outline Sequence

variable {l : Layout} {settings : Settings} {s s' : State} {store : Store}

/-! ## Files that git would commit -/

/-- A workspace that is its project's own: trees are listed where other commands look for it, the
metadata directory is not in it, it is no file, and neither another repository nor a submodule has
files in it. -/
structure OwnWorkspace (s : State) (l : Layout) (store : Store) : Prop where
  read : treePathspec l.workspaceDir = pathspec [] l.workspaceDir
  apart : ¬ (Path.ofString l.workspaceDir).parts <+: [Layout.metaDir]
  noFile : s.files.isFile l.workspace = false
  own : ∀ file ∈ s.files.filesBelow l.root, (Path.ofString l.workspaceDir).parts <+: file.1 →
    s.isForeign l.root file.1 = false
  noModule : ∀ leaf ∈ store.head, leaf.isSubmodule = true →
    ¬ (Path.ofString l.workspaceDir).parts <+: Snapshot.components leaf.path

/-- A file of a place is a file of the work tree that is taken when the place is staged. -/
def Takes (l : Layout) (w : WorkTree) (place : List String) (path : String) : Prop :=
  ∃ file ∈ w.files, w.takes [place] file.1 = true ∧ WorkTree.gitPath file.1 = path ∧
    (Path.ofString l.workspaceDir).parts.length < file.1.length ∧
    (Path.ofString l.workspaceDir).parts <+: file.1

/-- Writing the index changes no file of a workspace that does not hold it. -/
theorem Rewritten.mem_iff {v w : WorkTree} (h : Rewritten v w)
    (hapart : ¬ (Path.ofString l.workspaceDir).parts <+: [Layout.metaDir])
    {file : List String × List UInt8}
    (hlong : (Path.ofString l.workspaceDir).parts.length < file.1.length)
    (hfront : (Path.ofString l.workspaceDir).parts <+: file.1) :
    file ∈ w.files ↔ file ∈ v.files := by
  refine h.files file fun heq ↦ ?_
  rw [heq] at hlong hfront
  exact hapart (List.prefix_of_prefix_length_le hfront (List.prefix_append [Layout.metaDir] _)
    (Nat.le_of_lt_succ hlong))

/-- Writing the index does not change what staging takes. -/
theorem Rewritten.takes_eq {v w : WorkTree} (h : Rewritten v w) : w.takes = v.takes := by
  funext places names
  rw [WorkTree.takes, WorkTree.takes, h.rules, WorkTree.isTracked, WorkTree.isTracked, h.store]

private theorem isFile_iff (hs : s.files.Sound) (hroot : l.root.Resolved)
    (hat : s.files.find? l.root.parts = some .directory) {names : List String}
    (hnames : WorkTree.Named names) :
    s.files.isFile (l.root.join (Path.ofNames names)) = true ↔
      ∃ bytes, (names, bytes) ∈ s.files.filesBelow l.root := by
  have hne : l.root.parts ++ names ≠ [] := by simp [hnames.1]
  have hmem : ∀ bytes, (names, bytes) ∈ s.files.filesBelow l.root ↔
      s.files.find? (l.root.parts ++ names) = some (.file bytes) := by
    intro bytes
    rw [FileTree.mem_filesBelow (hs.resolve_eq hroot hat), and_iff_right hnames.1,
      hs.find?_eq_some hne]
  simp only [hmem]
  have hparts : (l.root.join (Path.ofNames names)).parts = l.root.parts ++ names :=
    Path.parts_join _ rfl
  rw [FileTree.isFile, hs.node?_eq (hroot.join hnames.2), hparts]
  cases s.files.find? (l.root.parts ++ names) with
  | none => simp
  | some node => cases node <;> simp

private theorem relative_eq_ok {names : List String} (hnames : WorkTree.Named names)
    {read : String} :
    (do return (Path.ofNames (← Path.namesBelow (WorkTree.gitPath names) l.workspaceDir)).toString :
      Except Failure String) = .ok read ↔
      (Path.ofString l.workspaceDir).parts <+: names ∧
        (Path.ofNames (names.drop (Path.ofString l.workspaceDir).parts.length)).toString =
          read := by
  constructor
  · intro h
    obtain ⟨rest, hrest, heq⟩ := bind_eq_ok h
    obtain ⟨hfront, rfl⟩ := (WorkTree.namesBelow_gitPath_eq_ok_iff hnames).mp hrest
    exact ⟨hfront, Except.ok.inj heq⟩
  · rintro ⟨hfront, rfl⟩
    rw [(WorkTree.namesBelow_gitPath_eq_ok_iff hnames).mpr ⟨hfront, rfl⟩]
    rfl

section Reported

variable (hs : s.files.Sound) (hroot : l.root.Resolved)
  (hat : s.files.find? l.root.parts = some .directory) (hown : OwnWorkspace s l store)
  (hlookup : s.repositories.lookup l.root = some store) (hstaged : store.staged.Named)
  {v : WorkTree} (hv : s.workTree? l.root = some v)
  {place : List String} (hplace : pathspec [] l.workspaceDir = .ok place)

include hs hroot hat hown hlookup hstaged hv hplace

/-- A path below the workspace is listed and that of a file exactly if staging takes the file. -/
private theorem listed_iff {names : List String} (hnames : WorkTree.Named names)
    (hfront : (Path.ofString l.workspaceDir).parts <+: names) :
    (∃ listed ∈ v.tracked place ++ v.others place,
        WorkTree.gitPath listed = WorkTree.gitPath names) ∧
      s.files.isFile (l.root.join (Path.ofString (WorkTree.gitPath names))) = true ↔
      Takes l v place (WorkTree.gitPath names) := by
  have hsound := State.sound_workTree hs hroot hv
  rw [State.workTree?_self hlookup, Option.some.injEq] at hv
  have hmem : ∀ file, file ∈ v.files ↔
      file ∈ s.files.filesBelow l.root ∧ s.isForeign l.root file.1 = false := by
    intro file
    rw [← hv, List.mem_filter, Bool.not_eq_true']
  rw [WorkTree.ofString_gitPath hnames, isFile_iff hs hroot hat hnames]
  constructor
  · rintro ⟨⟨listed, hlisted, heq⟩, bytes, hbelow⟩
    have hparts := hsound.named_listed (by rwa [← hv]) hlisted
    obtain rfl := WorkTree.gitPath_inj hparts hnames heq
    have hthere := (hmem _).mpr ⟨hbelow, hown.own _ hbelow hfront⟩
    obtain ⟨file, hfile, rfl, htakes⟩ := hsound.mem_listed.mp ⟨hlisted, _, hthere, rfl⟩
    refine ⟨file, hfile, htakes, rfl, lt_of_le_of_ne hfront.length_le fun hlength ↦ ?_, hfront⟩
    -- a file in place of the workspace is ruled out
    have hworkspace : l.workspace = l.root.join (Path.ofNames file.1) := by
      rw [← hfront.eq_of_length hlength, ← (WorkTree.pathspec_eq_ok hplace).1]
      rfl
    have hno := hown.noFile
    rw [hworkspace, (isFile_iff hs hroot hat hnames).mpr ⟨bytes, hbelow⟩] at hno
    cases hno
  · rintro ⟨file, hfile, htakes, heq, -, -⟩
    obtain rfl := WorkTree.gitPath_inj (hsound.named file hfile) hnames heq
    exact ⟨⟨_, (hsound.mem_listed.mpr ⟨file, hfile, rfl, htakes⟩).1, rfl⟩, file.2,
      ((hmem file).mp hfile).1⟩

omit hat hown hplace in
/-- What is listed below a place are files with proper names. -/
private theorem named_listed :
    ∀ names ∈ v.tracked place ++ v.others place, WorkTree.Named names := by
  have hsound := State.sound_workTree hs hroot hv
  rw [State.workTree?_self hlookup, Option.some.injEq] at hv
  exact fun names ↦ hsound.named_listed (by rwa [← hv])

omit hs hroot hat hown hstaged in
/-- Each path is reported that is listed and that of a file, by what follows the workspace. -/
private theorem on_workspaceFiles (hwords : handOver (.listed l.workspaceDir) = .ok ()) :
    ∃ present : List String, present.Pairwise (fun a b ↦ a.toList < b.toList) ∧
      (∀ path, path ∈ present ↔ (∃ names ∈ v.tracked place ++ v.others place,
        WorkTree.gitPath names = path) ∧ s.files.isFile (l.root.join (Path.ofString path)) = true) ∧
      ((workspaceFiles (workFiles l.root) l).on s).1 = present.mapM fun path ↦ do
        return (Path.ofNames (← Path.namesBelow path l.workspaceDir)).toString := by
  have htop : v.place = [] := by
    rw [State.workTree?_self hlookup, Option.some.injEq] at hv
    rw [← hv]
  let listed := v.listing (v.tracked place ++ v.others place)
  have hlisted : ((workFiles l.root).listed l.workspaceDir).on s = (.ok listed, s) := by
    change (asking _ _ _).on s = _
    rw [on_asking, hwords, hv]
    simp only [WorkTree.listed, htop, hplace]
    rfl
  refine ⟨listed.filter fun path ↦ s.files.isFile (l.root.join (Path.ofString path)),
    (WorkTree.sorted_listing _ _).filter _, fun path ↦ ?_, ?_⟩
  · rw [List.mem_filter, WorkTree.mem_listing htop]
  · rw [workspaceFiles, on_bind_ok (on_files s), on_bind_ok hlisted, on_ofResult]

/-- The files that are reported are those that staging takes, in the order of their paths and by
what follows the workspace. -/
theorem eq_of_workspaceFiles (hwords : handOver (.listed l.workspaceDir) = .ok ())
    {paths : List String} (hpaths : ((workspaceFiles (workFiles l.root) l).on s).1 = .ok paths) :
    ∃ taken : List String, taken.Pairwise (fun a b ↦ a.toList < b.toList) ∧
      (∀ path, path ∈ taken ↔ Takes l v place path) ∧
      paths = taken.map (Snapshot.pathFrom (Path.ofString l.workspaceDir).parts) := by
  have hsound := State.sound_workTree hs hroot hv
  obtain ⟨present, hsorted, hpresent, hanswer⟩ := on_workspaceFiles hlookup hv hplace hwords
  rw [hanswer] at hpaths
  have hmem : ∀ path, path ∈ present ↔ Takes l v place path := by
    intro path
    constructor
    · intro hpath
      obtain ⟨read, -, hread⟩ := answer_mem_of_mapM hpaths path hpath
      obtain ⟨⟨names, hnames, rfl⟩, hfile⟩ := (hpresent path).mp hpath
      have hparts := named_listed hs hroot hlookup hstaged hv names hnames
      have hfront := ((relative_eq_ok hparts).mp hread).1
      exact (listed_iff hs hroot hat hown hlookup hstaged hv hplace hparts hfront).mp
        ⟨⟨names, hnames, rfl⟩, hfile⟩
    · intro htakes
      obtain ⟨file, hfile, -, rfl, -, hfront⟩ := id htakes
      exact (hpresent _).mpr ((listed_iff hs hroot hat hown hlookup hstaged hv hplace
        (hsound.named file hfile) hfront).mpr htakes)
  refine ⟨present, hsorted, hmem,
    Except.ok.inj (hpaths.symm.trans (mapM_eq_map fun path hpath ↦ ?_))⟩
  obtain ⟨file, hfile, -, rfl, hlong, hfront⟩ := (hmem path).mp hpath
  have hnames := hsound.named file hfile
  refine (relative_eq_ok hnames).mpr ⟨hfront, ?_⟩
  rw [WorkTree.toString_ofNames (by simpa using hlong), Snapshot.pathFrom,
    WorkTree.components_gitPath hnames]

omit hat hown in
/-- The files are reported unless the workspace is set by a path with `..`. -/
theorem exists_workspaceFiles (hwords : handOver (.listed l.workspaceDir) = .ok ())
    (hup : ".." ∉ (Path.ofString l.workspaceDir).parts) :
    ∃ paths, ((workspaceFiles (workFiles l.root) l).on s).1 = .ok paths := by
  obtain ⟨present, -, hpresent, hanswer⟩ := on_workspaceFiles hlookup hv hplace hwords
  rw [hanswer]
  obtain rfl := WorkTree.pathspec_eq_parts hplace hup
  refine ⟨_, mapM_eq_map (g := fun path ↦ (Path.ofNames ((Snapshot.components path).drop
    (Path.ofString l.workspaceDir).parts.length)).toString) fun path hpath ↦ ?_⟩
  obtain ⟨⟨names, hnames, rfl⟩, -⟩ := (hpresent path).mp hpath
  have hparts := named_listed hs hroot hlookup hstaged hv names hnames
  refine (relative_eq_ok hparts).mpr ⟨?_, ?_⟩
  · rcases List.mem_append.mp hnames with htracked | hother
    · exact (WorkTree.mem_tracked.mp htracked).2
    · exact (WorkTree.mem_others.mp hother).2.1
  · rw [WorkTree.components_gitPath hparts]

end Reported

/-! ## What a save commits -/

/-- The workspace is staged unless nothing is listed in it, and the index always is. -/
private theorem stagedPaths_eq_ok {w : WorkTree} (hw : s.workTree? l.root = some w)
    (htop : w.place = []) {staged : List String} {t : State}
    (h : (stagedPaths (workFiles l.root) l).on s = (.ok staged, t)) :
    handOver (.listed l.workspaceDir) = .ok () ∧
      (∃ place, pathspec [] l.workspaceDir = .ok place ∧
        (l.workspaceDir ∈ staged ∨ w.tracked place ++ w.others place = [])) ∧
      Layout.metaDir ++ "/" ++ Layout.indexFile ∈ staged := by
  obtain ⟨listed, u, hlisted, hstaged⟩ := on_bind_eq_ok h
  change (asking _ _ _).on s = _ at hlisted
  rw [on_asking, hw] at hlisted
  obtain ⟨⟨⟩, hwords, hlisted⟩ := bind_eq_ok (Prod.mk.inj hlisted).1
  obtain ⟨place, hplace, hpaths, hmem⟩ := WorkTree.listed_eq_ok htop (mapError_eq_ok hlisted)
  obtain rfl := Except.ok.inj (Prod.mk.inj hstaged).1
  refine ⟨hwords, ⟨place, hplace, ?_⟩, by simp⟩
  cases hempty : listed.isEmpty with
  | false => exact .inl (by simp)
  | true =>
    refine .inr (List.eq_nil_iff_forall_not_mem.mpr fun names hnames ↦ ?_)
    have hpath := (hmem _).mpr ⟨names, hnames, rfl⟩
    rw [List.isEmpty_iff.mp hempty] at hpath
    cases hpath

/-- Git has staged without complaint what is recorded. -/
private theorem add_of_record {w : WorkTree} (hw : s.workTree? l.root = some w)
    {staged : List String} {entry : IndexEntry} {t : State}
    (h : (record (changes l.root) staged entry).on s = (.ok (), t)) :
    ∃ store, w.add staged = .ok (store, none) := by
  obtain ⟨⟨⟩, u, hadd, -⟩ := on_bind_eq_ok h
  change (changing _ _ _).on s = _ at hadd
  rw [on_changing, on_asking, hw] at hadd
  cases hwords : handOver (.add staged) with
  | error failure =>
    rw [hwords] at hadd
    cases hadd
  | ok _ =>
    rw [hwords] at hadd
    cases hanswer : w.add staged with
    | error complaint =>
      simp only [bind, Except.bind, hanswer, Except.mapError] at hadd
      cases hadd
    | ok answer =>
      obtain ⟨store, _ | complaint⟩ := answer
      · exact ⟨store, rfl⟩
      · simp only [bind, Except.bind, hanswer, Except.mapError] at hadd
        cases hadd

/-- A save when it commits what it has staged, in the repository of its project: the work tree
before the index was written and after it, and the places that are staged. -/
structure Staging (s : State) (l : Layout) (store : Store) (v w : WorkTree)
    (places : List (List String)) : Prop where
  before : s.workTree? l.root = some v
  top : v.place = []
  store : v.store = store
  own : ∀ file ∈ v.files, s.isForeign l.root file.1 = false
  soundBefore : v.Sound
  sound : w.Sound
  written : Rewritten v w
  index : (∃ file ∈ w.files, file.1 = indexNames) ↔ s.isForeign l.root indexNames = false
  indexTaken : ∀ file ∈ w.files, file.1 = indexNames → w.takes places file.1 = true
  pages : ∃ place ∈ places, pathspec [] l.pagesDir = .ok place
  words : handOver (.listed l.workspaceDir) = .ok ()
  workspace : ∃ place, pathspec [] l.workspaceDir = .ok place ∧
    (place ∈ places ∨ w.tracked place ++ w.others place = [])

/-- A save that records what it staged has come to commit it. -/
theorem Attempt.staging {d : Draft} {t u : State} {staged : List String} {w : WorkTree}
    {places : List (List String)} (h : Attempt .quiet l settings s d t staged w places)
    (hs : s.files.Sound) (hroot : l.root.Resolved)
    (hmeta : s.files.find? l.metadata.parts = some .directory)
    (hlookup : s.repositories.lookup l.root = some store)
    (hrecord : (record (changes l.root) staged d.entry).on (t.written l d) = (.ok (), u)) :
    ∃ v, Staging s l store v w places := by
  obtain ⟨v, hv, htop, hstore, hwritten, hw, hindex⟩ := h.rewritten hs hroot hmeta hlookup
  have htop' : w.place = [] := hwritten.place.trans htop
  have hmeans : ∀ path ∈ staged, ∃ place ∈ places, pathspec [] path = .ok place :=
    htop' ▸ answer_mem_of_mapM h.means
  obtain ⟨hwords, ⟨place, hplace, hlisted⟩, hstaged⟩ := stagedPaths_eq_ok h.tree htop' h.stages
  obtain ⟨added, hadded⟩ := add_of_record h.tree hrecord
  refine ⟨v, hv, htop, hstore, fun file hfile ↦ ?_, State.sound_workTree hs hroot hv, hw, hwritten,
    hindex, fun file hfile hnames ↦ ?_, htop' ▸ h.pages, hwords, place, hplace, ?_⟩
  · rw [State.workTree?_self hlookup, Option.some.injEq] at hv
    rw [← hv, List.mem_filter, Bool.not_eq_true'] at hfile
    exact hfile.2
  · obtain ⟨found, hfound, hread⟩ := hmeans _ hstaged
    obtain rfl : indexNames = found := Except.ok.inj ((pathspec_index []).symm.trans hread)
    exact hw.takes_of_add hadded h.means hfile (hnames ▸ hfound)
  · refine hlisted.imp_left fun hmem ↦ ?_
    obtain ⟨found, hfound, hread⟩ := hmeans _ hmem
    rwa [Except.ok.inj (hplace.symm.trans hread)]

namespace Staging

variable {v w : WorkTree} {places : List (List String)} (h : Staging s l store v w places)
  (hapart : ¬ (Path.ofString l.workspaceDir).parts <+: [Layout.metaDir])
  (hmodule : ∀ leaf ∈ store.staged, leaf.isSubmodule = true →
    ¬ (Path.ofString l.workspaceDir).parts <+: Snapshot.components leaf.path)
  (hnamed : store.staged.Named) {place : List String}
  (hplace : pathspec [] l.workspaceDir = .ok place)

include h hapart hmodule hnamed hplace

omit hapart in
/-- What is committed below the workspace: the files there that staging takes. -/
private theorem mem_filesIn_iff {leaf : Leaf} :
    leaf ∈ ((w.stage places).within place).filesIn (Path.ofString l.workspaceDir).parts ↔
      ∃ file ∈ w.files, w.takes [place] file.1 = true ∧ w.leafOf file.1 file.2 = leaf ∧
        (Path.ofString l.workspaceDir).parts.length < file.1.length ∧
        (Path.ofString l.workspaceDir).parts <+: file.1 := by
  have hstaged : w.store.staged = store.staged := by rw [h.written.store, h.store]
  rw [← hstaged] at hmodule
  obtain ⟨found, hfound, hplaces⟩ := h.workspace
  obtain rfl := Except.ok.inj (hfound.symm.trans hplace)
  -- below the workspace there are only names, and so the place is where the workspace is
  have hread : ∀ names, WorkTree.Named names → (Path.ofString l.workspaceDir).parts <+: names →
      found = (Path.ofString l.workspaceDir).parts := fun names hnames hfront ↦
    WorkTree.pathspec_eq_parts hplace fun hup ↦ (hnames.2 _ (hfront.mem hup)).notUp rfl
  rw [Snapshot.mem_filesIn, Snapshot.within, List.mem_filter, Path.hasPrefix_iff]
  constructor
  · rintro ⟨⟨hleaf, hbelow⟩, -, hlong, hfront⟩
    obtain ⟨names, hnames, hpath⟩ := h.sound.named_stage (hstaged ▸ hnamed) places leaf hleaf
    have hparts : Snapshot.components leaf.path = names := by
      rw [hpath, WorkTree.components_gitPath hnames]
    obtain rfl := hread names hnames (hparts ▸ hfront)
    obtain ⟨file, hfile, htakes, rfl⟩ :=
      WorkTree.mem_taken.mp ((h.sound.mem_stage_below hplaces hmodule).mp ⟨hleaf, hbelow⟩)
    rw [WorkTree.leafOf, WorkTree.components_gitPath (h.sound.named file hfile)] at hlong hfront
    exact ⟨file, hfile, htakes, rfl, hlong, hfront⟩
  · rintro ⟨file, hfile, htakes, rfl, hlong, hfront⟩
    have hnames := h.sound.named file hfile
    obtain rfl := hread _ hnames hfront
    refine ⟨(h.sound.mem_stage_below hplaces hmodule).mpr
      (WorkTree.mem_taken.mpr ⟨file, hfile, htakes, rfl⟩), WorkTree.isSubmodule_leafOf w _ _, ?_⟩
    rw [WorkTree.leafOf, WorkTree.components_gitPath hnames]
    exact ⟨hlong, hfront⟩

omit hapart hnamed hplace in
/-- What is committed below the workspace is no submodule. -/
theorem isSubmodule_within {leaf : Leaf} (hleaf : leaf ∈ (w.stage places).within place)
    (hfront : (Path.ofString l.workspaceDir).parts <+: Snapshot.components leaf.path) :
    leaf.isSubmodule = false := by
  rcases h.sound.mem_stage.mp (List.mem_filter.mp hleaf).1 with htaken | ⟨⟨hold, -⟩, -⟩
  · obtain ⟨file, -, -, rfl⟩ := WorkTree.mem_taken.mp htaken
    exact WorkTree.isSubmodule_leafOf w _ _
  · rw [h.written.store, h.store] at hold
    exact Bool.eq_false_iff.mpr fun hkind ↦ hmodule leaf hold hkind hfront

omit hapart hmodule hnamed hplace in
private theorem sound_within (hsound : store.staged.Sound) :
    ((w.stage places).within place).Sound := by
  refine (WorkTree.sound_stage ?_ places).filter _
  rwa [h.written.store, h.store]

/-- The tree that is committed holds the files that staging takes, in the order of their paths. -/
theorem map_filesIn (hsound : store.staged.Sound) {taken : List String}
    (hsorted : taken.Pairwise fun a b ↦ a.toList < b.toList)
    (hmem : ∀ path, path ∈ taken ↔ Takes l v place path) :
    (((w.stage places).within place).filesIn (Path.ofString l.workspaceDir).parts).map (·.path) =
      taken := by
  have hstage : ((w.stage places).within place).Sound := h.sound_within hsound
  refine Text.eq_of_sorted (List.pairwise_map.mpr (hstage.filesIn _).sorted) hsorted fun path ↦ ?_
  rw [hmem, List.mem_map]
  constructor
  · rintro ⟨leaf, hleaf, rfl⟩
    obtain ⟨file, hfile, htakes, rfl, hlong, hfront⟩ :=
      (h.mem_filesIn_iff hmodule hnamed hplace).mp hleaf
    exact ⟨file, (h.written.mem_iff hapart hlong hfront).mp hfile, h.written.takes_eq ▸ htakes,
      rfl, hlong, hfront⟩
  · rintro ⟨file, hfile, htakes, rfl, hlong, hfront⟩
    refine ⟨_, (h.mem_filesIn_iff hmodule hnamed hplace).mpr ⟨file, ?_,
      h.written.takes_eq ▸ htakes, rfl, hlong, hfront⟩, rfl⟩
    exact (h.written.mem_iff hapart hlong hfront).mpr hfile

private theorem filePaths_walk (hsound : store.staged.Sound) {taken : List String}
    (hsorted : taken.Pairwise fun a b ↦ a.toList < b.toList)
    (hmem : ∀ path, path ∈ taken ↔ Takes l v place path) :
    filePaths (((w.stage places).within place).walk (Path.ofString l.workspaceDir).parts) =
      taken.map (Snapshot.pathFrom (Path.ofString l.workspaceDir).parts) := by
  rw [Snapshot.filePaths_walk (h.sound_within hsound),
    ← h.map_filesIn hapart hmodule hnamed hplace hsound hsorted hmem, List.map_map]
  rfl

/-- A file of the workspace is committed with the bytes that it has. -/
private theorem read_blob (hs : s.files.Sound) (hroot : l.root.Resolved)
    (hlookup : s.repositories.lookup l.root = some store) (hsound : store.staged.Sound)
    {path : String} (htakes : Takes l v place path) (oid : String) :
    ∃ bytes, s.files.read (l.workspace.join (Path.ofString
        (Snapshot.pathFrom (Path.ofString l.workspaceDir).parts path))) = .ok bytes ∧
      (TreeHandle.mk oid (w.stage places)).blobAt (workspacePath l.workspaceDir
        (Snapshot.pathFrom (Path.ofString l.workspaceDir).parts path)) = .ok bytes := by
  obtain ⟨⟨names, bytes⟩, hfile, htaken, rfl, hlong, hfront⟩ := htakes
  have hnames : WorkTree.Named names := h.soundBefore.named _ hfile
  have hleaf := (Snapshot.mem_filesIn.mp ((h.mem_filesIn_iff hmodule hnamed hplace).mpr
    ⟨_, (h.written.mem_iff hapart hlong hfront).mpr hfile, h.written.takes_eq ▸ htaken,
      rfl, hlong,
      hfront⟩)).1
  have hstaged : w.store.staged.Sound := by rwa [h.written.store, h.store]
  have hworkspace := (WorkTree.pathspec_eq_ok hplace).1
  have hread := read_workTree hs hroot hlookup h.before hfile
  obtain ⟨rest, rfl⟩ := hfront
  have hrest : WorkTree.Named rest := by
    refine ⟨?_, fun name hname ↦ hnames.2 name (List.mem_append_right _ hname)⟩
    rintro rfl
    simp at hlong
  rw [Snapshot.pathFrom, WorkTree.components_gitPath hnames, List.drop_left,
    workspacePath_eq hworkspace hrest]
  refine ⟨bytes, ?_, ?_⟩
  · have hjoin : l.workspace.join (Path.ofString (WorkTree.gitPath rest)) =
        l.root.join (Path.ofNames ((Path.ofString l.workspaceDir).parts ++ rest)) := by
      rw [WorkTree.ofString_gitPath hrest, Layout.workspace]
      generalize (Path.ofString l.workspaceDir).parts = dir at hworkspace ⊢
      rw [hworkspace]
      simp [Path.join, Path.ofNames]
    rw [hjoin, hread]
  · exact (WorkTree.sound_stage hstaged places).blobAt_eq (List.mem_filter.mp hleaf).1 oid

end Staging

/-! ## Pages that a save adds -/

/-- The index file is a page that is not committed yet, in the repository of its project. -/
structure IndexIsNewPage (s : State) (l : Layout) (settings : Settings) (store : Store) : Prop where
  page : Page.isPagePath (WorkTree.gitPath indexNames) l.pagesDir settings.extension = true
  own : s.isForeign l.root indexNames = false
  fresh : ∀ leaf ∈ store.head, leaf.path ≠ WorkTree.gitPath indexNames

namespace Staging

variable {v w : WorkTree} {places : List (List String)} (h : Staging s l store v w places)
  (hclean : store.staged = store.head)

include h hclean

/-- A file is not tracked exactly if nothing is committed at its path. -/
private theorem untracked_iff (names : List String) :
    w.isTracked names = false ↔ ∀ leaf ∈ store.head, leaf.path ≠ WorkTree.gitPath names := by
  rw [WorkTree.isTracked, h.written.store, h.store, hclean, List.any_eq_false]
  simp only [beq_iff_eq]

/-- A page that is added is unsaved, or it is the index. -/
private theorem eq_of_mem_newLeaves {path : String} (hpath : Unsaved s l settings path)
    {leaf : Leaf}
    (hleaf : leaf ∈ newLeaves l.pagesDir settings.extension store.head (w.stage places)) :
    leaf.path = path ∨
      leaf.path = WorkTree.gitPath indexNames ∧ IndexIsNewPage s l settings store := by
  obtain ⟨u, paths, hu, hpaths, hone⟩ := hpath
  obtain rfl := Option.some.inj (h.before.symm.trans hu)
  obtain ⟨hleaf, -, hnew, hpage⟩ := mem_newLeaves_iff.mp hleaf
  rcases h.sound.mem_stage.mp hleaf with htaken | ⟨⟨hold, -⟩, -⟩
  · obtain ⟨file, hfile, htakes, rfl⟩ := WorkTree.mem_taken.mp htaken
    have hpage : Page.isPagePath (WorkTree.gitPath file.1) l.pagesDir settings.extension = true :=
      hpage
    have huntracked := (h.untracked_iff hclean file.1).mpr hnew
    by_cases hnames : file.1 = indexNames
    · exact .inr ⟨congrArg WorkTree.gitPath hnames, hnames ▸ hpage,
        h.index.mp ⟨file, hfile, hnames⟩, hnames ▸ hnew⟩
    · left
      rw [WorkTree.takes, huntracked, Bool.false_or, Bool.and_eq_true, Bool.not_eq_true',
        h.written.rules] at htakes
      rw [WorkTree.isTracked, h.written.store, ← WorkTree.isTracked] at huntracked
      obtain ⟨place, -, hplace⟩ := h.pages
      have hother : file.1 ∈ v.others place :=
        WorkTree.mem_others.mpr ⟨⟨file, (h.written.files file hnames).mp hfile, rfl⟩,
          WorkTree.prefix_of_isPagePath (h.sound.named file hfile) hplace hpage,
          huntracked, htakes.2⟩
      have hmem : WorkTree.gitPath file.1 ∈
          paths.filter (Page.isPagePath · l.pagesDir settings.extension) :=
        List.mem_filter.mpr
          ⟨(WorkTree.mem_untracked h.top hpaths).mpr ⟨place, hplace, _, hother, rfl⟩, hpage⟩
      rw [hone, List.mem_singleton] at hmem
      exact hmem
  · rw [h.written.store, h.store, hclean] at hold
    exact absurd rfl (hnew leaf hold)

omit hclean in
/-- A page that staging takes and that is not committed yet is added. -/
private theorem added_of_takes {file : List String × List UInt8} (hfile : file ∈ w.files)
    (htakes : w.takes places file.1 = true)
    (hpage : Page.isPagePath (WorkTree.gitPath file.1) l.pagesDir settings.extension = true)
    (hnew : ∀ leaf ∈ store.head, leaf.path ≠ WorkTree.gitPath file.1) :
    ∃ leaf ∈ newLeaves l.pagesDir settings.extension store.head (w.stage places),
      leaf.path = WorkTree.gitPath file.1 :=
  ⟨_, mem_newLeaves_iff.mpr ⟨h.sound.mem_stage.mpr (.inl (WorkTree.mem_taken.mpr
    ⟨file, hfile, htakes, rfl⟩)), WorkTree.isSubmodule_leafOf w _ _, hnew, hpage⟩, rfl⟩

/-- The unsaved page is added. -/
private theorem unsaved_added {path : String} (hpath : Unsaved s l settings path) :
    ∃ leaf ∈ newLeaves l.pagesDir settings.extension store.head (w.stage places),
      leaf.path = path := by
  obtain ⟨names, bytes, hfile, rfl, huntracked, hignored, hpage⟩ := hpath.file h.before h.top
  have hnew := (h.untracked_iff hclean names).mp (by
    rwa [WorkTree.isTracked, h.written.store, ← WorkTree.isTracked])
  by_cases hnames : names = indexNames
  · obtain ⟨file, hfile, heq⟩ := h.index.mpr (hnames ▸ h.own _ hfile)
    rw [hnames, ← heq] at hpage hnew ⊢
    exact h.added_of_takes hfile (h.indexTaken file hfile heq) hpage hnew
  · refine h.added_of_takes ((h.written.files _ hnames).mpr hfile) ?_ hpage hnew
    rw [WorkTree.takes, WorkTree.covers_page (h.soundBefore.named _ hfile) h.pages hpage,
      h.written.rules, hignored]
    simp

/-- A save adds the unsaved page, and the index file if that is a new page. -/
private theorem exists_newLeaves_iff {path : String} (hpath : Unsaved s l settings path)
    (p : String) :
    (∃ leaf ∈ newLeaves l.pagesDir settings.extension store.head (w.stage places), leaf.path = p) ↔
      p = path ∨ p = WorkTree.gitPath indexNames ∧ IndexIsNewPage s l settings store := by
  constructor
  · rintro ⟨leaf, hleaf, rfl⟩
    exact h.eq_of_mem_newLeaves hclean hpath hleaf
  · rintro (rfl | ⟨rfl, hindex⟩)
    · exact h.unsaved_added hclean hpath
    · obtain ⟨file, hfile, hnames⟩ := h.index.mpr hindex.own
      rw [← hnames]
      exact h.added_of_takes hfile (h.indexTaken file hfile hnames) (hnames ▸ hindex.page)
        (hnames ▸ hindex.fresh)

/-- The unsaved page is the only one that a save adds, unless the index file is another. -/
theorem newLeaves_eq_iff (hstaged : store.staged.Sound) {path : String}
    (hpath : Unsaved s l settings path) :
    (newLeaves l.pagesDir settings.extension store.head (w.stage places)).map (·.path) = [path] ↔
      (IndexIsNewPage s l settings store → path = WorkTree.gitPath indexNames) := by
  have hsound : (w.stage places).Sound := by
    apply WorkTree.sound_stage
    rwa [h.written.store, h.store]
  have hnodup : ((newLeaves l.pagesDir settings.extension store.head (w.stage places)).map
      (·.path)).Nodup :=
    List.pairwise_map.mpr (((hsound.filter _).filter _).sorted.imp fun hlt heq ↦
      hlt.ne (congrArg String.toList heq))
  have hmem : ∀ p, p ∈ (newLeaves l.pagesDir settings.extension store.head (w.stage places)).map
      (·.path) ↔ p = path ∨
        p = WorkTree.gitPath indexNames ∧ IndexIsNewPage s l settings store := by
    intro p
    rw [List.mem_map]
    exact h.exists_newLeaves_iff hclean hpath p
  constructor
  · intro hone hindex
    rw [hone] at hmem
    exact (List.mem_singleton.mp ((hmem _).mpr (.inr ⟨rfl, hindex⟩))).symm
  · intro hindex
    refine List.perm_singleton.mp ((List.perm_ext_iff_of_nodup hnodup (List.nodup_singleton _)).mpr
      fun p ↦ ?_)
    rw [hmem, List.mem_singleton, or_iff_left_iff_imp]
    rintro ⟨rfl, hnew⟩
    exact (hindex hnew).symm

end Staging

/-! ## The saved commit -/

/-- A save that returns has staged and then committed all that it staged. -/
theorem staging_of_save (hs : s.Sound) (hroot : l.root.Resolved)
    (hmeta : s.files.find? l.metadata.parts = some .directory)
    (hlookup : s.repositories.lookup l.root = some store) (htidy : store.Tidy) {entry : IndexEntry}
    (hrun : (save l settings).on s = (.ok entry, s')) :
    ∃ v w places message committer path, Staging s l store v w places ∧
      s'.repositories.lookup l.root =
        some ((store.withStaged (w.stage places)).record message committer) ∧
      ((store.withStaged (w.stage places)).record message committer).Tidy ∧
      ((unsavedPage (workFiles l.root) l settings).on s).1 = .ok path ∧
      Unsaved s l settings path := by
  cases save_outcome hs hroot hmeta hrun with
  | @saved d t _ u staged w places message committer hattempt hrecord _ hrepositories =>
    obtain ⟨v, hstaging⟩ := hattempt.staging hs.files hroot hmeta hlookup hrecord
    obtain ⟨path, hpath, hunsaved⟩ := unsavedPage_of_draft hattempt.drafts
    have hstore : w.store = store := hstaging.written.store.trans hstaging.store
    rw [hstore] at hrepositories
    have hnamed : (w.stage places).Named :=
      hstaging.sound.named_stage (hstore ▸ htidy.staged) places
    refine ⟨v, w, places, message, committer, path, hstaging, ?_,
      (htidy.withStaged hnamed).record message committer, hpath, hunsaved⟩
    rw [hrepositories]
    exact State.lookup_setAt hlookup _

/-- A repository that has two files of the workspace, one of them executable. -/
def mixedStore : Store where
  number := 0
  commits := [⟨commitId 0 0, "Start", "", [⟨"workspace/gone", .regular, [1]⟩,
    ⟨"workspace/kept", .executable, [1]⟩]⟩]
  staged := [⟨"workspace/gone", .regular, [1]⟩, ⟨"workspace/kept", .executable, [1]⟩]
  hasIdentity := true

/-- A guide with a page that is not saved yet. In its workspace one file was changed, one was
deleted and one is new. -/
def mixedGuide : State where
  files := ⟨unsavedGuide.files.nodes ++ [(["/", "guide", "workspace"], .directory),
    (["/", "guide", "workspace", "kept"], .file [2]),
    (["/", "guide", "workspace", "new"], .file [3])]⟩
  repositories := [(⟨"/", ["guide"]⟩, mixedStore)]
  logs := []

end Guidebook.Workflow
