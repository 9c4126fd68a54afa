import Guidebook.Proofs.Git.Pages
import Guidebook.Proofs.Project.Save

/-!
# Saves that return

A save that returns has made one commit, of what it staged. In a repository of its own the page is
in this commit, with the bytes that its title was read from.
-/

namespace Guidebook.Workflow

open Git

variable {o : Outage} {l : Layout} {settings : Settings} {s s' : State} {store : Store}

/-! ## What the index is written beside -/

/-- The components of the index file below the directory of its project. -/
def indexNames : List String := [Layout.metaDir, Layout.indexFile]

private theorem index_parts (l : Layout) : l.index.parts = l.root.parts ++ indexNames := by
  rw [Layout.index, Layout.metadata, Layout.parts_child, Layout.parts_child, List.append_assoc]
  rfl

/-- Writing the index leaves the files as they can exist. -/
private theorem sound_written (hs : s.files.Sound) (hroot : l.root.Resolved)
    (hmeta : s.files.find? l.metadata.parts = some .directory)
    (hindex : s.files.find? l.index.parts ≠ some .directory) (d : Draft) :
    (s.written l d).files.Sound := by
  have hmetadata := resolved_metadata hroot
  rw [State.written, Layout.index, Layout.parts_child]
  rw [Layout.index, Layout.parts_child] at hindex
  exact hs.write (resolved_index hroot).plain
    (hs.write_child hmetadata hmeta (by decide : Path.IsPart Layout.indexFile) hindex _)

/-- A work tree before and after the index is written: its other files are the same, and so is what
is ignored. -/
structure Rewritten (v w : WorkTree) : Prop where
  place : w.place = v.place
  store : w.store = v.store
  rules : w.ignoreFiles = v.ignoreFiles
  files : ∀ file, file.1 ≠ indexNames → (file ∈ w.files ↔ file ∈ v.files)

/-- The directory of a project is there. -/
theorem root_of_metadata (hs : s.files.Sound)
    (hmeta : s.files.find? l.metadata.parts = some .directory) :
    s.files.find? l.root.parts = some .directory := by
  refine hs.find?_front hmeta ?_
  rw [Layout.metadata, Layout.parts_child]
  exact List.prefix_append _ _

/-- Writing the index leaves the other files of a work tree as they are, and its rules. -/
private theorem workTree?_written (hs : s.files.Sound) (hroot : l.root.Resolved)
    (hmeta : s.files.find? l.metadata.parts = some .directory)
    (hindex : s.files.find? l.index.parts ≠ some .directory) (d : Draft)
    (hlookup : s.repositories.lookup l.root = some store) :
    ∃ v w, s.workTree? l.root = some v ∧ (s.written l d).workTree? l.root = some w ∧
      v.place = [] ∧ v.store = store ∧ Rewritten v w ∧
      ((∃ file ∈ w.files, file.1 = indexNames) ↔ s.isForeign l.root indexNames = false) := by
  have hput := sound_written hs hroot hmeta hindex d
  have hne : l.index.parts ≠ [] := by simp [index_parts, indexNames]
  have hat := root_of_metadata hs hmeta
  have hold := hs.resolve_eq hroot hat
  have hthere : (s.written l d).files.find? l.root.parts = some .directory := by
    rw [State.written, hs.find?_put hne, if_neg (by simp [index_parts, indexNames]), hat]
  have hnew := hput.resolve_eq hroot hthere
  refine ⟨_, _, State.workTree?_self hlookup, State.workTree?_self (s := s.written l d) hlookup,
    rfl, rfl, ⟨rfl, rfl, ?_, ?_⟩, ?_⟩
  · refine State.ignoreFiles_put ?_ hold hnew [] store
    rw [Layout.index, Layout.parts_child, List.getLast?_concat]
    decide
  · rintro ⟨names, bytes⟩ hother
    have hplace : l.root.parts ++ names ≠ l.index.parts := by
      rw [index_parts]
      exact fun heq ↦ hother (List.append_cancel_left heq)
    rw [List.mem_filter, List.mem_filter, FileTree.mem_filesBelow hnew,
      FileTree.mem_filesBelow hold]
    refine and_congr_left fun _ ↦ and_congr_right fun hnames ↦ ?_
    have hnonempty : l.root.parts ++ names ≠ [] := by simp [hnames]
    rw [← hput.find?_eq_some hnonempty, State.written, hs.find?_put hne, if_neg hplace,
      hs.find?_eq_some hnonempty]
  · constructor
    · rintro ⟨file, hfile, hnames⟩
      have hown := (List.mem_filter.mp hfile).2
      rw [hnames, Bool.not_eq_true'] at hown
      exact hown
    · intro hown
      refine ⟨(indexNames, Utf8.encode d.longer.write), List.mem_filter.mpr ⟨?_, ?_⟩, rfl⟩
      · rw [FileTree.mem_filesBelow hnew, ← index_parts, ← hput.find?_eq_some hne, State.written,
          hs.find?_put hne, if_pos rfl]
        exact ⟨by decide, rfl⟩
      · exact congrArg not hown

/-- A save gives paths to the work tree from before, with the index written. -/
theorem Attempt.rewritten {d : Draft} {t : State} {staged : List String} {w : WorkTree}
    {places : List (List String)} (h : Attempt o l settings s d t staged w places)
    (hs : s.files.Sound) (hroot : l.root.Resolved)
    (hmeta : s.files.find? l.metadata.parts = some .directory)
    (hlookup : s.repositories.lookup l.root = some store) :
    ∃ v, s.workTree? l.root = some v ∧ v.place = [] ∧ v.store = store ∧ Rewritten v w ∧ w.Sound ∧
      ((∃ file ∈ w.files, file.1 = indexNames) ↔ s.isForeign l.root indexNames = false) := by
  obtain ⟨hsame, hdrafted⟩ := draft_eq_ok h.drafts
  have hindex := hdrafted.before.not_directory hs (resolved_index hroot)
  obtain ⟨v, v', hv, hv', htop, hstore, hwritten, hown⟩ :=
    workTree?_written hs hroot hmeta hindex d hlookup
  have hcongr : Same (t.written l d) (s.written l d) := by
    refine ⟨?_, hsame.2⟩
    rw [State.written, State.written, hsame.1]
  obtain rfl := Option.some.inj (h.tree.symm.trans ((hcongr.workTree?_eq l.root).trans hv'))
  exact ⟨v, hv, htop, hstore, hwritten,
    State.sound_workTree (sound_written hs hroot hmeta hindex d) hroot hv', hown⟩

/-! ## The page that is saved -/

/-- Only one page is unsaved. -/
theorem Unsaved.eq {path other : String} (h : Unsaved s l settings path)
    (hother : Unsaved s l settings other) : path = other := by
  obtain ⟨v, paths, hv, hpaths, hone⟩ := h
  obtain ⟨v', paths', hv', hpaths', hone'⟩ := hother
  obtain rfl := Option.some.inj (hv.symm.trans hv')
  obtain rfl := Except.ok.inj (hpaths.symm.trans hpaths')
  exact List.singleton_inj.mp (hone.symm.trans hone')

/-- The unsaved page of a project with a repository of its own is a file that git does not track. -/
theorem Unsaved.file {path : String} (h : Unsaved s l settings path) {v : WorkTree}
    (hv : s.workTree? l.root = some v) (htop : v.place = []) :
    ∃ names bytes, (names, bytes) ∈ v.files ∧ path = WorkTree.gitPath names ∧
      v.isTracked names = false ∧ ignores v.ignoreFiles names = false ∧
      Page.isPagePath path l.pagesDir settings.extension = true := by
  obtain ⟨found, paths, hfound, hpaths, hone⟩ := h
  obtain rfl := Option.some.inj (hv.symm.trans hfound)
  obtain ⟨hlisted, hpage⟩ := Page.mem_of_filter_eq_singleton hone
  obtain ⟨place, -, names, hothers, rfl⟩ := (WorkTree.mem_untracked htop hpaths).mp hlisted
  obtain ⟨⟨⟨_, bytes⟩, hfile, rfl⟩, -, htracked, hrules⟩ := WorkTree.mem_others.mp hothers
  exact ⟨_, bytes, hfile, rfl, htracked, hrules, hpage⟩

/-- A file of the work tree of a directory with a repository of its own is read there. -/
theorem read_workTree (hs : s.files.Sound) (hroot : l.root.Resolved)
    (hlookup : s.repositories.lookup l.root = some store) {v : WorkTree}
    (hv : s.workTree? l.root = some v) {names : List String} {bytes : List UInt8}
    (hfile : (names, bytes) ∈ v.files) :
    s.files.read (l.root.join (Path.ofNames names)) = .ok bytes := by
  have hnamed : WorkTree.Named names := (State.sound_workTree hs hroot hv).named _ hfile
  obtain ⟨top, store', henclosing, rfl⟩ := State.workTree?_eq_some_iff.mp hv
  obtain ⟨rfl, rfl⟩ :=
    Prod.mk.inj (Option.some.inj ((State.enclosing?_self hlookup).symm.trans henclosing))
  obtain ⟨hnames, hnode⟩ := FileTree.node_of_mem_filesBelow hroot (List.mem_filter.mp hfile).1
  rw [hs.read_eq_ok_iff (hroot.join hnamed.2), Path.parts_join l.root rfl]
  exact (hs.find?_eq_some (by simp [Path.ofNames, hnames])).mpr hnode

/-- A page that is saved is staged with its bytes, unless it is the index itself. -/
private theorem Attempt.page {d : Draft} {t : State} {staged : List String} {w : WorkTree}
    {places : List (List String)} (h : Attempt o l settings s d t staged w places)
    (hs : s.files.Sound) (hroot : l.root.Resolved)
    (hmeta : s.files.find? l.metadata.parts = some .directory)
    (hlookup : s.repositories.lookup l.root = some store) {path : String}
    (hpath : Unsaved s l settings path) (hother : l.root.join (Path.ofString path) ≠ l.index) :
    ∃ leaf ∈ w.stage places, leaf.path = path ∧ leaf.isSubmodule = false ∧
      s.files.read (l.root.join (Path.ofString path)) = .ok leaf.bytes := by
  obtain ⟨v, hv, htop, hstore, hwritten, hsound, -⟩ := h.rewritten hs hroot hmeta hlookup
  obtain ⟨names, bytes, hfile, rfl, htracked, hignored, hpage⟩ := hpath.file hv htop
  have hnamed : WorkTree.Named names := (State.sound_workTree hs hroot hv).named _ hfile
  rw [WorkTree.ofString_gitPath hnamed] at hother ⊢
  have hne : names ≠ indexNames := by
    rintro rfl
    refine hother ((hroot.join hnamed.2).eq_of_parts_eq (resolved_index hroot) ?_)
    rw [index_parts]
    exact Path.parts_join _ rfl
  have hplaces := (hwritten.place.trans htop) ▸ h.pages
  have htakes : w.takes places names = true := by
    rw [WorkTree.takes, WorkTree.covers_page hnamed hplaces hpage, hwritten.rules, hignored]
    simp
  have htaken : w.leafOf names bytes ∈ w.taken places :=
    WorkTree.mem_taken.mpr ⟨_, (hwritten.files _ hne).mpr hfile, htakes, rfl⟩
  exact ⟨_, hsound.mem_stage.mpr (.inl htaken), rfl, WorkTree.isSubmodule_leafOf w _ _,
    read_workTree hs hroot hlookup hv hfile⟩

/-! ## What a save leaves behind -/

/-- What a save has done that returns an entry: the commit that its repository has one more of, and
the page that the entry is made from. In a repository of its own the page is in the commit as it was
read, unless the page is the index file, which a save overwrites. -/
structure Saves (l : Layout) (settings : Settings) (s s' : State) (entry : IndexEntry) (top : Path)
    (old new : Store) (commit : Commit) (path : String) (text : List Char) : Prop where
  before : s.enclosing? l.root = some (top, old)
  after : s'.enclosing? l.root = some (top, new)
  commits : new.commits = old.commits ++ [commit]
  tidy : new.Tidy
  sound : commit.snapshot.Sound
  unsaved : Unsaved s l settings path
  reads : Reads s (l.root.join (Path.ofString path)) text
  entry : entryFor path text settings = .ok entry
  page : top = l.root → l.root.join (Path.ofString path) ≠ l.index →
    ∃ leaf ∈ commit.snapshot, leaf.path = path ∧ leaf.isSubmodule = false ∧
      s.files.read (l.root.join (Path.ofString path)) = .ok leaf.bytes

/-- A save that returns has saved the unsaved page in one commit. -/
theorem save_eq_ok (hs : s.Sound) (htidy : ∀ repository ∈ s.repositories, repository.2.Tidy)
    {root : Path} (hroot : root.Resolved) (hload : ((loadRoot root).on s).1 = .ok (l, settings))
    {entry : IndexEntry} (hrun : (save l settings).on s = (.ok entry, s')) :
    ∃ top old new commit path text,
      Saves l settings s s' entry top old new commit path text := by
  obtain ⟨hroot', hmeta⟩ := metadata_of_loadRoot hs.files hroot hload
  rw [← hroot'] at hroot
  cases save_outcome hs hroot hmeta hrun with
  | @saved d t u _ staged w places message committer hattempt _ hfiles hrepositories =>
    obtain ⟨hsame, hdrafted⟩ := draft_eq_ok hattempt.drafts
    obtain ⟨-, hreads⟩ := keeps_draft s .quiet l settings s (Same.refl s)
    rw [hattempt.drafts] at hreads
    obtain ⟨-, path, text, hpath, htext, hentry⟩ := hreads d rfl
    obtain ⟨files, hw⟩ := State.workTree?_of_repositories hattempt.written_repositories.symm
      hattempt.tree
    obtain ⟨top, old, henclosing, hw'⟩ := State.workTree?_eq_some_iff.mp hw
    obtain rfl : w.store = old := (WorkTree.mk.inj hw').2.2
    have hlookup := (State.enclosing?_eq_some henclosing).2
    have hold : w.store.Tidy := htidy _ (mem_of_lookup hlookup)
    have hwritten : (t.written l d).files.Sound :=
      sound_written (hsame.1 ▸ hs.files) hroot (hsame.1 ▸ hmeta)
        (hsame.1 ▸ hdrafted.before.not_directory hs.files (resolved_index hroot)) d
    have hnamed : (w.stage places).Named :=
      (State.sound_workTree hwritten hroot hattempt.tree).named_stage hold.staged places
    have hstaged : w.store.staged.Sound := hs.staged _ (mem_of_lookup hlookup)
    refine ⟨top, w.store, _, _, path, text, henclosing, ?_, rfl,
      (hold.withStaged hnamed).record message committer, WorkTree.sound_stage hstaged places,
      hpath, htext, hentry, ?_⟩
    · rw [State.enclosing?, hrepositories]
      exact State.enclosing?_setAt henclosing _
    · rintro rfl hother
      exact hattempt.page hs.files hroot hmeta hlookup hpath hother

end Guidebook.Workflow
