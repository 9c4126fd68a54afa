import Guidebook.Proofs.Project.Outage

/-!
# Saves that fail

A save may be stopped by any of the commands that it gives to git. What it leaves behind then:
before the index is written nothing, afterwards the longer index, unless git refuses to stage or to
commit. Then the index is put back, and what is staged is set back to what is committed.
-/

namespace Guidebook

namespace State

/-- What is staged in the repository of a directory. -/
def stagedIn (s : State) (dir : Path) : Git.Snapshot :=
  ((s.enclosing? dir).map (·.2.staged)).getD []

/-- What is committed last in the repository of a directory. -/
def headIn (s : State) (dir : Path) : Git.Snapshot :=
  ((s.enclosing? dir).map (·.2.head)).getD []

/-- Whether a leaf lies at or below one of the paths that a command in a directory is given. -/
def covered (s : State) (dir : Path) (paths : List String) (leaf : Git.Leaf) : Bool :=
  match s.workTree? dir with
  | some w =>
    match w.places paths with
    | .ok places => Git.WorkTree.covers places leaf.path
    | .error _ => false
  | none => false

/-- The world once the index of a draft is written. -/
def written (s : State) (l : Layout) (d : Workflow.Draft) : State :=
  { s with files := s.files.put l.index.parts (.file (Utf8.encode d.longer.write)) }

end State

namespace Workflow

open Git

variable {o : Outage} {l : Layout} {settings : Settings} {s : State}

/-- A save that comes as far as giving paths to git. -/
structure Attempt (o : Outage) (l : Layout) (settings : Settings) (s : State) (d : Draft)
    (t : State) (staged : List String) (w : WorkTree) (places : List (List String)) : Prop where
  drafts : (draft (o.workFiles (workFiles l.root)) l settings).on s = (.ok d, t)
  stages : (stagedPaths (o.workFiles (workFiles l.root)) l).on (t.written l d) =
    (.ok staged, t.written l d)
  tree : (t.written l d).workTree? l.root = some w
  means : w.places staged = .ok places
  pages : ∃ place ∈ places, pathspec w.place l.pagesDir = .ok place

/-- What may come of a save. -/
inductive Outcome (o : Outage) (l : Layout) (settings : Settings) (s : State) :
    Except Failure IndexEntry → State → Prop where
  /-- There is nothing to write. -/
  | refused {failure : Failure} {t : State} :
    (draft (o.workFiles (workFiles l.root)) l settings).on s = (.error failure, t) →
    Outcome o l settings s (.error failure) t
  /-- The index is written, and then the workspace cannot be listed. -/
  | unlisted {d : Draft} {t u : State} {failure : Failure} :
    (draft (o.workFiles (workFiles l.root)) l settings).on s = (.ok d, t) →
    (stagedPaths (o.workFiles (workFiles l.root)) l).on (t.written l d) = (.error failure, u) →
    u = t.written l d → (failure = .nullByte ∨ ∃ path why, failure = .git (.listed path) why) →
    Outcome o l settings s (.error failure) u
  /-- The index is written, and then a command cannot be handed over. -/
  | unasked {d : Draft} {t u : State} {staged : List String} {w : WorkTree}
    {places : List (List String)} {snapshot : Snapshot} :
    Attempt o l settings s d t staged w places →
    (record (o.changes (changes l.root)) staged d.entry).on (t.written l d) =
      (.error .nullByte, u) →
    u = (t.written l d).setAt l.root (w.store.withStaged snapshot) →
    Outcome o l settings s (.error .nullByte) u
  /-- Git refuses to stage or to commit, and everything is undone. -/
  | undone {d : Draft} {t u : State} {staged : List String} {w : WorkTree}
    {places : List (List String)} {snapshot : Snapshot} {failure : Failure} :
    Attempt o l settings s d t staged w places →
    (record (o.changes (changes l.root)) staged d.entry).on (t.written l d) =
      (.error failure, (t.written l d).setAt l.root (w.store.withStaged snapshot)) →
    isGitFailure failure = true → snapshot = w.store.staged ∨ snapshot = w.stage places →
    u.files = s.files →
    u.repositories = (s.setAt l.root
      ((w.store.withStaged snapshot).unstage (WorkTree.covers places))).repositories →
    Outcome o l settings s (.error failure) u
  /-- The page is saved. -/
  | saved {d : Draft} {t u v : State} {staged : List String} {w : WorkTree}
    {places : List (List String)} {message committer : String} :
    Attempt o l settings s d t staged w places →
    (record (o.changes (changes l.root)) staged d.entry).on (t.written l d) = (.ok (), v) →
    u.files = (t.written l d).files →
    u.repositories = (s.setAt l.root
      ((w.store.withStaged (w.stage places)).record message committer)).repositories →
    Outcome o l settings s (.ok d.entry) u

/-- Drafting changes nothing but the reports. -/
theorem draft_eq_ok {d : Draft} {t : State}
    (h : (draft (o.workFiles (workFiles l.root)) l settings).on s = (.ok d, t)) :
    Same t s ∧ Drafted s l settings d := by
  obtain ⟨hsame, hdrafted⟩ := keeps_draft s o l settings s (Same.refl s)
  rw [h] at hsame hdrafted
  exact ⟨hsame, (hdrafted d rfl).1⟩

/-- A save comes to one of its outcomes. -/
theorem savePage_outcome (hs : s.Sound) (hroot : l.root.Resolved)
    (hmeta : s.files.find? l.metadata.parts = some .directory) :
    Outcome o l settings s
      ((savePage (o.workFiles (workFiles l.root)) (o.changes (changes l.root)) l settings).on s).1
      ((savePage (o.workFiles (workFiles l.root)) (o.changes (changes l.root)) l settings).on s).2
    := by
  rcases hdraft : (draft (o.workFiles (workFiles l.root)) l settings).on s with ⟨failure | d, t⟩
  · rw [savePage, on_bind_error hdraft]
    exact .refused hdraft
  obtain ⟨hsame, hdrafted⟩ := draft_eq_ok hdraft
  have ht : t.files.Sound := hsame.1 ▸ hs.files
  have hindex := hdrafted.before.not_directory hs.files (resolved_index hroot)
  have hsave : (saveIndex l.index d.longer).on t = (.ok (), t.written l d) :=
    on_saveIndex ht hroot (hsame.1 ▸ hmeta) (hsame.1 ▸ hindex) d.longer
  obtain ⟨w₀, paths, -, hw₀, hpaths, -⟩ := hdrafted.page
  obtain ⟨pages, hpages⟩ : ∃ pages, pathspec w₀.place l.pagesDir = .ok pages := by
    rw [WorkTree.untracked] at hpaths
    cases hpages : pathspec w₀.place l.pagesDir with
    | ok pages => exact ⟨pages, rfl⟩
    | error complaint =>
      rw [hpages] at hpaths
      cases hpaths
  have hrepositories : (t.written l d).repositories = s.repositories := hsame.2
  have hnodup : ((t.written l d).repositories.map (·.1)).Nodup := hrepositories ▸ hs.nodup
  obtain ⟨found, hw⟩ := State.workTree?_of_repositories hrepositories hw₀
  rw [savePage, on_bind_ok hdraft, on_bind_ok hsave]
  rcases stagedPaths_cases o hw hpages with
    ⟨staged, places, hplaces, hmem, hon⟩ | ⟨failure, hon, hfailure⟩
  · have hattempt : Attempt o l settings s d t staged _ places :=
      ⟨hdraft, hon, hw, hplaces, pages, hmem, hpages⟩
    obtain ⟨top, store, henclosing, hw'⟩ := State.workTree?_eq_some_iff.mp hw
    rw [on_bind_ok hon, on_bind, on_tryCatch]
    have hagain : ∀ a b, (((t.written l d).setAt l.root a).setAt l.root b).repositories =
        (s.setAt l.root b).repositories := by
      intro a b
      rw [State.repositories_setAt_setAt henclosing]
      exact State.repositories_setAt_congr hrepositories _ _
    rcases record_cases o hnodup hw hplaces d.entry with
      ⟨message, committer, hrecord⟩ | ⟨failure, snapshot, hrecord, hsnapshot, hfailure⟩
    · rw [hrecord]
      refine .saved hattempt hrecord ?_ (hagain _ _)
      exact (State.files_setAt _ _ _).trans (State.files_setAt _ _ _)
    · rw [hrecord]
      rcases hfailure with rfl | ⟨hgit, hwords⟩
      · exact .unasked hattempt hrecord rfl
      · have hfiles : ((t.written l d).setAt l.root
            ((WorkTree.mk found w₀.place w₀.store).store.withStaged snapshot)).files =
            s.files.put l.index.parts (.file (Utf8.encode d.longer.write)) := by
          rw [State.files_setAt, State.written, hsame.1]
        obtain ⟨u, hundo, hu, hrestored⟩ := undo_git o hs.files hroot hmeta hdrafted.before hfiles
          (State.workTree?_setAt hw _) hplaces hwords hgit
        simp only [hundo]
        exact .undone hattempt hrecord hgit hsnapshot hu (hrestored.trans (hagain _ _))
  · rw [on_bind_error hon]
    exact .unlisted hdraft hon rfl hfailure

/-- A save is one during which no command is made to fail. -/
theorem save_outcome (hs : s.Sound) (hroot : l.root.Resolved)
    (hmeta : s.files.find? l.metadata.parts = some .directory) {answer : Except Failure IndexEntry}
    {s' : State} (hrun : (save l settings).on s = (answer, s')) :
    Outcome .quiet l settings s answer s' := by
  have houtcome : Outcome .quiet l settings s ((save l settings).on s).1
      ((save l settings).on s).2 :=
    savePage_outcome hs hroot hmeta
  rwa [hrun] at houtcome

/-- The entry of a draft has a code. -/
theorem Drafted.code_ne_empty {d : Draft} (h : Drafted s l settings d) : d.entry.code ≠ "" := by
  obtain ⟨w, paths, path, -, -, hone, hcode⟩ := h.page
  rw [(Page.code_eq_ok_iff.mp hcode).2]
  exact Page.slug_ne_empty (Page.mem_of_filter_eq_singleton hone).2

/-- A drafted index is not the one that the file holds. -/
theorem Drafted.index_ne {d : Draft} (h : Drafted s l settings d) (hs : s.files.Sound)
    (hindex : l.index.Resolved) :
    s.files.find? l.index.parts ≠ some (.file (Utf8.encode d.longer.write)) := by
  obtain ⟨index, hloads, happend⟩ := h.index
  intro hfound
  have hread := (hs.read_eq_ok_iff hindex).mpr hfound
  rcases hloads with ⟨habsent, -⟩ | ⟨bytes, hbytes, hload⟩
  · rw [FileTree.present, hs.node?_eq hindex, hfound] at habsent
    cases habsent
  · have hsound := PageIndex.sound_of_ofBytes hload
    obtain ⟨hlonger, hentries⟩ := hsound.append h.code_ne_empty happend
    rw [hread] at hbytes
    rw [← Except.ok.inj hbytes, PageIndex.ofBytes_write hlonger] at hload
    rw [Except.ok.inj hload] at hentries
    have hlength := congrArg List.length hentries
    rw [List.length_append, List.length_singleton] at hlength
    omega

private theorem find?_written (hs : s.files.Sound) (hindex : l.index.Resolved) {t : State}
    (hsame : Same t s) (d : Draft) (place : List String) :
    (t.written l d).files.find? place = if place = l.index.parts
      then some (.file (Utf8.encode d.longer.write)) else s.files.find? place := by
  have hne : l.index.parts ≠ [] := hindex.parts_ne_nil
  rw [State.written, hsame.1]
  exact hs.find?_put hne _ _

private theorem not_same_written (hs : s.files.Sound) (hindex : l.index.Resolved) {d : Draft}
    (hdrafted : Drafted s l settings d) {t u : State} (hsame : Same t s)
    (hu : u.files = (t.written l d).files) : ¬ Same u s := by
  intro h
  have hfound := find?_written hs hindex hsame d l.index.parts
  rw [if_pos rfl, ← hu, h.1] at hfound
  exact hdrafted.index_ne hs hindex hfound

/-- A failure that leaves nothing behind: nothing was written, or git refused to stage or to commit,
nothing but the current commit had been staged at the saved paths, and nothing that was staged
elsewhere is lost. -/
def Harmless (o : Outage) (l : Layout) (settings : Settings) (s : State) (failure : Failure) :
    Prop :=
  (∃ t, (draft (o.workFiles (workFiles l.root)) l settings).on s = (.error failure, t)) ∨
    ∃ d t staged u,
      (draft (o.workFiles (workFiles l.root)) l settings).on s = (.ok d, t) ∧
      (stagedPaths (o.workFiles (workFiles l.root)) l).on (t.written l d) =
        (.ok staged, t.written l d) ∧
      (record (o.changes (changes l.root)) staged d.entry).on (t.written l d) =
        (.error failure, u) ∧
      isGitFailure failure = true ∧
      (∀ leaf, s.covered l.root staged leaf = true →
        (leaf ∈ s.stagedIn l.root ↔ leaf ∈ s.headIn l.root)) ∧
      ∀ leaf ∈ s.stagedIn l.root, s.covered l.root staged leaf = false →
        leaf ∈ u.stagedIn l.root

/-- Writing the index changes no repository. -/
theorem Attempt.written_repositories {d : Draft} {t : State} {staged : List String} {w : WorkTree}
    {places : List (List String)} (h : Attempt o l settings s d t staged w places) :
    (t.written l d).repositories = s.repositories :=
  (draft_eq_ok h.drafts).1.2

/-- What undoing leaves is what was there exactly if nothing but the current commit had been staged
at the saved paths, and nothing that was staged elsewhere is lost. -/
private theorem Attempt.same_iff {d : Draft} {t u : State} {staged : List String} {w : WorkTree}
    {places : List (List String)} (h : Attempt o l settings s d t staged w places) (hs : s.Sound)
    (hroot : l.root.Resolved) {snapshot : Snapshot}
    (hsnapshot : snapshot = w.store.staged ∨ snapshot = w.stage places)
    (hfiles : u.files = s.files)
    (hrepositories : u.repositories = (s.setAt l.root
      ((w.store.withStaged snapshot).unstage (WorkTree.covers places))).repositories) :
    Same u s ↔
      (∀ leaf, s.covered l.root staged leaf = true →
        (leaf ∈ s.stagedIn l.root ↔ leaf ∈ s.headIn l.root)) ∧
      ∀ leaf ∈ s.stagedIn l.root, s.covered l.root staged leaf = false →
        leaf ∈ ((t.written l d).setAt l.root (w.store.withStaged snapshot)).stagedIn l.root := by
  obtain ⟨files, hw⟩ := State.workTree?_of_repositories h.written_repositories.symm h.tree
  obtain ⟨top, store, henclosing, hw'⟩ := State.workTree?_eq_some_iff.mp hw
  obtain ⟨top', store', henclosing', hw''⟩ := State.workTree?_eq_some_iff.mp h.tree
  have hstore : w.store = store := (WorkTree.mk.inj hw').2.2
  have hsound := hs.workTree hroot hw
  have hstagedSound : w.store.staged.Sound := hsound.2.1
  have hheadSound : w.store.head.Sound := hsound.2.2
  have hcovered : ∀ leaf, s.covered l.root staged leaf = WorkTree.covers places leaf.path := by
    intro leaf
    have hplaces : (WorkTree.mk files w.place w.store).places staged = .ok places := h.means
    rw [State.covered, hw]
    simp only [hplaces]
  have hstagedIn : s.stagedIn l.root = w.store.staged := by
    rw [State.stagedIn, henclosing, hstore]
    rfl
  have hheadIn : s.headIn l.root = w.store.head := by
    rw [State.headIn, henclosing, hstore]
    rfl
  have hleft : ((t.written l d).setAt l.root (w.store.withStaged snapshot)).stagedIn l.root =
      snapshot := by
    rw [State.stagedIn, State.enclosing?_setAt henclosing']
    rfl
  have hsnapshotSound : snapshot.Sound := by
    rcases hsnapshot with rfl | rfl
    · exact hstagedSound
    · exact WorkTree.sound_stage hstagedSound places
  have helse : ∀ leaf ∈ snapshot, WorkTree.covers places leaf.path = false →
      leaf ∈ w.store.staged := by
    intro leaf hleaf houtside
    rcases hsnapshot with rfl | rfl
    · exact hleaf
    · exact WorkTree.mem_staged_of_mem_stage hleaf houtside
  have hunstage := Store.unstage_staged_eq_iff (s := w.store.withStaged snapshot) hstagedSound
    hsnapshotSound hheadSound helse
  simp only [hcovered, hstagedIn, hheadIn, hleft]
  refine Iff.trans ?_ hunstage
  generalize hundone : (w.store.withStaged snapshot).unstage (WorkTree.covers places) = undone
    at hrepositories
  have hkept : undone = w.store.withStaged undone.staged := by rw [← hundone]; rfl
  have hrestored := State.repositories_setAt_eq_iff hs.nodup henclosing undone
  constructor
  · intro hu
    rw [← hrepositories, ← hstore] at hrestored
    rw [hrestored.mp hu.2]
  · intro hstaged
    refine ⟨hfiles, hrepositories.trans (hrestored.mpr ?_)⟩
    rw [hkept, hstaged, ← hstore]
    rfl

private theorem Attempt.commits_setAt {d : Draft} {t : State} {staged : List String} {w : WorkTree}
    {places : List (List String)} (h : Attempt o l settings s d t staged w places) (hs : s.Sound)
    {store : Store} (hcommits : store.commits = w.store.commits) :
    ((s.setAt l.root store).repositories.map fun entry ↦ (entry.1, entry.2.commits)) =
      s.repositories.map fun entry ↦ (entry.1, entry.2.commits) := by
  obtain ⟨files, hw⟩ := State.workTree?_of_repositories h.written_repositories.symm h.tree
  obtain ⟨top, old, henclosing, hw'⟩ := State.workTree?_eq_some_iff.mp hw
  have hold : w.store = old := (WorkTree.mk.inj hw').2.2
  exact State.commits_setAt hs.nodup henclosing (hold ▸ hcommits)

/-! ## Saving again -/

private theorem Quiet.failing {α : Type} (problem : Option Problem) (command : Command)
    {w : Workflow α} (hw : Quiet w) : Quiet (failing problem command w) := by
  cases problem with
  | none => exact hw
  | some why => exact (Quiet.ofResult _).bind fun _ ↦ Quiet.throw _

/-- Looking for the unsaved page goes the same way whatever was reported before. -/
theorem quiet_unsavedPage (o : Outage) (l : Layout) (settings : Settings) :
    Quiet (unsavedPage (o.workFiles (workFiles l.root)) l settings) := by
  refine (Quiet.failing _ _ (Quiet.asking _ _ _)).bind fun paths ↦ ?_
  simp only
  split
  · exact Quiet.throw _
  · exact Quiet.pure _
  · exact Quiet.throw _

/-- A draft is of the page that is found unsaved. -/
theorem unsavedPage_of_draft {o : Outage} {d : Draft} {t : State}
    (h : (draft (o.workFiles (workFiles l.root)) l settings).on s = (.ok d, t)) :
    ∃ path, ((unsavedPage (o.workFiles (workFiles l.root)) l settings).on s).1 = .ok path ∧
      Unsaved s l settings path := by
  obtain ⟨index, u, hindex, hrest⟩ := on_bind_eq_ok h
  obtain ⟨path, v, hpath, -⟩ := on_bind_eq_ok hrest
  have hsame : Same u s := (keeps_loadIndex s l.index).after (Same.refl s) hindex
  have hanswer := (quiet_unsavedPage o l settings u s hsame).1
  rw [hpath] at hanswer
  exact ⟨path, hanswer.symm, (keeps_unsavedPage s o l settings).answer hsame hpath⟩

private theorem quiet_draft (o : Outage) (l : Layout) (settings : Settings) :
    Quiet (draft (o.workFiles (workFiles l.root)) l settings) := by
  refine (Quiet.loadIndex _).bind fun index ↦ ?_
  refine (quiet_unsavedPage o l settings).bind fun path ↦ (Quiet.readText _).bind fun text ↦ ?_
  refine (Quiet.ofResult _).bind fun entry ↦ (Quiet.ofResult _).bind fun longer ↦ ?_
  refine Quiet.files fun t ↦ ?_
  simp only
  split
  · rw [map_eq_pure_bind, bind_assoc]
    exact (Quiet.read _).bind fun bytes ↦ Quiet.pure _
  · exact Quiet.pure _

/-- A save goes the same way whatever was reported before. -/
theorem quiet_savePage (o : Outage) (l : Layout) (settings : Settings) :
    Quiet (savePage (o.workFiles (workFiles l.root)) (o.changes (changes l.root)) l settings) := by
  refine (quiet_draft o l settings).bind fun d ↦ (Quiet.saveIndex _ _).bind fun _ ↦ ?_
  have hstaged : Quiet (stagedPaths (o.workFiles (workFiles l.root)) l) :=
    (Quiet.failing _ _ (Quiet.asking _ _ _)).bind fun paths ↦ Quiet.pure _
  refine hstaged.bind fun staged ↦ Quiet.bind ?_ fun _ ↦ (Quiet.log _ _ _).bind fun _ ↦ Quiet.pure _
  refine Quiet.tryCatch ?_ fun failure ↦ ?_
  · exact (Quiet.failing _ _ (Quiet.changing _ _ _)).bind fun _ ↦
      Quiet.failing _ _ (Quiet.changing _ _ _)
  · rw [undo]
    split
    · refine (Quiet.log _ _ _).bind fun _ ↦ Quiet.bind ?_ fun _ ↦
        (Quiet.changing _ _ _).bind fun _ ↦ Quiet.throw _
      cases d.before with
      | none => exact Quiet.removeTree _
      | some bytes => exact Quiet.write _ _
    · exact Quiet.throw _

/-- What a save leaves behind that fails, whichever of its commands fail. No file but the index is
touched, and no commit is made. Nothing at all is left behind exactly if nothing was written, or if
git refused to stage or to commit and there was nothing in the staging area for the undoing to
damage. Then the next save goes as if there had been none before. -/
theorem savePage_error (hs : s.Sound) {root : Path} (hroot : root.Resolved)
    (hload : ((loadRoot root).on s).1 = .ok (l, settings)) {failure : Failure} {s' : State}
    (hrun : (savePage (o.workFiles (workFiles l.root)) (o.changes (changes l.root)) l settings).on s =
      (.error failure, s')) :
    (∀ place, place ≠ l.index.parts → s'.files.find? place = s.files.find? place) ∧
    (s'.repositories.map fun entry ↦ (entry.1, entry.2.commits)) =
      (s.repositories.map fun entry ↦ (entry.1, entry.2.commits)) ∧
    (Same s' s ↔ Harmless o l settings s failure) ∧
    (Same s' s → ∀ later : Outage,
      ((savePage (later.workFiles (workFiles l.root)) (later.changes (changes l.root)) l
        settings).on s').1 =
        ((savePage (later.workFiles (workFiles l.root)) (later.changes (changes l.root)) l
          settings).on s).1 ∧
      Same ((savePage (later.workFiles (workFiles l.root)) (later.changes (changes l.root)) l
        settings).on s').2
        ((savePage (later.workFiles (workFiles l.root)) (later.changes (changes l.root)) l
          settings).on s).2) := by
  obtain ⟨hroot', hmeta⟩ := metadata_of_loadRoot hs.files hroot hload
  rw [← hroot'] at hroot
  have hindex := resolved_index hroot
  have houtcome : Outcome o l settings s (.error failure) s' := by
    have houtcome : Outcome o l settings s _ _ := savePage_outcome hs hroot hmeta
    rwa [hrun] at houtcome
  refine and_assoc.mp (and_assoc.mp ⟨?_, fun h later ↦ quiet_savePage later l settings s' s h⟩)
  cases houtcome with
  | refused hdraft =>
    have hsame : Same s' s := by
      have := (keeps_draft s o l settings s (Same.refl s)).1
      rwa [hdraft] at this
    refine ⟨⟨fun place _ ↦ by rw [hsame.1], by rw [hsame.2]⟩, ?_⟩
    exact iff_of_true hsame (.inl ⟨s', hdraft⟩)
  | unlisted hdraft hstages hwritten hfailure =>
    obtain ⟨hsame, hdrafted⟩ := draft_eq_ok hdraft
    have hfiles : s'.files = _ := congrArg State.files hwritten
    have hrepositories : s'.repositories = s.repositories := by rw [hwritten]; exact hsame.2
    refine ⟨⟨fun place hne ↦ ?_, by rw [hrepositories]⟩, ?_⟩
    · rw [hfiles, find?_written hs.files hindex hsame, if_neg hne]
    · refine iff_of_false (not_same_written hs.files hindex hdrafted hsame hfiles) ?_
      rintro (⟨t, hdraft'⟩ | ⟨d, t, staged, u, hdraft', hstages', -⟩)
      · rw [hdraft] at hdraft'
        cases hdraft'
      · rw [hdraft] at hdraft'
        cases hdraft'
        rw [hstages] at hstages'
        cases hstages'
  | unasked hattempt hrecord hleft =>
    obtain ⟨hsame, hdrafted⟩ := draft_eq_ok hattempt.drafts
    have hfiles : s'.files = _ := (congrArg State.files hleft).trans (State.files_setAt _ _ _)
    refine ⟨⟨fun place hne ↦ ?_, ?_⟩, ?_⟩
    · rw [hfiles, find?_written hs.files hindex hsame, if_neg hne]
    · have hwritten := hattempt.written_repositories
      rw [hleft, State.repositories_setAt_congr hwritten]
      exact hattempt.commits_setAt hs rfl
    · refine iff_of_false (not_same_written hs.files hindex hdrafted hsame hfiles) ?_
      rintro (⟨t, hdraft'⟩ | ⟨d, t, staged, u, hdraft', hstages', -, hgit, -⟩)
      · rw [hattempt.drafts] at hdraft'
        cases hdraft'
      · cases hgit
  | undone hattempt hrecord hgit hsnapshot hfiles hrepositories =>
    obtain ⟨hsame, hdrafted⟩ := draft_eq_ok hattempt.drafts
    refine ⟨⟨fun place hne ↦ by rw [hfiles], ?_⟩, ?_⟩
    · rw [hrepositories]
      exact hattempt.commits_setAt hs rfl
    · rw [hattempt.same_iff hs hroot hsnapshot hfiles hrepositories]
      constructor
      · intro h
        exact .inr ⟨_, _, _, _, hattempt.drafts, hattempt.stages, hrecord, hgit, h⟩
      · rintro (⟨t, hdraft'⟩ | ⟨d, t, staged, u, hdraft', hstages', hrecord', -, h⟩)
        · rw [hattempt.drafts] at hdraft'
          cases hdraft'
        · rw [hattempt.drafts] at hdraft'
          cases hdraft'
          rw [hattempt.stages] at hstages'
          cases hstages'
          rw [hrecord] at hrecord'
          cases hrecord'
          exact h

/-- A guide with a page that is not saved yet. -/
def unsavedGuide : State where
  files := ⟨[(["/"], .directory), (["/", "guide"], .directory),
    (["/", "guide", ".codasai"], .directory),
    (["/", "guide", ".codasai", "guide.toml"], .file (Utf8.ofString "title = \"T\"\n")),
    (["/", "guide", "pages"], .directory), (["/", "guide", "pages", "a.md"], .file [10])]⟩
  repositories := [(⟨"/", ["guide"]⟩, Store.empty 0)]
  logs := []

/-- The layout of the guide. -/
def guideLayout : Layout := Layout.ofRoot ⟨"/", ["guide"]⟩

/-- A git that refuses to commit. -/
def refusing : Outage := ⟨none, none, none, some (.exited "")⟩

/-- A refused commit leaves the page as it is. -/
theorem savePage_error_refusing :
    ∃ failure s', (savePage (refusing.workFiles (workFiles guideLayout.root))
        (refusing.changes (changes guideLayout.root)) guideLayout (Settings.ofTitle "T")).on
        unsavedGuide = (.error failure, s') ∧
      s'.files.find? ["/", "guide", "pages", "a.md"] = some (.file [10]) := by
  have hload : ((loadRoot guideLayout.root).on unsavedGuide).1 =
      .ok (guideLayout, Settings.ofTitle "T") := by
    have hsome : ((loadRoot guideLayout.root).on unsavedGuide).1.toOption =
        some (guideLayout, Settings.ofTitle "T") := by decide +kernel
    cases hanswer : ((loadRoot guideLayout.root).on unsavedGuide).1 with
    | error failure =>
      rw [hanswer] at hsome
      cases hsome
    | ok loaded =>
      rw [hanswer] at hsome
      exact congrArg Except.ok (Option.some.inj hsome)
  have hnone : ((savePage (refusing.workFiles (workFiles guideLayout.root))
      (refusing.changes (changes guideLayout.root)) guideLayout (Settings.ofTitle "T")).on
      unsavedGuide).1.toOption = none := by decide +kernel
  rcases hrun : (savePage (refusing.workFiles (workFiles guideLayout.root))
      (refusing.changes (changes guideLayout.root)) guideLayout (Settings.ofTitle "T")).on
      unsavedGuide with ⟨failure | entry, s'⟩
  · refine ⟨failure, s', rfl, ?_⟩
    rw [(savePage_error (by decide) (by decide) hload hrun).1 _ (by decide)]
    decide
  · rw [hrun] at hnone
    cases hnone

end Workflow

end Guidebook
