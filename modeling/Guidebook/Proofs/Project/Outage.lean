import Guidebook.Project.Save
import Guidebook.Proofs.Index
import Guidebook.Proofs.Project.Repositories

/-!
# The steps of a save

A save asks git two questions and has it make two changes, and any of the four may fail. What each
step answers and leaves behind, whatever git does.
-/

namespace Guidebook

namespace Workflow

open Git

/-! ## Git that fails -/

/-- The commands of a save that fail, and why. -/
structure Outage where
  untracked : Option Problem
  listed : Option Problem
  add : Option Problem
  commit : Option Problem

/-- No command is made to fail. -/
def Outage.quiet : Outage := ⟨none, none, none, none⟩

/-- A command that is run only if nothing is wrong. -/
def failing {α : Type} (problem : Option Problem) (command : Command) (w : Workflow α) :
    Workflow α :=
  match problem with
  | none => w
  | some problem => do
    ofResult (handOver command)
    throw (.git command problem)

/-- The questions to a work tree during an outage. -/
def Outage.workFiles (o : Outage) (git : WorkFiles Workflow) : WorkFiles Workflow where
  untracked := fun path ↦ failing o.untracked (.untracked path) (git.untracked path)
  listed := fun path ↦ failing o.listed (.listed path) (git.listed path)

/-- The changes to a repository during an outage. -/
def Outage.changes (o : Outage) (git : Changes Workflow) : Changes Workflow where
  init := git.init
  add := fun paths ↦ failing o.add (.add paths) (git.add paths)
  reset := git.reset
  commit := fun message name email ↦
    failing o.commit (.commit message name email) (git.commit message name email)

theorem Outage.listed_eq (o : Outage) (dir : Path) (path : String) :
    (o.workFiles (Workflow.workFiles dir)).listed path =
      failing o.listed (.listed path) (asking dir (.listed path) fun w ↦ w.listed path) := rfl

theorem Outage.add_eq (o : Outage) (dir : Path) (paths : List String) :
    (o.changes (Workflow.changes dir)).add paths =
      failing o.add (.add paths) (changing dir (.add paths) fun w ↦ w.add paths) := rfl

theorem Outage.commit_eq (o : Outage) (dir : Path) (message name email : String) :
    (o.changes (Workflow.changes dir)).commit message name email =
      failing o.commit (.commit message name email) (changing dir (.commit message name email)
        fun w ↦ (w.commit message name email).map fun store ↦ (store, none)) := rfl

private theorem handOver_error {command : Command} {failure : Failure}
    (h : handOver command = .error failure) : failure = .nullByte := by
  rw [handOver] at h
  split at h
  · exact (Except.error.inj h).symm
  · cases h

private theorem on_failing_some {α : Type} (problem : Problem) (command : Command)
    (w : Workflow α) (s : State) :
    (failing (some problem) command w).on s =
      (handOver command >>= fun _ ↦ .error (.git command problem), s) := by
  rw [failing, on_bind, on_ofResult]
  cases handOver command <;> rfl

/-- A question is answered, or it cannot be handed over, or it fails. It changes nothing. -/
theorem asking_cases {α : Type} (problem : Option Problem) (dir : Path) (command : Command)
    (answer : WorkTree → Except String α) (s : State) :
    (∃ w a, s.workTree? dir = some w ∧ answer w = .ok a ∧
        (failing problem command (asking dir command answer)).on s = (.ok a, s)) ∨
      (failing problem command (asking dir command answer)).on s = (.error .nullByte, s) ∨
      ∃ why, (failing problem command (asking dir command answer)).on s =
        (.error (.git command why), s) := by
  cases hwords : handOver command with
  | error failure =>
    obtain rfl := handOver_error hwords
    refine .inr (.inl ?_)
    cases problem with
    | some why =>
      rw [on_failing_some, hwords]
      rfl
    | none =>
      rw [failing, on_asking, hwords]
      rfl
  | ok _ =>
    cases problem with
    | some why =>
      refine .inr (.inr ⟨why, ?_⟩)
      rw [on_failing_some, hwords]
      rfl
    | none =>
      rw [failing, on_asking, hwords]
      cases hw : s.workTree? dir with
      | none => exact .inr (.inr ⟨_, rfl⟩)
      | some w =>
        cases ha : answer w with
        | error complaint =>
          refine .inr (.inr ⟨.exited complaint, ?_⟩)
          simp only [bind, Except.bind, ha, Except.mapError]
        | ok a =>
          refine .inl ⟨w, a, rfl, ha, ?_⟩
          simp only [bind, Except.bind, ha, Except.mapError]

/-- A change is made, or it cannot be handed over, or it fails and changes nothing, or it complains
of what it did. -/
theorem changing_cases (problem : Option Problem) (dir : Path) (command : Command)
    (change : WorkTree → Except String (Store × Option String)) (s : State) :
    (handOver command = .ok () ∧ ∃ w store, s.workTree? dir = some w ∧
        change w = .ok (store, none) ∧
        (failing problem command (changing dir command change)).on s =
          (.ok (), s.setAt dir store)) ∨
      (handOver command ≠ .ok () ∧
        (failing problem command (changing dir command change)).on s = (.error .nullByte, s)) ∨
      (handOver command = .ok () ∧
        ∃ why, (failing problem command (changing dir command change)).on s =
          (.error (.git command why), s)) ∨
      handOver command = .ok () ∧ ∃ w store complaint, s.workTree? dir = some w ∧
        change w = .ok (store, some complaint) ∧
        (failing problem command (changing dir command change)).on s =
          (.error (.git command (.exited complaint)), s.setAt dir store) := by
  cases hwords : handOver command with
  | error failure =>
    obtain rfl := handOver_error hwords
    refine .inr (.inl ⟨by simp, ?_⟩)
    cases problem with
    | some why =>
      rw [on_failing_some, hwords]
      rfl
    | none =>
      rw [failing, on_changing, on_asking, hwords]
      rfl
  | ok _ =>
    cases problem with
    | some why =>
      refine .inr (.inr (.inl ⟨rfl, why, ?_⟩))
      rw [on_failing_some, hwords]
      rfl
    | none =>
      rw [failing, on_changing, on_asking, hwords]
      cases hw : s.workTree? dir with
      | none => exact .inr (.inr (.inl ⟨rfl, _, rfl⟩))
      | some w =>
        simp only [bind, Except.bind]
        rcases hchange : change w with complaint | ⟨store, _ | complaint⟩
        · exact .inr (.inr (.inl ⟨trivial, .exited complaint, rfl⟩))
        · exact .inl ⟨trivial, w, store, rfl, hchange, rfl⟩
        · exact .inr (.inr (.inr ⟨trivial, w, store, complaint, rfl, hchange, rfl⟩))

/-! ## What a save is going to write -/

/-- The index that the files of a project hold: none is an index without pages. -/
def Loads (t : FileTree) (path : Path) (index : PageIndex) : Prop :=
  t.present path = false ∧ index = PageIndex.empty ∨
    ∃ bytes, t.read path = .ok bytes ∧ PageIndex.ofBytes path.toString bytes = .ok index

/-- The bytes of a file, if there is one. -/
def Before (t : FileTree) (path : Path) (before : Option (List UInt8)) : Prop :=
  t.present path = false ∧ before = none ∨ ∃ bytes, t.read path = .ok bytes ∧ before = some bytes

/-- A draft is made from the index and from the only page that is not saved yet. -/
structure Drafted (s : State) (l : Layout) (settings : Settings) (d : Draft) : Prop where
  index : ∃ index, Loads s.files l.index index ∧ index.append d.entry = .ok d.longer
  page : ∃ w paths path, s.workTree? l.root = some w ∧ w.untracked l.pagesDir = .ok paths ∧
    (paths.filter fun path ↦ Page.isPagePath path l.pagesDir settings.extension) = [path] ∧
    Page.code path settings.extension = .ok d.entry.code
  before : Before s.files l.index d.before

/-- Loading the index changes nothing but the reports. -/
theorem keeps_loadIndex (s : State) (path : Path) :
    Keeps (Same · s) (Workflow.loadIndex path) (Loads s.files path) := by
  refine Keeps.files.bind fun t ht ↦ ?_
  obtain ⟨u, hu, rfl⟩ := ht
  rw [hu.1]
  cases hpresent : s.files.present path with
  | false =>
    rw [if_neg Bool.false_ne_true]
    refine (Keeps.log (fun u logs hu ↦ hu) _ _ _).bind fun _ _ ↦ Keeps.pure ?_
    exact .inl ⟨hpresent, rfl⟩
  | true =>
    rw [if_pos rfl]
    cases hread : s.files.read path with
    | error problem => exact Keeps.throw _
    | ok bytes => exact Keeps.ofResult fun index hindex ↦ .inr ⟨bytes, hread, hindex⟩

/-- A question to a work tree changes nothing. -/
theorem keeps_asking {α : Type} (s : State) (problem : Option Problem) (dir : Path)
    (command : Command) (answer : WorkTree → Except String α) :
    Keeps (Same · s) (failing problem command (asking dir command answer)) fun a ↦
      ∃ w, s.workTree? dir = some w ∧ answer w = .ok a := by
  intro t ht
  rcases asking_cases problem dir command answer t with ⟨w, a, hw, ha, hon⟩ | hon | ⟨why, hon⟩
  · rw [hon]
    refine ⟨ht, fun b hb ↦ ⟨w, ?_, ?_⟩⟩
    · rw [← ht.workTree?_eq, hw]
    · rw [ha, Except.ok.inj hb]
  · rw [hon]
    exact ⟨ht, fun b hb ↦ by cases hb⟩
  · rw [hon]
    exact ⟨ht, fun b hb ↦ by cases hb⟩

/-- Reading a file changes nothing. -/
theorem keeps_read (s : State) (path : Path) :
    Keeps (Same · s) (Workflow.read path) fun bytes ↦ s.files.read path = .ok bytes := by
  intro t ht
  rw [on_read, ht.1]
  refine ⟨ht, fun bytes hbytes ↦ ?_⟩
  cases hread : s.files.read path with
  | error problem =>
    rw [hread] at hbytes
    cases hbytes
  | ok found =>
    rw [hread] at hbytes
    exact congrArg Except.ok (Except.ok.inj hbytes)

/-- The only page of a project that is not saved yet. -/
def Unsaved (s : State) (l : Layout) (settings : Settings) (path : String) : Prop :=
  ∃ w paths, s.workTree? l.root = some w ∧ w.untracked l.pagesDir = .ok paths ∧
    (paths.filter fun path ↦ Page.isPagePath path l.pagesDir settings.extension) = [path]

/-- Looking for the unsaved page changes nothing. -/
theorem keeps_unsavedPage (s : State) (o : Outage) (l : Layout) (settings : Settings) :
    Keeps (Same · s) (unsavedPage (o.workFiles (Workflow.workFiles l.root)) l settings)
      (Unsaved s l settings) := by
  refine (keeps_asking s o.untracked l.root _ _).bind fun paths hanswer ↦ ?_
  obtain ⟨w, hw, hpaths⟩ := hanswer
  simp only
  split
  · exact Keeps.throw _
  · next path hone => exact Keeps.pure ⟨w, paths, hw, hpaths, hone⟩
  · exact Keeps.throw _

/-- The text of a file, its line ends made line feeds. -/
def Reads (s : State) (path : Path) (text : List Char) : Prop :=
  ∃ bytes raw, s.files.read path = .ok bytes ∧ Utf8.decode bytes = .ok raw ∧
    text = Text.universalNewlines raw

/-- Reading text changes nothing. -/
theorem keeps_text (s : State) (path : Path) :
    Keeps (Same · s) (readText path) (Reads s path) := by
  refine (keeps_read s _).bind fun bytes hbytes ↦ ?_
  split
  · next raw hraw => exact Keeps.pure ⟨bytes, raw, hbytes, hraw, rfl⟩
  · exact Keeps.throw _

/-- Drafting a save changes nothing but the reports, and reads the unsaved page. -/
theorem keeps_draft (s : State) (o : Outage) (l : Layout) (settings : Settings) :
    Keeps (Same · s) (Workflow.draft (o.workFiles (Workflow.workFiles l.root)) l settings)
      fun d ↦ Drafted s l settings d ∧ ∃ path text, Unsaved s l settings path ∧
        Reads s (l.root.join (Path.ofString path)) text ∧
        entryFor path text settings = .ok d.entry := by
  refine (keeps_loadIndex s l.index).bind fun index hindex ↦ ?_
  refine (keeps_unsavedPage s o l settings).bind fun path hpath ↦ ?_
  refine (keeps_text s _).bind fun text htext ↦ ?_
  refine (Keeps.ofResult fun entry hentry ↦ hentry).bind fun entry hentry ↦ ?_
  refine (Keeps.ofResult fun longer hlonger ↦ hlonger).bind fun longer hlonger ↦ ?_
  have happend : index.append entry = .ok longer := mapError_eq_ok hlonger
  have hcode : Page.code path settings.extension = .ok entry.code := by
    obtain ⟨code, hcode, rfl⟩ := map_eq_ok hentry
    exact hcode
  have hdrafted {before : Option (List UInt8)} (hbefore : Before s.files l.index before) :
      Drafted s l settings ⟨entry, index.size, longer, before⟩ := by
    obtain ⟨w, paths, hw, hpaths, hone⟩ := hpath
    exact ⟨⟨index, hindex, happend⟩, ⟨w, paths, path, hw, hpaths, hone, hcode⟩, hbefore⟩
  refine Keeps.files.bind fun t hfiles ↦ ?_
  obtain ⟨u, hu, ht⟩ := hfiles
  rw [← ht, hu.1]
  simp only
  split
  · rw [map_eq_pure_bind, bind_assoc]
    refine (keeps_read s l.index).bind fun bytes hbytes ↦ ?_
    exact Keeps.pure ⟨hdrafted (.inr ⟨bytes, hbytes, rfl⟩), path, text, hpath, htext, hentry⟩
  · next habsent =>
    exact Keeps.pure ⟨hdrafted (.inl ⟨by simpa using habsent, rfl⟩), path, text, hpath, htext,
      hentry⟩

/-! ## The index file -/

variable {s : State} {l : Layout}

private theorem isPart_metaDir : Path.IsPart Layout.metaDir :=
  ⟨by decide, by decide, by decide, by decide⟩

private theorem isPart_indexFile : Path.IsPart Layout.indexFile :=
  ⟨by decide, by decide, by decide, by decide⟩

private theorem isPart_settingsFile : Path.IsPart Layout.settingsFile :=
  ⟨by decide, by decide, by decide, by decide⟩

/-- The metadata directory of a resolved project. -/
theorem resolved_metadata (hroot : l.root.Resolved) : l.metadata.Resolved :=
  Layout.resolved_child hroot isPart_metaDir

/-- The index file of a resolved project. -/
theorem resolved_index (hroot : l.root.Resolved) : l.index.Resolved :=
  Layout.resolved_child (resolved_metadata hroot) isPart_indexFile

/-- The settings file of a resolved project. -/
theorem resolved_settings (hroot : l.root.Resolved) : l.settings.Resolved :=
  Layout.resolved_child (resolved_metadata hroot) isPart_settingsFile

/-- A project that is loaded has a metadata directory. -/
theorem metadata_of_loadRoot (hs : s.files.Sound) {root : Path} (hroot : root.Resolved)
    {settings : Settings} (hload : ((loadRoot root).on s).1 = .ok (l, settings)) :
    l.root = root ∧ s.files.find? l.metadata.parts = some .directory := by
  have hsettings : (Layout.ofRoot root).settings.Resolved := resolved_settings hroot
  rw [loadRoot, on_bind] at hload
  have hread : ∃ bytes, s.files.read (Layout.ofRoot root).settings = .ok bytes := by
    cases hread : s.files.read (Layout.ofRoot root).settings with
    | ok bytes => exact ⟨bytes, rfl⟩
    | error problem =>
      rw [loadSettings, on_bind_ok (on_files s)] at hload
      split at hload
      · next found t hfound =>
        split at hfound
        · rw [on_bind, on_read, hread] at hfound
          cases hfound
        · cases hfound
      · cases hload
  obtain ⟨bytes, hread⟩ := hread
  have hroot' : l.root = root := by
    split at hload
    · obtain ⟨rfl, -⟩ := Prod.mk.inj (Except.ok.inj hload)
      rfl
    · cases hload
  refine ⟨hroot', ?_⟩
  have hfile := (hs.read_eq_ok_iff hsettings).mp hread
  rw [Layout.settings, Layout.parts_child] at hfile
  rw [Layout.metadata, hroot']
  refine hs.find?_parent hfile (List.prefix_append _ _) fun heq ↦ ?_
  have hlength := congrArg List.length heq
  rw [List.length_append, List.length_singleton, Layout.metadata] at hlength
  exact absurd hlength (Nat.succ_ne_self _).symm

/-- The index is written where the index file lies, and nothing else changes. -/
theorem on_saveIndex (hs : s.files.Sound) (hroot : l.root.Resolved)
    (hmeta : s.files.find? l.metadata.parts = some .directory)
    (hindex : s.files.find? l.index.parts ≠ some .directory) (index : PageIndex) :
    (saveIndex l.index index).on s =
      (.ok (), { s with
        files := s.files.put l.index.parts (.file (Utf8.encode index.write)) }) := by
  have hparent : parent l.index = l.metadata := Layout.parent_child _ _
  have hmake := hs.makeDirectories_eq (resolved_metadata hroot) hmeta
  rw [Layout.index, Layout.parts_child] at hindex ⊢
  have hwrite := hs.write_child (resolved_metadata hroot) hmeta isPart_indexFile hindex
    (Utf8.encode index.write)
  rw [saveIndex, on_bind, on_makeDirectories]
  rw [Layout.index] at hparent
  rw [hparent, hmake, writeText]
  simp only
  rw [on_write, hwrite]

/-! ## Staging and committing -/

/-- Commands take the path of the index to lead to the index. -/
theorem pathspec_index (place : List String) :
    pathspec place (Layout.metaDir ++ "/" ++ Layout.indexFile) =
      .ok (place ++ [Layout.metaDir, Layout.indexFile]) := by
  have hread : Path.ofString (Layout.metaDir ++ "/" ++ Layout.indexFile) =
      ⟨"", [Layout.metaDir, Layout.indexFile]⟩ := by decide
  have hmeta : (Layout.metaDir == "..") = false := by decide
  have hindex : (Layout.indexFile == "..") = false := by decide
  rw [pathspec, if_neg (by decide), hread]
  simp [followNames, hmeta, hindex]

/-- The paths to stage mean places, the pages directory among them, or the workspace could not be
listed. -/
theorem stagedPaths_cases (o : Outage) {w : WorkTree} (hw : s.workTree? l.root = some w)
    {pages : List String} (hpages : pathspec w.place l.pagesDir = .ok pages) :
    (∃ staged places, w.places staged = .ok places ∧ pages ∈ places ∧
        (stagedPaths (o.workFiles (Workflow.workFiles l.root)) l).on s = (.ok staged, s)) ∨
      ∃ failure, (stagedPaths (o.workFiles (Workflow.workFiles l.root)) l).on s =
          (.error failure, s) ∧
        (failure = .nullByte ∨ ∃ path why, failure = .git (.listed path) why) := by
  have hindex := pathspec_index w.place
  rcases asking_cases o.listed l.root (.listed l.workspaceDir)
      (fun w ↦ w.listed l.workspaceDir) s with ⟨w', paths, hw', hpaths, hon⟩ | hon | ⟨why, hon⟩
  · obtain rfl := Option.some.inj (hw.symm.trans hw')
    refine .inl ⟨[l.pagesDir] ++ (if paths.isEmpty then [] else [l.workspaceDir]) ++
      [Layout.metaDir ++ "/" ++ Layout.indexFile], ?_⟩
    rw [WorkTree.listed] at hpaths
    cases hworkspace : pathspec w.place l.workspaceDir with
    | error complaint =>
      rw [hworkspace] at hpaths
      cases hpaths
    | ok workspace =>
      refine ⟨[pages] ++ (if paths.isEmpty then [] else [workspace]) ++
        [w.place ++ [Layout.metaDir, Layout.indexFile]], ?_, by simp, ?_⟩
      · rw [WorkTree.places]
        cases paths.isEmpty <;>
          simp [hpages, hworkspace, hindex, pure, Except.pure, bind, Except.bind]
      · rw [stagedPaths, Outage.listed_eq, on_bind_ok hon]
        rfl
  · refine .inr ⟨.nullByte, ?_, .inl rfl⟩
    exact on_bind_error hon _
  · refine .inr ⟨.git (.listed l.workspaceDir) why, ?_, .inr ⟨l.workspaceDir, why, rfl⟩⟩
    exact on_bind_error hon _

private theorem handOver_reset {paths : List String} (h : handOver (.add paths) = .ok ()) :
    handOver (.reset paths) = .ok () := by
  rw [handOver] at h ⊢
  split at h
  · cases h
  · next hwords =>
    rw [if_neg]
    intro hnul
    apply hwords
    simp only [Command.arguments, List.any_append, Bool.or_eq_true] at hnul ⊢
    exact .inr (hnul.resolve_left (by decide))

private theorem commit_eq_ok {w : WorkTree} {message name email : String}
    {answer : Store × Option String}
    (h : ((w.commit message name email).map fun store ↦ (store, none)) = .ok answer) :
    answer = (w.store.record (Store.cleanMessage message) (name ++ " <" ++ email ++ ">"), none) := by
  rw [WorkTree.commit] at h
  split at h
  · cases h
  · split at h
    · cases h
    · split at h
      · cases h
      · exact (Except.ok.inj h).symm

/-- A save is recorded, or git complains or is not asked, and then at most the staging area has
changed. -/
theorem record_cases (o : Outage) (hs : (s.repositories.map (·.1)).Nodup) {w : WorkTree}
    (hw : s.workTree? l.root = some w) {staged : List String} {places : List (List String)}
    (hplaces : w.places staged = .ok places) (entry : IndexEntry) :
    (∃ message committer, (record (o.changes (Workflow.changes l.root)) staged entry).on s =
        (.ok (), (s.setAt l.root (w.store.withStaged (w.stage places))).setAt l.root
          ((w.store.withStaged (w.stage places)).record message committer))) ∨
      ∃ failure snapshot, (record (o.changes (Workflow.changes l.root)) staged entry).on s =
          (.error failure, s.setAt l.root (w.store.withStaged snapshot)) ∧
        (snapshot = w.store.staged ∨ snapshot = w.stage places) ∧
        (failure = .nullByte ∨
          isGitFailure failure = true ∧ handOver (.reset staged) = .ok ()) := by
  obtain ⟨top, store, henclosing, hw'⟩ := State.workTree?_eq_some_iff.mp hw
  have hself : s.setAt l.root (w.store.withStaged w.store.staged) = s := by
    rw [hw']
    exact State.setAt_self hs henclosing
  have hadd : ∀ other : WorkTree, s.workTree? l.root = some other → ∀ added complaint,
      other.add staged = .ok (added, complaint) →
        added = w.store.withStaged (w.stage places) := by
    intro other ho added complaint hadded
    obtain rfl := Option.some.inj (hw.symm.trans ho)
    rw [WorkTree.add, hplaces] at hadded
    simp only [bind, Except.bind] at hadded
    split at hadded
    · cases hadded
    · exact (Prod.mk.inj (Except.ok.inj hadded)).1.symm
  rw [record, Outage.add_eq]
  rcases changing_cases o.add l.root (.add staged) (fun w ↦ w.add staged) s with
    ⟨hwords, other, added, ho, hadded, hon⟩ | ⟨-, hon⟩ | ⟨hwords, why, hon⟩ |
    ⟨hwords, other, added, complaint, ho, hadded, hon⟩
  · obtain rfl := hadd other ho _ _ hadded
    rw [on_bind_ok hon, Outage.commit_eq]
    have hstaged := State.workTree?_setAt hw (w.store.withStaged (w.stage places))
    rcases changing_cases o.commit l.root (.commit (saveMessage entry) committerName committerEmail)
        (fun w ↦ (w.commit (saveMessage entry) committerName committerEmail).map fun store ↦
          (store, none)) (s.setAt l.root (w.store.withStaged (w.stage places))) with
      ⟨-, other, committed, ho, hcommitted, hon⟩ | ⟨-, hon⟩ | ⟨-, why, hon⟩ |
      ⟨-, other, committed, complaint, ho, hcommitted, hon⟩
    · obtain rfl := Option.some.inj (hstaged.symm.trans ho)
      obtain ⟨rfl, -⟩ := Prod.mk.inj (commit_eq_ok hcommitted)
      exact .inl ⟨_, _, hon⟩
    · exact .inr ⟨_, _, hon, .inr rfl, .inl rfl⟩
    · exact .inr ⟨_, _, hon, .inr rfl, .inr ⟨rfl, handOver_reset hwords⟩⟩
    · cases (Prod.mk.inj (commit_eq_ok hcommitted)).2
  · refine .inr ⟨.nullByte, w.store.staged, ?_, .inl rfl, .inl rfl⟩
    rw [hself, on_bind_error hon]
  · refine .inr ⟨.git (.add staged) why, w.store.staged, ?_, .inl rfl,
      .inr ⟨rfl, handOver_reset hwords⟩⟩
    rw [hself, on_bind_error hon]
  · obtain rfl := hadd other ho _ _ hadded
    exact .inr ⟨_, _, on_bind_error hon _, .inr rfl, .inr ⟨rfl, handOver_reset hwords⟩⟩

/-! ## Undoing -/

/-- Where a file is or none there is no directory. -/
theorem Before.not_directory {t : FileTree} {path : Path} {before : Option (List UInt8)}
    (h : Before t path before) (ht : t.Sound) (hpath : path.Resolved) :
    t.find? path.parts ≠ some .directory := by
  intro hdirectory
  rcases h with ⟨habsent, -⟩ | ⟨old, hread, -⟩
  · rw [FileTree.present, ht.node?_eq hpath, hdirectory] at habsent
    cases habsent
  · rw [(ht.read_eq_ok_iff hpath).mp hread] at hdirectory
    cases hdirectory

/-- An index file that was written is put back as it was. -/
theorem on_restore {t : FileTree} (ht : t.Sound) (hroot : l.root.Resolved)
    (hmeta : t.find? l.metadata.parts = some .directory) {before : Option (List UInt8)}
    (hbefore : Before t l.index before) {bytes : List UInt8}
    (hs : s.files = t.put l.index.parts (.file bytes)) :
    (restore l.index before).on s = (.ok (), { s with files := t }) := by
  have hresolved := resolved_index hroot
  have hindex := hbefore.not_directory ht hresolved
  have hne : l.index.parts ≠ [] := hresolved.parts_ne_nil
  have hparts : l.index.parts = l.metadata.parts ++ [Layout.indexFile] := Layout.parts_child _ _
  have hput : (t.put l.index.parts (.file bytes)).Sound := by
    rw [hparts] at hindex ⊢
    exact ht.write (Layout.resolved_child (resolved_metadata hroot) isPart_indexFile).plain
      (ht.write_child (resolved_metadata hroot) hmeta isPart_indexFile hindex bytes)
  have hfound : (t.put l.index.parts (.file bytes)).find? l.index.parts = some (.file bytes) := by
    rw [ht.find?_put hne, if_pos rfl]
  rcases hbefore with ⟨habsent, rfl⟩ | ⟨old, hread, rfl⟩
  · rw [FileTree.present, ht.node?_eq hresolved, Option.isSome_eq_false_iff,
      Option.isNone_iff_eq_none] at habsent
    rw [restore, on_removeTree, hs, hput.remove_eq hresolved hfound,
      ht.removeAll_put hne habsent]
  · have hold := (ht.read_eq_ok_iff hresolved).mp hread
    have hmeta' : (t.put l.index.parts (.file bytes)).find? l.metadata.parts =
        some .directory := by
      rw [ht.find?_put hne, if_neg, hmeta]
      rw [hparts]
      simp
    have hwrite := hput.write_child (resolved_metadata hroot) hmeta' isPart_indexFile
      (by rw [← hparts, hfound]; simp) old
    rw [← hparts, ht.put_put hne hold] at hwrite
    have hwrite' : (t.put l.index.parts (.file bytes)).write l.index old = .ok t := hwrite
    rw [restore, on_write, hs, hwrite']

/-- If git failed, undoing a save puts the index back and sets back what is staged. -/
theorem undo_git (o : Outage) {t : FileTree} (ht : t.Sound) (hroot : l.root.Resolved)
    (hmeta : t.find? l.metadata.parts = some .directory) {d : Draft}
    (hbefore : Before t l.index d.before) {bytes : List UInt8}
    (hs : s.files = t.put l.index.parts (.file bytes)) {w : WorkTree}
    (hw : s.workTree? l.root = some w) {staged : List String} {places : List (List String)}
    (hplaces : w.places staged = .ok places) (hwords : handOver (.reset staged) = .ok ())
    {failure : Failure} (hfailure : isGitFailure failure = true) :
    ∃ u, (undo (o.changes (Workflow.changes l.root)) l d staged failure).on s =
        (.error failure, u) ∧ u.files = t ∧
      u.repositories =
        (s.setAt l.root (w.store.unstage (WorkTree.covers places))).repositories := by
  rw [undo, if_pos hfailure, on_bind_ok (on_log _ _ _ _)]
  generalize hlogged : State.mk s.files s.repositories _ = logged
  have hfiles : logged.files = t.put l.index.parts (.file bytes) := by rw [← hlogged, hs]
  rw [on_bind_ok (on_restore ht hroot hmeta hbefore hfiles)]
  generalize hu : State.mk t logged.repositories _ = u
  have hrepositories : u.repositories = s.repositories := by rw [← hu, ← hlogged]
  obtain ⟨files, hw'⟩ := State.workTree?_of_repositories hrepositories hw
  have hreset : ((o.changes (Workflow.changes l.root)).reset staged).on u =
      (.ok (), u.setAt l.root (w.store.unstage (WorkTree.covers places))) := by
    change (changing l.root _ _).on u = _
    have hplaces' : { w with files := files }.places staged = .ok places := hplaces
    rw [on_changing, on_asking, hwords, hw']
    simp only [bind, Except.bind, WorkTree.reset, hplaces']
    rfl
  rw [on_bind_ok hreset]
  refine ⟨_, rfl, ?_, State.repositories_setAt_congr hrepositories _ _⟩
  rw [State.files_setAt, ← hu]

end Workflow

end Guidebook
