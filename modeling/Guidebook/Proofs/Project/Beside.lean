import Guidebook.Proofs.Git.WorkTree
import Guidebook.Proofs.Project.Footprint

/-!
# The project beside a preview

A preview looks for the page after it has prepared its directories, a save looks for it in the world
as it is. Both find the same, with the same bytes and the same index, as long as no unsaved page
lies in the directories of the preview.
-/

namespace Guidebook

namespace State

open Git

variable {s : State} {dir top : Path} {store : Store}

/-- What a directory belongs to lies at the front of its path. -/
theorem resolved_of_enclosing? (hdir : dir.Resolved) (h : s.enclosing? dir = some (top, store)) :
    top.Resolved ∧ dir.parts = top.parts ++ (dir.relativeTo? top).getD [] := by
  obtain ⟨hmem, -⟩ := enclosing?_eq_some h
  have hprefix := prefix_of_mem_ancestors hmem
  obtain ⟨n, -, rfl⟩ := List.mem_map.mp hmem
  have htop : Path.Resolved ⟨dir.anchor, dir.names.take (dir.names.length - n)⟩ :=
    ⟨hdir.absolute, fun name hname ↦ hdir.parts name (List.take_subset _ _ hname)⟩
  refine ⟨htop, ?_⟩
  have hempty : (Path.parts ⟨dir.anchor, dir.names.take (dir.names.length - n)⟩).isEmpty = false :=
    List.isEmpty_eq_false_iff.mpr htop.parts_ne_nil
  rw [Path.relativeTo?, hempty, Bool.false_and, if_neg Bool.false_ne_true,
    if_pos (Path.hasPrefix_iff.mpr hprefix), Option.getD_some]
  obtain ⟨rest, hrest⟩ := hprefix
  rw [← hrest, List.drop_left]

/-- The files of a work tree are those below the repository that are not another's. -/
theorem mem_files_workTree (hs : s.files.Sound) (hdir : dir.Resolved) {w : WorkTree}
    (henclosing : s.enclosing? dir = some (top, store)) (hw : s.workTree? dir = some w)
    {names : List String} {bytes : List UInt8} :
    (names, bytes) ∈ w.files ↔ names ≠ [] ∧
      s.files.find? (top.parts ++ names) = some (.file bytes) ∧ s.isForeign top names = false := by
  obtain ⟨top', store', henclosing', rfl⟩ := workTree?_eq_some_iff.mp hw
  obtain ⟨rfl, rfl⟩ := Prod.mk.inj (Option.some.inj (henclosing.symm.trans henclosing'))
  rw [List.mem_filter, hs.mem_filesBelow_iff (resolved_of_enclosing? hdir henclosing).1,
    Bool.not_eq_true', and_assoc]

/-- A file of a work tree is read by the path that commands show it with. -/
theorem read_shown (hs : s.files.Sound) (hdir : dir.Resolved)
    (hthere : s.files.find? dir.parts = some .directory) {w : WorkTree}
    (hw : s.workTree? dir = some w) {names : List String} {bytes : List UInt8}
    (hfile : (names, bytes) ∈ w.files) :
    s.files.read (dir.join (Path.ofString (w.shown names))) = .ok bytes := by
  obtain ⟨top, store, henclosing, hw'⟩ := workTree?_eq_some_iff.mp hw
  obtain ⟨htop, hparts⟩ := resolved_of_enclosing? hdir henclosing
  obtain ⟨hnames, hfound, -⟩ := (mem_files_workTree hs hdir henclosing hw).mp hfile
  have hparts : dir.parts = top.parts ++ w.place := by rw [hparts, hw']
  have hnamed : ∀ name ∈ names, Path.IsPart name := (sound_workTree hs hdir hw).named _ hfile |>.2
  obtain ⟨common, up, down, hplace, rfl, hseen, -⟩ := WorkTree.seenFrom_eq w.place names
  have hdown : ∀ name ∈ down, Path.IsPart name := fun name hname ↦
    hnamed name (List.mem_append_right _ hname)
  rw [hplace, ← List.append_assoc] at hparts
  rw [← List.append_assoc] at hfound
  have hwritten : WorkTree.Written (up.map (fun _ ↦ "..") ++ down) := by
    refine ⟨fun hempty ↦ ?_, fun name hname ↦ ?_⟩
    · -- the directory itself is no file
      obtain ⟨hup, rfl⟩ := List.append_eq_nil_iff.mp hempty
      rw [List.map_eq_nil_iff.mp hup, List.append_nil] at hparts
      rw [List.append_nil, ← hparts, hthere] at hfound
      cases hfound
    · rcases List.mem_append.mp hname with hname | hname
      · exact .inl (List.mem_map.mp hname).choose_spec.2.symm
      · exact .inr (hdown name hname)
  rw [WorkTree.shown, hseen, hwritten.ofString_gitPath]
  exact hs.read_beside hdir hthere hparts (fun hup ↦ (hdown _ hup).notUp rfl) hfound

end State

namespace Workflow

open Git

variable {l : Layout} {settings : Settings} {s t : State}

/-! ## Worlds that are spared -/

namespace Spared

variable (h : Spared l s t)

include h

/-- Outside of the directories of a preview there are the same files. -/
theorem file_iff {place : List String} (hplace : ¬ Previewed l place) {bytes : List UInt8} :
    t.files.find? place = some (.file bytes) ↔ s.files.find? place = some (.file bytes) := by
  rcases h.elsewhere place hplace with heq | ⟨-, hs, ht⟩
  · rw [heq]
  · rw [hs, ht]
    simp

/-- Off the way to the export nothing has changed in the metadata directory. -/
theorem find?_metadata {name : String} (hname : name ≠ Layout.exportDir) :
    t.files.find? (Layout.child l.metadata name).parts =
      s.files.find? (Layout.child l.metadata name).parts := by
  have hout : ∀ inner, ¬ (Layout.child l.exportRoot inner).parts <+:
      (Layout.child l.metadata name).parts := by
    intro inner hprefix
    rw [Layout.parts_child, append_exportRoot, Layout.parts_child, List.prefix_append_right_inj,
      List.cons_prefix_cons] at hprefix
    exact hname hprefix.1.symm
  refine (h.elsewhere _ fun hin ↦ hin.elim (hout _) (hout _)).resolve_right fun hway ↦ ?_
  have hprefix := hway.1
  rw [Layout.exportRoot, Layout.parts_child, Layout.parts_child,
    List.prefix_append_right_inj] at hprefix
  exact hname (List.cons_prefix_cons.mp hprefix).1

/-- The metadata directory stays. -/
theorem find?_metadata_self
    (hmeta : s.files.find? l.metadata.parts = some .directory) :
    t.files.find? l.metadata.parts = some .directory := by
  have hlong : ∀ name, ¬ (Layout.child l.exportRoot name).parts <+: l.metadata.parts := by
    intro name hprefix
    have hlength := hprefix.length_le
    rw [Layout.parts_child, append_exportRoot, List.length_append, List.length_cons] at hlength
    omega
  rcases h.elsewhere l.metadata.parts fun hin ↦ hin.elim (hlong _) (hlong _) with heq | ⟨-, hnone, -⟩
  · rw [heq, hmeta]
  · rw [hnone] at hmeta
    cases hmeta

theorem answer_loadIndex (hs : s.files.Sound) (hroot : l.root.Resolved) :
    ((loadIndex l.index).on t).1 = ((loadIndex l.index).on s).1 :=
  answer_loadIndex_congr h.sound hs (resolved_index hroot) (h.find?_metadata (by decide))

theorem answer_loadRoot (hs : s.files.Sound) (hroot : l.root.Resolved) :
    ((loadRoot l.root).on t).1 = ((loadRoot l.root).on s).1 :=
  answer_loadRoot_congr h.sound hs hroot (h.find?_metadata (by decide))

theorem enclosing?_eq (dir : Path) : t.enclosing? dir = s.enclosing? dir :=
  State.enclosing?_congr fun _ _ ↦ by rw [h.repositories]

end Spared

/-! ## Unsaved pages -/

/-- A page that is not saved yet, by its path and by where it lies. -/
def UnsavedAt (s : State) (l : Layout) (settings : Settings) (path : String)
    (place : List String) : Prop :=
  ∃ top store w inner names, s.enclosing? l.root = some (top, store) ∧
    s.workTree? l.root = some w ∧ pathspec w.place l.pagesDir = .ok inner ∧
    names ∈ w.others inner ∧ path = w.shown names ∧ place = top.parts ++ names ∧
    Page.isPagePath path l.pagesDir settings.extension = true

/-- No unsaved page lies in the directories of a preview. -/
def PagesElsewhere (s : State) (l : Layout) (settings : Settings) : Prop :=
  ∀ path place, UnsavedAt s l settings path place → ¬ Previewed l place

/-- Unsaved pages lie elsewhere if the pages directory does not start like the metadata directory. -/
theorem pagesElsewhere_of_first (hroot : l.root.Resolved) {first : String} {rest : List String}
    (hparts : (Path.ofString l.pagesDir).parts = first :: rest) (hup : ".." ∉ first :: rest)
    (hfirst : first ≠ Layout.metaDir) (s : State) : PagesElsewhere s l settings := by
  rintro path place ⟨top, store, w, inner, names, htop, hw, hinner, hnames, -, rfl, -⟩ hin
  obtain ⟨top', store', htop', hw'⟩ := State.workTree?_eq_some_iff.mp hw
  obtain ⟨rfl, rfl⟩ := Prod.mk.inj (Option.some.inj (htop.symm.trans htop'))
  have hplace : l.root.parts = top.parts ++ w.place := by
    rw [(State.resolved_of_enclosing? hroot htop).2, hw']
  have hfollow := (WorkTree.pathspec_eq_ok hinner).2
  rw [hparts, WorkTree.followNames_eq hup] at hfollow
  obtain rfl := Option.some.inj hfollow
  have hpages := (WorkTree.mem_others.mp hnames).2.1
  obtain ⟨tail, rfl⟩ := (List.prefix_append _ _).trans hpages
  rw [List.prefix_append_right_inj] at hpages
  obtain ⟨more, rfl⟩ := hpages
  have hother : ∀ name, ¬ (Layout.child l.exportRoot name).parts <+:
      top.parts ++ (w.place ++ (first :: rest ++ more)) := by
    intro name hprefix
    rw [Layout.parts_child, append_exportRoot, Layout.metadata, Layout.parts_child, hplace,
      List.append_assoc, List.append_assoc, List.prefix_append_right_inj,
      List.prefix_append_right_inj] at hprefix
    exact hfirst (List.cons_prefix_cons.mp hprefix).1.symm
  exact hin.elim (hother _) (hother _)

/-- The only one of some paths. -/
def onlyPath (pagesDir : String) : List String → Except Failure String
  | [] => .error (.noUnsavedPage pagesDir)
  | [path] => .ok path
  | paths => .error (.multipleUnsavedPages paths)

/-- What looking for the unsaved page answers. -/
theorem on_unsavedPage (l : Layout) (settings : Settings) (s : State) :
    (unsavedPage (workFiles l.root) l settings).on s =
      (handOver (.untracked l.pagesDir) >>= fun _ ↦
        (match s.workTree? l.root with
        | none => .error (.git (.untracked l.pagesDir) (.exited noRepository))
        | some w => ((w.untracked l.pagesDir).map (·.filter fun path ↦
            Page.isPagePath path l.pagesDir settings.extension)).mapError
              fun complaint ↦ .git (.untracked l.pagesDir) (.exited complaint)) >>=
          onlyPath l.pagesDir, s) := by
  have hask : ((workFiles l.root).untracked l.pagesDir).on s = _ :=
    on_asking l.root (.untracked l.pagesDir) (fun w ↦ w.untracked l.pagesDir) s
  rw [unsavedPage, on_bind, hask]
  cases handOver (.untracked l.pagesDir) with
  | error failure => rfl
  | ok _ =>
    cases s.workTree? l.root with
    | none => rfl
    | some w =>
      cases hlisted : w.untracked l.pagesDir with
      | error complaint => simp only [bind, Except.bind, Except.map, Except.mapError, hlisted]
      | ok paths =>
        simp only [bind, Except.bind, Except.map, Except.mapError, hlisted]
        rcases paths.filter _ with _ | ⟨path, _ | ⟨other, rest⟩⟩ <;> rfl

/-- The ignore files above what lies elsewhere lie elsewhere. -/
private theorem not_previewed_ignoreFile {place dir : List String} (h : ¬ Previewed l place)
    (hdir : dir <+: place) : ¬ Previewed l (dir ++ [".gitignore"]) := by
  have hother : ∀ {name : String}, ".gitignore" ≠ name →
      (Layout.child l.exportRoot name).parts <+: dir ++ [".gitignore"] →
        (Layout.child l.exportRoot name).parts <+: place := by
    intro name hname hprefix
    rcases List.prefix_concat_iff.mp hprefix with heq | hfront
    · rw [Layout.parts_child] at heq
      exact absurd (List.append_inj_right' heq rfl) (by simpa using hname.symm)
    · exact hfront.trans hdir
  exact fun hin ↦ h (hin.imp (hother (by decide)) (hother (by decide)))

namespace Spared

variable (h : Spared l s t) (hs : s.files.Sound) (hroot : l.root.Resolved)

include h hs hroot

/-- Elsewhere the work trees have the same files. -/
private theorem mem_files_iff {v w : WorkTree} (hv : t.workTree? l.root = some v)
    (hw : s.workTree? l.root = some w) {top : Path} {store : Store}
    (htop : s.enclosing? l.root = some (top, store)) {names : List String}
    (hplace : ¬ Previewed l (top.parts ++ names)) (bytes : List UInt8) :
    (names, bytes) ∈ v.files ↔ (names, bytes) ∈ w.files := by
  have htop' : t.enclosing? l.root = some (top, store) := by rw [h.enclosing?_eq, htop]
  have hforeign : t.isForeign top names = s.isForeign top names := by
    rw [State.isForeign, State.isForeign, h.repositories]
  rw [State.mem_files_workTree h.sound hroot htop' hv, State.mem_files_workTree hs hroot htop hw,
    h.file_iff hplace, hforeign]

/-- A page that lies elsewhere is unsaved in both worlds or in none. -/
private theorem mem_others_iff {v w : WorkTree} (hv : t.workTree? l.root = some v)
    (hw : s.workTree? l.root = some w) (hstore : v.store = w.store) {top : Path} {store : Store}
    (htop : s.enclosing? l.root = some (top, store)) {names : List String}
    (hplace : ¬ Previewed l (top.parts ++ names)) (inner : List String) :
    names ∈ v.others inner ↔ names ∈ w.others inner := by
  refine (State.sound_workTree h.sound hroot hv).mem_others_congr
    (State.sound_workTree hs hroot hw) hstore (h.mem_files_iff hs hroot hv hw htop hplace)
    (fun dir hdir ↦ h.mem_files_iff hs hroot hv hw htop ?_) inner
  rw [← List.append_assoc]
  exact not_previewed_ignoreFile hplace
    ((List.prefix_append_right_inj _).mpr (hdir.trans (List.dropLast_prefix _)))

/-- Looking for the unsaved page ends the same way in both worlds. -/
theorem answer_unsavedPage (hpages : PagesElsewhere s l settings)
    (hpages' : PagesElsewhere t l settings) :
    ((unsavedPage (workFiles l.root) l settings).on t).1 =
      ((unsavedPage (workFiles l.root) l settings).on s).1 := by
  have hfilter : ∀ v w, t.workTree? l.root = some v → s.workTree? l.root = some w →
      v.place = w.place → v.store = w.store →
        (v.untracked l.pagesDir).map (·.filter fun path ↦
            Page.isPagePath path l.pagesDir settings.extension) =
          (w.untracked l.pagesDir).map (·.filter fun path ↦
            Page.isPagePath path l.pagesDir settings.extension) := by
    intro v w hv hw hplace hstore
    obtain ⟨top, store, htop, -⟩ := State.workTree?_eq_some_iff.mp hw
    have htop' : t.enclosing? l.root = some (top, store) := by rw [h.enclosing?_eq, htop]
    refine WorkTree.filter_untracked_congr hplace fun inner hinner names hpage ↦ ?_
    have hiff (hout : ¬ Previewed l (top.parts ++ names)) :=
      h.mem_others_iff hs hroot hv hw hstore htop hout inner
    constructor
    · intro hothers
      refine (hiff (hpages' (v.shown names) _ ?_)).mp hothers
      refine ⟨top, store, v, inner, names, htop', hv, hplace ▸ hinner, hothers, rfl, rfl, ?_⟩
      rwa [WorkTree.shown, hplace, ← WorkTree.shown]
    · intro hothers
      refine (hiff (hpages (w.shown names) _ ?_)).mpr hothers
      exact ⟨top, store, w, inner, names, htop, hw, hinner, hothers, rfl, rfl, hpage⟩
  rw [on_unsavedPage, on_unsavedPage]
  cases hw : s.workTree? l.root with
  | none =>
    have hv : t.workTree? l.root = none := by
      cases hv : t.workTree? l.root with
      | none => rfl
      | some v =>
        obtain ⟨files, hw'⟩ := State.workTree?_of_repositories h.repositories.symm hv
        rw [hw] at hw'
        cases hw'
    rw [hv]
  | some w =>
    obtain ⟨files, hv⟩ := State.workTree?_of_repositories h.repositories hw
    rw [hv]
    simp only [hfilter _ w hv hw rfl rfl]

/-- The unsaved page is read in both worlds, with the same bytes. -/
theorem read_unsaved (hmeta : s.files.find? l.metadata.parts = some .directory)
    (hpages : PagesElsewhere s l settings) {path : String}
    (hfinds : ((unsavedPage (workFiles l.root) l settings).on s).1 = .ok path) :
    ∃ bytes, s.files.read (l.root.join (Path.ofString path)) = .ok bytes ∧
      t.files.read (l.root.join (Path.ofString path)) = .ok bytes := by
  obtain ⟨w, paths, hw, huntracked, hone⟩ :=
    (keeps_unsavedPage s .quiet l settings s (Same.refl s)).2 path hfinds
  obtain ⟨hpath, hpage⟩ := Page.mem_of_filter_eq_singleton hone
  rw [WorkTree.untracked] at huntracked
  obtain ⟨inner, hinner, rfl⟩ := map_eq_ok huntracked
  rw [WorkTree.listing, WorkTree.mem_foldr_insertPath, List.mem_map] at hpath
  obtain ⟨names, hnames, rfl⟩ := hpath
  obtain ⟨⟨⟨_, bytes⟩, hfile, rfl⟩, -⟩ := WorkTree.mem_others.mp hnames
  obtain ⟨top, store, htop, -⟩ := State.workTree?_eq_some_iff.mp hw
  obtain ⟨files, hv⟩ := State.workTree?_of_repositories h.repositories hw
  have hout := hpages _ _ ⟨top, store, w, inner, _, htop, hw, hinner, hnames, rfl, rfl, hpage⟩
  have hthere {u : State} (hu : u.files.Sound)
      (hmeta : u.files.find? l.metadata.parts = some .directory) :
      u.files.find? l.root.parts = some .directory :=
    hu.find?_front hmeta (by rw [Layout.metadata, Layout.parts_child]; exact List.prefix_append _ _)
  refine ⟨bytes, State.read_shown hs hroot (hthere hs hmeta) hw hfile, ?_⟩
  exact State.read_shown h.sound hroot (hthere h.sound (h.find?_metadata_self hmeta)) hv
    ((h.mem_files_iff hs hroot hv hw htop hout bytes).mpr hfile)

end Spared

end Workflow

end Guidebook
