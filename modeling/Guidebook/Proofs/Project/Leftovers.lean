import Guidebook.Proofs.Project.Parallel

/-!
# Builds from scratch

A build empties the export before it writes, and reads nothing from it. So whatever earlier builds
and previews have left there, a build goes the same way and leaves the same files; and since every
file it writes is told, the export holds what is told and nothing else.
-/

namespace Guidebook.Workflow

open Git FileTree

/-! ### What is told -/

section Telling

variable {α β : Type} {t u v : FileTree} {front written : List Path} {path : Path}

/-- A tree in which all paths that were told are files, and in which every file was told unless it
was there before. -/
structure Told (t : FileTree) (written : List Path) (u : FileTree) : Prop where
  sound : u.Sound
  there : ∀ path ∈ written, u.resolve path = .ok path.place ∧
    ∃ bytes, u.find? path.place = some (.file bytes)
  told : ∀ place bytes, u.find? place = some (.file bytes) →
    t.find? place = some (.file bytes) ∨ ∃ path ∈ written, path.place = place

namespace Told

theorem refl (h : t.Sound) : Told t [] t where
  sound := h
  there _ hpath := by cases hpath
  told _ _ hfound := .inl hfound

/-- The order in which paths were told does not count. -/
theorem congr (h : Told t front u) (hsame : ∀ path, path ∈ written ↔ path ∈ front) :
    Told t written u where
  sound := h.sound
  there path hpath := h.there path ((hsame path).mp hpath)
  told place bytes hfound := by
    simp only [hsame]
    exact h.told place bytes hfound

/-- A file that is written is told. -/
theorem write (h : Told t written u) (hpath : path.Plain) {bytes : List UInt8}
    (hwrite : u.write path bytes = .ok v) : Told t (written ++ [path]) v := by
  have hself := h.sound.find?_write_self hwrite
  obtain ⟨place, hplace, hfree, -⟩ := write_eq_ok_iff.mp hwrite
  obtain rfl : place = path.place := follow_eq_normalizeNames hplace
  have hdirectories : ∀ q, u.find? q = some .directory → v.find? q = some .directory := by
    intro q hq
    rw [h.sound.find?_write hwrite, hq]
    rintro rfl
    exact hfree hq
  refine ⟨h.sound.write hpath hwrite, fun other hother ↦ ?_, fun q new hfound ↦ ?_⟩
  · rcases List.mem_append.mp hother with hother | hother
    · obtain ⟨hresolve, old, hfound⟩ := h.there other hother
      refine ⟨follow_mono hdirectories hresolve, ?_⟩
      by_cases heq : path.place = other.place
      · exact ⟨bytes, heq ▸ hself⟩
      · exact ⟨old, by rw [h.sound.find?_write hwrite heq, hfound]⟩
    · obtain rfl := List.mem_singleton.mp hother
      exact ⟨follow_mono hdirectories hplace, bytes, hself⟩
  · by_cases heq : path.place = q
    · exact .inr ⟨path, by simp, heq⟩
    · rw [h.sound.find?_write hwrite heq] at hfound
      rcases h.told q new hfound with hold | ⟨other, hother, hq⟩
      · exact .inl hold
      · exact .inr ⟨other, List.mem_append_left _ hother, hq⟩

/-- Directories that are made are not told. -/
theorem makeDirectories (h : Told t written u) (hpath : path.Plain)
    (hmake : u.makeDirectories path = .ok v) : Told t written v where
  sound := h.sound.makeDirectories hpath hmake
  there other hother := by
    obtain ⟨hresolve, bytes, hfound⟩ := h.there other hother
    exact ⟨follow_mono (fun _ ↦ find?_makeSteps_of_some hmake) hresolve, bytes,
      find?_makeSteps_of_some hmake hfound⟩
  told place bytes hfound := by
    rw [find?_makeDirectories_of_ne hmake] at hfound
    · exact h.told place bytes hfound
    · rintro way hway rfl
      rw [find?_makeDirectories_of_above hmake hway] at hfound
      cases hfound

end Told

/-- A run that tells what it writes: once `front` was told and it returns, `told` was told. -/
def Tells (t : FileTree) (front : List Path) (w : Workflow α) (told : α → List Path) : Prop :=
  ∀ s s' a, Told t front s.files → w.on s = (.ok a, s') → Told t (told a) s'.files

namespace Tells

variable {told : α → List Path}

theorem pure {a : α} (h : ∀ path, path ∈ told a ↔ path ∈ front) :
    Tells t front (Pure.pure a) told := by
  intro s s' b hs hrun
  cases hrun
  exact hs.congr h

theorem ofResult (r : Except Failure α) : Tells t front (Guidebook.ofResult r) fun _ ↦ front := by
  intro s s' a hs hrun
  obtain ⟨-, rfl⟩ := on_ofResult_eq_ok hrun
  exact hs

theorem log (level : LogLevel) (logger message : String) :
    Tells t front (Workflow.log level logger message) fun _ ↦ front := by
  intro s s' a hs hrun
  cases hrun
  exact hs

theorem bind {w : Workflow α} {f : α → Workflow β} {last : β → List Path}
    (hw : Tells t front w told)
    (hf : ∀ a, Tells t (told a) (f a) last) : Tells t front (w >>= f) last := by
  intro s s' b hs hrun
  obtain ⟨a, u, hfirst, hrun⟩ := on_bind_eq_ok hrun
  exact hf a u s' b (hw s u a hs hfirst) hrun

theorem files {f : FileTree → Workflow α} (hf : ∀ u, u.Sound → Tells t front (f u) told) :
    Tells t front (Workflow.files >>= f) told := by
  intro s s' a hs hrun
  rw [on_bind_ok (on_files s)] at hrun
  exact hf _ hs.sound s s' a hs hrun

theorem write (hpath : path.Plain) (bytes : List UInt8) :
    Tells t front (Workflow.write path bytes) fun _ ↦ front ++ [path] := by
  intro s s' a hs hrun
  obtain ⟨u, hwrite, rfl⟩ := on_write_eq_ok hrun
  exact hs.write hpath hwrite

theorem makeDirectories (hpath : path.Plain) :
    Tells t front (Workflow.makeDirectories path) fun _ ↦ front := by
  intro s s' a hs hrun
  obtain ⟨u, hmake, rfl⟩ := on_makeDirectories_eq_ok hrun
  exact hs.makeDirectories hpath hmake

/-! ### The parts of a build -/

theorem copyFiles {dest : Path} (hdest : dest.Plain) {found : List (List String × List UInt8)}
    (hfound : ∀ file ∈ found, ∀ name ∈ file.1, Path.IsPart name) :
    Tells t front (Workflow.copyFiles dest found) (front ++ ·) := by
  induction found generalizing front with
  | nil => exact pure (by simp)
  | cons file rest ih =>
    obtain ⟨hfile, hrest⟩ := List.forall_mem_cons.mp hfound
    have htarget := hdest.join (Path.plain_ofNames hfile)
    exact (makeDirectories htarget.parent).bind fun _ ↦ (write htarget file.2).bind fun _ ↦
      (ih hrest).bind fun _ ↦ pure (by simp)

theorem copyDirectory {source dest : Path} (hsource : source.Resolved) (hdest : dest.Plain) :
    Tells t front (Workflow.copyDirectory source dest) (front ++ ·) := by
  refine files fun u hu ↦ ?_
  split
  · exact copyFiles hdest fun file hfile ↦ hu.named_filesBelow hsource hfile
  · exact pure (by simp)

variable {l : Layout}

theorem themeOf {f : Theme → Workflow α}
    (hf : ∀ theme, theme = .packaged ∨ theme = .own l.ownTheme → Tells t front (f theme) told) :
    Tells t front (Workflow.themeOf l >>= f) told := by
  intro s s' a hs hrun
  rw [on_bind_ok (on_themeOf l s)] at hrun
  exact hf _ ((keeps_themeOf (P := fun _ ↦ True) s trivial).2 _ rfl) s s' a hs hrun

theorem writePublic (hroot : l.root.Resolved) (settings : Settings) :
    Tells t front (Workflow.writePublic l settings) (front ++ ·) := by
  have huser : l.userStatic.Resolved := Layout.resolved_child hroot (by decide)
  have hown : l.ownTheme.Resolved := Layout.resolved_child (resolved_metadata hroot) (by decide)
  have hpublic : l.exportPublic.Resolved :=
    Layout.resolved_child (resolved_exportRoot hroot) (by decide)
  have hdest : ∀ {name}, Path.IsPart name → (Layout.child l.exportPublic name).Plain :=
    fun hname ↦ (Layout.resolved_child hpublic hname).plain
  have hsheet := plain_sheetPath hroot settings.style
  refine (copyDirectory huser (hdest (by decide))).bind fun user ↦ themeOf fun theme hchoice ↦ ?_
  have hcopied : Tells t (front ++ user) (copyStatic theme (Layout.child l.exportPublic "theme"))
      (front ++ user ++ ·) := by
    rcases hchoice with rfl | rfl
    · exact copyFiles (hdest (by decide)) (by decide)
    · exact copyDirectory (Layout.resolved_child hown (by decide)) (hdest (by decide))
  exact hcopied.bind fun _ ↦ (makeDirectories hsheet.parent).bind fun _ ↦
    (write hsheet _).bind fun _ ↦ pure (by simp)

theorem writeMirrored {target : Path} (htarget : target.Plain) (bytes : List UInt8)
    (revision : Option String) (shown : String) :
    Tells t front (Workflow.writeMirrored bytes target revision shown) (front ++ ·) :=
  (makeDirectories htarget.parent).bind fun _ ↦ (write htarget bytes).bind fun _ ↦
    (ofResult _).bind fun _ ↦ (write (plain_companionPath htarget) _).bind fun _ ↦ pure (by simp)

variable {Tree Blob : Type} {p : Projection Tree Blob}

theorem exportFiles (step : Step) (tree : Tree) {out : Path} (hout : out.Plain)
    (paths : List String) :
    Tells t front (Workflow.exportFiles p step tree out paths) (front ++ ·) := by
  induction paths generalizing front with
  | nil => exact pure (by simp)
  | cons path rest ih =>
    exact (ofResult _).bind fun _ ↦
      (writeMirrored (hout.join (Path.plain_ofString path)) _ _ _).bind
      fun _ ↦ ih.bind fun _ ↦ pure (by simp)

theorem exportStep (hroot : p.layout.root.Resolved) (step : Step) :
    Tells t front (Workflow.exportStep p step) (front ++ ·) := by
  have hout := plain_stepDirectory hroot step.page.code
  have hchild : ∀ {name}, Path.IsPart name →
      (Layout.child (stepDirectory p.layout step.page.code) name).Plain :=
    fun hname ↦ hout.join (Path.plain_ofNames (by simpa using hname))
  exact (makeDirectories hout).bind fun _ ↦ (log _ _ _).bind fun _ ↦ files fun _ _ ↦
    (ofResult _).bind fun html ↦ (write (hchild (by decide)) _).bind fun _ ↦ (ofResult _).bind
      fun tree ↦ (exportFiles step tree (hchild (by decide)) _).bind fun _ ↦ pure (by simp)

theorem reportPosition (page : SequencedPage) :
    Tells t front (Workflow.reportPosition p page) fun _ ↦ front := by
  rw [Workflow.reportPosition]
  split
  · exact log _ _ _
  · exact pure (by simp)

theorem exportSteps (hroot : p.layout.root.Resolved) (pages : List SequencedPage) :
    Tells t front (Workflow.exportSteps p pages) (front ++ ·) := by
  induction pages generalizing front with
  | nil => exact pure (by simp)
  | cons page rest ih =>
    rw [exportSteps_cons]
    exact (reportPosition page).bind fun _ ↦ (ofResult _).bind fun step ↦
      (exportStep hroot step).bind fun _ ↦ ih.bind fun _ ↦ pure (by simp)

theorem writeLanding (hroot : l.root.Resolved) (theme : Theme) (guide : GuideContext) :
    Tells t front (Workflow.writeLanding l theme guide) (front ++ [·]) := by
  have htarget : (Layout.child l.exportRoot "index.html").Plain :=
    (Layout.resolved_child (resolved_exportRoot hroot) (by decide)).plain
  exact files fun _ _ ↦ (ofResult _).bind fun html ↦ (makeDirectories htarget.parent).bind fun _ ↦
    (write htarget _).bind fun _ ↦ pure (by simp)

theorem reportPages (index : PageIndex) (count : Nat) :
    Tells t front (Workflow.reportPages l index count) fun _ ↦ front := by
  refine (log _ _ _).bind fun _ ↦ ?_
  split
  · exact log _ _ _
  · exact pure (by simp)

/-- Everything that a build writes into the export is told. -/
theorem fillExport {repository : Repository (Except Failure) Tree Blob} (hroot : l.root.Resolved)
    (settings : Settings) (theme : Theme) (index : PageIndex) :
    Tells t [] (Workflow.fillExport repository l settings theme index) id := by
  exact (writePublic hroot settings).bind fun _ ↦ (ofResult _).bind fun pages ↦
    (reportPages index _).bind fun _ ↦ (exportSteps hroot pages).bind fun _ ↦
      (writeLanding hroot theme _).bind fun _ ↦ pure (by simp)

end Tells

end Telling

/-! ### Worlds that differ in the export -/

/-- Two worlds that differ in the export of a project only, where a directory is or nothing. -/
structure SameButExport (l : Layout) (s t : State) : Prop where
  left : s.files.Sound
  right : t.files.Sound
  files : ∀ place, ¬ l.exportRoot.parts <+: place → s.files.find? place = t.files.find? place
  repositories : ∀ top : Path, ¬ l.exportRoot.parts <+: top.parts →
    s.repositories.lookup top = t.repositories.lookup top
  freeLeft : ∀ bytes, s.files.find? l.exportRoot.parts ≠ some (.file bytes)
  freeRight : ∀ bytes, t.files.find? l.exportRoot.parts ≠ some (.file bytes)

namespace SameButExport

variable {l : Layout} {s t : State} (h : SameButExport l s t)
  (hroot : l.root.Resolved)

include h

/-- A project belongs to a repository above its export, so its history is the same. -/
theorem historyIn_eq : historyIn s l.root = historyIn t l.root := by
  have henclosing : s.enclosing? l.root = t.enclosing? l.root := by
    refine State.enclosing?_congr fun top htop ↦ h.repositories top fun hbelow ↦ ?_
    have hlength := (hbelow.trans (State.prefix_of_mem_ancestors htop)).length_le
    simp only [Layout.exportRoot, Layout.metadata, Layout.parts_child, List.length_append,
      List.length_singleton] at hlength
    omega
  rw [historyIn, historyIn, henclosing]

/-- What else lies in the metadata directory does not lie in the export. -/
theorem find?_metadata {name : String} (hname : name ≠ Layout.exportDir) :
    s.files.find? (Layout.child l.metadata name).parts =
      t.files.find? (Layout.child l.metadata name).parts := by
  refine h.files _ fun hprefix ↦ hname ?_
  rw [Layout.exportRoot, Layout.parts_child, Layout.parts_child,
    List.prefix_append_right_inj] at hprefix
  exact (List.cons_prefix_cons.mp hprefix).1.symm

include hroot

/-- Once the export is cleared the files are the same. -/
theorem cleared {u v : State} (hu : u.files = s.files) (hv : v.files = t.files) :
    ∃ u' v', (clearDirectory l.exportRoot).on u = (.ok (), u') ∧
      (clearDirectory l.exportRoot).on v = (.ok (), v') ∧
      Alike (fun _ ↦ True) u'.files v'.files ∧
      ∀ place, l.exportRoot.parts <+: place → u'.files.find? place = none := by
  have hexport := resolved_exportRoot hroot
  have halike : Alike (¬ l.exportRoot.parts <+: ·) u.files v.files := by
    rw [hu, hv]
    exact ⟨h.left, h.right, h.files⟩
  have hleft := answer_clearDirectory halike.left hexport (hu ▸ h.freeLeft)
  have hright := answer_clearDirectory halike.right hexport (hv ▸ h.freeRight)
  have hrunLeft : (clearDirectory l.exportRoot).on u = (.ok (), _) := Prod.ext hleft rfl
  have hrunRight : (clearDirectory l.exportRoot).on v = (.ok (), _) := Prod.ext hright rfl
  refine ⟨_, _, hrunLeft, hrunRight, ?_, (clearDirectory_eq_ok halike.left hexport hrunLeft).2.1⟩
  exact (alike_clearDirectory halike hexport hrunLeft hrunRight).mono fun place _ ↦
    (Classical.em _).symm

/-- A build from one history goes the same way, and what is in the export afterwards is told. -/
theorem buildFrom_congr {Tree Blob : Type} (settings : Settings)
    (repository : Repository (Except Failure) Tree Blob) :
    ((buildFrom repository l settings).on s).1 = ((buildFrom repository l settings).on t).1 ∧
    ∀ written s', (buildFrom repository l settings).on s = (.ok written, s') →
      (∀ place, s'.files.find? place =
        ((buildFrom repository l settings).on t).2.files.find? place) ∧
      ∃ empty : FileTree, (∀ place, l.exportRoot.parts <+: place → empty.find? place = none) ∧
        Told empty written s'.files := by
  have hown : l.ownTheme.Resolved := Layout.resolved_child (resolved_metadata hroot) (by decide)
  have htheme : s.files.isDirectory l.ownTheme = t.files.isDirectory l.ownTheme := by
    rw [FileTree.isDirectory, FileTree.isDirectory, h.left.node?_eq hown, h.right.node?_eq hown,
      Layout.ownTheme, h.find?_metadata (by decide)]
  have hindex : ((loadIndex l.index).on s).1 = ((loadIndex l.index).on t).1 :=
    answer_loadIndex_congr h.left h.right (resolved_index hroot) (h.find?_metadata (by decide))
  have hchoice := (keeps_themeOf (l := l) (P := fun _ ↦ True) t trivial).2 _ rfl
  rw [buildFrom_eq, on_bind_ok (on_themeOf l s), on_bind_ok (on_themeOf l t), htheme]
  generalize (if t.files.isDirectory l.ownTheme then Theme.own l.ownTheme else Theme.packaged) =
    theme at hchoice ⊢
  rcases hs : (loadIndex l.index).on s with ⟨failure | index, u⟩
  · rcases ht : (loadIndex l.index).on t with ⟨other | _, v⟩
    · rw [hs, ht] at hindex
      rw [on_bind_error hs, on_bind_error ht]
      exact ⟨congrArg Except.error (Except.error.inj hindex), fun _ _ hrun ↦ by cases hrun⟩
    · rw [hs, ht] at hindex
      cases hindex
  · rcases ht : (loadIndex l.index).on t with ⟨other | index', v⟩
    · rw [hs, ht] at hindex
      cases hindex
    · rw [hs, ht] at hindex
      obtain rfl : index = index' := Except.ok.inj hindex
      have hu := (keeps_loadIndex s l.index).after (Same.refl s) hs
      have hv := (keeps_loadIndex t l.index).after (Same.refl t) ht
      obtain ⟨u', v', hclear, hclear', halike, hempty⟩ := h.cleared hroot hu.1 hv.1
      rw [on_bind_ok hs, on_bind_ok ht, on_bind_ok hclear, on_bind_ok hclear']
      have hparallel : Parallel (fun _ ↦ True) (fillExport repository l settings theme index) :=
        .fillExport hroot settings hchoice index (fun _ _ ↦ trivial) fun _ _ ↦ trivial
      obtain ⟨hreturn, hfull⟩ := hparallel u' v' halike
      have hsame := hfull fun _ ↦ trivial
      refine ⟨hsame, fun written s' hrun ↦ ⟨fun place ↦ ?_, u'.files, hempty, ?_⟩⟩
      · have hother : ((fillExport repository l settings theme index).on v').1 = .ok written := by
          rw [← hsame, hrun]
        exact (hreturn _ _ _ _ hrun (Prod.ext hother rfl)).2.same place trivial
      · exact Tells.fillExport hroot settings theme index u' s' written (.refl halike.left) hrun

end SameButExport

/-- A build goes the same way whatever is left in the export: it gives the same answer and leaves
the same files. Afterwards the files in the export are among those that are told, and what is told
is a file. -/
theorem build_from_scratch {s t : State} {root : Path} (hroot : root.Resolved)
    (h : SameButExport (Layout.ofRoot root) s t) :
    ((loadRoot root).on s).1 = ((loadRoot root).on t).1 ∧
    ∀ l settings, ((loadRoot root).on s).1 = .ok (l, settings) →
      ((build l settings).on s).1 = ((build l settings).on t).1 ∧
      ∀ written s', (build l settings).on s = (.ok written, s') →
        (∀ place, s'.files.find? place = ((build l settings).on t).2.files.find? place) ∧
        (∀ place bytes, l.exportRoot.parts <+: place →
          s'.files.find? place = some (.file bytes) →
            ∃ path ∈ written, s'.files.resolve path = .ok place) ∧
        ∀ path ∈ written, s'.files.isFile path = true := by
  refine ⟨answer_loadRoot_congr h.left h.right hroot (h.find?_metadata (by decide)),
    fun l settings hload ↦ ?_⟩
  obtain ⟨rfl, -⟩ := metadata_of_loadRoot h.left hroot hload
  have h : SameButExport l s t :=
    ⟨h.left, h.right, h.files, h.repositories, h.freeLeft, h.freeRight⟩
  rw [on_build, on_build, ← h.historyIn_eq]
  obtain ⟨hanswer, hbuilt⟩ := h.buildFrom_congr hroot settings (historyIn s l.root)
  refine ⟨hanswer, fun written s' hrun ↦ ?_⟩
  obtain ⟨hfiles, empty, hempty, htold⟩ := hbuilt written s' hrun
  refine ⟨hfiles, fun place bytes hbelow hfound ↦ ?_, fun path hpath ↦ ?_⟩
  · rcases htold.told place bytes hfound with hold | ⟨path, hpath, rfl⟩
    · rw [hempty place hbelow] at hold
      cases hold
    · exact ⟨path, hpath, (htold.there path hpath).1⟩
  · obtain ⟨hresolve, bytes, hfound⟩ := htold.there path hpath
    simp [FileTree.isFile, FileTree.node?, hresolve, hfound]

/-- The guide of two pages after a run that has left a page and a file in the way of a directory. -/
def leftoverGuide : State :=
  { twoPagesGuide with
    files := ((twoPagesGuide.files.put twoPagesLayout.exportRoot.parts .directory).put
      (twoPagesLayout.exportRoot.parts ++ ["a"]) (.file [1])).put
      (twoPagesLayout.exportRoot.parts ++ ["index.html"]) (.file [2]) }

/-- What is left in the export of the guide changes neither what is told nor what is there. -/
theorem build_from_scratch_leftovers :
    ∃ written s', (build twoPagesLayout (Settings.ofTitle "T")).on twoPagesGuide =
        (.ok written, s') ∧
      ((build twoPagesLayout (Settings.ofTitle "T")).on leftoverGuide).1 = .ok written ∧
      ∀ place, s'.files.find? place =
        ((build twoPagesLayout (Settings.ofTitle "T")).on leftoverGuide).2.files.find? place := by
  have hsame : SameButExport (Layout.ofRoot ⟨"/", ["guide"]⟩) twoPagesGuide leftoverGuide := by
    have hnone : twoPagesGuide.files.find? twoPagesLayout.exportRoot.parts = none := by decide
    have hleft : leftoverGuide.files.find? twoPagesLayout.exportRoot.parts = some .directory := by
      decide
    refine ⟨by decide, by decide, fun place hplace ↦ ?_, fun _ _ ↦ rfl,
      fun _ hfile ↦ (by cases hnone.symm.trans hfile),
      fun _ hfile ↦ (by cases hleft.symm.trans hfile)⟩
    have hne : ∀ names, place ≠ twoPagesLayout.exportRoot.parts ++ names := by
      rintro names rfl
      exact hplace (List.prefix_append _ _)
    rw [leftoverGuide, find?_put _ (by decide), if_neg (hne _), find?_put _ (by decide),
      if_neg (hne _), find?_put _ (by decide), if_neg]
    simpa using hne []
  have hload : ((loadRoot ⟨"/", ["guide"]⟩).on twoPagesGuide).1 =
      .ok (twoPagesLayout, Settings.ofTitle "T") := eq_ok_of_toOption (by decide +kernel)
  obtain ⟨written, hrun⟩ : ∃ written,
      (build twoPagesLayout (Settings.ofTitle "T")).on twoPagesGuide =
        (.ok written, ((build twoPagesLayout (Settings.ofTitle "T")).on twoPagesGuide).2) :=
    on_eq_ok (by decide +kernel)
  obtain ⟨hanswer, hbuilt⟩ := (build_from_scratch (by decide) hsame).2 _ _ hload
  exact ⟨written, _, hrun, by rw [← hanswer, hrun], (hbuilt written _ hrun).1⟩

end Guidebook.Workflow
