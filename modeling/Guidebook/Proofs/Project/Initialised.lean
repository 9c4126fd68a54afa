import Guidebook.Proofs.Files.Alike
import Guidebook.Proofs.Project.Scaffold
import Guidebook.Proofs.Project.SettingsFile

/-!
# What starting a project keeps and makes

A project can be started wherever no file is in the way of a directory and no directory in the way
of a file. What is there already stays, but for the settings, and once a project is started with a
title, starting it again with the title changes nothing. From there on down, up to the next project,
loading finds it with its title.
-/

namespace Guidebook.Workflow

open Git

variable {dir path : Path} {title : String} {t u : FileTree} {s : State}

/-! ## Where a project can be started -/

/-- The layout of a project that is started in a directory. -/
def startedAt (dir : Path) : Layout := Layout.ofRoot dir.normalize

/-- The places where a project that is started needs directories: those on the way to its own, and
those of its metadata, its pages and its workspace. -/
def neededDirectories (dir : Path) : List (List String) :=
  dir.parts.inits.map (Path.normalizeNames []) ++
    [(startedAt dir).metadata, (startedAt dir).pages, (startedAt dir).workspace].flatMap
      fun path ↦ path.parts.inits

/-- The files of a project that is started. -/
def startedFiles : List String := [Layout.settingsFile, Layout.indexFile, ".gitignore"]

/-- The places where a project that is started needs files. -/
def neededFiles (dir : Path) : List (List String) :=
  startedFiles.map fun name ↦ (startedAt dir).metadata.parts ++ [name]

private theorem isPart_startedFiles : ∀ name ∈ startedFiles, Path.IsPart name := by decide

private theorem mem_neededDirectories {place : List String} :
    place ∈ neededDirectories dir ↔
      (∃ front, front <+: dir.parts ∧ Path.normalizeNames [] front = place) ∨
        ∃ path ∈ [(startedAt dir).metadata, (startedAt dir).pages, (startedAt dir).workspace],
          place <+: path.parts := by
  simp only [neededDirectories, List.mem_append, List.mem_map, List.mem_flatMap, List.mem_inits]

private theorem mem_neededFiles {name : String} (h : name ∈ startedFiles) :
    (startedAt dir).metadata.parts ++ [name] ∈ neededFiles dir :=
  List.mem_map_of_mem h

/-- Nothing is in the way of a project that is started in a directory: no file where it needs a
directory, and no directory where it needs a file. -/
structure Fits (dir : Path) (t : FileTree) : Prop where
  apart : ∀ place ∈ neededDirectories dir, place ∉ neededFiles dir
  directories : ∀ place ∈ neededDirectories dir,
    t.find? place = none ∨ t.find? place = some .directory
  files : ∀ place ∈ neededFiles dir, t.find? place ≠ some .directory

instance (dir : Path) (t : FileTree) : Decidable (Fits dir t) :=
  decidable_of_iff ((∀ place ∈ neededDirectories dir, place ∉ neededFiles dir) ∧
    (∀ place ∈ neededDirectories dir,
      t.find? place = none ∨ t.find? place = some .directory) ∧
    ∀ place ∈ neededFiles dir, t.find? place ≠ some .directory)
    ⟨fun h ↦ ⟨h.1, h.2.1, h.2.2⟩, fun h ↦ ⟨h.1, h.2, h.3⟩⟩

/-! ## Growing -/

/-- What becomes of a file tree while a project is started: nothing of it is lost, and nothing gets
in the way. -/
structure Grows (dir : Path) (t u : FileTree) : Prop where
  sound : u.Sound
  fits : Fits dir u
  kept : ∀ place node, t.find? place = some node → u.find? place = some node

theorem Grows.refl (ht : t.Sound) (h : Fits dir t) : Grows dir t t := ⟨ht, h, fun _ _ h ↦ h⟩

theorem Grows.trans {v : FileTree} (h : Grows dir t u) (h' : Grows dir u v) : Grows dir t v :=
  ⟨h'.sound, h'.fits, fun place node hnode ↦ h'.kept place node (h.kept place node hnode)⟩

theorem Grows.isSome_find? {place : List String} (h : Grows dir t u)
    (hsome : (t.find? place).isSome = true) : (u.find? place).isSome = true := by
  obtain ⟨node, hnode⟩ := Option.isSome_iff_exists.mp hsome
  exact Option.isSome_iff_exists.mpr ⟨node, h.kept place node hnode⟩

/-- The directories that a project needs can be made. -/
theorem Fits.makeDirectories (h : Fits dir t) (ht : t.Sound) (hpath : path.Plain)
    (hneeds : ∀ front, front <+: path.parts →
      Path.normalizeNames [] front ∈ neededDirectories dir) :
    ∃ u, t.makeDirectories path = .ok u ∧ Grows dir t u ∧ ∀ front, front <+: path.parts →
      u.find? (Path.normalizeNames [] front) = some .directory := by
  obtain ⟨u, hmake, hthere⟩ := ht.exists_makeDirectories hpath fun front hfront bytes hfile ↦ by
    have hnode := h.directories _ (hneeds front hfront)
    simp [hfile] at hnode
  have hsame : ∀ place, (∃ front, front <+: path.parts ∧ place = Path.normalizeNames [] front) ∨
      u.find? place = t.find? place := by
    intro place
    by_cases hway : ∃ front, front <+: path.parts ∧ place = Path.normalizeNames [] front
    · exact .inl hway
    · exact .inr (FileTree.find?_makeDirectories_of_ne hmake fun front hfront heq ↦
        hway ⟨front, hfront, heq.symm⟩)
  refine ⟨u, hmake, ⟨ht.makeDirectories hpath hmake, ⟨h.apart, ?_, ?_⟩, fun place node ↦
    ht.find?_makeDirectories hpath hmake⟩, hthere⟩
  · intro place hplace
    rcases hsame place with ⟨front, hfront, rfl⟩ | hsame
    · exact .inr (hthere front hfront)
    · rw [hsame]
      exact h.directories place hplace
  · intro place hplace
    rcases hsame place with ⟨front, hfront, rfl⟩ | hsame
    · exact absurd hplace (h.apart _ (hneeds front hfront))
    · rw [hsame]
      exact h.files place hplace

/-- The files that a project needs can be written. -/
theorem Fits.write (h : Fits dir t) (ht : t.Sound) (hroot : dir.normalize.Resolved) {name : String}
    (hname : name ∈ startedFiles)
    (hmeta : t.find? (startedAt dir).metadata.parts = some .directory) (bytes : List UInt8) :
    t.write (Layout.child (startedAt dir).metadata name) bytes =
        .ok (t.put ((startedAt dir).metadata.parts ++ [name]) (.file bytes)) ∧
      (t.put ((startedAt dir).metadata.parts ++ [name]) (.file bytes)).Sound ∧
      Fits dir (t.put ((startedAt dir).metadata.parts ++ [name]) (.file bytes)) := by
  have hpart := isPart_startedFiles name hname
  have hmetadata : (startedAt dir).metadata.Resolved := resolved_metadata hroot
  have hneeded : _ ∈ neededFiles dir := mem_neededFiles hname
  have hwrite := ht.write_child hmetadata hmeta hpart (h.files _ hneeded) bytes
  have hne : (startedAt dir).metadata.parts ++ [name] ≠ [] := by simp
  refine ⟨hwrite, ht.write (Layout.resolved_child hmetadata hpart).plain hwrite, h.apart, ?_, ?_⟩
  · intro place hplace
    rw [t.find?_put hne, if_neg]
    · exact h.directories place hplace
    · rintro rfl
      exact h.apart _ hplace hneeded
  · intro place hplace
    rw [t.find?_put hne]
    split
    · rintro ⟨⟩
    · exact h.files place hplace

/-! ## The steps of starting a project -/

/-- A step that is left out where something lies at a path. -/
def unlessPresent (path : Path) (w : Workflow Unit) : Workflow Unit := do
  if (← files).present path then return () else w

/-- A project is started step by step. -/
theorem initProject_steps (title : String) (dir : Path) :
    initProject title dir = (do
      makeDirectories dir
      initRepository dir.normalize
      writeSettings (startedAt dir).settings title
      unlessPresent (startedAt dir).index (saveIndex (startedAt dir).index PageIndex.empty)
      unlessPresent (Layout.child (startedAt dir).metadata ".gitignore")
        (writeText (Layout.child (startedAt dir).metadata ".gitignore")
          (Layout.exportDir ++ "/\n").toList)
      makeDirectories (startedAt dir).pages
      makeDirectories (startedAt dir).workspace
      return startedAt dir) := by
  rw [initProject]
  refine congrArg (Bind.bind _) (funext fun _ ↦ congrArg (Bind.bind _) (funext fun _ ↦
    congrArg (Bind.bind _) (funext fun _ ↦ ?_)))
  rw [unlessPresent, bind_assoc]
  refine congrArg (Bind.bind _) (funext fun t ↦ ?_)
  change (if t.present (startedAt dir).index = true then _ else _) =
    (if t.present (startedAt dir).index = true then _ else _) >>= _
  split
  · rw [pure_bind]
    rfl
  · rfl

section Steps

variable (hroot : dir.normalize.Resolved)

include hroot

private theorem resolved_needed
    (h : path ∈ [(startedAt dir).metadata, (startedAt dir).pages, (startedAt dir).workspace]) :
    path.Resolved := by
  have hchild : ∀ name, Path.IsPart name → Path.ofString name = Path.ofNames [name] →
      (dir.normalize.join (Path.ofString name)).Resolved := fun name hname hread ↦
    hread ▸ Layout.resolved_child hroot hname
  simp only [List.mem_cons, List.not_mem_nil, or_false] at h
  rcases h with rfl | rfl | rfl
  · exact resolved_metadata hroot
  · exact hchild Layout.defaultPagesDir (by decide) (by decide)
  · exact hchild Layout.defaultWorkspaceDir (by decide) (by decide)

private theorem needs_front
    (h : path ∈ [(startedAt dir).metadata, (startedAt dir).pages, (startedAt dir).workspace])
    {front : List String} (hfront : front <+: path.parts) :
    Path.normalizeNames [] front ∈ neededDirectories dir := by
  rw [Path.normalizeNames_eq fun hm ↦ (resolved_needed hroot h).not_up (hfront.mem hm)]
  exact mem_neededDirectories.mpr (.inr ⟨path, h, hfront⟩)

/-- The directory of a part of a project is made. -/
private theorem on_makeNeeded (hs : s.files.Sound) (hfits : Fits dir s.files)
    (h : path ∈ [(startedAt dir).metadata, (startedAt dir).pages, (startedAt dir).workspace]) :
    ∃ u, (Workflow.makeDirectories path).on s = (.ok (), { s with files := u }) ∧
      Grows dir s.files u ∧ u.find? path.parts = some .directory := by
  have hpath := resolved_needed hroot h
  obtain ⟨u, hmake, hgrows, hthere⟩ := hfits.makeDirectories hs hpath.plain fun front hfront ↦
    needs_front hroot h hfront
  refine ⟨u, by rw [on_makeDirectories, hmake], hgrows, ?_⟩
  rw [← hpath.place_eq]
  exact hthere _ List.prefix_rfl

/-- A missing file is written, and one that is there is kept. -/
private theorem on_unlessPresent (hs : s.files.Sound) (hfits : Fits dir s.files) {name : String}
    (hname : name ∈ startedFiles)
    (hmeta : s.files.find? (startedAt dir).metadata.parts = some .directory) {w : Workflow Unit}
    {bytes : List UInt8}
    (hw : w.on s = (.ok (), { s with
      files := s.files.put ((startedAt dir).metadata.parts ++ [name]) (.file bytes) })) :
    ∃ u, (unlessPresent (Layout.child (startedAt dir).metadata name) w).on s =
        (.ok (), { s with files := u }) ∧ Grows dir s.files u ∧
      (u.find? ((startedAt dir).metadata.parts ++ [name])).isSome = true := by
  have hpart := isPart_startedFiles name hname
  have hpath := Layout.resolved_child (resolved_metadata (l := startedAt dir) hroot) hpart
  obtain ⟨-, hsound, hfits'⟩ := hfits.write hs hroot hname hmeta bytes
  rw [unlessPresent, on_bind_ok (on_files s), FileTree.present, hs.node?_eq hpath,
    Layout.parts_child]
  cases hfound : s.files.find? ((startedAt dir).metadata.parts ++ [name]) with
  | some node => exact ⟨s.files, rfl, .refl hs hfits, by rw [hfound]; rfl⟩
  | none =>
    refine ⟨_, hw, ⟨hsound, hfits', fun place node hnode ↦ ?_⟩, ?_⟩
    · rw [s.files.find?_put (by simp), if_neg, hnode]
      rintro rfl
      rw [hfound] at hnode
      cases hnode
    · rw [s.files.find?_put (by simp), if_pos rfl]
      rfl

/-- The settings are written anew, and nothing else changes. -/
private theorem on_writeSettings (hs : s.files.Sound) (hfits : Fits dir s.files) (title : String) :
    ∃ u, (writeSettings (startedAt dir).settings title).on s = (.ok (), { s with files := u }) ∧
      u.Sound ∧ Fits dir u ∧ u.find? (startedAt dir).metadata.parts = some .directory ∧
      u.find? (startedAt dir).settings.parts =
        some (.file (Utf8.encode (Settings.writeTitle title))) ∧
      ∀ place node, place ≠ (startedAt dir).settings.parts → s.files.find? place = some node →
        u.find? place = some node := by
  obtain ⟨v, hmake, hgrows, hmeta⟩ := on_makeNeeded hroot hs hfits List.mem_cons_self
  obtain ⟨hwrite, hsound, hfits'⟩ := hgrows.fits.write hgrows.sound hroot
    (by decide : Layout.settingsFile ∈ startedFiles) hmeta (Utf8.encode (Settings.writeTitle title))
  have hput := v.find?_put (by simp :
      (startedAt dir).metadata.parts ++ [Layout.settingsFile] ≠ [])
    (.file (Utf8.encode (Settings.writeTitle title)))
  have hparent : parent (startedAt dir).settings = (startedAt dir).metadata :=
    Layout.parent_child _ _
  refine ⟨_, ?_, hsound, hfits', ?_, ?_, fun place node hplace hnode ↦ ?_⟩
  · rw [writeSettings, hparent, on_bind_ok hmake, writeText, on_write, Layout.settings, hwrite]
  · rw [hput, if_neg (by simp), hmeta]
  · rw [Layout.settings, Layout.parts_child, hput, if_pos rfl]
  · rw [Layout.settings, Layout.parts_child] at hplace
    rw [hput, if_neg hplace]
    exact hgrows.kept place node hnode

/-- Once the settings are written, what is missing is added, and nothing is lost. -/
private theorem on_additions (hs : s.files.Sound) (hfits : Fits dir s.files)
    (hmeta : s.files.find? (startedAt dir).metadata.parts = some .directory) :
    ∃ u, (do
        unlessPresent (startedAt dir).index (saveIndex (startedAt dir).index PageIndex.empty)
        unlessPresent (Layout.child (startedAt dir).metadata ".gitignore")
          (writeText (Layout.child (startedAt dir).metadata ".gitignore")
            (Layout.exportDir ++ "/\n").toList)
        makeDirectories (startedAt dir).pages
        makeDirectories (startedAt dir).workspace
        return startedAt dir : Workflow Layout).on s =
          (.ok (startedAt dir), { s with files := u }) ∧ Grows dir s.files u ∧
      (u.find? ((startedAt dir).metadata.parts ++ [Layout.indexFile])).isSome = true ∧
      (u.find? ((startedAt dir).metadata.parts ++ [".gitignore"])).isSome = true ∧
      u.find? (startedAt dir).pages.parts = some .directory ∧
      u.find? (startedAt dir).workspace.parts = some .directory := by
  have hsave := on_saveIndex (l := startedAt dir) hs hroot hmeta
    (by
      rw [Layout.index, Layout.parts_child]
      exact hfits.files _ (mem_neededFiles (by decide))) PageIndex.empty
  rw [Layout.index, Layout.parts_child] at hsave
  obtain ⟨t, h, hgrows, hindex⟩ := on_unlessPresent hroot hs hfits
    (by decide : Layout.indexFile ∈ startedFiles) hmeta hsave
  obtain ⟨hwrite, -, -⟩ := hgrows.fits.write hgrows.sound hroot
    (by decide : ".gitignore" ∈ startedFiles) (hgrows.kept _ _ hmeta)
    (Utf8.encode (Layout.exportDir ++ "/\n").toList)
  obtain ⟨t', h', hgrows', hignore⟩ := on_unlessPresent (s := { s with files := t }) hroot
    hgrows.sound hgrows.fits (by decide : ".gitignore" ∈ startedFiles) (hgrows.kept _ _ hmeta)
    (by rw [writeText, on_write, hwrite] :
      (writeText (Layout.child (startedAt dir).metadata ".gitignore")
        (Layout.exportDir ++ "/\n").toList).on _ = _)
  obtain ⟨v, hpages, hgrowsv, hv⟩ := on_makeNeeded (s := { s with files := t' }) hroot
    hgrows'.sound hgrows'.fits (by simp : (startedAt dir).pages ∈ _)
  obtain ⟨u, hworkspace, hgrowsu, hu⟩ := on_makeNeeded (s := { s with files := v }) hroot
    hgrowsv.sound hgrowsv.fits (by simp : (startedAt dir).workspace ∈ _)
  have hmade := hgrowsv.trans hgrowsu
  refine ⟨u, ?_, hgrows.trans (hgrows'.trans hmade), (hgrows'.trans hmade).isSome_find? hindex,
    hmade.isSome_find? hignore, hgrowsu.kept _ _ hv, hu⟩
  rw [Layout.index, on_bind_ok h, on_bind_ok h', on_bind_ok hpages, on_bind_ok hworkspace]
  rfl

end Steps

/-! ## Started projects -/

/-- A world in which a project with a title was started in a directory. -/
structure Started (dir : Path) (title : String) (s : State) : Prop where
  sound : s.files.Sound
  directories : ∀ place ∈ neededDirectories dir, s.files.find? place = some .directory
  files : ∀ place ∈ neededFiles dir, (s.files.find? place).isSome = true
  settings : s.files.find? (startedAt dir).settings.parts =
    some (.file (Utf8.encode (Settings.writeTitle title)))
  repository : (s.repositories.lookup dir.normalize).isSome = true

/-- A project is started wherever nothing is in its way. All that was there is kept, but for the
settings. -/
private theorem exists_started (hs : s.files.Sound) (habsolute : dir.anchor = "/" ∨ dir.anchor = "//")
    (hplain : dir.Plain) (hfits : Fits dir s.files) (title : String) :
    ∃ t, (initProject title dir).on s = (.ok (startedAt dir),
        { s with files := t, repositories := withRepository s.repositories dir.normalize }) ∧
      Started dir title
        { s with files := t, repositories := withRepository s.repositories dir.normalize } ∧
      ∀ place node, place ≠ (startedAt dir).settings.parts → s.files.find? place = some node →
        t.find? place = some node := by
  have hroot : dir.normalize.Resolved := hplain.normalize habsolute
  obtain ⟨t₁, hmake, hgrows, hway⟩ := hfits.makeDirectories hs hplain fun front hfront ↦
    mem_neededDirectories.mpr (.inl ⟨front, hfront, rfl⟩)
  have h₁ : (makeDirectories dir).on s = (.ok (), { s with files := t₁ }) := by
    rw [on_makeDirectories, hmake]
  rw [initProject_steps, on_bind_ok h₁, on_bind_ok (on_initRepository _ _)]
  generalize hmade : withRepository s.repositories dir.normalize = made
  obtain ⟨t₂, h₂, hsound, hfits₂, hmeta, hsettings, hkept⟩ :=
    on_writeSettings (s := ⟨t₁, made, s.logs⟩) hroot hgrows.sound hgrows.fits title
  obtain ⟨t, h, hgrows', hindex, hignore, hpages, hworkspace⟩ :=
    on_additions (s := ⟨t₂, made, s.logs⟩) hroot hsound hfits₂ hmeta
  have hall : ∀ place node, place ≠ (startedAt dir).settings.parts →
      t₁.find? place = some node → t.find? place = some node := fun place node hplace hnode ↦
    hgrows'.kept place node (hkept place node hplace hnode)
  refine ⟨t, ?_, ⟨hgrows'.sound, ?_, ?_, hgrows'.kept _ _ hsettings, ?_⟩,
    fun place node hplace hnode ↦ hall place node hplace (hgrows.kept place node hnode)⟩
  · rw [on_bind_ok h₂, h]
  · intro place hplace
    rcases mem_neededDirectories.mp hplace with ⟨front, hfront, rfl⟩ | ⟨path, hpath, hplace⟩
    · refine hall _ _ (fun heq ↦ hfits.apart _ hplace ?_) (hway front hfront)
      rw [heq, Layout.settings, Layout.parts_child]
      exact mem_neededFiles (by decide)
    · refine hgrows'.sound.find?_front ?_ hplace
      simp only [List.mem_cons, List.not_mem_nil, or_false] at hpath
      rcases hpath with rfl | rfl | rfl
      · exact hgrows'.kept _ _ hmeta
      · exact hpages
      · exact hworkspace
  · intro place hplace
    obtain ⟨name, hname, rfl⟩ := List.mem_map.mp hplace
    simp only [startedFiles, List.mem_cons, List.not_mem_nil, or_false] at hname
    rcases hname with rfl | rfl | rfl
    · rw [Layout.settings, Layout.parts_child] at hsettings
      exact Option.isSome_iff_exists.mpr ⟨_, hgrows'.kept _ _ hsettings⟩
    · exact hindex
    · exact hignore
  · rw [← hmade, lookup_withRepository]
    rfl

private theorem Started.metadata (h : Started dir title s) :
    s.files.find? (startedAt dir).metadata.parts = some .directory :=
  h.directories _ (mem_neededDirectories.mpr (.inr ⟨_, List.mem_cons_self, List.prefix_rfl⟩))

/-- Starting a project again with its title changes nothing. -/
theorem Started.initProject (h : Started dir title s) (hroot : dir.normalize.Resolved) :
    (initProject title dir).on s = (.ok (startedAt dir), s) := by
  have hneeded : ∀ path ∈ [(startedAt dir).metadata, (startedAt dir).pages,
      (startedAt dir).workspace], (makeDirectories path).on s = (.ok (), s) := by
    intro path hpath
    rw [on_makeDirectories, h.sound.makeDirectories_eq (resolved_needed hroot hpath)
      (h.directories _ (mem_neededDirectories.mpr (.inr ⟨path, hpath, List.prefix_rfl⟩)))]
  have hway : (makeDirectories dir).on s = (.ok (), s) := by
    rw [on_makeDirectories, FileTree.makeDirectories_eq_self fun front hfront ↦
      h.directories _ (mem_neededDirectories.mpr (.inl ⟨front, hfront, rfl⟩))]
  have hrepository : withRepository s.repositories dir.normalize = s.repositories := by
    obtain ⟨store, hstore⟩ := Option.isSome_iff_exists.mp h.repository
    rw [withRepository, hstore]
  have hpresent : ∀ name ∈ startedFiles, ∀ w : Workflow Unit,
      (unlessPresent (Layout.child (startedAt dir).metadata name) w).on s = (.ok (), s) := by
    intro name hname w
    have hthere := h.files _ (mem_neededFiles hname)
    rw [unlessPresent, on_bind_ok (on_files s), FileTree.present, h.sound.node?_eq
      (Layout.resolved_child (resolved_metadata (l := startedAt dir) hroot)
        (isPart_startedFiles name hname)), Layout.parts_child, if_pos hthere]
    rfl
  have hsettings : (writeSettings (startedAt dir).settings title).on s = (.ok (), s) := by
    have hmeta := h.metadata
    have hfound := h.settings
    have hparent : parent (startedAt dir).settings = (startedAt dir).metadata :=
      Layout.parent_child _ _
    rw [Layout.settings, Layout.parts_child] at hfound
    rw [writeSettings, hparent, on_bind_ok (hneeded _ List.mem_cons_self), writeText, on_write,
      Layout.settings, h.sound.write_child (resolved_metadata hroot) hmeta (by decide)
        (by rw [hfound]; rintro ⟨⟩), h.sound.put_eq_self (by simp) hfound]
  have hindex : (unlessPresent (startedAt dir).index
      (saveIndex (startedAt dir).index PageIndex.empty)).on s = (.ok (), s) :=
    hpresent Layout.indexFile (by decide) _
  rw [initProject_steps, on_bind_ok hway, on_bind_ok (on_initRepository _ _), hrepository,
    on_bind_ok hsettings, on_bind_ok hindex, on_bind_ok (hpresent _ (by decide) _),
    on_bind_ok (hneeded _ (by simp)), on_bind_ok (hneeded _ (by simp))]
  rfl

/-- Where a project is started, the project is found from there and from below, up to the next
project, and loaded with its title, unless that is blank. -/
theorem Started.loadProject (h : Started dir title s) (hroot : dir.normalize.Resolved)
    {start : Path} {names : List String}
    (hstart : start.normalize = dir.normalize.join (Path.ofNames names))
    (hbetween : ∀ front, front <+: names → front ≠ [] → s.files.isDirectory
      (Layout.child (dir.normalize.join (Path.ofNames front)) Layout.metaDir) = false) :
    (loadProject start).on s =
      (if Text.hasInk title.toList then
        .ok (startedAt dir, Settings.ofTitle (Settings.stripped title))
      else .error (.settings .noTitle (startedAt dir).settings.toString), s) := by
  have hmeta : s.files.isDirectory (startedAt dir).metadata = true := by
    rw [FileTree.isDirectory, h.sound.node?_eq (resolved_metadata hroot)]
    exact beq_iff_eq.mpr h.metadata
  have hnearest := Path.find?_ancestors (p := dir.normalize)
    (fun p ↦ s.files.isDirectory (Layout.child p Layout.metaDir)) hmeta hbetween
  have hfind : (findProject start).on s = (.ok dir.normalize, s) := by
    rw [findProject, on_bind_ok (on_files s), hstart]
    simp only [hnearest]
    rfl
  have hsettings : (startedAt dir).settings.Resolved := resolved_settings hroot
  have hread := (h.sound.read_eq_ok_iff hsettings).mpr h.settings
  have hload : (loadSettings (Layout.ofRoot dir.normalize).settings).on s =
      (if Text.hasInk title.toList then .ok (Settings.ofTitle (Settings.stripped title))
        else .error (.settings .noTitle (startedAt dir).settings.toString), s) := by
    change (loadSettings (startedAt dir).settings).on s = _
    rw [on_loadSettings_of_read hread, Settings.ofBytes_writeTitle]
  rw [Workflow.loadProject, on_bind_ok hfind, loadRoot, on_bind, hload]
  cases Text.hasInk title.toList <;> rfl

/-- A project can be started wherever nothing is in its way, in any directory and with any title.
Everything that was there is kept, but for the settings, so an index keeps its pages. Starting the
project again with the title changes nothing. From its directory on down, up to the next project,
the project is found, with the title without surrounding white space and everything else at its
default, or with a complaint that there is no title if the title is blank. -/
theorem initProject_of_fits (hs : s.Sound) (habsolute : dir.anchor = "/" ∨ dir.anchor = "//")
    (hplain : dir.Plain) (hfits : Fits dir s.files) (title : String) :
    ∃ t, (initProject title dir).on s = (.ok (startedAt dir), t) ∧ t.Sound ∧
      t.repositories = withRepository s.repositories dir.normalize ∧
      (∀ place node, place ≠ (startedAt dir).settings.parts →
        s.files.find? place = some node → t.files.find? place = some node) ∧
      (initProject title dir).on t = (.ok (startedAt dir), t) ∧
      ∀ start names, start.normalize = dir.normalize.join (Path.ofNames names) →
        (∀ front, front <+: names → front ≠ [] → t.files.isDirectory
          (Layout.child (dir.normalize.join (Path.ofNames front)) Layout.metaDir) = false) →
        (loadProject start).on t =
          (if Text.hasInk title.toList then
            .ok (startedAt dir, Settings.ofTitle (Settings.stripped title))
          else .error (.settings .noTitle (startedAt dir).settings.toString), t) := by
  have hroot : dir.normalize.Resolved := hplain.normalize habsolute
  obtain ⟨t, hrun, hstarted, hkept⟩ := exists_started hs.files habsolute hplain hfits title
  exact ⟨_, hrun, sound_withRepository hs hstarted.sound rfl, rfl, hkept,
    hstarted.initProject hroot, fun _ _ ↦ hstarted.loadProject hroot⟩

/-- A guide with a page in its index, and a directory without a project of its own. -/
def indexedGuide : State where
  files := ⟨[(["/"], .directory), (["/", "guide"], .directory),
    (["/", "guide", "chapters"], .directory), (["/", "guide", ".codasai"], .directory),
    (["/", "guide", ".codasai", "index.toml"],
      .file (Utf8.encode (PageIndex.write ⟨[⟨"A", "a"⟩]⟩)))]⟩
  repositories := []
  logs := []

/-- The guide is started anew, by a path that climbs back to it, with a title that has to be escaped
and stripped. It keeps its index, and is found from the directory. -/
theorem initProject_of_fits_indexed :
    ∃ t, (initProject " \"A\"\n" ⟨"/", ["guide", "chapters", ".."]⟩).on indexedGuide =
        (.ok (Layout.ofRoot ⟨"/", ["guide"]⟩), t) ∧
      t.files.find? ["/", "guide", ".codasai", "index.toml"] =
        some (.file (Utf8.encode (PageIndex.write ⟨[⟨"A", "a"⟩]⟩))) ∧
      (loadProject ⟨"/", ["guide", "chapters"]⟩).on t =
        (.ok (Layout.ofRoot ⟨"/", ["guide"]⟩, Settings.ofTitle "\"A\""), t) := by
  have hplain : Path.Plain ⟨"/", ["guide", "chapters", ".."]⟩ :=
    (by decide : ∀ name ∈ ["guide", "chapters", ".."], name = ".." ∨ Path.IsPart name)
  obtain ⟨t, hrun, -, -, hkept, -, hload⟩ :=
    initProject_of_fits (by decide +kernel : indexedGuide.Sound) (.inl rfl) hplain
      (by decide +kernel) " \"A\"\n"
  have ht : ((initProject " \"A\"\n" ⟨"/", ["guide", "chapters", ".."]⟩).on indexedGuide).2 = t :=
    congrArg Prod.snd hrun
  have hbetween : ∀ front, front <+: ["chapters"] → front ≠ [] → t.files.isDirectory
      (Layout.child (Path.join ⟨"/", ["guide"]⟩ (Path.ofNames front)) Layout.metaDir) = false := by
    rw [← ht]
    simp only [← List.mem_inits]
    decide +kernel
  exact ⟨t, hrun, hkept _ _ (by decide) (by decide +kernel),
    hload ⟨"/", ["guide", "chapters"]⟩ ["chapters"] rfl hbetween⟩

end Guidebook.Workflow
