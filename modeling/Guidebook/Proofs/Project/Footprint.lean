import Guidebook.Proofs.Project.Leftovers
import Guidebook.Proofs.Project.Preview

/-!
# What a preview may change

However a preview ends, it changes nothing but what lies in its own directory and in that of the
shared files, and makes the directories that these two lie in. What an earlier preview left does not
count: it is cleared first, so that a file that is there afterwards is one that the run has written.
-/

namespace Guidebook.Workflow

open Git FileTree

variable {l : Layout} {settings : Settings} {s s' : State}

/-! ## Where files come to lie -/

section Filed

variable {written : List String → Prop} {look : List String → Option Node}
  {repositories : List (Path × Store)} {path : Path}

/-- Worlds in which a file lies only where it may have been written or where a look showed it. -/
structure Filed (written : List String → Prop) (look : List String → Option Node)
    (repositories : List (Path × Store)) (s : State) : Prop where
  sound : s.files.Sound
  files : ∀ place bytes, s.files.find? place = some (.file bytes) →
    written place ∨ look place = some (.file bytes)
  repositories : s.repositories = repositories

namespace Filed

theorem refl (h : s.files.Sound) : Filed written s.files.find? s.repositories s :=
  ⟨h, fun _ _ ↦ .inr, rfl⟩

theorem aboutFiles : AboutFiles (Filed written look repositories) repositories where
  sound _ hs := hs.sound
  repositories _ hs := hs.repositories
  same s t hsame hs := by
    refine ⟨?_, ?_, hsame.2.trans hs.repositories⟩
    · rw [hsame.1]
      exact hs.sound
    · rw [hsame.1]
      exact hs.files

/-- What is made are directories. -/
theorem keeps_makeDirectories (hpath : path.Plain) :
    Keeps (Filed written look repositories) (makeDirectories path) fun _ ↦ True := by
  intro s hs
  refine ⟨?_, fun _ _ ↦ trivial⟩
  rw [on_makeDirectories]
  cases hmake : s.files.makeDirectories path with
  | error problem => exact hs
  | ok t =>
    refine ⟨hs.sound.makeDirectories hpath hmake, fun place bytes hfound ↦ ?_, hs.repositories⟩
    by_cases hway : ∃ front, front <+: path.parts ∧ Path.normalizeNames [] front = place
    · obtain ⟨front, hfront, rfl⟩ := hway
      rw [find?_makeDirectories_of_above hmake hfront] at hfound
      cases hfound
    · rw [find?_makeDirectories_of_ne hmake fun front hfront heq ↦ hway ⟨front, hfront, heq⟩]
        at hfound
      exact hs.files place bytes hfound

theorem keeps_write (hpath : path.Plain) (hplace : written path.place) (content : List UInt8) :
    Keeps (Filed written look repositories) (write path content) fun _ ↦ True := by
  intro s hs
  refine ⟨?_, fun _ _ ↦ trivial⟩
  rw [on_write]
  cases hwrite : s.files.write path content with
  | error problem => exact hs
  | ok t =>
    refine ⟨hs.sound.write hpath hwrite, fun place bytes hfound ↦ ?_, hs.repositories⟩
    by_cases heq : path.place = place
    · exact .inl (heq ▸ hplace)
    · rw [hs.sound.find?_write hwrite heq] at hfound
      exact hs.files place bytes hfound

theorem admits (hpath : path.Plain) (hplace : written path.place) :
    Admits (Filed written look repositories) path :=
  ⟨keeps_makeDirectories hpath.parent, keeps_write hpath hplace⟩

theorem admitsBelow (hpath : path.Resolved) (hbelow : ∀ place, path.parts <+: place → written place) :
    AdmitsBelow (Filed written look repositories) path := by
  intro names hnames
  refine admits (hpath.plain.join (Path.plain_ofNames hnames)) (hbelow _ ?_)
  rw [Path.place_join path rfl (not_up hnames), hpath.place_eq]
  exact List.prefix_append _ _

/-- Clearing puts nothing anywhere. -/
theorem keeps_clearDirectory (hpath : path.Resolved) :
    Keeps (Filed written look repositories) (clearDirectory path) fun _ ↦ True := by
  intro s hs
  refine ⟨?_, fun _ _ ↦ trivial⟩
  by_cases hfile : ∃ bytes, s.files.find? path.parts = some (.file bytes)
  · obtain ⟨bytes, hfile⟩ := hfile
    rw [on_clearDirectory_file hs.sound hpath hfile]
    exact hs
  · rw [on_clearDirectory hs.sound hpath fun bytes hfound ↦ hfile ⟨bytes, hfound⟩]
    refine ⟨hs.sound.removeAll _, fun place bytes hfound ↦ hs.files place bytes ?_, hs.repositories⟩
    by_cases hbelow : path.parts <+: place
    · rw [find?_removeAll_below _ hpath.parts_ne_nil hbelow] at hfound
      cases hfound
    · rwa [find?_removeAll _ hbelow] at hfound

end Filed

end Filed

/-! ## Previews -/

/-- The places in the directory of a preview and in that of the shared files. -/
def Previewed (l : Layout) (place : List String) : Prop :=
  l.exportPreview.parts <+: place ∨ l.exportPublic.parts <+: place

/-- What a preview may touch: its directories, and the way to them where nothing is. -/
private def Footprint (s : State) (l : Layout) (place : List String) : Prop :=
  Previewed l place ∨ place <+: l.exportRoot.parts ∧ s.files.find? place = none

/-- A directory of the export may be written to if all in it may be touched. -/
private theorem writable_footprint (hroot : l.root.Resolved) {name : String}
    (hname : Path.IsPart name)
    (hinside : ∀ place, (Layout.child l.exportRoot name).parts <+: place → Previewed l place) :
    Writable (Footprint s l) s.files.find? (Layout.child l.exportRoot name) := by
  refine .of_resolved (resolved_inExport hroot hname) (fun place h ↦ .inl (hinside place h)) ?_
  intro front hfront hne
  rw [Layout.parts_child] at hfront hne
  have habove := (List.prefix_concat_iff.mp hfront).resolve_left hne
  cases hfound : s.files.find? front with
  | none => exact .inl (.inr ⟨habove, hfound⟩)
  | some node => exact .inr rfl

/-- The sheet of a style that is a name is taken with the shared files. -/
private theorem admits_sheetPath {P : State → Prop} (h : AdmitsBelow P l.exportPublic)
    (hstyle : '/' ∉ settings.style.toList) : Admits P (sheetPath l settings.style) := by
  obtain ⟨names, hnames, heq⟩ := below_sheetPath (l := l) hstyle
  rw [heq]
  exact h names hnames

section Runs

variable (hroot : l.root.Resolved) (hstyle : '/' ∉ settings.style.toList)

include hroot hstyle

private theorem admits_footprint :
    AdmitsPreview (Within (Footprint s l) s.files.find? s.repositories) l settings := by
  have hshared : Writable (Footprint s l) s.files.find? l.exportPublic :=
    writable_footprint hroot (by decide) fun _ ↦ .inr
  have hpreview : Writable (Footprint s l) s.files.find? l.exportPreview :=
    writable_footprint hroot (by decide) fun _ ↦ .inl
  exact {
    clears := keeps_clearDirectory (resolved_inExport hroot (by decide)) fun _ h ↦ .inl (.inl h)
    clearsPublic :=
      keeps_clearDirectory (resolved_inExport hroot (by decide)) fun _ h ↦ .inl (.inr h)
    preview := hpreview.admitsBelow
    shared := hshared.admitsBelow
    sheet := admits_sheetPath hshared.admitsBelow hstyle }

private theorem admits_filed :
    AdmitsPreview (Filed (Previewed l) s.files.find? s.repositories) l settings := by
  have hshared : AdmitsBelow (Filed (Previewed l) s.files.find? s.repositories) l.exportPublic :=
    Filed.admitsBelow (resolved_inExport hroot (by decide)) fun _ ↦ .inr
  exact {
    clears := Filed.keeps_clearDirectory (resolved_inExport hroot (by decide))
    clearsPublic := Filed.keeps_clearDirectory (resolved_inExport hroot (by decide))
    preview := Filed.admitsBelow (resolved_inExport hroot (by decide)) fun _ ↦ .inl
    shared := hshared
    sheet := admits_sheetPath hshared hstyle }

end Runs

/-- A world that differs from another in the directories of a preview only, but for directories on
the way to them where nothing was. -/
structure Spared (l : Layout) (s t : State) : Prop where
  sound : t.files.Sound
  repositories : t.repositories = s.repositories
  elsewhere : ∀ place, ¬ Previewed l place → t.files.find? place = s.files.find? place ∨
    place <+: l.exportRoot.parts ∧ s.files.find? place = none ∧
      t.files.find? place = some .directory

theorem Spared.refl (h : s.files.Sound) : Spared l s s :=
  ⟨h, rfl, fun _ _ ↦ .inl rfl⟩

private theorem Spared.of_within (hwithin : Within (Footprint s l) s.files.find? s.repositories s')
    (hfiled : Filed (Previewed l) s.files.find? s.repositories s') : Spared l s s' where
  sound := hwithin.files
  repositories := hwithin.repositories
  elsewhere place hplace := by
    by_cases hway : place <+: l.exportRoot.parts ∧ s.files.find? place = none
    · cases hfound : s'.files.find? place with
      | none => exact .inl hway.2.symm
      | some node =>
        cases node with
        | directory => exact .inr ⟨hway.1, hway.2, rfl⟩
        | file bytes =>
          have hold := (hfiled.files place bytes hfound).resolve_left hplace
          rw [hway.2] at hold
          cases hold
    · exact .inl (hwithin.elsewhere place fun hfoot ↦ hway (hfoot.resolve_left hplace))

/-- Preparing a preview spares everything but its directories. -/
theorem spared_prepared (hs : s.files.Sound) (hroot : l.root.Resolved)
    (hstyle : '/' ∉ settings.style.toList) : Spared l s (prepared l settings s) :=
  .of_within
    (keeps_preparePreview Within.aboutFiles hroot (admits_footprint hroot hstyle) s (.refl hs)).1
    (keeps_preparePreview Filed.aboutFiles hroot (admits_filed hroot hstyle) s (.refl hs)).1

/-- A preview spares everything but its directories, however it ends. -/
theorem spared_preview (hs : s.files.Sound)
    (htidy : ∀ repository ∈ s.repositories, repository.2.Tidy) (hroot : l.root.Resolved)
    (hstyle : '/' ∉ settings.style.toList) {answer : Except Failure (List Path)}
    (hrun : (preview l settings).on s = (answer, s')) : Spared l s s' := by
  have hnamed := namedAt_of_tidy htidy l.root
  exact .of_within
    ((keeps_previewIn Within.aboutFiles hroot hnamed (admits_footprint hroot hstyle)).after
      (.refl hs) hrun)
    ((keeps_previewIn Filed.aboutFiles hroot hnamed (admits_filed hroot hstyle)).after
      (.refl hs) hrun)

/-! ## Earlier previews -/

/-- The world without what an earlier preview has left. -/
def withoutPreview (l : Layout) (s : State) : State :=
  { s with files := s.files.removeAll l.exportPreview.parts }

theorem find?_withoutPreview (hroot : l.root.Resolved) {place : List String}
    (hplace : l.exportPreview.parts <+: place) :
    (withoutPreview l s).files.find? place = none := by
  have hpreview : l.exportPreview.Resolved := resolved_inExport hroot (by decide)
  exact find?_removeAll_below _ hpreview.parts_ne_nil hplace

/-- The theme does not lie in the export. -/
private theorem not_preview_ownTheme : ¬ l.exportPreview.parts <+: l.ownTheme.parts := by
  rw [Layout.exportPreview, Layout.parts_child, append_exportRoot, Layout.ownTheme,
    Layout.parts_child, List.prefix_append_right_inj]
  decide

/-- A preview starts by clearing its directory, so it goes as if none had been before. -/
private theorem on_preview_withoutPreview (hs : s.files.Sound) (hroot : l.root.Resolved)
    (hfree : ∀ bytes, s.files.find? l.exportPreview.parts ≠ some (.file bytes)) :
    (preview l settings).on (withoutPreview l s) = (preview l settings).on s := by
  have hpreview : l.exportPreview.Resolved := resolved_inExport hroot (by decide)
  have htheme : l.ownTheme.Resolved := Layout.resolved_child (resolved_metadata hroot) (by decide)
  have hsound : (withoutPreview l s).files.Sound := hs.removeAll _
  have hnone : (withoutPreview l s).files.find? l.exportPreview.parts = none :=
    find?_withoutPreview hroot List.prefix_rfl
  have hthemed : ((themeOf l).on (withoutPreview l s)).1 = ((themeOf l).on s).1 := by
    rw [on_themeOf, on_themeOf, isDirectory, isDirectory, hsound.node?_eq htheme,
      hs.node?_eq htheme]
    simp only [withoutPreview, find?_removeAll _ not_preview_ownTheme]
  have hclear : (clearDirectory l.exportPreview).on s = (.ok (), withoutPreview l s) :=
    on_clearDirectory hs hpreview hfree
  have hagain : (clearDirectory l.exportPreview).on (withoutPreview l s) =
      (.ok (), withoutPreview l s) := by
    rw [on_clearDirectory hsound hpreview (by simp [hnone]), hsound.removeAll_eq_self hnone]
  rw [on_themeOf, on_themeOf] at hthemed
  rw [preview_eq, on_bind_ok (on_themeOf l s), on_bind_ok (on_themeOf l _),
    Except.ok.inj hthemed, on_bind, on_bind, preparePreview, on_bind_ok hclear, on_bind_ok hagain]

/-! ## What is told -/

section Telling

variable {t : FileTree} {front : List Path}

/-- What writes nothing has nothing to tell. -/
theorem Tells.of_same {α : Type} {w : Workflow α} {Q : State → α → Prop}
    (h : ∀ s, Keeps (Same · s) w (Q s)) : Tells t front w fun _ ↦ front := by
  intro s s' a hs hrun
  rw [((h s).after (Same.refl s) hrun).1]
  exact hs

theorem Tells.previewFiles {out : Path} (hout : out.Plain) (paths : List String) :
    Tells t front (Workflow.previewFiles l out paths) (front ++ ·) := by
  induction paths generalizing front with
  | nil => exact pure (by simp)
  | cons path rest ih =>
    exact (of_same fun s ↦ keeps_read s _).bind fun _ ↦
      (writeMirrored (hout.join (Path.plain_ofString path)) _ _ _).bind
        fun _ ↦ ih.bind fun _ ↦ pure (by simp)

/-- What a preview writes once its directories are prepared is told. -/
theorem Tells.showPreview (hroot : l.root.Resolved) (theme : Theme) :
    Tells t front (Workflow.showPreview l settings theme) (front ++ ·) := by
  have hpreview : l.exportPreview.Resolved := resolved_inExport hroot (by decide)
  have htarget : (previewTarget l).Plain := (Layout.resolved_child hpreview (by decide)).plain
  have hout : (Layout.child l.exportPreview "workspace").Plain :=
    (Layout.resolved_child hpreview (by decide)).plain
  refine (of_same fun s ↦ keeps_unsavedPage s .quiet l settings).bind fun path ↦ ?_
  refine (log _ _ _).bind fun _ ↦ (of_same fun s ↦ keeps_text s _).bind fun text ↦ ?_
  refine (of_same fun s ↦ keeps_outline s l).bind fun workspace ↦ ?_
  refine (of_same fun s ↦ keeps_loadIndex s l.index).bind fun index ↦ ?_
  refine (ofResult _).bind fun code ↦ files fun _ _ ↦ (ofResult _).bind fun html ↦ ?_
  refine (makeDirectories htarget.parent).bind fun _ ↦ (write htarget _).bind fun _ ↦ ?_
  exact (previewFiles hout _).bind fun _ ↦ pure (by simp)

end Telling

/-- A preview that returns tells all files in its directory. -/
private theorem told_preview (hs : s.files.Sound) (hroot : l.root.Resolved) {told : List Path}
    (hrun : (preview l settings).on s = (.ok told, s')) :
    ∃ t, Told t told s'.files ∧ ∀ place, l.exportPreview.parts <+: place → t.find? place = none := by
  rw [preview_eq, on_bind_ok (on_themeOf l s)] at hrun
  obtain ⟨shared, p, hprepare, hrun⟩ := on_bind_eq_ok hrun
  obtain ⟨shown, q, hshow, hrun⟩ := on_bind_eq_ok hrun
  obtain ⟨htold, rfl⟩ := Prod.mk.inj hrun
  obtain rfl := Except.ok.inj htold
  obtain ⟨_, u, hclear, hprepare⟩ := on_bind_eq_ok hprepare
  obtain ⟨_, v, hclear', hprepare⟩ := on_bind_eq_ok hprepare
  obtain ⟨hu, hnone, -⟩ := clearDirectory_eq_ok hs (resolved_inExport hroot (by decide)) hclear
  obtain ⟨hv, hnone', helse⟩ :=
    clearDirectory_eq_ok hu (resolved_inExport hroot (by decide)) hclear'
  refine ⟨v.files, ?_, fun place hplace ↦ ?_⟩
  · have hshared := Tells.writePublic hroot settings v p shared (Told.refl hv) hprepare
    exact Tells.showPreview hroot _ p q shown hshared hshow
  · by_cases hpublic : l.exportPublic.parts <+: place
    · exact hnone' place hpublic
    · rw [helse place hpublic, hnone place hplace]

/-- However a preview ends, it leaves the repositories as they are with what is staged and what is
committed, and everything outside of its two directories, but for directories on the way to them
where nothing was. It goes as if there had been no preview before, in which case nothing lies in its
directory; if it returns, every file there is told, and all that is told is there. If a file is in
the place of the directory, nothing changes. -/
theorem preview_confined (hs : s.files.Sound)
    (htidy : ∀ repository ∈ s.repositories, repository.2.Tidy) (hroot : l.root.Resolved)
    (hstyle : '/' ∉ settings.style.toList) {answer : Except Failure (List Path)}
    (hrun : (preview l settings).on s = (answer, s')) :
    s'.repositories = s.repositories ∧
    (∀ place, ¬ Previewed l place → s'.files.find? place = s.files.find? place ∨
      place <+: l.exportRoot.parts ∧ s.files.find? place = none ∧
        s'.files.find? place = some .directory) ∧
    ((∀ bytes, s.files.find? l.exportPreview.parts ≠ some (.file bytes)) →
      (preview l settings).on (withoutPreview l s) = (answer, s') ∧
      ∀ place, l.exportPreview.parts <+: place → (withoutPreview l s).files.find? place = none) ∧
    ((∃ bytes, s.files.find? l.exportPreview.parts = some (.file bytes)) → s' = s) ∧
    (∀ told, answer = .ok told →
      (∀ path ∈ told, ∃ bytes, s'.files.find? path.place = some (.file bytes)) ∧
      ∀ place bytes, l.exportPreview.parts <+: place →
        s'.files.find? place = some (.file bytes) → ∃ path ∈ told, path.place = place) := by
  have hspared := spared_preview hs htidy hroot hstyle hrun
  refine ⟨hspared.repositories, hspared.elsewhere, fun hfree ↦ ⟨?_, fun place ↦ ?_⟩, ?_, ?_⟩
  · rw [on_preview_withoutPreview hs hroot hfree, hrun]
  · exact find?_withoutPreview hroot
  · rintro ⟨bytes, hfile⟩
    have hclear : (clearDirectory l.exportPreview).on s = _ :=
      on_clearDirectory_file hs (resolved_inExport hroot (by decide)) hfile
    rw [preview_eq, on_bind_ok (on_themeOf l s), preparePreview,
      on_bind_error (on_bind_error hclear _)] at hrun
    exact (Prod.mk.inj hrun).2.symm
  · rintro told rfl
    obtain ⟨t, htold, hnone⟩ := told_preview hs hroot hrun
    refine ⟨fun path hpath ↦ (htold.there path hpath).2, fun place bytes hplace hfound ↦ ?_⟩
    refine (htold.told place bytes hfound).resolve_left ?_
    rw [hnone place hplace]
    simp

/-- A guide with an unsaved page beside a step that was built and the file of an earlier preview. -/
def stalePreviewGuide : State where
  files := ⟨unsavedGuide.files.nodes ++
    [(["/", "guide", ".codasai", "export"], .directory),
      (["/", "guide", ".codasai", "export", "b"], .directory),
      (["/", "guide", ".codasai", "export", "b", "index.html"], .file [1]),
      (["/", "guide", ".codasai", "export", "preview"], .directory),
      (["/", "guide", ".codasai", "export", "preview", "old.html"], .file [2])]⟩
  repositories := unsavedGuide.repositories
  logs := []

/-- The step stays and the file of the earlier preview goes. -/
theorem preview_confined_stale :
    ∃ told s', (preview guideLayout (Settings.ofTitle "T")).on stalePreviewGuide = (.ok told, s') ∧
      s'.repositories = stalePreviewGuide.repositories ∧
      s'.files.find? ["/", "guide", ".codasai", "export", "b", "index.html"] = some (.file [1]) ∧
      ∀ bytes, s'.files.find? ["/", "guide", ".codasai", "export", "preview", "old.html"] ≠
        some (.file bytes) := by
  have htidy : ∀ repository ∈ stalePreviewGuide.repositories, repository.2.Tidy := by
    intro repository hrepository
    obtain rfl := List.mem_singleton.mp hrepository
    exact Store.tidy_empty 0
  obtain ⟨told, hrun⟩ : ∃ told, (preview guideLayout (Settings.ofTitle "T")).on stalePreviewGuide =
      (.ok told, ((preview guideLayout (Settings.ofTitle "T")).on stalePreviewGuide).2) :=
    on_eq_ok (by decide +kernel)
  have hplaces : ((preview guideLayout (Settings.ofTitle "T")).on stalePreviewGuide).1.toOption.map
      (fun told ↦ ["/", "guide", ".codasai", "export", "preview", "old.html"] ∈
        told.map Path.place : List Path → Bool) = some false := by decide +kernel
  rw [hrun] at hplaces
  obtain ⟨hrepositories, helse, -, -, htold⟩ :=
    preview_confined (by decide) htidy (by decide : guideLayout.root.Resolved) (by decide) hrun
  refine ⟨told, _, hrun, hrepositories, ?_, fun bytes hfound ↦ ?_⟩
  · refine (helse _ ?_).resolve_right fun hmade ↦ ?_
    · rintro (h | h) <;> revert h <;> decide
    · exact absurd hmade.2.1 (by decide)
  · obtain ⟨path, hpath, hplace⟩ := (htold told rfl).2 _ bytes (by decide) hfound
    have hmem := List.mem_map.mpr ⟨path, hpath, hplace⟩
    exact of_decide_eq_false (Option.some.inj hplaces) hmem

end Guidebook.Workflow
