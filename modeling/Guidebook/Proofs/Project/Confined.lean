import Guidebook.Proofs.Project.Stages

/-!
# What a build may change

A build changes nothing outside of the export but for two ways out of it: a style whose sheet
climbs, with directories made on the way to it, and a page of the code `..`, whose page and
workspace lie in the metadata directory. However the build ends, the repositories stay as they are.
-/

namespace Guidebook.Workflow

open Git

variable {l : Layout} {settings : Settings} {s s' : State} {place : List String}

/-- A page of the history has a code. -/
def HasCode (s : State) (l : Layout) (settings : Settings) (code : String) : Prop :=
  ∃ pages, Sequence.pages (historyIn s l.root) l.pagesDir settings.extension = .ok pages ∧
    code ∈ pages.map (·.page.code)

/-- The places that a build may touch. -/
inductive MayTouch (s : State) (l : Layout) (settings : Settings) : List String → Prop
  | inside {place : List String} (h : l.exportRoot.parts <+: place) : MayTouch s l settings place
  | sheet : MayTouch s l settings (sheetPath l settings.style).place
  | way {front : List String} (h : front <+: (parent (sheetPath l settings.style)).parts)
      (hnone : s.files.find? (Path.normalizeNames [] front) = none) :
      MayTouch s l settings (Path.normalizeNames [] front)
  | page (h : HasCode s l settings "..") :
    MayTouch s l settings (l.metadata.parts ++ ["index.html"])
  | workspace {place : List String} (h : HasCode s l settings "..")
      (hplace : l.metadata.parts ++ ["workspace"] <+: place) : MayTouch s l settings place

/-- The sheet of a style lies in the export, and the way to it leads through nothing but what is in
the export or above it. -/
structure Stays (l : Layout) (style : String) : Prop where
  sheet : l.exportRoot.parts <+: (sheetPath l style).place
  way : ∀ front, front <+: (parent (sheetPath l style)).parts →
    l.exportRoot.parts <+: Path.normalizeNames [] front ∨
      Path.normalizeNames [] front <+: l.metadata.parts

/-- The sheet of a style that is a name stays in the export. -/
theorem stays_of_name (hroot : l.root.Resolved) {style : String} (hstyle : '/' ∉ style.toList) :
    Stays l style := by
  obtain ⟨heq, -⟩ := sheetPath_eq (l := l) hstyle
  have hexport := resolved_exportRoot hroot
  have hdir : (l.exportPublic.join (Path.ofNames ["theme", "syntax"])).parts =
      l.exportRoot.parts ++ [Page.publicDir, "theme", "syntax"] := by
    rw [Path.parts_join _ rfl, Layout.exportPublic, Layout.parts_child, List.append_assoc]
    rfl
  have hup : ".." ∉ l.exportRoot.parts ++ [Page.publicDir, "theme", "syntax"] := by
    rw [List.mem_append, not_or]
    exact ⟨hexport.not_up, by decide⟩
  constructor
  · obtain ⟨names, hplace⟩ := (below_sheetPath hstyle).place_exportPublic hroot
    rw [hplace]
    exact List.prefix_append _ _
  · intro front hfront
    rw [heq, Layout.parent_child, hdir] at hfront
    rw [Path.normalizeNames_eq fun hmem ↦ hup (hfront.mem hmem), List.nil_append]
    rcases List.prefix_or_prefix_of_prefix hfront (List.prefix_append _ _) with habove | hinside
    · rw [Layout.exportRoot, Layout.parts_child] at habove
      rcases List.prefix_concat_iff.mp habove with rfl | habove
      · rw [Layout.exportRoot, Layout.parts_child]
        exact .inl List.prefix_rfl
      · exact .inr habove
    · exact .inl hinside

section Touched

variable (hroot : l.root.Resolved) (hs : s.files.Sound)
  (hmeta : s.files.find? l.metadata.parts = some .directory)

include hroot hs hmeta

private theorem grounded_metadata {parts : List String} (h : parts <+: l.metadata.parts) :
    Grounded (MayTouch s l settings) s.files.find? parts := by
  intro front hfront
  have hup : ".." ∉ front := fun hmem ↦
    (resolved_metadata hroot).not_up ((hfront.trans h).mem hmem)
  rw [Path.normalizeNames_eq hup, List.nil_append, hs.find?_front hmeta (hfront.trans h)]
  exact .inr rfl

private theorem grounded_mayTouch :
    Grounded (MayTouch s l settings) s.files.find? l.exportRoot.parts := by
  have hexport := resolved_exportRoot hroot
  intro front hfront
  by_cases heq : front = l.exportRoot.parts
  · rw [heq, Path.normalizeNames_eq hexport.not_up]
    exact .inl (.inside List.prefix_rfl)
  · rw [Layout.exportRoot, Layout.parts_child] at hfront heq
    have hinner := (List.prefix_concat_iff.mp hfront).resolve_left heq
    exact grounded_metadata hroot hs hmeta hinner front List.prefix_rfl

/-- A code leads below the export, or to the metadata directory. -/
private theorem stepWritable_mayTouch {pages : List SequencedPage}
    (hpages : Sequence.pages (historyIn s l.root) l.pagesDir settings.extension = .ok pages)
    {page : SequencedPage} (hpage : page ∈ pages) :
    StepWritable (MayTouch s l settings) s.files.find? l page.page.code := by
  have hcode := Sequence.isCode_of_mem_pages hpages hpage
  by_cases hup : page.page.code = ".."
  · have hhas : HasCode s l settings ".." := ⟨pages, hpages, List.mem_map.mpr ⟨page, hpage, hup⟩⟩
    have hplace : stepPlace l page.page.code = l.metadata.parts := by
      rw [stepPlace, hup, if_neg (by decide), if_pos rfl]
    refine stepWritable_of_place hroot hcode (grounded_stepDirectory hroot hcode
      (grounded_mayTouch hroot hs hmeta) ?_) ?_ fun names _ ↦ ?_
    · rw [hplace, hmeta]
      exact .inr rfl
    · rw [hplace]
      exact .page hhas
    · rw [hplace]
      refine .workspace hhas ?_
      rw [List.prefix_append_right_inj, List.cons_prefix_cons]
      exact ⟨rfl, List.nil_prefix⟩
  · have hinside := exportRoot_prefix_stepPlace (l := l) hup
    exact stepWritable_of_place hroot hcode (grounded_stepDirectory hroot hcode
      (grounded_mayTouch hroot hs hmeta) (.inl (.inside hinside)))
      (.inside (hinside.trans (List.prefix_append _ _)))
      fun names _ ↦ .inside (hinside.trans (List.prefix_append _ _))

/-- A build touches what it may. -/
private theorem keeps_build_mayTouch (htidy : ∀ repository ∈ s.repositories, repository.2.Tidy) :
    Keeps (Within (MayTouch s l settings) s.files.find? s.repositories)
      (buildFrom (historyIn s l.root) l settings) fun _ ↦ True := by
  have hexport := resolved_exportRoot hroot
  have hgrounded : Grounded (MayTouch s l settings) s.files.find? l.exportRoot.parts :=
    grounded_mayTouch hroot hs hmeta
  refine keeps_buildFrom hroot (isFilePath_historyIn htidy _ _) ?_ (fun _ ↦ .inside) ?_
    fun pages hpages page hpage ↦ stepWritable_mayTouch hroot hs hmeta hpages hpage
  · refine .of_resolved hexport (fun _ ↦ .inside) fun front hfront _ ↦ ?_
    have hthere := hgrounded front hfront
    rwa [Path.normalizeNames_eq fun hup ↦ hexport.not_up (hfront.mem hup)] at hthere
  · refine ⟨plain_sheetPath hroot _, fun front hfront ↦ ?_, .sheet⟩
    cases hfound : s.files.find? (Path.normalizeNames [] front) with
    | none => exact .inl (.way hfront hfound)
    | some node => exact .inr rfl

end Touched

/-- A style that stays and pages without the code `..` keep a build in the export. -/
theorem MayTouch.inside_of_stays (hs : s.files.Sound)
    (hmeta : s.files.find? l.metadata.parts = some .directory) (hstays : Stays l settings.style)
    (hcode : ¬ HasCode s l settings "..") (h : MayTouch s l settings place) :
    l.exportRoot.parts <+: place := by
  cases h with
  | inside h => exact h
  | sheet => exact hstays.sheet
  | way hfront hnone =>
    refine (hstays.way _ hfront).resolve_right fun habove ↦ ?_
    rw [hs.find?_front hmeta habove] at hnone
    cases hnone
  | page h => exact absurd h hcode
  | workspace h => exact absurd h hcode

/-- The paths that a build tells lie in the export exactly if the sheet does and no page has the
code `..`. -/
theorem BuildRun.inside_iff {written : List Path} (hroot : l.root.Resolved)
    (htidy : ∀ repository ∈ s.repositories, repository.2.Tidy)
    (run : BuildRun (historyIn s l.root) l settings s s' written) :
    (∀ path ∈ written, l.exportRoot.parts <+: path.place) ↔
      l.exportRoot.parts <+: (sheetPath l settings.style).place ∧ ¬ HasCode s l settings ".." := by
  obtain ⟨hcodes, hsource⟩ := map_code_of_mapM run.composed
  have hcode : ∀ step ∈ run.steps, Page.IsCode step.page.code := by
    intro step hstep
    obtain ⟨page, hpage, heq, -⟩ := hsource step hstep
    exact heq ▸ Sequence.isCode_of_mem_pages run.sequenced hpage
  have hhas : HasCode s l settings ".." ↔ ∃ step ∈ run.steps, step.page.code = ".." := by
    rw [← List.mem_map (f := fun step : Step ↦ step.page.code), hcodes]
    constructor
    · rintro ⟨pages, hpages, hmem⟩
      obtain rfl : run.pages = pages := Except.ok.inj (run.sequenced.symm.trans hpages)
      exact hmem
    · exact fun hmem ↦ ⟨run.pages, run.sequenced, hmem⟩
  simp only [run.told, List.forall_mem_append, List.forall_mem_singleton, hhas, not_exists, not_and]
  constructor
  · rintro ⟨⟨⟨-, hsheet⟩, hsteps⟩, -⟩
    refine ⟨hsheet, fun step hstep hup ↦ ?_⟩
    have hpage := hsteps _ (List.mem_flatMap.mpr ⟨step, hstep, List.mem_cons_self⟩)
    rw [place_pagePath hroot (hcode step hstep), hup, stepPlace, if_neg (by decide), if_pos rfl,
      Layout.exportRoot, Layout.parts_child, List.prefix_append_right_inj,
      List.cons_prefix_cons] at hpage
    exact absurd hpage.1 (by decide)
  · rintro ⟨hsheet, hup⟩
    refine ⟨⟨⟨fun path hpath ↦ ?_, hsheet⟩, fun path hpath ↦ ?_⟩, ?_⟩
    · obtain ⟨names, hplace⟩ := (run.below path hpath).place_exportPublic hroot
      rw [hplace]
      exact List.prefix_append _ _
    · obtain ⟨step, hstep, hpath⟩ := List.mem_flatMap.mp hpath
      obtain ⟨page, -, -, hd⟩ := hsource step hstep
      obtain ⟨name, names, -, hplace⟩ := place_stepPaths hroot (hcode step hstep)
        (isFilePath_outline (isFilePath_historyIn htidy _ _) hd) hpath
      rw [hplace]
      exact (exportRoot_prefix_stepPlace (hup step hstep)).trans (List.prefix_append _ _)
    · rw [place_landingPath hroot]
      exact List.prefix_append _ _

/-- However a build ends, it changes nothing but what it may touch: what lies in the export, the
place of the sheet with the directories made on the way there, and what lies in the metadata
directory where a page of the code `..` leads. It stays in the export if the style does and there is
no such page; what a build that succeeds has written lies in the export exactly if the sheet does
and there is none. -/
theorem build_confined (hs : s.files.Sound)
    (htidy : ∀ repository ∈ s.repositories, repository.2.Tidy) {root : Path}
    (hroot : root.Resolved) (hload : ((loadRoot root).on s).1 = .ok (l, settings))
    {answer : Except Failure (List Path)} (hrun : (build l settings).on s = (answer, s')) :
    s'.repositories = s.repositories ∧
    (∀ place, s'.files.find? place ≠ s.files.find? place → MayTouch s l settings place) ∧
    ('/' ∉ settings.style.toList → Stays l settings.style) ∧
    (Stays l settings.style → ¬ HasCode s l settings ".." →
      ∀ place, s'.files.find? place ≠ s.files.find? place → l.exportRoot.parts <+: place) ∧
    (∀ written, answer = .ok written →
      ((∀ path ∈ written, l.exportRoot.parts <+: path.place) ↔
        l.exportRoot.parts <+: (sheetPath l settings.style).place ∧
          ¬ HasCode s l settings "..")) := by
  obtain ⟨rfl, hmeta⟩ := metadata_of_loadRoot hs hroot hload
  rw [on_build] at hrun
  have hafter := (keeps_build_mayTouch hroot hs hmeta htidy).after (.refl hs) hrun
  have htouched : ∀ place, s'.files.find? place ≠ s.files.find? place →
      MayTouch s l settings place :=
    fun place hne ↦ by_contra fun hnot ↦ hne (hafter.elsewhere place hnot)
  refine ⟨hafter.repositories, htouched, stays_of_name hroot, fun hstays hcode place hne ↦
    (htouched place hne).inside_of_stays hs hmeta hstays hcode, ?_⟩
  rintro written rfl
  obtain ⟨run⟩ := buildFrom_eq_ok hs hroot hrun
  exact run.inside_iff hroot htidy

/-- The guide of two pages is built in its export. -/
theorem build_confined_two :
    ∃ answer s', (build twoPagesLayout (Settings.ofTitle "T")).on twoPagesGuide = (answer, s') ∧
      ∀ place, s'.files.find? place ≠ twoPagesGuide.files.find? place →
        twoPagesLayout.exportRoot.parts <+: place := by
  have hload : ((loadRoot twoPagesLayout.root).on twoPagesGuide).1 =
      .ok (twoPagesLayout, Settings.ofTitle "T") := eq_ok_of_toOption (by decide +kernel)
  obtain ⟨-, -, hnamed, hstays, -⟩ := build_confined (by decide) tidy_twoPagesGuide (by decide)
    hload (Prod.mk.eta.symm : (build twoPagesLayout (Settings.ofTitle "T")).on twoPagesGuide = _)
  refine ⟨_, _, Prod.mk.eta.symm, hstays (hnamed (by decide)) ?_⟩
  rintro ⟨pages, hpages, hmem⟩
  obtain ⟨known, hknown, hcodes⟩ := codes_twoPagesGuide
  obtain rfl := Except.ok.inj (hknown.symm.trans hpages)
  rw [hcodes] at hmem
  exact absurd hmem (by decide)

end Guidebook.Workflow
