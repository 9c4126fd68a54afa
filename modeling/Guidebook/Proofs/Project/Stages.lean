import Guidebook.Proofs.Project.Frame

/-!
# The stages of a build

A build writes the shared files, then one step after another, then the landing page. Two stages are
apart if neither writes where the other does nor above it. All are apart exactly if every page has a
code of its own that neither leads to the export itself nor is the name of the landing page, and the
style keeps its sheet off the other stages. Then every step's page is there in the end.
-/

namespace Guidebook

/-! ## Rendering -/

namespace Theme

/-- The components of a template's name each name something. -/
private theorem isPart_nameParts {name : String} {parts : List String}
    (h : nameParts name = some parts) : ∀ part ∈ parts, Path.IsPart part := by
  rw [nameParts] at h
  split at h
  · cases h
  · next hup =>
    obtain rfl := Option.some.inj h
    intro part hpart
    obtain ⟨hmem, hnamed⟩ := List.mem_filter.mp hpart
    rw [Bool.and_eq_true, bne_iff_ne, bne_iff_ne] at hnamed
    refine ⟨?_, hnamed.1, hnamed.2, ?_⟩
    · rintro rfl
      exact hup (List.contains_iff_mem.mpr hmem)
    · obtain ⟨piece, hpiece, rfl⟩ := List.mem_map.mp hmem
      intro hslash
      rw [String.toList_ofList] at hslash
      have hsep := (Text.of_mem_splitBy hpiece hslash).1
      simp at hsep

variable {t u : FileTree} {dir : Path}

/-- Templates are loaded from what lies below their directory. -/
theorem load_congr (ht : t.Sound) (hu : u.Sound) (hdir : dir.Resolved)
    (hsame : ∀ place, dir.parts <+: place → t.find? place = u.find? place) :
    load t dir = load u dir := by
  funext name
  rw [load, load]
  cases hparts : nameParts name with
  | none => rfl
  | some parts =>
    have hpath : (dir.join (Path.ofNames ("templates" :: parts))).Resolved :=
      hdir.join (List.forall_mem_cons.mpr ⟨by decide, isPart_nameParts hparts⟩)
    have hbelow : dir.parts <+: (dir.join (Path.ofNames ("templates" :: parts))).parts := by
      rw [Path.parts_join dir rfl]
      exact List.prefix_append _ _
    simp only
    cases hread : t.read (dir.join (Path.ofNames ("templates" :: parts))) with
    | ok bytes =>
      have hfound := (ht.read_eq_ok_iff hpath).mp hread
      rw [hsame _ hbelow] at hfound
      rw [(hu.read_eq_ok_iff hpath).mpr hfound]
    | error problem =>
      cases hother : u.read (dir.join (Path.ofNames ("templates" :: parts))) with
      | error other => rfl
      | ok bytes =>
        have hfound := (hu.read_eq_ok_iff hpath).mp hother
        rw [← hsame _ hbelow, ← ht.read_eq_ok_iff hpath, hread] at hfound
        cases hfound

/-- A theme renders from what lies below its directory, the packaged one from nothing. -/
theorem render_congr (ht : t.Sound) (hu : u.Sound) (hdir : dir.Resolved) {theme : Theme}
    (htheme : theme = .packaged ∨ theme = .own dir)
    (hsame : ∀ place, dir.parts <+: place → t.find? place = u.find? place) (name : String)
    (guide : GuideContext) (page : Option PageContext) (slug : Option String) :
    render t theme name guide page slug = render u theme name guide page slug := by
  rcases htheme with rfl | rfl
  · rw [render, render]
  · rw [render, render, load_congr ht hu hdir hsame]

end Theme

/-- A page is rendered from what lies below the directory of the theme. -/
theorem Projection.page_congr {Tree Blob : Type} {p : Projection Tree Blob} {t u : FileTree}
    (ht : t.Sound) (hu : u.Sound) (hroot : p.layout.root.Resolved)
    (htheme : p.theme = .packaged ∨ p.theme = .own p.layout.ownTheme)
    (hsame : ∀ place, p.layout.ownTheme.parts <+: place → t.find? place = u.find? place)
    (step : Step) : p.page t step = p.page u step := by
  have hdir : p.layout.ownTheme.Resolved :=
    Layout.resolved_child (Workflow.resolved_metadata hroot) (by decide)
  rw [page, page]
  split
  · rfl
  · exact Theme.render_congr ht hu hdir htheme hsame _ _ _ _

namespace Workflow

open Git

variable {Tree Blob : Type} {l : Layout}

/-! ## What is written -/

/-- The paths of a mirrored file and its companion. -/
def mirrorPaths (out : Path) (path : String) : List Path :=
  let target := out.join (Path.ofString path)
  [target, companionPath target]

/-- The paths of the files of a step, in the order in which they are written. -/
def stepPaths (l : Layout) (step : Step) : List Path :=
  let out := stepDirectory l step.page.code
  Layout.child out "index.html" ::
    (outlineFiles step.workspace).flatMap (mirrorPaths (Layout.child out "workspace"))

/-- The path of the landing page. -/
def landingPath (l : Layout) : Path := Layout.child l.exportRoot "index.html"

section Answers

variable {p : Projection Tree Blob}

theorem answer_writeMirrored (content : List UInt8) (target : Path) (revision : Option String)
    (shown : String) :
    Keeps (fun _ ↦ True) (writeMirrored content target revision shown) fun written ↦
      written = [target, companionPath target] :=
  (Keeps.any _).bind fun _ _ ↦ (Keeps.any _).bind fun _ _ ↦ (Keeps.any _).bind fun _ _ ↦
    (Keeps.any _).bind fun _ _ ↦ Keeps.pure rfl

theorem answer_exportFiles (step : Step) (tree : Tree) (out : Path) (paths : List String) :
    Keeps (fun _ ↦ True) (exportFiles p step tree out paths) fun written ↦
      written = paths.flatMap (mirrorPaths out) := by
  induction paths with
  | nil => exact Keeps.pure rfl
  | cons path rest ih =>
    refine (Keeps.any _).bind fun _ _ ↦ ?_
    refine (answer_writeMirrored _ _ _ _).bind fun written hwritten ↦ ?_
    refine ih.bind fun others hothers ↦ ?_
    refine Keeps.pure ?_
    rw [hwritten, hothers, List.flatMap_cons, mirrorPaths]

/-- A step tells the paths it was written to. -/
theorem answer_exportStep (step : Step) :
    Keeps (fun _ ↦ True) (exportStep p step) fun written ↦ written = stepPaths p.layout step := by
  refine (Keeps.any _).bind fun _ _ ↦ (Keeps.any _).bind fun _ _ ↦ ?_
  refine (Keeps.any _).bind fun _ _ ↦ (Keeps.any _).bind fun _ _ ↦ ?_
  refine (Keeps.any _).bind fun _ _ ↦ (Keeps.any _).bind fun tree _ ↦ ?_
  refine (answer_exportFiles step tree _ _).bind fun mirrored hmirrored ↦ Keeps.pure ?_
  rw [hmirrored, stepPaths]

/-- Steps that are written are those of their pages, and tell their paths. -/
theorem answer_exportSteps (pages : List SequencedPage) :
    Keeps (fun _ ↦ True) (exportSteps p pages) fun written ↦
      ∃ steps, pages.mapM p.project = .ok steps ∧ written = steps.flatMap (stepPaths p.layout) := by
  induction pages with
  | nil => exact Keeps.pure ⟨[], rfl, rfl⟩
  | cons page rest ih =>
    rw [exportSteps_cons]
    refine (Keeps.any _).bind fun _ _ ↦ ?_
    refine (Keeps.ofResult fun step hstep ↦ hstep).bind fun step hstep ↦ ?_
    refine (answer_exportStep step).bind fun written hwritten ↦ ?_
    refine ih.bind fun others hrest ↦ ?_
    obtain ⟨steps, hsteps, hothers⟩ := hrest
    refine Keeps.pure ⟨step :: steps, ?_, ?_⟩
    · rw [List.mapM_cons, hstep, hsteps]
      rfl
    · rw [hwritten, hothers, List.flatMap_cons]

theorem answer_writeLanding {theme : Theme} {guide : GuideContext} :
    Keeps (fun _ ↦ True) (writeLanding l theme guide) (· = landingPath l) :=
  (Keeps.any _).bind fun _ _ ↦ (Keeps.any _).bind fun _ _ ↦ (Keeps.any _).bind fun _ _ ↦
    (Keeps.any _).bind fun _ _ ↦ Keeps.pure rfl

end Answers

/-! ## Apart -/

/-- Two paths that lead to different places of which neither lies above the other. -/
def Apart (x y : Path) : Prop := ¬ x.place <+: y.place ∧ ¬ y.place <+: x.place

theorem Apart.place_ne {x y : Path} (h : Apart x y) : x.place ≠ y.place :=
  fun heq ↦ h.1 (heq ▸ List.prefix_rfl)

/-- Paths that part ways are apart. -/
theorem Apart.of_ne {x y : Path} {front as bs : List String} {a b : String}
    (hx : x.place = front ++ a :: as) (hy : y.place = front ++ b :: bs) (h : a ≠ b) :
    Apart x y := by
  constructor
  all_goals
    rw [hx, hy, List.prefix_append_right_inj, List.cons_prefix_cons]
  · exact fun hprefix ↦ h hprefix.1
  · exact fun hprefix ↦ h hprefix.1.symm

/-- A shared file of the export, by its path: below the public directory, or the sheet. -/
def Shared (l : Layout) (style : String) (path : Path) : Prop :=
  Below l.exportPublic path ∨ path = sheetPath l style

/-- The stages of a build write apart from each other. -/
structure StagesApart (l : Layout) (style : String) (steps : List Step) : Prop where
  pairwise : steps.Pairwise fun a b ↦ ∀ x ∈ stepPaths l a, ∀ y ∈ stepPaths l b, Apart x y
  shared : ∀ step ∈ steps, ∀ x ∈ stepPaths l step, ∀ y, Shared l style y → Apart x y
  landing : ∀ step ∈ steps, ∀ x ∈ stepPaths l step, Apart x (landingPath l)
  sharedLanding : ∀ y, Shared l style y → Apart y (landingPath l)

/-- The sheet of a style is apart from the steps and from the landing page. -/
def SheetApart (l : Layout) (style : String) (steps : List Step) : Prop :=
  (∀ step ∈ steps, ∀ x ∈ stepPaths l step, Apart x (sheetPath l style)) ∧
    Apart (sheetPath l style) (landingPath l)

/-- The sheet of a style that is a name. -/
theorem sheetPath_eq {style : String} (hstyle : '/' ∉ style.toList) :
    sheetPath l style =
      Layout.child (l.exportPublic.join (Path.ofNames ["theme", "syntax"])) (style ++ ".css") ∧
    Path.IsPart (style ++ ".css") := by
  have hslash : '/' ∉ (style ++ ".css").toList := by
    rw [String.toList_append, List.mem_append, not_or]
    exact ⟨hstyle, by decide⟩
  constructor
  · rw [sheetPath, Path.ofString_eq_of_noSlash hslash (Text.append_ne (by decide)),
      if_neg (Text.append_ne (by decide)), Layout.child]
  · exact ⟨Text.append_ne (by decide), Text.append_ne (by decide), Text.append_ne (by decide),
      hslash⟩

/-- A style that is a name has its sheet below the public directory. -/
theorem below_sheetPath {style : String} (hstyle : '/' ∉ style.toList) :
    Below l.exportPublic (sheetPath l style) := by
  obtain ⟨heq, hname⟩ := sheetPath_eq (l := l) hstyle
  refine ⟨["theme", "syntax", style ++ ".css"], ?_, ?_⟩
  · refine List.forall_mem_cons.mpr ⟨by decide, List.forall_mem_cons.mpr ⟨by decide, ?_⟩⟩
    intro name hmem
    rwa [List.mem_singleton.mp hmem]
  · rw [heq]
    simp [Layout.child, Path.join, Path.ofNames]

section Places

variable (hroot : l.root.Resolved)

include hroot

theorem place_landingPath : (landingPath l).place = l.exportRoot.parts ++ ["index.html"] := by
  rw [landingPath, Layout.place_child _ (by decide), (resolved_exportRoot hroot).place_eq]

/-- What lies below the public directory lies there in the export. -/
theorem Below.place_exportPublic {path : Path} (h : Below l.exportPublic path) :
    ∃ names, path.place = l.exportRoot.parts ++ Page.publicDir :: names := by
  obtain ⟨names, hnames, rfl⟩ := h
  have hpublic : l.exportPublic.Resolved :=
    Layout.resolved_child (resolved_exportRoot hroot) (by decide)
  refine ⟨names, ?_⟩
  rw [Path.place_join _ rfl (not_up hnames), hpublic.place_eq, Layout.exportPublic,
    Layout.parts_child, List.append_assoc]
  rfl

variable {step : Step} (hcode : Page.IsCode step.page.code)
  (hworkspace : ∀ path ∈ step.workspace.paths, IsFilePath path)

include hcode

/-- The page of a step lies in the directory of its code. -/
theorem place_pagePath :
    (Layout.child (stepDirectory l step.page.code) "index.html").place =
      stepPlace l step.page.code ++ ["index.html"] :=
  place_child_stepDirectory hroot hcode (by decide)

include hworkspace

/-- All files of a step lie in the directory of its code. -/
theorem place_stepPaths {x : Path} (hx : x ∈ stepPaths l step) :
    ∃ name names, name ≠ Layout.exportDir ∧
      x.place = stepPlace l step.page.code ++ name :: names := by
  rw [stepPaths, List.mem_cons, List.mem_flatMap] at hx
  rcases hx with rfl | ⟨path, hpath, hx⟩
  · exact ⟨"index.html", [], by decide, place_pagePath hroot hcode⟩
  · rw [outlineFiles_eq] at hpath
    obtain ⟨names, hnames, rfl⟩ := hworkspace path hpath
    have hout : (Layout.child (stepDirectory l step.page.code) "workspace").place =
        stepPlace l step.page.code ++ ["workspace"] :=
      place_child_stepDirectory hroot hcode (by decide)
    have hjoin : ∀ inner, (∀ name ∈ inner, Path.IsPart name) →
        ((Layout.child (stepDirectory l step.page.code) "workspace").join
          (Path.ofNames inner)).place = stepPlace l step.page.code ++ "workspace" :: inner := by
      intro inner hinner
      rw [Path.place_join _ rfl (not_up hinner), hout, List.append_assoc]
      rfl
    rw [mirrorPaths, WorkTree.ofString_gitPath hnames, companionPath_join _ hnames.1,
      List.mem_cons, List.mem_singleton] at hx
    rcases hx with rfl | rfl
    · exact ⟨"workspace", names, by decide, hjoin _ hnames.2⟩
    · exact ⟨"workspace", _, by decide, hjoin _ (isPart_companionNames hnames)⟩

/-- The files of a step lie in the export below the code, unless the code leads upwards. -/
theorem place_stepPaths_cases (hdot : step.page.code ≠ ".") {x : Path} (hx : x ∈ stepPaths l step) :
    (step.page.code = ".." ∧ ∃ name names, name ≠ Layout.exportDir ∧
      x.place = l.metadata.parts ++ name :: names) ∨
    (step.page.code ≠ ".." ∧ ∃ names, x.place = l.exportRoot.parts ++ step.page.code :: names) := by
  obtain ⟨name, names, hname, hplace⟩ := place_stepPaths hroot hcode hworkspace hx
  rw [stepPlace, if_neg hdot] at hplace
  by_cases hup : step.page.code = ".."
  · rw [if_pos hup] at hplace
    exact .inl ⟨hup, name, names, hname, hplace⟩
  · rw [if_neg hup, List.append_assoc] at hplace
    exact .inr ⟨hup, name :: names, hplace⟩

/-- The files of a step are apart from what lies elsewhere in the export. -/
theorem apart_of_exportRoot (hdot : step.page.code ≠ ".") {x y : Path} (hx : x ∈ stepPaths l step)
    {name : String} {names : List String} (hy : y.place = l.exportRoot.parts ++ name :: names)
    (hname : step.page.code ≠ name) : Apart x y := by
  rcases place_stepPaths_cases hroot hcode hworkspace hdot hx with
    ⟨-, other, others, hother, hplace⟩ | ⟨-, others, hplace⟩
  · rw [Layout.exportRoot, Layout.parts_child, List.append_assoc] at hy
    exact .of_ne hplace hy hother
  · exact .of_ne hplace hy hname

end Places

/-! ## When stages are apart -/

section StagesApart

variable (hroot : l.root.Resolved) {style : String} {steps : List Step}
  (hcodes : ∀ step ∈ steps, Page.IsCode step.page.code)
  (hworkspace : ∀ step ∈ steps, ∀ path ∈ step.workspace.paths, IsFilePath path)

include hroot in
/-- What lies below the public directory is apart from the landing page. -/
theorem Below.apart_landing {path : Path} (h : Below l.exportPublic path) :
    Apart path (landingPath l) := by
  obtain ⟨names, hplace⟩ := h.place_exportPublic hroot
  exact .of_ne hplace (place_landingPath hroot) (by decide)

include hroot hcodes hworkspace

/-- What lies below the public directory is apart from all steps that do not lead to the export. -/
theorem Below.apart_step (hdot : "." ∉ steps.map (·.page.code)) {path : Path}
    (h : Below l.exportPublic path) {step : Step} (hstep : step ∈ steps) {x : Path}
    (hx : x ∈ stepPaths l step) : Apart x path := by
  obtain ⟨names, hplace⟩ := h.place_exportPublic hroot
  have hcode := hcodes step hstep
  refine apart_of_exportRoot hroot hcode (hworkspace step hstep) ?_ hx hplace ?_
  · exact fun heq ↦ hdot (List.mem_map.mpr ⟨step, hstep, heq⟩)
  · intro heq
    have hreserved := hcode.notReserved
    rw [heq] at hreserved
    cases hreserved

/-- A style that is a name keeps its sheet off all steps that do not lead to the export. -/
theorem sheetApart_of_name (hstyle : '/' ∉ style.toList) (hdot : "." ∉ steps.map (·.page.code)) :
    SheetApart l style steps :=
  ⟨fun _ hstep _ hx ↦ (below_sheetPath hstyle).apart_step hroot hcodes hworkspace hdot hstep hx,
    (below_sheetPath hstyle).apart_landing hroot⟩

/-- Steps of different codes are apart. -/
private theorem pairwise_apart (hnodup : (steps.map (·.page.code)).Nodup)
    (hdot : "." ∉ steps.map (·.page.code)) :
    steps.Pairwise fun a b ↦ ∀ x ∈ stepPaths l a, ∀ y ∈ stepPaths l b, Apart x y := by
  refine (List.pairwise_map.mp hnodup).imp_of_mem fun {a b} ha hb hne x hx y hy ↦ ?_
  have hdots : ∀ step ∈ steps, step.page.code ≠ "." := fun step hstep heq ↦
    hdot (List.mem_map.mpr ⟨step, hstep, heq⟩)
  rcases place_stepPaths_cases hroot (hcodes b hb) (hworkspace b hb) (hdots b hb) hy with
    ⟨hup, name, names, hname, hplace⟩ | ⟨-, names, hplace⟩
  · rcases place_stepPaths_cases hroot (hcodes a ha) (hworkspace a ha) (hdots a ha) hx with
      ⟨hup', -⟩ | ⟨-, names', hplace'⟩
    · exact absurd (hup'.trans hup.symm) hne
    · rw [Layout.exportRoot, Layout.parts_child, List.append_assoc] at hplace'
      exact .of_ne hplace' hplace hname.symm
  · exact apart_of_exportRoot hroot (hcodes a ha) (hworkspace a ha) (hdots a ha) hx hplace hne

/-- The stages of a build are apart exactly if every page has a code of its own, none leads to the
export or is called like the landing page, and the sheet is off all others. -/
theorem stagesApart_iff :
    StagesApart l style steps ↔ (steps.map (·.page.code)).Nodup ∧
      "." ∉ steps.map (·.page.code) ∧ "index.html" ∉ steps.map (·.page.code) ∧
        SheetApart l style steps := by
  have hlanding := place_landingPath hroot
  have hpage : ∀ step ∈ steps, ∃ x ∈ stepPaths l step,
      x.place = stepPlace l step.page.code ++ ["index.html"] := fun step hstep ↦
    ⟨_, List.mem_cons_self, place_pagePath hroot (hcodes step hstep)⟩
  constructor
  · intro h
    refine ⟨?_, ?_, ?_, fun step hstep x hx ↦ h.shared step hstep x hx _ (.inr rfl),
      h.sharedLanding _ (.inr rfl)⟩
    · refine List.pairwise_map.mpr (h.pairwise.imp_of_mem fun {a b} ha hb hapart heq ↦ ?_)
      obtain ⟨x, hx, hplace⟩ := hpage a ha
      obtain ⟨y, hy, hplace'⟩ := hpage b hb
      exact (hapart x hx y hy).place_ne (by rw [hplace, hplace', heq])
    · intro hmem
      obtain ⟨step, hstep, heq⟩ := List.mem_map.mp hmem
      obtain ⟨x, hx, hplace⟩ := hpage step hstep
      refine (h.landing step hstep x hx).place_ne ?_
      rw [hplace, hlanding, heq, stepPlace, if_pos rfl]
    · intro hmem
      obtain ⟨step, hstep, heq⟩ := List.mem_map.mp hmem
      obtain ⟨x, hx, hplace⟩ := hpage step hstep
      refine (h.landing step hstep x hx).2 ?_
      rw [hplace, hlanding, heq, stepPlace, if_neg (by decide), if_neg (by decide)]
      exact List.prefix_append _ _
  · rintro ⟨hnodup, hdot, hindex, hsheet⟩
    refine ⟨pairwise_apart hroot hcodes hworkspace hnodup hdot, ?_, ?_, ?_⟩
    · rintro step hstep x hx y (hbelow | rfl)
      · exact hbelow.apart_step hroot hcodes hworkspace hdot hstep hx
      · exact hsheet.1 step hstep x hx
    · intro step hstep x hx
      refine apart_of_exportRoot hroot (hcodes step hstep) (hworkspace step hstep) ?_ hx hlanding ?_
      · exact fun heq ↦ hdot (List.mem_map.mpr ⟨step, hstep, heq⟩)
      · exact fun heq ↦ hindex (List.mem_map.mpr ⟨step, hstep, heq⟩)
    · rintro y (hbelow | rfl)
      · exact hbelow.apart_landing hroot
      · exact hsheet.2

end StagesApart

/-! ## What is there in the end -/

/-- Places other than that of the page of a code, outside of the project's own theme. -/
def Beside (l : Layout) (code : String) (place : List String) : Prop :=
  place ≠ stepPlace l code ++ ["index.html"] ∧ ¬ l.ownTheme.parts <+: place

/-- The theme is above neither the metadata directory nor its other children. -/
private theorem not_theme {place : List String}
    (h : place <+: l.metadata.parts ∨
      ∃ name names, name ≠ Layout.themeDir ∧ place = l.metadata.parts ++ name :: names) :
    ¬ l.ownTheme.parts <+: place := by
  rw [Layout.ownTheme, Layout.parts_child]
  rcases h with h | ⟨name, names, hname, rfl⟩
  · intro htheme
    have hlength := (htheme.trans h).length_le
    rw [List.length_append, List.length_singleton] at hlength
    omega
  · rw [List.prefix_append_right_inj, List.cons_prefix_cons]
    exact fun htheme ↦ hname htheme.1.symm

/-- The theme is above neither the export nor what it lies in. -/
private theorem not_theme_exportRoot {front : List String} (h : front <+: l.exportRoot.parts) :
    ¬ l.ownTheme.parts <+: front := by
  rw [Layout.exportRoot, Layout.parts_child] at h
  rcases List.prefix_concat_iff.mp h with rfl | h
  · exact not_theme (.inr ⟨_, [], by decide, rfl⟩)
  · exact not_theme (.inl h)

/-- A code that does not lead to the export leads to the metadata directory or below the export. -/
private theorem stepPlace_cases {code : String} (hdot : code ≠ ".") :
    (code = ".." ∧ stepPlace l code = l.metadata.parts) ∨
      stepPlace l code = l.metadata.parts ++ ["export", code] := by
  rw [stepPlace, if_neg hdot]
  split
  · next hup => exact .inl ⟨hup, rfl⟩
  · exact .inr (append_exportRoot l _)

/-- The theme is not above the page of a step. -/
private theorem not_theme_page {code : String} (hdot : code ≠ ".") :
    ¬ l.ownTheme.parts <+: stepPlace l code ++ ["index.html"] := by
  apply not_theme
  rcases stepPlace_cases (l := l) hdot with ⟨-, hplace⟩ | hplace
  · exact .inr ⟨"index.html", [], by decide, by rw [hplace]⟩
  · exact .inr ⟨"export", [code, "index.html"], by decide, by simp [hplace]⟩

/-- The workspace of a step is written beside every page. -/
private theorem workspace_beside {code other : String} (hdot : code ≠ ".") (hself : other ≠ ".")
    (names : List String) : Beside l code (stepPlace l other ++ "workspace" :: names) := by
  constructor
  · rcases stepPlace_cases (l := l) hdot with ⟨-, hplace⟩ | hplace <;>
      rcases stepPlace_cases (l := l) hself with ⟨-, hplace'⟩ | hplace' <;>
      simp [hplace, hplace']
  · apply not_theme
    rcases stepPlace_cases (l := l) hself with ⟨-, hplace⟩ | hplace
    · exact .inr ⟨"workspace", names, by decide, by rw [hplace]⟩
    · exact .inr ⟨"export", other :: "workspace" :: names, by decide, by simp [hplace]⟩

section Beside

variable (hroot : l.root.Resolved) {t : FileTree} {code : String} (hdot : code ≠ ".")
  (hthere : (t.find? (stepPlace l code ++ ["index.html"])).isSome = true)

include hthere

/-- Places that the theme is not above are beside a page that is there, or taken by it. -/
private theorem beside_or_there {place : List String} (h : ¬ l.ownTheme.parts <+: place) :
    Beside l code place ∨ (t.find? place).isSome = true := by
  by_cases hpage : place = stepPlace l code ++ ["index.html"]
  · right
    rw [hpage, hthere]
  · exact .inl ⟨hpage, h⟩

include hroot

private theorem grounded_exportRoot : Grounded (Beside l code) t.find? l.exportRoot.parts := by
  intro front hfront
  rw [Path.normalizeNames_eq fun hup ↦ (resolved_exportRoot hroot).not_up (hfront.mem hup)]
  exact beside_or_there hthere (not_theme_exportRoot hfront)

/-- The way to a step leads beside the theme. -/
private theorem grounded_beside {other : String} (hother : Page.IsCode other)
    (hself : other ≠ ".") :
    Grounded (Beside l code) t.find? (stepDirectory l other).parts := by
  refine grounded_stepDirectory hroot hother (grounded_exportRoot hroot hthere)
    (beside_or_there hthere (not_theme ?_))
  rcases stepPlace_cases (l := l) hself with ⟨-, hplace⟩ | hplace
  · exact .inl (hplace ▸ List.prefix_rfl)
  · exact .inr ⟨"export", [other], by decide, hplace⟩

include hdot

/-- A step of another code is written beside a page. -/
private theorem stepWritable_beside {other : String} (hother : Page.IsCode other)
    (hself : other ≠ ".") (hne : other ≠ code) :
    StepWritable (Beside l code) t.find? l other := by
  refine stepWritable_of_place hroot hother (grounded_beside hroot hthere hother hself) ?_
    fun names _ ↦ workspace_beside hdot hself names
  constructor
  · rw [Ne, List.append_cancel_right_eq]
    rcases stepPlace_cases (l := l) hdot with ⟨hup, hplace⟩ | hplace <;>
      rcases stepPlace_cases (l := l) hself with ⟨hup', hplace'⟩ | hplace' <;>
      simp_all
  · exact not_theme_page hself

/-- The landing page is written beside a page. -/
private theorem landing_beside : FileWritable (Beside l code) t.find? (landingPath l) where
  plain := (resolved_exportRoot hroot).plain.join (Path.plain_ofNames (by decide))
  grounded := by
    rw [landingPath, Layout.parent_child]
    exact grounded_exportRoot hroot hthere
  place := by
    rw [place_landingPath hroot, append_exportRoot]
    constructor
    · rcases stepPlace_cases (l := l) hdot with ⟨-, hplace⟩ | hplace <;> simp [hplace]
    · exact not_theme (.inr ⟨"export", ["index.html"], by decide, rfl⟩)

end Beside

section Shown

variable {p : Projection Tree Blob}

/-- What a step that is written went through. -/
theorem exportStep_eq_ok {step : Step} {s s' : State} {written : List Path}
    (hrun : (exportStep p step).on s = (.ok written, s')) :
    ∃ t u html tree w mirrored,
      s.files.makeDirectories (stepDirectory p.layout step.page.code) = .ok t ∧
      p.page t step = .ok html ∧
      t.write (Layout.child (stepDirectory p.layout step.page.code) "index.html")
        (Utf8.encode html) = .ok u ∧
      w.files = u ∧
      (exportFiles p step tree (Layout.child (stepDirectory p.layout step.page.code) "workspace")
        (outlineFiles step.workspace)).on w = (.ok mirrored, s') := by
  rw [exportStep] at hrun
  obtain ⟨_, s1, hmake, hrun⟩ := on_bind_eq_ok hrun
  obtain ⟨t, hmade, rfl⟩ := on_makeDirectories_eq_ok hmake
  rw [on_bind_ok (on_log _ _ _ _), on_bind_ok (on_files _)] at hrun
  obtain ⟨html, s2, hhtml, hrun⟩ := on_bind_eq_ok hrun
  obtain ⟨hrendered, rfl⟩ := on_ofResult_eq_ok hhtml
  obtain ⟨_, s3, hwrite, hrun⟩ := on_bind_eq_ok hrun
  obtain ⟨u, hwritten, rfl⟩ := on_write_eq_ok hwrite
  obtain ⟨tree, s4, htree, hrun⟩ := on_bind_eq_ok hrun
  obtain ⟨-, rfl⟩ := on_ofResult_eq_ok htree
  obtain ⟨mirrored, s5, hexport, hrun⟩ := on_bind_eq_ok hrun
  obtain ⟨-, rfl⟩ := Prod.mk.inj hrun
  exact ⟨t, u, html, tree, _, mirrored, hmade, hrendered, hwritten, rfl, hexport⟩

/-- The page of a step is there as it is rendered. -/
def Shown (p : Projection Tree Blob) (step : Step) (t : FileTree) : Prop :=
  ∃ html, p.page t step = .ok html ∧
    t.find? (Layout.child (stepDirectory p.layout step.page.code) "index.html").place =
      some (.file (Utf8.encode html))

variable (hroot : p.layout.root.Resolved)
  (htheme : p.theme = .packaged ∨ p.theme = .own p.layout.ownTheme)

include hroot in
private theorem Shown.isSome {step : Step} {t : FileTree} (h : Shown p step t)
    (hcode : Page.IsCode step.page.code) :
    (t.find? (stepPlace p.layout step.page.code ++ ["index.html"])).isSome = true := by
  obtain ⟨html, -, hfound⟩ := h
  rw [← place_pagePath hroot hcode, hfound]
  rfl

include hroot htheme

/-- What is done beside a page and beside the theme leaves the page there. -/
private theorem Shown.within {step : Step} {t : FileTree} (h : Shown p step t) (ht : t.Sound)
    (hcode : Page.IsCode step.page.code) {repositories : List (Path × Store)} {s : State}
    (hs : Within (Beside p.layout step.page.code) t.find? repositories s) :
    Shown p step s.files := by
  obtain ⟨html, hhtml, hfound⟩ := h
  refine ⟨html, ?_, ?_⟩
  · rw [← hhtml]
    refine Projection.page_congr hs.files ht hroot htheme (fun place hplace ↦ ?_) step
    exact hs.elsewhere place fun hbeside ↦ hbeside.2 hplace
  · rw [← hfound]
    refine hs.elsewhere _ fun hbeside ↦ hbeside.1 ?_
    exact place_pagePath hroot hcode

/-- A step that is written has its page there. -/
theorem shown_exportStep {step : Step} (hcode : Page.IsCode step.page.code)
    (hdot : step.page.code ≠ ".") (hworkspace : ∀ path ∈ step.workspace.paths, IsFilePath path)
    {s s' : State} (hs : s.files.Sound) {written : List Path}
    (hrun : (exportStep p step).on s = (.ok written, s')) :
    s'.files.Sound ∧ Shown p step s'.files := by
  obtain ⟨t, u, html, tree, w, mirrored, hmake, hhtml, hwrite, hu, hexport⟩ := exportStep_eq_ok hrun
  have hplain := plain_stepDirectory hroot step.page.code
  have hpage : (Layout.child (stepDirectory p.layout step.page.code) "index.html").Plain :=
    hplain.join (Path.plain_ofNames (by decide))
  have ht : t.Sound := hs.makeDirectories hplain hmake
  have husound : u.Sound := ht.write hpage hwrite
  have hplace := place_pagePath hroot hcode
  have hshown : Shown p step u := by
    refine ⟨html, ?_, ht.find?_write_self hwrite⟩
    rw [← hhtml]
    refine Projection.page_congr husound ht hroot htheme (fun place htheme ↦ ?_) step
    refine ht.find?_write hwrite fun heq ↦ not_theme_page (l := p.layout) hdot ?_
    rw [← hplace, Path.place, heq]
    exact htheme
  have hout : Writable (Beside p.layout step.page.code) u.find?
      (Layout.child (stepDirectory p.layout step.page.code) "workspace") := by
    refine writable_workspace hroot hcode (grounded_beside hroot ?_ hcode hdot)
      fun names _ ↦ workspace_beside hdot hdot names
    exact hshown.isSome hroot hcode
  have hw : Within (Beside p.layout step.page.code) u.find? w.repositories w :=
    ⟨hu ▸ husound, fun _ _ ↦ by rw [hu], rfl⟩
  have hs' := (keeps_exportFiles step tree hout.admitsBelow
    (outlineFiles_eq step.workspace ▸ hworkspace)).after hw hexport
  exact ⟨hs'.files, hshown.within hroot htheme husound hcode hs'⟩

/-- When all steps are written, every one of them has its page there, if no code leads to the export
and none is there twice. -/
theorem shown_exportSteps
    (houtline : ∀ revision d, p.outline revision = .ok d → ∀ path ∈ d.paths, IsFilePath path)
    {pages : List SequencedPage} (hcodes : ∀ page ∈ pages, Page.IsCode page.page.code)
    (hnodup : (pages.map (·.page.code)).Nodup) (hdot : "." ∉ pages.map (·.page.code))
    {s s' : State} (hs : s.files.Sound) {written : List Path}
    (hrun : (exportSteps p pages).on s = (.ok written, s')) {steps : List Step}
    (hsteps : pages.mapM p.project = .ok steps) :
    s'.files.Sound ∧ ∀ step ∈ steps, Shown p step s'.files := by
  induction pages generalizing s written steps with
  | nil =>
    obtain rfl := Except.ok.inj hsteps
    obtain ⟨-, rfl⟩ := Prod.mk.inj hrun
    exact ⟨hs, by simp⟩
  | cons page rest ih =>
    rw [exportSteps_cons] at hrun
    obtain ⟨_, s1, hreport, hrun⟩ := on_bind_eq_ok hrun
    have hs1 : Within (fun _ ↦ True) s.files.find? s.repositories s1 :=
      (keeps_reportPosition page).after (.refl hs) hreport
    obtain ⟨step, s2, hproject, hrun⟩ := on_bind_eq_ok hrun
    obtain ⟨hcomposed, rfl⟩ := on_ofResult_eq_ok hproject
    obtain ⟨first, s3, hstep, hrun⟩ := on_bind_eq_ok hrun
    obtain ⟨others, s4, hrest, hrun⟩ := on_bind_eq_ok hrun
    obtain ⟨-, rfl⟩ := Prod.mk.inj hrun
    obtain ⟨hpage, hd⟩ := project_eq_ok hcomposed
    obtain ⟨_, more, hproject', hmore, rfl⟩ := mapM_cons_eq_ok hsteps
    obtain rfl := Except.ok.inj (hcomposed.symm.trans hproject')
    rw [List.map_cons, List.nodup_cons] at hnodup
    rw [List.map_cons, List.mem_cons, not_or] at hdot
    have hcode : Page.IsCode step.page.code := hpage ▸ hcodes page List.mem_cons_self
    have hself : step.page.code ≠ "." := hpage ▸ Ne.symm hdot.1
    obtain ⟨hs3, hshown⟩ :=
      shown_exportStep hroot htheme hcode hself (houtline _ _ hd) hs1.files hstep
    obtain ⟨hs4, hothers⟩ := ih (fun other ho ↦ hcodes other (List.mem_cons_of_mem _ ho)) hnodup.2
      hdot.2 hs3 hrest hmore
    -- the other steps are written beside the page of this one
    have hbeside : ∀ other ∈ rest,
        StepWritable (Beside p.layout step.page.code) s3.files.find? p.layout other.page.code := by
      intro other ho
      refine stepWritable_beside hroot hself (hshown.isSome hroot hcode)
        (hcodes other (List.mem_cons_of_mem _ ho)) ?_ ?_
      · exact fun heq ↦ hdot.2 (List.mem_map.mpr ⟨other, ho, heq⟩)
      · intro heq
        exact hnodup.1 (List.mem_map.mpr ⟨other, ho, by rw [heq, hpage]⟩)
    have hafter := (keeps_exportSteps hroot rfl houtline hbeside).after
      (.refl hs3) hrest
    refine ⟨hs4, List.forall_mem_cons.mpr ⟨?_, hothers⟩⟩
    exact hshown.within hroot htheme hs3 hcode hafter

end Shown

/-! ## Builds -/

/-- A build that succeeds: what it goes by, the worlds before and after its steps, and what it
tells. -/
structure BuildRun (repository : Repository (Except Failure) Tree Blob) (l : Layout)
    (settings : Settings) (s s' : State) (written : List Path) where
  theme : Theme
  index : PageIndex
  pages : List SequencedPage
  steps : List Step
  copied : List Path
  before : State
  after : State
  themed : ((themeOf l).on s).1 = .ok theme
  indexed : ((loadIndex l.index).on s).1 = .ok index
  sequenced : Sequence.pages repository l.pagesDir settings.extension = .ok pages
  composed : pages.mapM (Projection.mk repository l settings index theme).project = .ok steps
  below : ∀ path ∈ copied, Below l.exportPublic path
  sound : before.files.Sound
  exported : (exportSteps ⟨repository, l, settings, index, theme⟩ pages).on before =
    (.ok (steps.flatMap (stepPaths l)), after)
  landed : (writeLanding l theme (guideContext settings index)).on after = (.ok (landingPath l), s')
  told : written = copied ++ [sheetPath l settings.style] ++ steps.flatMap (stepPaths l) ++
    [landingPath l]

/-- What all steps of the build have in common. -/
def BuildRun.projection {repository : Repository (Except Failure) Tree Blob} {settings : Settings}
    {s s' : State} {written : List Path} (run : BuildRun repository l settings s s' written) :
    Projection Tree Blob :=
  ⟨repository, l, settings, run.index, run.theme⟩

/-- What a build that succeeds goes through. -/
theorem buildFrom_eq_ok {repository : Repository (Except Failure) Tree Blob} {settings : Settings}
    {s s' : State} (hs : s.files.Sound) (hroot : l.root.Resolved) {written : List Path}
    (hrun : (buildFrom repository l settings).on s = (.ok written, s')) :
    Nonempty (BuildRun repository l settings s s' written) := by
  have hexport := resolved_exportRoot hroot
  have hpublicRoot : l.exportPublic.Resolved := Layout.resolved_child hexport (by decide)
  rw [buildFrom] at hrun
  obtain ⟨theme, s1, htheme, hrun⟩ := on_bind_eq_ok hrun
  have hs1 : Within (fun _ ↦ True) s.files.find? s.repositories s1 :=
    keeps_themeOf.after (.refl hs) htheme
  have hsame : s = s1 := by
    rw [themeOf, on_bind_ok (on_files s)] at htheme
    exact (Prod.mk.inj htheme).2
  subst hsame
  obtain ⟨index, s2, hindex, hrun⟩ := on_bind_eq_ok hrun
  have hs2 := (keeps_of_same fun s ↦ keeps_loadIndex s l.index).after hs1 hindex
  obtain ⟨_, s3, hclear, hrun⟩ := on_bind_eq_ok hrun
  have hs3 := (keeps_clearDirectory hexport fun _ _ ↦ trivial).after hs2 hclear
  obtain ⟨shared, s4, hpublic, hrun⟩ := on_bind_eq_ok hrun
  have hkeeps : Keeps (Within (fun _ ↦ True) s.files.find? s.repositories) (writePublic l settings)
      fun written ↦ ∃ copied, written = copied ++ [sheetPath l settings.style] ∧
        ∀ path ∈ copied, Below l.exportPublic path :=
    keeps_writePublic Within.aboutFiles hroot (Writable.of_plain hpublicRoot.plain).admitsBelow
      (Writable.of_plain (plain_sheetPath hroot _)).file.admits
  obtain ⟨copied, rfl, hcopied⟩ := hkeeps.answer hs3 hpublic
  obtain ⟨pages, s5, hpages, hrun⟩ := on_bind_eq_ok hrun
  obtain ⟨hfound, rfl⟩ := on_ofResult_eq_ok hpages
  obtain ⟨_, v, hreport, hrun⟩ := on_bind_eq_ok hrun
  have hv := (keeps_reportPages l index pages.length).after (hkeeps.after hs3 hpublic) hreport
  obtain ⟨stepped, w, hsteps, hrun⟩ := on_bind_eq_ok hrun
  obtain ⟨steps, hmap, rfl⟩ := (answer_exportSteps pages).answer trivial hsteps
  obtain ⟨landing, s6, hlanding, hrun⟩ := on_bind_eq_ok hrun
  obtain ⟨hwritten, rfl⟩ := Prod.mk.inj hrun
  obtain rfl : landing = landingPath l := answer_writeLanding.answer trivial hlanding
  exact ⟨{
    theme, index, pages, steps, copied
    before := v
    after := w
    themed := by rw [htheme]
    indexed := by rw [hindex]
    sequenced := hfound
    composed := hmap
    below := hcopied
    sound := hv.files
    exported := hsteps
    landed := hlanding
    told := (Except.ok.inj hwritten).symm }⟩

/-- Steps have the codes of their pages, and show outlines of their commits. -/
theorem map_code_of_mapM {p : Projection Tree Blob} {pages : List SequencedPage}
    {steps : List Step} (h : pages.mapM p.project = .ok steps) :
    steps.map (·.page.code) = pages.map (·.page.code) ∧
      ∀ step ∈ steps, ∃ page ∈ pages, step.page = page.page ∧
        p.outline page.revision = .ok step.workspace := by
  constructor
  · induction pages generalizing steps with
    | nil =>
      obtain rfl := Except.ok.inj h
      rfl
    | cons page rest ih =>
      obtain ⟨step, others, hstep, hothers, rfl⟩ := mapM_cons_eq_ok h
      rw [List.map_cons, List.map_cons, ih hothers, (project_eq_ok hstep).1]
  · intro step hstep
    obtain ⟨page, hpage, hproject⟩ := mem_of_mapM h step hstep
    exact ⟨page, hpage, project_eq_ok hproject⟩

/-- A build that succeeds shows every step's page if no code is there twice or leads to the
export. -/
theorem BuildRun.shown {repository : Repository (Except Failure) Tree Blob} {settings : Settings}
    {s s' : State} {written : List Path} (run : BuildRun repository l settings s s' written)
    (hroot : l.root.Resolved)
    (hwalk : ∀ revision tree walk, repository.treeOf revision = .ok tree →
      repository.walkTree tree l.workspaceDir = .ok walk →
        ∀ e ∈ walk, e.kind = .file → IsFilePath e.path)
    (hnodup : (run.pages.map (·.page.code)).Nodup) (hdot : "." ∉ run.pages.map (·.page.code)) :
    ∀ step ∈ run.steps, Shown run.projection step s'.files := by
  have hcodes : ∀ page ∈ run.pages, Page.IsCode page.page.code := fun _ hpage ↦
    Sequence.isCode_of_mem_pages run.sequenced hpage
  have hchoice : run.projection.theme = .packaged ∨ run.projection.theme = .own l.ownTheme :=
    (keeps_themeOf (P := fun _ ↦ True) s trivial).2 _ run.themed
  obtain ⟨hw, hshown⟩ := shown_exportSteps (p := run.projection) hroot hchoice
    (fun _ _ hd ↦ isFilePath_outline hwalk hd) hcodes hnodup hdot run.sound run.exported run.composed
  intro step hstep
  obtain ⟨page, hpage, heq, -⟩ := (map_code_of_mapM run.composed).2 step hstep
  have hself : step.page.code ≠ "." := by
    rw [heq]
    exact fun hdot' ↦ hdot (List.mem_map.mpr ⟨page, hpage, hdot'⟩)
  have hcode : Page.IsCode step.page.code := by
    rw [heq]
    exact hcodes page hpage
  have hthere := (hshown step hstep).isSome hroot hcode
  have hafter := (keeps_writeLanding (landing_beside hroot hself hthere) _ _).after (.refl hw)
    run.landed
  exact (hshown step hstep).within hroot hchoice hw hcode hafter

/-- The stages of a build are apart exactly if the codes of the pages are different, none of them is
that of the export itself or the name of the landing page, and the style keeps its sheet off the
others. A build that succeeds has written the shared files, the steps and the landing page, and
shows every step's page if no code is there twice or leads to the export. -/
theorem build_stages {s : State} (hs : s.files.Sound)
    (htidy : ∀ repository ∈ s.repositories, repository.2.Tidy) (hroot : l.root.Resolved)
    {settings : Settings} {pages : List SequencedPage}
    (hpages : Sequence.pages (historyIn s l.root) l.pagesDir settings.extension = .ok pages) :
    (∀ p : Projection TreeHandle (List UInt8), p.repository = historyIn s l.root → p.layout = l →
      ∀ steps, pages.mapM p.project = .ok steps →
        (StagesApart l settings.style steps ↔
          (pages.map (·.page.code)).Nodup ∧ "." ∉ pages.map (·.page.code) ∧
            "index.html" ∉ pages.map (·.page.code) ∧ SheetApart l settings.style steps) ∧
        ('/' ∉ settings.style.toList → "." ∉ pages.map (·.page.code) →
          SheetApart l settings.style steps)) ∧
    ∀ written s', (build l settings).on s = (.ok written, s') →
      ∃ (p : Projection TreeHandle (List UInt8)) (steps : List Step) (copied : List Path),
        p.repository = historyIn s l.root ∧ p.layout = l ∧ p.settings = settings ∧
        ((loadIndex l.index).on s).1 = .ok p.index ∧ ((themeOf l).on s).1 = .ok p.theme ∧
        pages.mapM p.project = .ok steps ∧
        written = copied ++ [sheetPath l settings.style] ++ steps.flatMap (stepPaths l) ++
          [landingPath l] ∧
        (∀ path ∈ copied, Below l.exportPublic path) ∧
        ((pages.map (·.page.code)).Nodup → "." ∉ pages.map (·.page.code) →
          ∀ step ∈ steps, Shown p step s'.files) := by
  have hcodes : ∀ page ∈ pages, Page.IsCode page.page.code := fun _ hpage ↦
    Sequence.isCode_of_mem_pages hpages hpage
  have hwalk := isFilePath_historyIn htidy l.root l.workspaceDir
  constructor
  · rintro p hrepository rfl steps hsteps
    rw [← hrepository] at hwalk
    obtain ⟨hmap, hsource⟩ := map_code_of_mapM hsteps
    have hcode : ∀ step ∈ steps, Page.IsCode step.page.code := by
      intro step hstep
      obtain ⟨page, hpage, heq, -⟩ := hsource step hstep
      rw [heq]
      exact hcodes page hpage
    have hworkspace : ∀ step ∈ steps, ∀ path ∈ step.workspace.paths, IsFilePath path := by
      intro step hstep
      obtain ⟨page, -, -, hd⟩ := hsource step hstep
      exact isFilePath_outline hwalk hd
    rw [← hmap]
    exact ⟨stagesApart_iff hroot hcode hworkspace, sheetApart_of_name hroot hcode hworkspace⟩
  · intro written s' hrun
    rw [on_build] at hrun
    obtain ⟨run⟩ := buildFrom_eq_ok hs hroot hrun
    obtain rfl : run.pages = pages := Except.ok.inj (run.sequenced.symm.trans hpages)
    exact ⟨run.projection, run.steps, run.copied, rfl, rfl, rfl, run.indexed, run.themed,
      run.composed, run.told, run.below, run.shown hroot hwalk⟩

/-- A history of two pages, the second beside a workspace of one file. -/
def twoPages : Store where
  number := 0
  commits := [⟨commitId 0 0, "Add a", "", [⟨"pages/a.md", .regular, [10]⟩]⟩,
    ⟨commitId 0 1, "Add b", "", [⟨"pages/a.md", .regular, [10]⟩, ⟨"pages/b.md", .regular, [10]⟩,
      ⟨"workspace/x", .regular, [10]⟩]⟩]
  staged := []
  hasIdentity := true

/-- A guide of the two pages. -/
def twoPagesGuide : State where
  files := ⟨[(["/"], .directory), (["/", "guide"], .directory),
    (["/", "guide", ".codasai"], .directory),
    (["/", "guide", ".codasai", "guide.toml"], .file (Utf8.ofString "title = \"T\"\n"))]⟩
  repositories := [(⟨"/", ["guide"]⟩, twoPages)]
  logs := []

/-- The layout of the guide. -/
def twoPagesLayout : Layout := Layout.ofRoot ⟨"/", ["guide"]⟩

theorem tidy_twoPagesGuide : ∀ repository ∈ twoPagesGuide.repositories, repository.2.Tidy := by
  intro repository hmem
  obtain rfl := List.mem_singleton.mp hmem
  exact ⟨by decide, by decide, by decide⟩

theorem codes_twoPagesGuide :
    ∃ pages, Sequence.pages (historyIn twoPagesGuide twoPagesLayout.root) twoPagesLayout.pagesDir
      (Settings.ofTitle "T").extension = .ok pages ∧ pages.map (·.page.code) = ["a", "b"] := by
  have hcodes : (Sequence.pages (historyIn twoPagesGuide twoPagesLayout.root)
      twoPagesLayout.pagesDir (Settings.ofTitle "T").extension).toOption.map
        (·.map (·.page.code)) = some ["a", "b"] := by decide +kernel
  obtain ⟨pages, hpages, hcodes⟩ := Option.map_eq_some_iff.mp hcodes
  exact ⟨pages, eq_ok_of_toOption hpages, hcodes⟩

/-- The guide is built with both pages shown. -/
theorem build_stages_two :
    ∃ (p : Projection TreeHandle (List UInt8)) (steps : List Step) (written : List Path)
      (s' : State),
      (build twoPagesLayout (Settings.ofTitle "T")).on twoPagesGuide = (.ok written, s') ∧
      steps.map (·.page.code) = ["a", "b"] ∧ StagesApart twoPagesLayout "monokai" steps ∧
      ∀ step ∈ steps, Shown p step s'.files := by
  obtain ⟨written, hrun⟩ : ∃ written,
      (build twoPagesLayout (Settings.ofTitle "T")).on twoPagesGuide =
        (.ok written, ((build twoPagesLayout (Settings.ofTitle "T")).on twoPagesGuide).2) :=
    on_eq_ok (by decide +kernel)
  obtain ⟨pages, hpages, hcodes⟩ := codes_twoPagesGuide
  obtain ⟨hapart, hshown⟩ := build_stages (by decide) tidy_twoPagesGuide
    (by decide : twoPagesLayout.root.Resolved) hpages
  obtain ⟨p, steps, copied, hrepository, hlayout, -, -, -, hsteps, -, -, hall⟩ :=
    hshown written _ hrun
  obtain ⟨hiff, hsheet⟩ := hapart p hrepository hlayout steps hsteps
  rw [hcodes] at hiff hsheet hall
  refine ⟨p, steps, written, _, hrun, (map_code_of_mapM hsteps).1.trans hcodes, ?_,
    hall (by decide) (by decide)⟩
  exact hiff.mpr ⟨by decide, by decide, by decide, hsheet (by decide) (by decide)⟩

end Workflow

end Guidebook
