import Guidebook.Proofs.Files.Alike
import Guidebook.Proofs.Project.Stages

/-!
# Runs side by side

A workflow goes the same way from two worlds if it only reads places where their file trees are the
same. Where both runs return they give the same answer and leave the trees the same at every place
where they were the same before. If the trees are the same everywhere, then also what fails fails
alike.
-/

namespace Guidebook.Workflow

open Git FileTree

variable {α β : Type} {region : List String → Prop}

/-- What a build does once its export is empty. -/
def fillExport {Tree Blob : Type} (repository : Repository (Except Failure) Tree Blob) (l : Layout)
    (settings : Settings) (theme : Theme) (index : PageIndex) : Workflow (List Path) := do
  let shared ← writePublic l settings
  let pages ← ofResult (Sequence.pages repository l.pagesDir settings.extension)
  reportPages l index pages.length
  let steps ← exportSteps ⟨repository, l, settings, index, theme⟩ pages
  let landing ← writeLanding l theme (guideContext settings index)
  return shared ++ steps ++ [landing]

/-- A build looks at the theme and the index, empties the export and fills it. -/
theorem buildFrom_eq {Tree Blob : Type} (repository : Repository (Except Failure) Tree Blob)
    (l : Layout) (settings : Settings) :
    buildFrom repository l settings = (do
      let theme ← themeOf l
      let index ← loadIndex l.index
      clearDirectory l.exportRoot
      fillExport repository l settings theme index) :=
  rfl

/-- The theme is the project's own if it has a directory. -/
theorem on_themeOf (l : Layout) (s : State) :
    (themeOf l).on s =
      (.ok (if s.files.isDirectory l.ownTheme then .own l.ownTheme else .packaged), s) :=
  rfl

/-- Runs of a workflow from worlds that are the same in a region go the same way. -/
def Parallel (region : List String → Prop) (w : Workflow α) : Prop :=
  ∀ s t, Alike region s.files t.files →
    (∀ a b s' t', w.on s = (.ok a, s') → w.on t = (.ok b, t') →
      a = b ∧ Alike region s'.files t'.files) ∧
    ((∀ place, region place) → (w.on s).1 = (w.on t).1)

namespace Parallel

theorem pure (a : α) : Parallel region (Pure.pure a) := by
  intro s t halike
  refine ⟨fun b c s' t' hs ht ↦ ?_, fun _ ↦ rfl⟩
  cases hs
  cases ht
  exact ⟨rfl, halike⟩

theorem ofResult (r : Except Failure α) : Parallel region (Guidebook.ofResult r) := by
  intro s t halike
  refine ⟨fun a b s' t' hs ht ↦ ?_, fun _ ↦ by rw [on_ofResult, on_ofResult]⟩
  obtain ⟨rfl, rfl⟩ := on_ofResult_eq_ok hs
  obtain ⟨hok, rfl⟩ := on_ofResult_eq_ok ht
  exact ⟨Except.ok.inj hok, halike⟩

theorem log (level : LogLevel) (logger message : String) :
    Parallel region (Workflow.log level logger message) := by
  intro s t halike
  refine ⟨fun a b s' t' hs ht ↦ ?_, fun _ ↦ rfl⟩
  cases hs
  cases ht
  exact ⟨rfl, halike⟩

theorem bind {w : Workflow α} {f : α → Workflow β} (hw : Parallel region w)
    (hf : ∀ a, Parallel region (f a)) : Parallel region (w >>= f) := by
  intro s t halike
  obtain ⟨hreturn, hfull⟩ := hw s t halike
  refine ⟨fun c d s' t' hs ht ↦ ?_, fun hall ↦ ?_⟩
  · obtain ⟨a, u, hsu, hs⟩ := on_bind_eq_ok hs
    obtain ⟨b, v, htv, ht⟩ := on_bind_eq_ok ht
    obtain ⟨rfl, halike'⟩ := hreturn a b u v hsu htv
    exact (hf a u v halike').1 c d s' t' hs ht
  · have hsame := hfull hall
    rcases hs : w.on s with ⟨failure | a, u⟩
    · rcases ht : w.on t with ⟨other | b, v⟩
      · rw [hs, ht] at hsame
        rw [on_bind_error hs, on_bind_error ht]
        exact congrArg Except.error (Except.error.inj hsame)
      · rw [hs, ht] at hsame
        cases hsame
    · rcases ht : w.on t with ⟨other | b, v⟩
      · rw [hs, ht] at hsame
        cases hsame
      · obtain ⟨rfl, halike'⟩ := hreturn a b u v hs ht
        rw [on_bind_ok hs, on_bind_ok ht]
        exact (hf a u v halike').2 hall

/-- The file tree may be asked for what alike trees answer alike. -/
theorem files {f : FileTree → Workflow α} (hsame : ∀ t u, Alike region t u → f t = f u)
    (hf : ∀ t, t.Sound → Parallel region (f t)) : Parallel region (Workflow.files >>= f) := by
  intro s t halike
  rw [on_bind_ok (on_files s), on_bind_ok (on_files t), ← hsame _ _ halike]
  exact hf _ halike.left s t halike

private theorem answer_write (path : Path) (bytes : List UInt8) (s : State) :
    ((Workflow.write path bytes).on s).1 =
      ((s.files.write path bytes).map fun _ ↦ ()).mapError (.file · path.toString) := by
  rw [on_write]
  cases s.files.write path bytes <;> rfl

private theorem answer_makeDirectories (path : Path) (s : State) :
    ((Workflow.makeDirectories path).on s).1 =
      ((s.files.makeDirectories path).map fun _ ↦ ()).mapError (.file · path.toString) := by
  rw [on_makeDirectories]
  cases s.files.makeDirectories path <;> rfl

theorem write {path : Path} (hpath : path.Plain) (bytes : List UInt8) :
    Parallel region (Workflow.write path bytes) := by
  intro s t halike
  refine ⟨fun a b s' t' hs ht ↦ ⟨rfl, ?_⟩, fun hall ↦ ?_⟩
  · obtain ⟨u, hu, rfl⟩ := on_write_eq_ok hs
    obtain ⟨v, hv, rfl⟩ := on_write_eq_ok ht
    exact halike.write hpath hu hv
  · rw [answer_write, answer_write, write_congr fun place ↦ halike.same place (hall place)]

theorem makeDirectories {path : Path} (hpath : path.Plain) :
    Parallel region (Workflow.makeDirectories path) := by
  intro s t halike
  refine ⟨fun a b s' t' hs ht ↦ ⟨rfl, ?_⟩, fun hall ↦ ?_⟩
  · obtain ⟨u, hu, rfl⟩ := on_makeDirectories_eq_ok hs
    obtain ⟨v, hv, rfl⟩ := on_makeDirectories_eq_ok ht
    exact halike.makeDirectories hpath hu hv
  · rw [answer_makeDirectories, answer_makeDirectories, FileTree.makeDirectories,
      FileTree.makeDirectories, makeSteps_congr fun place ↦ halike.same place (hall place)]

/-! ### The shared files -/

theorem copyFiles {dest : Path} (hdest : dest.Plain) {found : List (List String × List UInt8)}
    (hfound : ∀ file ∈ found, ∀ name ∈ file.1, Path.IsPart name) :
    Parallel region (Workflow.copyFiles dest found) := by
  induction found with
  | nil => exact pure []
  | cons file rest ih =>
    obtain ⟨hfile, hrest⟩ := List.forall_mem_cons.mp hfound
    have htarget := hdest.join (Path.plain_ofNames hfile)
    exact (makeDirectories htarget.parent).bind fun _ ↦
      (write htarget file.2).bind fun _ ↦ (ih hrest).bind fun _ ↦ pure _

theorem copyDirectory {source dest : Path} (hsource : source.Resolved) (hdest : dest.Plain)
    (hregion : ∀ place, source.parts <+: place → region place) :
    Parallel region (Workflow.copyDirectory source dest) := by
  have hcopies : ∀ t : FileTree,
      (if t.isDirectory source then Workflow.copyFiles dest (t.filesBelow source) else return []) =
        Workflow.copyFiles dest (if t.isDirectory source then t.filesBelow source else []) := by
    intro t
    split <;> rfl
  refine files (fun t u halike ↦ ?_) fun t ht ↦ ?_
  · rw [hcopies, hcopies, halike.filesBelow hsource hregion]
  · split
    · exact copyFiles hdest fun file hfile ↦ ht.named_filesBelow hsource hfile
    · exact pure []

variable {l : Layout}

/-- The choice of the theme goes by what lies at its directory. -/
theorem themeOf (hroot : l.root.Resolved) (hregion : region l.ownTheme.parts)
    {f : Theme → Workflow α}
    (hf : ∀ theme, theme = .packaged ∨ theme = .own l.ownTheme → Parallel region (f theme)) :
    Parallel region (Workflow.themeOf l >>= f) := by
  have htheme : l.ownTheme.Resolved :=
    Layout.resolved_child (resolved_metadata hroot) (by decide)
  intro s t halike
  rw [on_bind_ok (on_themeOf l s), on_bind_ok (on_themeOf l t), isDirectory, isDirectory,
    halike.left.node?_eq htheme, halike.right.node?_eq htheme, halike.same _ hregion]
  refine hf _ ?_ s t halike
  split
  · exact .inr rfl
  · exact .inl rfl

theorem writePublic (hroot : l.root.Resolved) (settings : Settings)
    (hstatic : ∀ place, l.userStatic.parts <+: place → region place)
    (htheme : ∀ place, l.ownTheme.parts <+: place → region place) :
    Parallel region (Workflow.writePublic l settings) := by
  have huser : l.userStatic.Resolved := Layout.resolved_child hroot (by decide)
  have hown : l.ownTheme.Resolved := Layout.resolved_child (resolved_metadata hroot) (by decide)
  have hpublic : l.exportPublic.Resolved :=
    Layout.resolved_child (resolved_exportRoot hroot) (by decide)
  have hdest : (Layout.child l.exportPublic "theme").Plain :=
    (Layout.resolved_child hpublic (by decide)).plain
  have hsheet := plain_sheetPath hroot settings.style
  refine (copyDirectory huser (Layout.resolved_child hpublic (by decide)).plain hstatic).bind
    fun _ ↦ themeOf hroot (htheme _ List.prefix_rfl) fun theme hchoice ↦ ?_
  have hcopied : Parallel region (copyStatic theme (Layout.child l.exportPublic "theme")) := by
    rcases hchoice with rfl | rfl
    · exact copyFiles hdest (by decide)
    · refine copyDirectory (Layout.resolved_child hown (by decide)) hdest fun place hplace ↦ ?_
      rw [Layout.parts_child] at hplace
      exact htheme place ((List.prefix_append _ _).trans hplace)
  exact hcopied.bind fun _ ↦ (makeDirectories hsheet.parent).bind fun _ ↦
    (write hsheet _).bind fun _ ↦ pure _

/-! ### The steps -/

variable {Tree Blob : Type} {p : Projection Tree Blob}

theorem writeMirrored {target : Path} (htarget : target.Plain) (bytes : List UInt8)
    (revision : Option String) (shown : String) :
    Parallel region (Workflow.writeMirrored bytes target revision shown) :=
  (makeDirectories htarget.parent).bind fun _ ↦ (write htarget bytes).bind fun _ ↦
    (ofResult _).bind fun _ ↦ (write (plain_companionPath htarget) _).bind fun _ ↦ pure _

theorem exportFiles (step : Step) (tree : Tree) {out : Path} (hout : out.Plain)
    (paths : List String) : Parallel region (Workflow.exportFiles p step tree out paths) := by
  induction paths with
  | nil => exact pure []
  | cons path rest ih =>
    exact (ofResult _).bind fun _ ↦
      (writeMirrored (hout.join (Path.plain_ofString path)) _ _ _).bind fun _ ↦
        ih.bind fun _ ↦ pure _

theorem reportPosition (page : SequencedPage) :
    Parallel region (Workflow.reportPosition p page) := by
  rw [Workflow.reportPosition]
  split
  · exact log _ _ _
  · exact pure ()

section Rendered

variable (hroot : p.layout.root.Resolved)
  (htheme : p.theme = .packaged ∨ p.theme = .own p.layout.ownTheme)
  (hregion : ∀ place, p.layout.ownTheme.parts <+: place → region place)

include hroot htheme hregion

theorem exportStep (step : Step) : Parallel region (Workflow.exportStep p step) := by
  have hout := plain_stepDirectory hroot step.page.code
  have hchild : ∀ {name}, Path.IsPart name →
      (Layout.child (stepDirectory p.layout step.page.code) name).Plain :=
    fun hname ↦ hout.join (Path.plain_ofNames (by simpa using hname))
  refine (makeDirectories hout).bind fun _ ↦ (log _ _ _).bind fun _ ↦
    files (fun t u halike ↦ ?_) fun t _ ↦ (ofResult _).bind fun html ↦
      (write (hchild (by decide)) _).bind fun _ ↦ (ofResult _).bind fun tree ↦
        (exportFiles step tree (hchild (by decide)) _).bind fun _ ↦ pure _
  rw [p.page_congr halike.left halike.right hroot htheme
    (fun place hplace ↦ halike.same place (hregion place hplace)) step]

theorem exportSteps (pages : List SequencedPage) :
    Parallel region (Workflow.exportSteps p pages) := by
  induction pages with
  | nil => exact pure []
  | cons page rest ih =>
    rw [exportSteps_cons]
    exact (reportPosition page).bind fun _ ↦ (ofResult _).bind fun step ↦
      (exportStep hroot htheme hregion step).bind fun _ ↦ ih.bind fun _ ↦ pure _

end Rendered

theorem writeLanding (hroot : l.root.Resolved) {theme : Theme}
    (htheme : theme = .packaged ∨ theme = .own l.ownTheme)
    (hregion : ∀ place, l.ownTheme.parts <+: place → region place) (guide : GuideContext) :
    Parallel region (Workflow.writeLanding l theme guide) := by
  have hown : l.ownTheme.Resolved := Layout.resolved_child (resolved_metadata hroot) (by decide)
  have htarget : (Layout.child l.exportRoot "index.html").Plain :=
    (Layout.resolved_child (resolved_exportRoot hroot) (by decide)).plain
  refine files (fun t u halike ↦ ?_) fun t _ ↦ (ofResult _).bind fun html ↦
    (makeDirectories htarget.parent).bind fun _ ↦ (write htarget _).bind fun _ ↦ pure _
  rw [Theme.render_congr halike.left halike.right hown htheme
    fun place hplace ↦ halike.same place (hregion place hplace)]

theorem reportPages (index : PageIndex) (count : Nat) :
    Parallel region (Workflow.reportPages l index count) := by
  refine (log _ _ _).bind fun _ ↦ ?_
  split
  · exact log _ _ _
  · exact pure ()

/-- The export is filled with what the theme, the static files and the history give. -/
theorem fillExport {repository : Repository (Except Failure) Tree Blob} (hroot : l.root.Resolved)
    (settings : Settings) {theme : Theme} (htheme : theme = .packaged ∨ theme = .own l.ownTheme)
    (index : PageIndex) (hstatic : ∀ place, l.userStatic.parts <+: place → region place)
    (hregion : ∀ place, l.ownTheme.parts <+: place → region place) :
    Parallel region (Workflow.fillExport repository l settings theme index) := by
  refine (writePublic hroot settings hstatic hregion).bind fun _ ↦ (ofResult _).bind fun pages ↦
    (reportPages index _).bind fun _ ↦ Parallel.bind ?_ fun _ ↦
      (writeLanding hroot htheme hregion _).bind fun _ ↦ pure _
  exact exportSteps hroot htheme hregion pages

end Parallel

/-! ### Before the export is filled -/

variable {l : Layout} {s t s' t' : State} {path : Path}

/-- A file is read alike from trees that are the same at its place, if anything is there. -/
private theorem read_congr (hs : s.files.Sound) (ht : t.files.Sound) (hpath : path.Resolved)
    (hsame : s.files.find? path.parts = t.files.find? path.parts)
    (hpresent : t.files.present path = true) : s.files.read path = t.files.read path := by
  rw [FileTree.present, ht.node?_eq hpath] at hpresent
  obtain ⟨node, hnode⟩ := Option.isSome_iff_exists.mp hpresent
  rw [FileTree.read, FileTree.read, hs.resolve_eq hpath (hsame.trans hnode),
    ht.resolve_eq hpath hnode]
  simp only [Bind.bind, Except.bind, hsame]

private theorem present_congr (hs : s.files.Sound) (ht : t.files.Sound) (hpath : path.Resolved)
    (hsame : s.files.find? path.parts = t.files.find? path.parts) :
    s.files.present path = t.files.present path := by
  rw [FileTree.present, FileTree.present, hs.node?_eq hpath, ht.node?_eq hpath, hsame]

/-- Only what lies at the place of the settings decides what is loaded. -/
theorem answer_loadRoot_congr (hs : s.files.Sound) (ht : t.files.Sound) {root : Path}
    (hroot : root.Resolved)
    (hsame : s.files.find? (Layout.ofRoot root).settings.parts =
      t.files.find? (Layout.ofRoot root).settings.parts) :
    ((loadRoot root).on s).1 = ((loadRoot root).on t).1 := by
  have hpath : (Layout.ofRoot root).settings.Resolved := resolved_settings hroot
  have hsettings : (loadSettings (Layout.ofRoot root).settings).on s =
      (((loadSettings (Layout.ofRoot root).settings).on t).1, s) := by
    rw [loadSettings, on_bind_ok (on_files s), on_bind_ok (on_files t),
      present_congr hs ht hpath hsame]
    cases hpresent : t.files.present (Layout.ofRoot root).settings with
    | false => rfl
    | true =>
      simp only [if_true, on_bind, on_read, read_congr hs ht hpath hsame hpresent]
      cases t.files.read (Layout.ofRoot root).settings with
      | error problem => rfl
      | ok bytes => simp [Except.mapError]
  rw [loadRoot, on_bind, on_bind, hsettings]
  rcases (loadSettings (Layout.ofRoot root).settings).on t with ⟨failure | settings, t'⟩ <;> rfl

/-- Only what lies at the place of the index decides what is loaded. -/
theorem answer_loadIndex_congr (hs : s.files.Sound) (ht : t.files.Sound) (hpath : path.Resolved)
    (hsame : s.files.find? path.parts = t.files.find? path.parts) :
    ((loadIndex path).on s).1 = ((loadIndex path).on t).1 := by
  rw [loadIndex, on_bind_ok (on_files s), on_bind_ok (on_files t), present_congr hs ht hpath hsame]
  cases hpresent : t.files.present path with
  | false => rfl
  | true =>
    rw [if_pos rfl, if_pos rfl, read_congr hs ht hpath hsame hpresent]
    cases t.files.read path with
    | error problem => rfl
    | ok bytes => rw [on_ofResult, on_ofResult]

/-- A directory is cleared, unless a file is in its place. -/
theorem on_clearDirectory (hs : s.files.Sound) (hpath : path.Resolved)
    (hfree : ∀ bytes, s.files.find? path.parts ≠ some (.file bytes)) :
    (clearDirectory path).on s =
      (.ok (), { s with files := s.files.removeAll path.parts }) := by
  rw [clearDirectory, on_bind_ok (on_files s), hs.node?_eq hpath]
  cases hfound : s.files.find? path.parts with
  | none =>
    rw [hs.removeAll_eq_self hfound]
    rfl
  | some node =>
    cases node with
    | file bytes => exact absurd hfound (hfree bytes)
    | directory =>
      simp only
      rw [on_removeTree, hs.remove_eq hpath hfound]

/-- A file in the place of a directory keeps it from being cleared. -/
theorem on_clearDirectory_file (hs : s.files.Sound) (hpath : path.Resolved) {bytes : List UInt8}
    (hfile : s.files.find? path.parts = some (.file bytes)) :
    (clearDirectory path).on s = (.error (.notTree path.toString), s) := by
  rw [clearDirectory, on_bind_ok (on_files s), hs.node?_eq hpath, hfile]
  rfl

/-- Only a file can be in the way of clearing. -/
theorem answer_clearDirectory (hs : s.files.Sound) (hpath : path.Resolved)
    (hfree : ∀ bytes, s.files.find? path.parts ≠ some (.file bytes)) :
    ((clearDirectory path).on s).1 = .ok () := by
  rw [on_clearDirectory hs hpath hfree]

/-- A directory that is cleared is empty afterwards, and nothing else has changed. -/
theorem clearDirectory_eq_ok (hs : s.files.Sound) (hpath : path.Resolved) {a : Unit}
    (hrun : (clearDirectory path).on s = (.ok a, s')) :
    s'.files.Sound ∧ (∀ place, path.parts <+: place → s'.files.find? place = none) ∧
      ∀ place, ¬ path.parts <+: place → s'.files.find? place = s.files.find? place := by
  have hne : path.parts ≠ [] := hpath.parts_ne_nil
  have hfree : ∀ bytes, s.files.find? path.parts ≠ some (.file bytes) := by
    intro bytes hfile
    rw [on_clearDirectory_file hs hpath hfile] at hrun
    cases hrun
  rw [on_clearDirectory hs hpath hfree] at hrun
  obtain ⟨-, rfl⟩ := Prod.mk.inj hrun
  exact ⟨hs.removeAll _, fun _ ↦ find?_removeAll_below _ hne, fun _ ↦ find?_removeAll _⟩

/-- Clearing makes two trees the same below the directory. -/
theorem alike_clearDirectory (halike : Alike region s.files t.files) (hpath : path.Resolved)
    {a b : Unit} (hs : (clearDirectory path).on s = (.ok a, s'))
    (ht : (clearDirectory path).on t = (.ok b, t')) :
    Alike (fun place ↦ region place ∨ path.parts <+: place) s'.files t'.files := by
  obtain ⟨hsound, hbelow, helse⟩ := clearDirectory_eq_ok halike.left hpath hs
  obtain ⟨hsound', hbelow', helse'⟩ := clearDirectory_eq_ok halike.right hpath ht
  refine ⟨hsound, hsound', fun place hplace ↦ ?_⟩
  by_cases hprefix : path.parts <+: place
  · rw [hbelow place hprefix, hbelow' place hprefix]
  · rw [helse place hprefix, helse' place hprefix,
      halike.same place (hplace.resolve_right hprefix)]

end Guidebook.Workflow
