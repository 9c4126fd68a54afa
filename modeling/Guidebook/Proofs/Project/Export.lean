import Guidebook.Proofs.Project.Frame

/-!
# What an export leaves alone

A build and a preview write below the export directory, or, where the style or a code climbs out of
it, files that are not called like the index. However they end, the index file and the repositories
are as they were.
-/

namespace Guidebook.Workflow

open Git

variable {α β : Type} {P : State → Prop} {touched : List String → Prop}
  {look : List String → Option Node} {l : Layout} {bytes : List UInt8}
  {repositories : List (Path × Store)}

/-- Worlds in which a project has an index file of given bytes, beside given repositories. -/
structure Holds (l : Layout) (bytes : List UInt8) (repositories : List (Path × Store))
    (s : State) : Prop where
  files : s.files.Sound
  found : s.files.find? l.index.parts = some (.file bytes)
  repositories : s.repositories = repositories

/-- Where everything but the index may be touched, the index stays what it is. -/
theorem within_index_iff {found : Option Node} {s : State} :
    Within (· ≠ l.index.parts) (fun _ ↦ found) repositories s ↔
      s.files.Sound ∧ s.files.find? l.index.parts = found ∧ s.repositories = repositories := by
  constructor
  · intro h
    exact ⟨h.files, h.elsewhere _ (not_not.mpr rfl), h.repositories⟩
  · rintro ⟨hfiles, hfound, hrepositories⟩
    refine ⟨hfiles, fun place hplace ↦ ?_, hrepositories⟩
    rw [not_not.mp hplace, hfound]

theorem holds_eq_within :
    Holds l bytes repositories =
      Within (· ≠ l.index.parts) (fun _ ↦ some (.file bytes)) repositories := by
  ext s
  rw [within_index_iff]
  exact ⟨fun h ↦ ⟨h.files, h.found, h.repositories⟩, fun h ↦ ⟨h.1, h.2.1, h.2.2⟩⟩

/-- Where every place that counts is taken, directories may be made anywhere. -/
private theorem grounded_index (parts : List String) :
    Grounded (· ≠ l.index.parts) (fun _ ↦ some (.file bytes)) parts :=
  fun _ _ ↦ .inr rfl

/-- Making directories keeps the index: they are made where nothing is. -/
theorem Holds.keeps_makeDirectories {path : Path} (hpath : path.Plain) :
    Keeps (Holds l bytes repositories) (makeDirectories path) fun _ ↦ True := by
  rw [holds_eq_within]
  exact Workflow.keeps_makeDirectories hpath (grounded_index _)

/-- Writing another file keeps the index. -/
theorem Holds.keeps_write {path : Path} (hpath : path.Plain) (hother : path.place ≠ l.index.parts)
    (content : List UInt8) :
    Keeps (Holds l bytes repositories) (write path content) fun _ ↦ True := by
  rw [holds_eq_within]
  exact Workflow.keeps_write hpath hother content

/-! ## Where exports lie -/

/-- A file that is not called like the index is not the index, wherever it lies. -/
theorem place_ne_of_name {path : Path} {front : List String} {name : String}
    (hparts : path.parts = front ++ [name]) (hup : name ≠ "..") (hname : name ≠ Layout.indexFile) :
    path.place ≠ l.index.parts := by
  rw [Path.place, hparts, Path.normalizeNames_concat hup, Layout.index, Layout.parts_child]
  intro heq
  exact hname (List.cons.inj (List.append_inj_right' heq rfl)).1

/-- Nothing below another child of the metadata directory is the index. -/
private theorem below_ne_index {name : String} {names place : List String}
    (hplace : place = l.metadata.parts ++ name :: names) (hname : name ≠ Layout.indexFile) :
    place ≠ l.index.parts := by
  rw [hplace, Layout.index, Layout.parts_child]
  intro heq
  exact hname (List.cons.inj (List.append_cancel_left heq)).1

private theorem cleared_ne_index {place : List String} (h : l.exportRoot.parts <+: place) :
    place ≠ l.index.parts := by
  obtain ⟨names, rfl⟩ := h
  exact below_ne_index (append_exportRoot l names) (by decide)

/-- Everything in the export may be written if only the index counts. -/
private theorem writable_exportRoot (hroot : l.root.Resolved) :
    Writable (· ≠ l.index.parts) (fun _ ↦ some (.file bytes)) l.exportRoot :=
  .of_resolved (resolved_exportRoot hroot) (fun _ ↦ cleared_ne_index) fun _ _ _ ↦ .inr rfl

private theorem fileWritable_sheet (hroot : l.root.Resolved) (style : String) :
    FileWritable (· ≠ l.index.parts) (fun _ ↦ some (.file bytes)) (sheetPath l style) := by
  obtain ⟨others, last, hnames⟩ := Path.names_append style (t := ".css") (by decide) (by decide)
  obtain ⟨front, hparts⟩ := Path.parts_join_concat
    (l.exportPublic.join (Path.ofNames ["theme", "syntax"])) hnames
  exact ⟨plain_sheetPath hroot style, grounded_index _,
    place_ne_of_name hparts (Text.append_ne (by decide)) (Text.append_ne (by decide))⟩

/-- Wherever a code leads, neither the page nor the workspace of its step is the index. -/
private theorem stepWritable_index (hroot : l.root.Resolved) {code : String}
    (hcode : Page.IsCode code) :
    StepWritable (· ≠ l.index.parts) (fun _ ↦ some (.file bytes)) l code := by
  have hplace : ∀ name names, name ≠ Layout.indexFile →
      stepPlace l code ++ name :: names ≠ l.index.parts := by
    intro name names hname
    rw [stepPlace]
    split
    · exact below_ne_index (append_exportRoot l _) (by decide)
    · split
      · exact below_ne_index rfl hname
      · rw [List.append_assoc]
        exact below_ne_index (append_exportRoot l _) (by decide)
  exact stepWritable_of_place hroot hcode (grounded_index _) (hplace _ _ (by decide))
    fun names _ ↦ hplace _ names (by decide)

/-! ## Builds -/

/-- Building a project keeps its index. -/
theorem keeps_build (hroot : l.root.Resolved) {store : Store}
    (hstore : repositories.lookup l.root = some store) (htidy : store.Tidy) (settings : Settings) :
    Keeps (Holds l bytes repositories) (build l settings) fun _ ↦ True := by
  intro s hs
  rw [on_build, historyIn_of_lookup (hs.repositories ▸ hstore)]
  rw [holds_eq_within] at hs ⊢
  exact keeps_buildFrom hroot (fun _ _ _ htree hwalk ↦ htidy.walkTree htree hwalk)
    (writable_exportRoot hroot) (fun _ ↦ cleared_ne_index) (fileWritable_sheet hroot _)
    (fun _ hpages _ hpage ↦ stepWritable_index hroot (Sequence.isCode_of_mem_pages hpages hpage))
    s hs

/-! ## Previews -/

/-- What a preview does before it looks for the page: it clears its directories and writes the
shared files. -/
def preparePreview (l : Layout) (settings : Settings) : Workflow (List Path) := do
  clearDirectory l.exportPreview
  clearDirectory l.exportPublic
  writePublic l settings

/-- The world in which a preview looks for the page. -/
def prepared (l : Layout) (settings : Settings) (s : State) : State :=
  ((preparePreview l settings).on s).2

/-- The file that a preview writes its page to. -/
def previewTarget (l : Layout) : Path := Layout.child l.exportPreview "index.html"

/-- What a preview does once its directories are prepared: it looks for the page and what goes with
it, renders the page and mirrors the workspace. -/
def showPreview (l : Layout) (settings : Settings) (theme : Theme) : Workflow (List Path) := do
  let path ← unsavedPage (workFiles l.root) l settings
  log .info "codasai.preview" ("previewing " ++ path)
  let text ← readText (l.root.join (Path.ofString path))
  let workspace ← workspaceOutline (workFiles l.root) l
  let index ← loadIndex l.index
  let code ← ofResult (Page.code path settings.extension)
  let html ← ofResult (previewPage (← files) theme settings index code text workspace)
  makeDirectories (parent (previewTarget l))
  writeText (previewTarget l) html
  let mirrored ← previewFiles l (Layout.child l.exportPreview "workspace") (outlineFiles workspace)
  return previewTarget l :: mirrored

/-- A preview picks the theme, prepares its directories and shows the page. -/
theorem preview_eq (l : Layout) (settings : Settings) :
    preview l settings = (do
      let theme ← themeOf l
      let shared ← preparePreview l settings
      let shown ← showPreview l settings theme
      return shared ++ shown) := by
  simp only [preview, previewFrom, preparePreview, showPreview, previewTarget, bind_assoc,
    pure_bind]

/-- What is staged in the repository that a directory belongs to has paths of components. -/
def NamedAt (repositories : List (Path × Store)) (dir : Path) : Prop :=
  ∀ s : State, s.repositories = repositories → ∀ w, s.workTree? dir = some w →
    w.store.staged.Named

/-- A directory with a repository goes by that repository. -/
theorem namedAt_of_lookup {dir : Path} {store : Store}
    (h : repositories.lookup dir = some store) (hstaged : store.staged.Named) :
    NamedAt repositories dir := by
  rintro s rfl w hw
  rw [State.workTree?_self h] at hw
  obtain rfl := Option.some.inj hw
  exact hstaged

/-- Where all repositories are tidy, a directory may belong to any of them. -/
theorem namedAt_of_tidy (h : ∀ repository ∈ repositories, repository.2.Tidy) (dir : Path) :
    NamedAt repositories dir := by
  rintro s rfl w hw
  obtain ⟨top, store, henclosing, rfl⟩ := State.workTree?_eq_some_iff.mp hw
  exact (h _ (mem_of_lookup (State.enclosing?_eq_some henclosing).2)).staged

/-- What remains of a listed path below the directory that is listed names something. -/
private theorem isPart_listed {w : WorkTree} (hw : w.Sound) (hstaged : w.store.staged.Named)
    {dir : String} {paths : List String} (h : w.listed dir = .ok paths) :
    ∀ path ∈ paths, ∀ names, Path.namesBelow path dir = .ok names →
      ∀ name ∈ names, Path.IsPart name := by
  intro path hpath names hbelow
  rw [WorkTree.listed] at h
  obtain ⟨place, hplace, rfl⟩ := map_eq_ok h
  rw [WorkTree.listing, WorkTree.mem_foldr_insertPath] at hpath
  obtain ⟨found, hfound, rfl⟩ := List.mem_map.mp hpath
  have hnamed := hw.named_listed hstaged hfound
  have hunder : place <+: found := by
    rcases List.mem_append.mp hfound with hfound | hfound
    · exact (WorkTree.mem_tracked.mp hfound).2
    · exact (WorkTree.mem_others.mp hfound).2.1
  have hsuffix := WorkTree.suffix_of_namesBelow_shown hnamed hplace hunder hbelow
  exact fun name hname ↦ hnamed.2 name (hsuffix.subset hname)

/-- Components that name something are the path of a file again, if there are any. -/
private theorem isFilePath_ofNames {names : List String} (hnames : ∀ name ∈ names, Path.IsPart name)
    (hne : (Path.ofString (Path.ofNames names).toString).parts ≠ []) :
    IsFilePath (Text.joinStrings "/" (Path.ofString (Path.ofNames names).toString).parts) := by
  have hnonempty : names ≠ [] := by
    rintro rfl
    exact hne (by decide)
  have hnamed : WorkTree.Named names := ⟨hnonempty, hnames⟩
  rw [WorkTree.toString_ofNames hnonempty, WorkTree.ofString_gitPath hnamed]
  exact ⟨names, hnamed, rfl⟩

/-- The outline of a workspace holds paths of files. -/
theorem keeps_workspaceOutline (hP : AboutFiles P repositories) (hroot : l.root.Resolved)
    (hnamed : NamedAt repositories l.root) :
    Keeps P (workspaceOutline (workFiles l.root) l)
      fun workspace ↦ ∀ path ∈ workspace.paths, IsFilePath path := by
  have hlisted : Keeps P ((workFiles l.root).listed l.workspaceDir) fun paths ↦
      ∀ path ∈ paths, ∀ names, Path.namesBelow path l.workspaceDir = .ok names →
        ∀ name ∈ names, Path.IsPart name := by
    refine (hP.keeps fun s ↦ keeps_asking s none l.root _ _).mono ?_
    rintro paths ⟨s, hs, w, hw, hpaths⟩
    exact isPart_listed (State.sound_workTree (hP.sound s hs) hroot hw)
      (hnamed s (hP.repositories s hs) w hw) hpaths
  have hfiles : Keeps P (workspaceFiles (workFiles l.root) l)
      fun paths ↦ ∀ path ∈ paths, (Path.ofString path).parts ≠ [] →
        IsFilePath (Text.joinStrings "/" (Path.ofString path).parts) := by
    refine Keeps.files.bind fun t _ ↦ hlisted.bind fun paths hpaths ↦ Keeps.ofResult ?_
    intro answers hanswers path hpath hne
    obtain ⟨source, hsource, heq⟩ := mem_of_mapM hanswers path hpath
    obtain ⟨names, hbelow, heq⟩ := bind_eq_ok heq
    obtain rfl := Except.ok.inj heq
    exact isFilePath_ofNames (hpaths source (List.mem_filter.mp hsource).1 names hbelow) hne
  have hwalk : Keeps P (workspaceWalk (workFiles l.root) l)
      fun walk ↦ ∀ e ∈ walk, e.kind = .file → IsFilePath e.path := by
    refine hfiles.bind fun paths hpaths ↦ ?_
    split
    · next walk hwalk =>
      refine Keeps.pure fun e he hfile ↦ ?_
      obtain ⟨path, hpath, hne, heq⟩ := Outline.path_entriesOfPaths hwalk e he hfile
      rw [heq]
      exact hpaths path hpath hne
    · exact Keeps.throw _
  refine hwalk.bind fun walk hpaths ↦ Keeps.ofResult fun workspace hworkspace ↦ ?_
  exact Outline.forall_mem_paths_build (mapError_eq_ok hworkspace) hpaths

/-- Files of the workspace are mirrored to paths that admit them. -/
theorem keeps_previewFiles (hP : AboutFiles P repositories) {out : Path} {paths : List String}
    (hpaths : ∀ path ∈ paths, Admits P (out.join (Path.ofString path)) ∧
      Admits P (companionPath (out.join (Path.ofString path)))) :
    Keeps P (previewFiles l out paths) fun _ ↦ True := by
  induction paths with
  | nil => exact Keeps.pure trivial
  | cons path rest ih =>
    refine (hP.keeps fun s ↦ keeps_read s _).bind fun content _ ↦ ?_
    refine (keeps_writeMirrored (hpaths path List.mem_cons_self) _ _ _).bind fun _ _ ↦ ?_
    refine (ih fun other ho ↦ hpaths other (List.mem_cons_of_mem _ ho)).bind fun _ _ ↦ ?_
    exact Keeps.pure trivial

/-- A property that the two directories of a preview may be cleared and written to with. -/
structure AdmitsPreview (P : State → Prop) (l : Layout) (settings : Settings) : Prop where
  clears : Keeps P (clearDirectory l.exportPreview) fun _ ↦ True
  clearsPublic : Keeps P (clearDirectory l.exportPublic) fun _ ↦ True
  preview : AdmitsBelow P l.exportPreview
  shared : AdmitsBelow P l.exportPublic
  sheet : Admits P (sheetPath l settings.style)

/-- Preparing a preview clears its directories and writes to that of the shared files. -/
theorem keeps_preparePreview (hP : AboutFiles P repositories) (hroot : l.root.Resolved)
    {settings : Settings} (h : AdmitsPreview P l settings) :
    Keeps P (preparePreview l settings) fun written ↦
      ∃ copied, written = copied ++ [sheetPath l settings.style] ∧
        ∀ path ∈ copied, Below l.exportPublic path :=
  h.clears.bind fun _ _ ↦ h.clearsPublic.bind fun _ _ ↦
    keeps_writePublic hP hroot h.shared h.sheet

/-- The page is shown, and the workspace mirrored beside it, in the directory of the preview. -/
theorem keeps_showPreview (hP : AboutFiles P repositories) (hroot : l.root.Resolved)
    (hnamed : NamedAt repositories l.root) (hpreview : AdmitsBelow P l.exportPreview)
    (settings : Settings) (theme : Theme) :
    Keeps P (showPreview l settings theme) fun _ ↦ True := by
  have hunsaved : Keeps P (unsavedPage (workFiles l.root) l settings) fun _ ↦ True :=
    (hP.keeps fun s ↦ keeps_unsavedPage s .quiet l settings).mono fun _ _ ↦ trivial
  have hworkspace : AdmitsBelow P (Layout.child l.exportPreview "workspace") :=
    hpreview.child (by decide)
  refine hunsaved.bind fun path _ ↦ (hP.keeps_log _ _ _).bind fun _ _ ↦ ?_
  refine (hP.keeps fun s ↦ keeps_text s _).bind fun text _ ↦ ?_
  refine (keeps_workspaceOutline hP hroot hnamed).bind fun workspace hfiles ↦ ?_
  refine (hP.keeps fun s ↦ keeps_loadIndex s l.index).bind fun index _ ↦ ?_
  refine (Keeps.ofResult fun _ _ ↦ trivial).bind fun code _ ↦ ?_
  refine Keeps.files.bind fun t _ ↦ (Keeps.ofResult fun _ _ ↦ trivial).bind fun html _ ↦ ?_
  refine (hpreview.file (by decide)).keeps_write _ ?_
  rw [outlineFiles_eq]
  exact (keeps_previewFiles hP fun path hpath ↦ hworkspace.mirrored (hfiles path hpath)).bind
    fun mirrored _ ↦ Keeps.pure trivial

/-- A preview clears its directory and that of the shared files, and writes to them. -/
theorem keeps_previewIn (hP : AboutFiles P repositories) (hroot : l.root.Resolved)
    (hnamed : NamedAt repositories l.root) {settings : Settings} (h : AdmitsPreview P l settings) :
    Keeps P (preview l settings) fun _ ↦ True := by
  rw [preview_eq]
  refine keeps_themeOf.bind fun theme _ ↦ (keeps_preparePreview hP hroot h).bind fun shared _ ↦ ?_
  exact (keeps_showPreview hP hroot hnamed h.preview settings theme).bind fun _ _ ↦
    Keeps.pure trivial

/-- Previewing a project keeps its index. -/
theorem keeps_preview (hroot : l.root.Resolved) {store : Store}
    (hstore : repositories.lookup l.root = some store) (htidy : store.Tidy) (settings : Settings) :
    Keeps (Holds l bytes repositories) (preview l settings) fun _ ↦ True := by
  rw [holds_eq_within]
  have hinside : ∀ name place, (Layout.child l.exportRoot name).parts <+: place →
      place ≠ l.index.parts := fun name place hplace ↦
    cleared_ne_index ((Layout.parts_child l.exportRoot name ▸ List.prefix_append _ _).trans hplace)
  have hresolved : ∀ name, Path.IsPart name → (Layout.child l.exportRoot name).Resolved :=
    fun name hname ↦ Layout.resolved_child (resolved_exportRoot hroot) hname
  exact keeps_previewIn Within.aboutFiles hroot (namedAt_of_lookup hstore htidy.staged)
    { clears := keeps_clearDirectory (hresolved _ (by decide)) (hinside _)
      clearsPublic := keeps_clearDirectory (hresolved _ (by decide)) (hinside _)
      preview := ((writable_exportRoot hroot).child (by decide)).admitsBelow
      shared := ((writable_exportRoot hroot).child (by decide)).admitsBelow
      sheet := (fileWritable_sheet hroot _).admits }

end Guidebook.Workflow
