import Guidebook.Proofs.Markdown.Source
import Guidebook.Proofs.Project.Export
import Guidebook.Proofs.Project.Parallel
import Guidebook.Proofs.Project.Rebuild
import Guidebook.Proofs.Project.Save

/-!
# Previews and builds

A preview that returns has prepared its directories, looked at the project without changing
anything, and written what it made of it. What it went through is collected here once.

A preview shows the unsaved page as its file is read, with its line ends made line feeds. A build
shows it as it is committed, byte by byte. What they show is the same as far as a page does not
depend on what ends its lines.
-/

namespace Guidebook.Workflow

open Git

variable {l : Layout} {settings : Settings} {s t : State}

section Runs

variable {told : List Path}

/-! ## Looking -/

/-- Outlining the workspace changes nothing. -/
theorem keeps_outline (s : State) (l : Layout) :
    Keeps (Same · s) (workspaceOutline (workFiles l.root) l) fun _ ↦ True := by
  have hlisted : Keeps (Same · s) ((workFiles l.root).listed l.workspaceDir) fun _ ↦ True :=
    (keeps_asking s none l.root _ _).mono fun _ _ ↦ trivial
  have hfiles : Keeps (Same · s) (workspaceFiles (workFiles l.root) l) fun _ ↦ True :=
    Keeps.files.bind fun t _ ↦ hlisted.bind fun paths _ ↦ Keeps.ofResult fun _ _ ↦ trivial
  have hwalk : Keeps (Same · s) (workspaceWalk (workFiles l.root) l) fun _ ↦ True := by
    refine hfiles.bind fun paths _ ↦ ?_
    split
    · exact Keeps.pure trivial
    · exact Keeps.throw _
  exact hwalk.bind fun walk _ ↦ Keeps.ofResult fun _ _ ↦ trivial

/-- The workspace is outlined the same way whatever was reported before. -/
theorem quiet_outline (l : Layout) : Quiet (workspaceOutline (workFiles l.root) l) := by
  have hfiles : Quiet (workspaceFiles (workFiles l.root) l) :=
    Quiet.files fun t ↦ (Quiet.asking _ _ _).bind fun paths ↦ Quiet.ofResult _
  refine Quiet.bind (hfiles.bind fun paths ↦ ?_) fun walk ↦ Quiet.ofResult _
  split
  · exact Quiet.pure _
  · exact Quiet.throw _

/-- Mirrored files and their companions are told one after another. -/
theorem answer_previewFiles (l : Layout) (out : Path) (paths : List String) :
    Keeps (fun _ ↦ True) (previewFiles l out paths) fun written ↦
      written = paths.flatMap (mirrorPaths out) := by
  induction paths with
  | nil => exact Keeps.pure rfl
  | cons path rest ih =>
    refine (Keeps.any _).bind fun _ _ ↦ ?_
    refine (answer_writeMirrored _ _ _ _).bind fun written hwritten ↦ ?_
    refine ih.bind fun others hothers ↦ Keeps.pure ?_
    rw [hwritten, hothers, List.flatMap_cons, mirrorPaths]

/-! ## Preparing -/

/-- The directories of a preview are resolved paths. -/
theorem resolved_inExport (hroot : l.root.Resolved) {name : String} (hname : Path.IsPart name) :
    (Layout.child l.exportRoot name).Resolved :=
  Layout.resolved_child (resolved_exportRoot hroot) hname

/-- Preparing a preview leaves a sound tree and the repositories as they are. -/
theorem within_prepared (hs : s.files.Sound) (hroot : l.root.Resolved) :
    Within (fun _ ↦ True) s.files.find? s.repositories (prepared l settings s) := by
  have hresolved : ∀ {name}, Path.IsPart name → (Layout.child l.exportRoot name).Resolved :=
    fun hname ↦ resolved_inExport hroot hname
  have hadmits : AdmitsPreview (Within (fun _ ↦ True) s.files.find? s.repositories) l settings :=
    { clears := keeps_clearDirectory (hresolved (by decide)) fun _ _ ↦ trivial
      clearsPublic := keeps_clearDirectory (hresolved (by decide)) fun _ _ ↦ trivial
      preview := (Writable.of_plain (hresolved (by decide)).plain).admitsBelow
      shared := (Writable.of_plain (hresolved (by decide)).plain).admitsBelow
      sheet := (Writable.of_plain (plain_sheetPath hroot _)).file.admits }
  exact (keeps_preparePreview Within.aboutFiles hroot hadmits s (.refl hs)).1

/-! ## Runs -/

/-- A preview that returns: what it prepared, the page that it found with the workspace and the
index, what it rendered, and what it tells. -/
structure PreviewRun (l : Layout) (settings : Settings) (s t : State) (told : List Path) where
  theme : Theme
  shared : List Path
  path : String
  bytes : List UInt8
  raw : List Char
  workspace : Outline.Directory
  index : PageIndex
  code : String
  html : List Char
  before : State
  written : State
  shown : State
  themed : ((themeOf l).on s).1 = .ok theme
  prepares : ((preparePreview l settings).on s).1 = .ok shared
  finds : ((unsavedPage (workFiles l.root) l settings).on (prepared l settings s)).1 = .ok path
  reads : (prepared l settings s).files.read (l.root.join (Path.ofString path)) = .ok bytes
  text : Utf8.decode bytes = .ok raw
  outlined : ((workspaceOutline (workFiles l.root) l).on (prepared l settings s)).1 = .ok workspace
  loads : Loads (prepared l settings s).files l.index index
  coded : Page.code path settings.extension = .ok code
  rendered : previewPage (prepared l settings s).files theme settings index code
    (Text.universalNewlines raw) workspace = .ok html
  same : Same before (prepared l settings s)
  made : (makeDirectories (parent (previewTarget l))).on before = (.ok (), written)
  page : (writeText (previewTarget l) html).on written = (.ok (), shown)
  mirrored : (previewFiles l (Layout.child l.exportPreview "workspace")
    (outlineFiles workspace)).on shown = (.ok (workspace.paths.flatMap
      (mirrorPaths (Layout.child l.exportPreview "workspace"))), t)
  told_eq : told = shared ++ previewTarget l ::
    workspace.paths.flatMap (mirrorPaths (Layout.child l.exportPreview "workspace"))

/-- What a preview that returns goes through. -/
theorem previewRun (hrun : (preview l settings).on s = (.ok told, t)) :
    Nonempty (PreviewRun l settings s t told) := by
  rw [preview_eq, on_bind_ok (on_themeOf l s)] at hrun
  obtain ⟨shared, p, hprepare, hrun⟩ := on_bind_eq_ok hrun
  obtain ⟨shown, q, hshow, hrun⟩ := on_bind_eq_ok hrun
  obtain ⟨htold, rfl⟩ := Prod.mk.inj hrun
  obtain rfl : prepared l settings s = p := congrArg Prod.snd hprepare
  obtain ⟨path, s1, hpath, hshow⟩ := on_bind_eq_ok hshow
  have hkeeps := keeps_unsavedPage (prepared l settings s) .quiet l settings
  have hs1 : Same s1 (prepared l settings s) := hkeeps.after (Same.refl _) hpath
  obtain ⟨_, s1', hlog, hshow⟩ := on_bind_eq_ok hshow
  have hs1' : Same s1' (prepared l settings s) :=
    (Keeps.log (P := (Same · (prepared l settings s))) (fun _ _ h ↦ h) _ _ _).after hs1 hlog
  obtain ⟨text, s2, htext, hshow⟩ := on_bind_eq_ok hshow
  obtain ⟨bytes, raw, hbytes, hraw, rfl⟩ := (keeps_text (prepared l settings s) _).answer hs1' htext
  have hs2 : Same s2 (prepared l settings s) := (keeps_text _ _).after hs1' htext
  obtain ⟨workspace, s3, hworkspace, hshow⟩ := on_bind_eq_ok hshow
  have houtline := (quiet_outline l s2 _ hs2).1
  rw [hworkspace] at houtline
  have hs3 : Same s3 (prepared l settings s) := (keeps_outline _ _).after hs2 hworkspace
  obtain ⟨index, s4, hindex, hshow⟩ := on_bind_eq_ok hshow
  have hloads := (keeps_loadIndex (prepared l settings s) l.index).answer hs3 hindex
  have hs4 : Same s4 (prepared l settings s) := (keeps_loadIndex _ _).after hs3 hindex
  obtain ⟨code, s5, hcode, hshow⟩ := on_bind_eq_ok hshow
  obtain ⟨hcoded, rfl⟩ := on_ofResult_eq_ok hcode
  rw [on_bind_ok (on_files s4)] at hshow
  obtain ⟨html, s6, hhtml, hshow⟩ := on_bind_eq_ok hshow
  obtain ⟨hrendered, rfl⟩ := on_ofResult_eq_ok hhtml
  obtain ⟨_, s7, hmake, hshow⟩ := on_bind_eq_ok hshow
  obtain ⟨_, s8, hwrite, hshow⟩ := on_bind_eq_ok hshow
  obtain ⟨mirrored, s9, hmirror, hshow⟩ := on_bind_eq_ok hshow
  obtain ⟨hshown, rfl⟩ := Prod.mk.inj hshow
  obtain rfl := (answer_previewFiles l _ _).answer trivial hmirror
  rw [outlineFiles_eq] at hmirror hshown
  exact ⟨{
    theme := _, shared, path, bytes, raw, workspace, index, code, html
    before := s4
    written := s7
    shown := s8
    themed := rfl
    prepares := congrArg Prod.fst hprepare
    finds := congrArg Prod.fst hpath
    reads := hbytes
    text := hraw
    outlined := houtline.symm
    loads := hloads
    coded := hcoded
    rendered := hs4.1 ▸ hrendered
    same := hs4
    made := hmake
    page := hwrite
    mirrored := by rw [outlineFiles_eq]; exact hmirror
    told_eq := by rw [← Except.ok.inj htold, ← Except.ok.inj hshown] }⟩

/-- The page of a preview is the only unsaved one. -/
theorem PreviewRun.unsaved (run : PreviewRun l settings s t told) :
    Unsaved (prepared l settings s) l settings run.path :=
  (keeps_unsavedPage (prepared l settings s) .quiet l settings _ (Same.refl _)).2 _ run.finds

/-- The files of the outline lie in the workspace. -/
theorem PreviewRun.isFilePath (run : PreviewRun l settings s t told) (hs : s.files.Sound)
    (hroot : l.root.Resolved) (hnamed : NamedAt s.repositories l.root) :
    ∀ path ∈ run.workspace.paths, IsFilePath path := by
  have hwithin : Within (fun _ ↦ True) s.files.find? s.repositories (prepared l settings s) :=
    within_prepared hs hroot
  exact (keeps_workspaceOutline Within.aboutFiles hroot hnamed _ hwithin).2 _ run.outlined

end Runs

/-! ## Previews -/

/-- What a preview that returns shows: the unsaved page in a context, with the title and the content
of its text. -/
structure Previews (l : Layout) (settings : Settings) (s t : State) (path : String)
    (bytes : List UInt8) (raw : List Char) (context : PageContext) : Prop where
  unsaved : Unsaved (prepared l settings s) l settings path
  reads : (prepared l settings s).files.read (l.root.join (Path.ofString path)) = .ok bytes
  text : Utf8.decode bytes = .ok raw
  code : Page.code path settings.extension = .ok context.code
  title : context.title = Page.titleOf (Text.universalNewlines raw)
  content : Page.content settings.style (Text.universalNewlines raw) = .ok context.content
  shown : ∃ tree theme index html,
    Theme.render tree theme Theme.pageTemplate (guideContext settings index) (some context)
      (some context.code) = .ok html ∧
    t.files.find? (previewTarget l).parts = some (.file (Utf8.encode html))

/-- The workspace of a preview lies beside its page. -/
private theorem writable_previewWorkspace (hroot : l.root.Resolved)
    (look : List String → Option Node) :
    Writable (· ≠ (previewTarget l).parts) look (Layout.child l.exportPreview "workspace") := by
  have hexport : l.exportPreview.Resolved :=
    Layout.resolved_child (resolved_exportRoot hroot) (by decide)
  have hworkspace : (Layout.child l.exportPreview "workspace").Resolved :=
    Layout.resolved_child hexport (by decide)
  refine .of_resolved hworkspace (fun place hplace heq ↦ ?_) fun front hfront hne ↦ .inl ?_
  · rw [heq, previewTarget, Layout.parts_child, Layout.parts_child,
      List.prefix_append_right_inj] at hplace
    revert hplace
    decide
  · rintro rfl
    rw [previewTarget, Layout.parts_child, Layout.parts_child,
      List.prefix_append_right_inj] at hfront
    revert hfront
    decide

/-- A page that is written stays while the workspace is mirrored beside it. -/
private theorem find?_previewTarget (hroot : l.root.Resolved) {u v w : State} {html : List Char}
    {paths : List String} {a b : Unit} {mirrored : List Path} (hs : s.files.Sound)
    (hpaths : ∀ path ∈ paths, IsFilePath path)
    (hmake : (makeDirectories (parent (previewTarget l))).on s = (.ok a, u))
    (hwrite : (writeText (previewTarget l) html).on u = (.ok b, v))
    (hmirror : (previewFiles l (Layout.child l.exportPreview "workspace") paths).on v =
      (.ok mirrored, w)) :
    w.files.find? (previewTarget l).parts = some (.file (Utf8.encode html)) := by
  have hexport : l.exportPreview.Resolved :=
    Layout.resolved_child (resolved_exportRoot hroot) (by decide)
  have htarget : (previewTarget l).Resolved := Layout.resolved_child hexport (by decide)
  have hs1 : Within (fun _ ↦ True) s.files.find? s.repositories s := .refl hs
  have hu := (keeps_makeDirectories htarget.plain.parent fun _ _ ↦ .inl trivial).after hs1 hmake
  obtain ⟨tree, htree, rfl⟩ := on_write_eq_ok hwrite
  have hv : Within (· ≠ (previewTarget l).parts) tree.find? u.repositories
      ⟨tree, u.repositories, u.logs⟩ :=
    ⟨hu.files.write htarget.plain htree, fun _ _ ↦ rfl, rfl⟩
  have hworkspace := writable_previewWorkspace hroot tree.find?
  have hw := (keeps_previewFiles Within.aboutFiles fun path hpath ↦
    hworkspace.admitsBelow.mirrored (hpaths path hpath)).after hv hmirror
  have hfound := hu.files.find?_write_self htree
  rw [htarget.place_eq] at hfound
  rw [hw.elsewhere _ (not_not.mpr rfl), hfound]

/-- The page that a preview has written shows what was read in a context, under the number of pages
in the index. -/
theorem PreviewRun.shows {told : List Path} (run : PreviewRun l settings s t told)
    (hs : s.files.Sound) (hroot : l.root.Resolved) (hnamed : NamedAt s.repositories l.root) :
    ∃ content, Page.content settings.style (Text.universalNewlines run.raw) = .ok content ∧
      Theme.render (prepared l settings s).files run.theme Theme.pageTemplate
        (guideContext settings run.index) (some (previewContext settings run.index.size run.code
          (Text.universalNewlines run.raw) content run.workspace)) (some run.code) = .ok run.html ∧
      t.files.find? (previewTarget l).parts = some (.file (Utf8.encode run.html)) := by
  have hbefore : run.before.files.Sound := run.same.1 ▸ (within_prepared hs hroot).files
  have hshown := find?_previewTarget hroot hbefore
    (outlineFiles_eq run.workspace ▸ run.isFilePath hs hroot hnamed) run.made run.page run.mirrored
  have hrendered := run.rendered
  rw [previewPage] at hrendered
  split at hrendered
  · cases hrendered
  next content hcontent => exact ⟨content, hcontent, hrendered, hshown⟩

/-- What a preview that returns has done. -/
theorem preview_eq_ok (hs : s.files.Sound) (hroot : l.root.Resolved) {store : Store}
    (hlookup : s.repositories.lookup l.root = some store) (htidy : store.Tidy) {told : List Path}
    (hrun : (preview l settings).on s = (.ok told, t)) :
    ∃ path bytes raw context, Previews l settings s t path bytes raw context := by
  obtain ⟨run⟩ := previewRun hrun
  obtain ⟨content, hcontent, hrendered, hshown⟩ :=
    run.shows hs hroot (namedAt_of_lookup hlookup htidy.staged)
  exact ⟨run.path, run.bytes, run.raw,
    previewContext settings run.index.size run.code _ content run.workspace, run.unsaved, run.reads,
    run.text, run.coded, rfl, hcontent, _, run.theme, run.index, run.html, hrendered, hshown⟩

/-! ## Saved pages -/

/-- A save that returns of an unsaved page with given bytes, in a project with a repository of its
own. -/
structure SavedAs (l : Layout) (settings : Settings) (path : String) (bytes : List UInt8)
    (u u' : State) (entry : IndexEntry) : Prop where
  sound : u.Sound
  tidy : ∀ repository ∈ u.repositories, repository.2.Tidy
  own : (u.repositories.lookup l.root).isSome
  loads : ((loadRoot l.root).on u).1 = .ok (l, settings)
  unsaved : Unsaved u l settings path
  reads : u.files.read (l.root.join (Path.ofString path)) = .ok bytes
  page : l.root.join (Path.ofString path) ≠ l.index
  saves : (save l settings).on u = (.ok entry, u')

section Saved

variable {path : String} {bytes : List UInt8} {raw : List Char} {u u' : State} {entry : IndexEntry}

/-- The commit of such a save has the page with its bytes, and no other leaf at its path. -/
private theorem SavedAs.commits (h : SavedAs l settings path bytes u u' entry)
    (hroot : l.root.Resolved) (htext : Utf8.decode bytes = .ok raw) :
    ∃ old new commit,
      Saves l settings u u' entry l.root old new commit path (Text.universalNewlines raw) ∧
      (∀ leaf ∈ commit.snapshot, leaf.path = path → leaf.bytes = bytes) := by
  obtain ⟨top, old, new, commit, other, text, hsaves⟩ :=
    save_eq_ok h.sound h.tidy hroot h.loads h.saves
  obtain ⟨store, hlookup⟩ := Option.isSome_iff_exists.mp h.own
  obtain ⟨rfl, rfl⟩ := Prod.mk.inj
    (Option.some.inj ((State.enclosing?_self hlookup).symm.trans hsaves.before))
  obtain rfl := h.unsaved.eq hsaves.unsaved
  obtain ⟨found, read, hfound, hread, rfl⟩ := hsaves.reads
  obtain rfl := Except.ok.inj (h.reads.symm.trans hfound)
  obtain rfl := Except.ok.inj (htext.symm.trans hread)
  refine ⟨_, new, commit, hsaves, fun leaf hleaf hpath ↦ ?_⟩
  obtain ⟨saved, hsaved, hat, -, hbytes⟩ := hsaves.page rfl h.page
  obtain rfl := hsaves.sound.eq_of_path_eq hleaf hsaved (hpath.trans hat.symm)
  exact Except.ok.inj (hbytes.symm.trans h.reads)

variable {old new : Store} {commit : Commit} {text : List Char}

private theorem Saves.historyIn (h : Saves l settings u u' entry l.root old new commit path text) :
    Workflow.historyIn u' l.root = new.repository l.root.toString := by
  rw [Workflow.historyIn, h.after]

/-- Pages of the path and the commit of a saved page have the text of its bytes. -/
private theorem Saves.text_page
    (h : Saves l settings u u' entry l.root old new commit path text)
    (hbytes : ∀ leaf ∈ commit.snapshot, leaf.path = path → leaf.bytes = bytes)
    (htext : Utf8.decode bytes = .ok raw) {pages : List SequencedPage}
    (hpages : Sequence.pages (Workflow.historyIn u' l.root) l.pagesDir settings.extension =
      .ok pages) {page : SequencedPage} (hpage : page ∈ pages) (hpath : page.page.path = path)
    (hcommit : new.commit? page.revision.oid = some commit) :
    page.page.text = raw ∧ page.page.title = Page.titleOf raw := by
  rw [h.historyIn] at hpages
  obtain ⟨-, hsources⟩ := (Sequence.endsIn_pages h.tidy).1 _ hpages
  obtain ⟨⟨found, leaves⟩, hchange, -, hsource⟩ := exists_change hsources hpage
  obtain ⟨hfound, hleaves⟩ := Prod.mk.inj hsource
  obtain rfl := Option.some.inj (hcommit.symm.trans hfound)
  obtain ⟨leaf, hleaf, hread⟩ := List.mem_map.mp (hleaves ▸ List.mem_singleton_self _)
  obtain ⟨hat, hdecoded⟩ := Prod.mk.inj hread
  rw [hbytes leaf (Sequence.mem_snapshot_of_mem_additions hchange leaf hleaf) (hat.trans hpath),
    htext] at hdecoded
  obtain rfl := Option.some.inj hdecoded
  exact ⟨rfl, Sequence.title_of_mem_pages hpages hpage⟩

/-- A saved page that its commit alone adds comes behind the pages of before, unless it is taken for
binary. -/
private theorem Saves.pages_concat
    (h : Saves l settings u u' entry l.root old new commit path text)
    (hbytes : ∀ leaf ∈ commit.snapshot, leaf.path = path → leaf.bytes = bytes)
    (htext : Utf8.decode bytes = .ok raw) {code : String}
    (hcode : Page.code path settings.extension = .ok code)
    (hstrays : ∀ other ∈ new.commits, other.strays = []) {before : List SequencedPage}
    (hbefore : Sequence.specified settings.extension
      (Sequence.additions l.pagesDir settings.extension [] old.commits) = .ok before)
    (halone : (Sequence.newLeaves l.pagesDir settings.extension old.head commit.snapshot).map
      (·.path) = [path])
    (hbinary : Code.isBinary bytes = false) :
    Sequence.pages (Workflow.historyIn u' l.root) l.pagesDir settings.extension =
      .ok (before ++ [⟨before.length, commit.listed, ⟨path, code, Page.titleOf raw, raw⟩⟩]) := by
  obtain ⟨leaf, hone, rfl⟩ := List.map_eq_singleton_iff.mp halone
  have hleaf : leaf ∈ commit.snapshot :=
    (Sequence.mem_newLeaves_iff.mp (hone ▸ List.mem_singleton_self leaf)).1
  obtain rfl := hbytes leaf hleaf rfl
  rw [h.historyIn, h.tidy.pages_concat h.commits hstrays hbefore hone hcode, Sequence.pageText,
    hbinary, htext]
  rfl

end Saved

/-! ## Previews and pages -/

/-- However a step of the page is rendered, its template shows the content. -/
def RendersAs (settings : Settings) (content : List Char) (page : SequencedPage) : Prop :=
  ∀ (p : Projection TreeHandle (List UInt8)) (step : Step), p.settings = settings →
    p.project page = .ok step → ∀ tree, p.page tree step =
      Theme.render tree p.theme Theme.pageTemplate (guideContext settings p.index)
        (some (step.context settings content)) (some step.page.code)

private theorem rendersAs {content : List Char} {page : SequencedPage}
    (h : Page.content settings.style page.page.text = .ok content) :
    RendersAs settings content page := by
  rintro p step rfl hstep tree
  rw [Projection.page, (project_eq_ok hstep).1, h]

/-- What a preview that returns shows is what the guide shows of the page once it is saved as it is,
as far as the page does not depend on its line ends. The preview has the lines of the page's text
exactly if no line feed is parted from a carriage return, and those with its fences in their one
form exactly if the fences are settled as well. In the first case every page of the history that the
save has made has the title of the preview, in the second it is rendered with the content of the
preview. There is one, unless the page is taken for binary, if its commit adds no other and all
before it are accepted. -/
theorem preview_agrees (hs : s.files.Sound) (hroot : l.root.Resolved) {store : Store}
    (hlookup : s.repositories.lookup l.root = some store) (htidy : store.Tidy) {told : List Path}
    (hrun : (preview l settings).on s = (.ok told, t)) :
    ∃ path bytes raw context, Previews l settings s t path bytes raw context ∧
      (Markdown.sourceLines (Text.universalNewlines raw) = Markdown.sourceLines raw ↔
        Markdown.Unparted raw) ∧
      (Markdown.sourceLines (Markdown.normalizeFences (Text.universalNewlines raw)) =
          Markdown.sourceLines (Markdown.normalizeFences raw) ↔
        Markdown.Unparted raw ∧ Markdown.FencesSettled raw) ∧
      ∀ u u' entry, SavedAs l settings path bytes u u' entry → entry.name = context.title ∧
        ∃ old new commit,
          Saves l settings u u' entry l.root old new commit path (Text.universalNewlines raw) ∧
          (∀ pages, Sequence.pages (historyIn u' l.root) l.pagesDir settings.extension = .ok pages →
            ∀ page ∈ pages, page.page.path = path →
              new.commit? page.revision.oid = some commit →
                page.page.text = raw ∧
                (Markdown.Unparted raw → page.page.title = context.title) ∧
                (Markdown.Unparted raw → Markdown.FencesSettled raw →
                  RendersAs settings context.content page)) ∧
          ∀ before, Sequence.specified settings.extension
              (Sequence.additions l.pagesDir settings.extension [] old.commits) = .ok before →
            (∀ other ∈ new.commits, other.strays = []) →
            (Sequence.newLeaves l.pagesDir settings.extension old.head commit.snapshot).map
              (·.path) = [path] →
            Code.isBinary bytes = false →
            Sequence.pages (historyIn u' l.root) l.pagesDir settings.extension =
              .ok (before ++ [⟨before.length, commit.listed,
                ⟨path, context.code, Page.titleOf raw, raw⟩⟩]) := by
  obtain ⟨path, bytes, raw, context, hpreview⟩ := preview_eq_ok hs hroot hlookup htidy hrun
  refine ⟨path, bytes, raw, context, hpreview, Markdown.sourceLines_universalNewlines_iff,
    Markdown.sourceLines_normalizeFences_iff, fun u u' entry hsaved ↦ ?_⟩
  obtain ⟨old, new, commit, hsaves, hbytes⟩ := hsaved.commits hroot hpreview.text
  constructor
  · obtain ⟨code, -, hentry⟩ := map_eq_ok hsaves.entry
    rw [← hentry, hpreview.title]
  refine ⟨old, new, commit, hsaves, fun pages hpages page hpage hpath hcommit ↦ ?_,
    fun before hbefore hstrays halone hbinary ↦ hsaves.pages_concat hbytes hpreview.text
      hpreview.code hstrays hbefore halone hbinary⟩
  obtain ⟨htext, htitle⟩ :=
    hsaves.text_page hbytes hpreview.text hpages hpage hpath hcommit
  refine ⟨htext, fun hunparted ↦ ?_, fun hunparted hsettled ↦ rendersAs ?_⟩
  · rw [htitle, hpreview.title, Page.titleOf, Page.titleOf, Page.title_universalNewlines hunparted]
  · rw [htext, ← hpreview.content, Page.content_universalNewlines hunparted hsettled]

/-- A guide with an unsaved page of one empty line, which ends in a carriage return and a line
feed. -/
def returnGuide : State where
  files := unsavedGuide.files.put ["/", "guide", "pages", "a.md"] (.file [13, 10])
  repositories := freshGuide.repositories
  logs := []

/-- Whether a page is the only one that is not saved can be computed. -/
private theorem unsaved_of_filter {path : String}
    (h : ((s.workTree? l.root).bind fun w ↦ (w.untracked l.pagesDir).toOption.map
      (·.filter fun path ↦ Page.isPagePath path l.pagesDir settings.extension)) = some [path]) :
    Unsaved s l settings path := by
  obtain ⟨w, hw, h⟩ := Option.bind_eq_some_iff.mp h
  obtain ⟨paths, hpaths, hone⟩ := Option.map_eq_some_iff.mp h
  exact ⟨w, paths, hw, eq_ok_of_toOption hpaths, hone⟩

private theorem savedAs_returnGuide {entry : IndexEntry}
    (hsave : (save guideLayout (Settings.ofTitle "T")).on returnGuide =
      (.ok entry, withSave returnGuide)) :
    SavedAs guideLayout (Settings.ofTitle "T") "pages/a.md" [13, 10] returnGuide
      (withSave returnGuide) entry where
  sound := by decide +kernel
  tidy := by
    intro repository hrepository
    obtain rfl := List.mem_singleton.mp hrepository
    exact ((Store.gives_empty 0 "" "").withIdentity true).tidy
  own := by decide +kernel
  loads := eq_ok_of_toOption (by decide +kernel)
  unsaved := unsaved_of_filter (by decide +kernel)
  reads := eq_ok_of_toOption (by decide +kernel)
  page := by decide +kernel
  saves := hsave

/-- The page is shown as it was previewed. -/
theorem preview_agrees_return :
    ∃ (told : List Path) (t : State) (entry : IndexEntry) (u' : State) (context : PageContext)
      (page : SequencedPage),
      (preview guideLayout (Settings.ofTitle "T")).on returnGuide = (.ok told, t) ∧
      (save guideLayout (Settings.ofTitle "T")).on returnGuide = (.ok entry, u') ∧
      Previews guideLayout (Settings.ofTitle "T") returnGuide t "pages/a.md" [13, 10] ['\r', '\n']
        context ∧
      Sequence.pages (historyIn u' guideLayout.root) "pages" ".md" = .ok [page] ∧
      page.page.title = context.title ∧
      RendersAs (Settings.ofTitle "T") context.content page := by
  obtain ⟨told, hpreview⟩ : ∃ told, (preview guideLayout (Settings.ofTitle "T")).on returnGuide =
      (.ok told, ((preview guideLayout (Settings.ofTitle "T")).on returnGuide).2) :=
    on_eq_ok (by decide +kernel)
  obtain ⟨entry, hsave⟩ : ∃ entry, (save guideLayout (Settings.ofTitle "T")).on returnGuide =
      (.ok entry, withSave returnGuide) := on_eq_ok (by decide +kernel)
  have hlookup : returnGuide.repositories.lookup guideLayout.root =
      some { Store.empty 0 with hasIdentity := true } := by rfl
  obtain ⟨path, bytes, raw, context, hpreviews, -, -, hsaved⟩ :=
    preview_agrees (by decide +kernel) (by decide : guideLayout.root.Resolved) hlookup
      ((Store.gives_empty 0 "" "").withIdentity true).tidy hpreview
  obtain rfl : path = "pages/a.md" :=
    hpreviews.unsaved.eq (unsaved_of_filter (by decide +kernel))
  obtain rfl : [13, 10] = bytes :=
    Except.ok.inj ((eq_ok_of_toOption (by decide +kernel)).symm.trans hpreviews.reads)
  obtain rfl : ['\r', '\n'] = raw :=
    Except.ok.inj ((eq_ok_of_toOption (by decide +kernel)).symm.trans hpreviews.text)
  obtain ⟨-, old, new, commit, hsaves, hpages, hconcat⟩ := hsaved _ _ _ (savedAs_returnGuide hsave)
  have hold : old.commits = [] := by
    have hcommits : (returnGuide.enclosing? guideLayout.root).map (·.2.commits.length) =
        some 0 := by decide +kernel
    rw [hsaves.before] at hcommits
    exact List.length_eq_zero_iff.mp (Option.some.inj hcommits)
  have hnew : new.commits = [commit] := by rw [hsaves.commits, hold, List.nil_append]
  have hhead : old.head = [] := by rw [Store.head, hold, List.getLast?_nil]
  have hadded : ((withSave returnGuide).enclosing? guideLayout.root).map (fun found ↦
      found.2.commits.map fun commit ↦ (commit.strays.isEmpty,
        (Sequence.newLeaves "pages" ".md" [] commit.snapshot).map (·.path))) =
      some [(true, ["pages/a.md"])] := by decide +kernel
  rw [hsaves.after, Option.map_some, hnew, List.map_singleton] at hadded
  obtain ⟨hquiet, halone⟩ := Prod.mk.inj (List.singleton_inj.mp (Option.some.inj hadded))
  have hsequence := hconcat [] (by rw [hold]; rfl)
    (by simpa [hnew] using hquiet) (by rw [hhead]; exact halone) (by decide)
  obtain ⟨-, htitle, hrenders⟩ := hpages _ hsequence _ (List.mem_singleton_self _) rfl
    (hsaves.tidy.commit?_oid (hnew ▸ List.mem_singleton_self commit))
  exact ⟨told, _, entry, _, context, _, hpreview, hsave, hpreviews, hsequence,
    htitle (by decide), hrenders (by decide) (by decide)⟩

end Guidebook.Workflow
