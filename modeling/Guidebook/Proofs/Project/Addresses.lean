import Guidebook.Proofs.Project.Links
import Guidebook.Proofs.Theme.Anchors

/-!
# Addresses of pages

A build that warns of nothing links its pages from the landing page and from each other, by their
codes. The directory of a page has the code for its name, and the address of the page has the code
as it is. The address leads to the directory exactly if the code stands for itself in an address;
the paths of workspace files behind it always do, for they are written for addresses.
-/

namespace Guidebook.Workflow

open Git Theme

variable {Tree Blob : Type} {l : Layout}

/-- Steps that are written are rendered. -/
theorem page_of_exportSteps {p : Projection Tree Blob} {pages : List SequencedPage}
    {steps : List Step} (hsteps : pages.mapM p.project = .ok steps) {s s' : State}
    {written : List Path} (hrun : (exportSteps p pages).on s = (.ok written, s')) :
    ∀ step ∈ steps, ∃ t html, p.page t step = .ok html := by
  induction pages generalizing s s' steps written with
  | nil =>
    obtain rfl := Except.ok.inj hsteps
    simp
  | cons page rest ih =>
    rw [exportSteps_cons] at hrun
    obtain ⟨_, s1, -, hrun⟩ := on_bind_eq_ok hrun
    obtain ⟨step, s2, hproject, hrun⟩ := on_bind_eq_ok hrun
    obtain ⟨hcomposed, rfl⟩ := on_ofResult_eq_ok hproject
    obtain ⟨first, s3, hstep, hrun⟩ := on_bind_eq_ok hrun
    obtain ⟨others, s4, hrest, -⟩ := on_bind_eq_ok hrun
    obtain ⟨_, more, hproject', hmore, rfl⟩ := mapM_cons_eq_ok hsteps
    obtain rfl := Except.ok.inj (hcomposed.symm.trans hproject')
    obtain ⟨t, _, html, _, _, _, -, hpage, -⟩ := exportStep_eq_ok hstep
    exact List.forall_mem_cons.mpr ⟨⟨t, html, hpage⟩, ih hmore hrest⟩

/-- A landing page that is written is there as it is rendered. -/
theorem find?_writeLanding (hroot : l.root.Resolved) {theme : Theme} {guide : GuideContext}
    {s s' : State} (hs : s.files.Sound) {target : Path}
    (hrun : (writeLanding l theme guide).on s = (.ok target, s')) :
    ∃ html, Theme.render s.files theme guideTemplate guide none none = .ok html ∧
      s'.files.find? (landingPath l).place = some (.file (Utf8.encode html)) := by
  rw [writeLanding, on_bind_ok (on_files s)] at hrun
  obtain ⟨html, s1, hhtml, hrun⟩ := on_bind_eq_ok hrun
  obtain ⟨hrendered, rfl⟩ := on_ofResult_eq_ok hhtml
  obtain ⟨_, s2, hmake, hrun⟩ := on_bind_eq_ok hrun
  obtain ⟨t, hmade, rfl⟩ := on_makeDirectories_eq_ok hmake
  obtain ⟨_, s3, hwrite, hrun⟩ := on_bind_eq_ok hrun
  obtain ⟨u, hwritten, rfl⟩ := on_write_eq_ok hwrite
  obtain ⟨-, rfl⟩ := Prod.mk.inj hrun
  have hplain : (landingPath l).Plain :=
    (Layout.resolved_child (resolved_exportRoot hroot) (by decide)).plain
  exact ⟨html, hrendered, (hs.makeDirectories hplain.parent hmade).find?_write_self hwritten⟩

/-! ## Links of pages -/

/-- The address of a page of a guide at the root of its host. -/
def codeAddress (code : String) : List Char := '/' :: (code.toList ++ ['/'])

/-- The path of a workspace file of a page. -/
def mirrorName (code path : String) : List Char :=
  codeAddress code ++ "workspace/".toList ++ path.toList

/-- The address of a workspace file of a page. -/
def mirrorAddress (code path : String) : List Char :=
  codeAddress code ++ "workspace/".toList ++ urlencode path.toList

/-- The link from a page to a neighbour. -/
def neighbourLink (relation code : String) : List (String × List Char) :=
  [("class", relation.toList), ("rel", relation.toList), ("href", codeAddress code)]

/-- The link from a page to a file of its workspace. -/
def mirrorLink (code path : String) : List (String × List Char) :=
  [("href", mirrorAddress code path), ("data-companion", mirrorAddress code path ++ ".html".toList)]

/-- The links from the page of a step. -/
def stepLinks (step : Step) : List (List (String × List Char)) :=
  step.previous.toList.map (neighbourLink "prev") ++ step.next.toList.map (neighbourLink "next") ++
    (shownPaths step.workspace).map (mirrorLink step.page.code)

/-- The address of a page leads to the directory of its code exactly if the code stands for itself,
and so do the addresses of its workspace files to the files. -/
theorem addressed_iff (code : String) :
    (addressed (codeAddress code) = .ok (codeAddress code) ↔
      standsForItself code.toList = true) ∧
    ∀ path, addressed (mirrorAddress code path) = .ok (mirrorName code path) ↔
      standsForItself code.toList = true := by
  have hcode : standsForItself ('/' :: code.toList) = standsForItself code.toList :=
    standsForItself_cons _ (by decide)
  have hfront : ∀ c ∈ "workspace/".toList, isPathChar c && c != '%' :=
    List.all_eq_true.mp (by decide +kernel)
  constructor
  · rw [← hcode]
    exact addressed_eq_ok_iff ('/' :: code.toList) (by simp) rfl
  · intro path
    have hchars : ∀ c ∈ "workspace/".toList ++ urlencode path.toList, isPathChar c = true := by
      intro c hc
      rcases List.mem_append.mp hc with hc | hc
      · exact (Bool.and_eq_true_iff.mp (hfront c hc)).1
      · exact isPathChar_of_mem_urlencode hc
    have hbytes : addressBytes ("workspace/".toList ++ urlencode path.toList) =
        Utf8.encode ("workspace/".toList ++ path.toList) := by
      have hplain : ∀ c ∈ "workspace/".toList, c ≠ '%' := fun c hc ↦
        bne_iff_ne.mp (Bool.and_eq_true_iff.mp (hfront c hc)).2
      rw [addressBytes_append_of_ne hplain,
        ← List.append_nil (urlencode path.toList), addressBytes_urlencode]
      simp [Utf8.encode, addressBytes]
    have haddress : mirrorAddress code path =
        '/' :: code.toList ++ '/' :: ("workspace/".toList ++ urlencode path.toList) := by
      simp [mirrorAddress, codeAddress]
    have hname : mirrorName code path =
        '/' :: code.toList ++ '/' :: ("workspace/".toList ++ path.toList) := by
      simp [mirrorName, codeAddress]
    rw [← hcode, haddress, hname]
    exact addressed_eq_ok_iff ('/' :: code.toList) hchars hbytes

/-- The packaged theme renders a page with the links of its step behind the content, at the root of
a host, where no neighbour's code is empty. -/
theorem anchors_of_page {p : Projection Tree Blob} (htheme : p.theme = .packaged)
    (hbase : p.settings.baseUrl = "/") {step : Step}
    (hprevious : ∀ code ∈ step.previous, code ≠ "") (hnext : ∀ code ∈ step.next, code ≠ "")
    {t : FileTree} {html : List Char} (h : p.page t step = .ok html) :
    (∀ u, p.page u step = .ok html) ∧ anchors (navigation html) = stepLinks step := by
  have hlinks (relation : String) {code : Option String} (hcode : ∀ c ∈ code, c ≠ "") :
      neighbourLinks (guideContext p.settings p.index) relation code =
        code.toList.map (neighbourLink relation) := by
    cases code with
    | none => rfl
    | some code =>
      have hne : [code].filter (· != "") = [code] := by simpa using hcode code rfl
      rw [neighbourLinks, Option.toList_some, hne]
      simp [neighbourLink, pageAddress, codeAddress, guideContext, hbase]
  constructor
  · intro u
    rw [← h, Projection.page, Projection.page, htheme]
    rfl
  · rw [Projection.page, htheme] at h
    split at h
    · cases h
    · next content _ =>
      rw [render_page] at h
      obtain rfl := Except.ok.inj h
      have hfiles : fileLink (step.context p.settings content) = mirrorLink step.page.code := by
        funext path
        simp [fileLink, fileAddress, mirrorLink, mirrorAddress, codeAddress, Step.context, hbase]
      rw [anchors_page, stepLinks, hfiles]
      exact congrArg₂ _ (congrArg₂ _ (hlinks "prev" hprevious) (hlinks "next" hnext)) rfl

/-! ## Builds -/

/-- A build from files that are sound leaves them so with every stage. -/
theorem BuildRun.sound_after {repository : Repository (Except Failure) Tree Blob}
    {settings : Settings} {s s' : State} {written : List Path}
    (run : BuildRun repository l settings s s' written) (hroot : l.root.Resolved)
    (hwalk : ∀ revision tree walk, repository.treeOf revision = .ok tree →
      repository.walkTree tree l.workspaceDir = .ok walk →
        ∀ e ∈ walk, e.kind = .file → IsFilePath e.path) : run.after.files.Sound := by
  have hwritable (code : String) :
      StepWritable (fun _ ↦ True) run.before.files.find? l code := by
    have hplain := plain_stepDirectory hroot code
    exact ⟨fun _ _ ↦ .inl trivial, trivial,
      .of_plain (hplain.join (Path.plain_ofNames (by decide)))⟩
  exact ((keeps_exportSteps (p := run.projection) hroot rfl
    (fun _ _ hd ↦ isFilePath_outline hwalk hd) fun page _ ↦ hwritable page.page.code).after
      (.refl run.sound) run.exported).files

/-- A build has warned of what the index and the pages of its run make it warn of. -/
theorem BuildRun.warned {repository : Repository (Except Failure) Tree Blob}
    {settings : Settings} {s s' : State} {written : List Path}
    (run : BuildRun repository l settings s s' written)
    (hrun : (buildFrom repository l settings).on s = (.ok written, s')) :
    Warned s s' (buildWarnings run.index run.pages) := by
  obtain ⟨theme, index, pages, steps, shared, hindex, hpages, -, -, hwarned⟩ :=
    warned_buildFrom hrun
  obtain rfl : run.index = index := Except.ok.inj (run.indexed.symm.trans hindex)
  obtain rfl : run.pages = pages := Except.ok.inj (run.sequenced.symm.trans hpages)
  exact hwarned

/-- A build with the packaged theme, at the root of a host, that warns of nothing: the links on the
landing page are those to all pages, in order, and the links of every page, behind its content, are
those to its neighbours and to the files of its workspace. Read as an address, each leads to the
directory of its page, in which the page is written, exactly if the code stands for itself. -/
theorem build_addresses {s s' : State} (hs : s.files.Sound)
    (htidy : ∀ repository ∈ s.repositories, repository.2.Tidy) (hroot : l.root.Resolved)
    {settings : Settings} (hbase : settings.baseUrl = "/")
    (htheme : ((themeOf l).on s).1 = .ok .packaged) {written : List Path}
    (hrun : (build l settings).on s = (.ok written, s')) (hnone : Warned s s' []) :
    ∃ (p : Projection TreeHandle (List UInt8)) (steps : List Step),
      p.repository = historyIn s l.root ∧ p.layout = l ∧ p.settings = settings ∧
      p.theme = .packaged ∧ ((loadIndex l.index).on s).1 = .ok p.index ∧
      steps.map (·.page.code) = p.index.codes ∧
      Linked l (guideContext settings p.index) steps written ∧
      (∃ html, s'.files.find? (landingPath l).place = some (.file (Utf8.encode html)) ∧
        anchors html = p.index.codes.map fun code ↦ [("href", codeAddress code)]) ∧
      (∀ step ∈ steps, ∃ html, (∀ t, p.page t step = .ok html) ∧
        anchors (navigation html) = stepLinks step ∧
        ("." ∉ p.index.codes →
          s'.files.find? (Layout.child (stepDirectory l step.page.code) "index.html").place =
            some (.file (Utf8.encode html)))) ∧
      ∀ code ∈ p.index.codes,
        Layout.child (stepDirectory l code) "index.html" ∈ written ∧
        (addressed (codeAddress code) = .ok (codeAddress code) ↔
          standsForItself code.toList = true) ∧
        ∀ path, addressed (mirrorAddress code path) = .ok (mirrorName code path) ↔
          standsForItself code.toList = true := by
  rw [on_build] at hrun
  obtain ⟨run⟩ := buildFrom_eq_ok hs hroot hrun
  have hwalk := isFilePath_historyIn htidy l.root l.workspaceDir
  have hpackaged : run.theme = .packaged := Except.ok.inj (run.themed.symm.trans htheme)
  have hcodes : run.steps.map (·.page.code) = run.index.codes :=
    (warned_nil_iff (p := run.projection) run.indexed run.sequenced run.composed
      (run.warned hrun)).mp hnone
  have hlinked : Linked l (guideContext settings run.index) run.steps written :=
    linked_of_written (p := run.projection) run.indexed run.sequenced run.composed hcodes run.told
  have hmap : run.pages.map (·.page.code) = run.index.codes :=
    (map_code_of_mapM run.composed).1.symm.trans hcodes
  refine ⟨run.projection, run.steps, rfl, rfl, rfl, hpackaged, run.indexed, hcodes, hlinked, ?_, ?_,
    ?_⟩
  · obtain ⟨html, hhtml, hfound⟩ :=
      find?_writeLanding hroot (run.sound_after hroot hwalk) run.landed
    refine ⟨html, hfound, ?_⟩
    rw [hpackaged, render_landing] at hhtml
    obtain rfl := Except.ok.inj hhtml
    rw [anchors_landing, PageIndex.codes, List.map_map]
    simp [guideContext, pageAddress, codeAddress, hbase, BuildRun.projection]
  · intro step hstep
    obtain ⟨t, html, hhtml⟩ := page_of_exportSteps run.composed run.exported step hstep
    obtain ⟨i, hi⟩ := List.mem_iff_getElem?.mp hstep
    obtain ⟨hprevious, hnext⟩ := links_of_mapM (p := run.projection)
      (Sequence.map_number_pages run.sequenced) run.composed hi
    have hnamed : ∀ code ∈ run.index.codes, code ≠ "" := by
      intro code hcode
      rw [← hmap] at hcode
      obtain ⟨page, hpage, rfl⟩ := List.mem_map.mp hcode
      exact (Sequence.isCode_of_mem_pages run.sequenced hpage).notEmpty
    obtain ⟨hsame', hanchors⟩ := anchors_of_page (p := run.projection) hpackaged hbase
      (fun code hcode ↦ by
        rw [hprevious] at hcode
        split at hcode
        · cases hcode
        · exact hnamed code (List.mem_of_getElem? hcode))
      (fun code hcode ↦ hnamed code (List.mem_of_getElem? (hnext ▸ hcode))) hhtml
    refine ⟨html, hsame', hanchors, fun hdot ↦ ?_⟩
    have hnodup : (run.pages.map (·.page.code)).Nodup := by
      rw [hmap, ← hcodes]
      exact hlinked.nodup
    obtain ⟨shown, hshown, hfound⟩ := run.shown hroot hwalk hnodup (hmap ▸ hdot) step hstep
    rw [hsame', Except.ok.injEq] at hshown
    exact hshown ▸ hfound
  · intro code hcode
    obtain ⟨hpage, hfiles⟩ := addressed_iff code
    exact ⟨hlinked.written code (.inl hcode), hpage, hfiles⟩

/-- A guide of two pages of which one stands for itself in an address, with its index. -/
def questionGuide : State where
  files := ⟨[(["/"], .directory), (["/", "guide"], .directory),
    (["/", "guide", ".codasai"], .directory),
    (["/", "guide", ".codasai", "guide.toml"], .file (Utf8.ofString "title = \"T\"\n")),
    (["/", "guide", ".codasai", "index.toml"], .file (Utf8.ofString
      "[[entries]]\nname = \"A\"\ncode = \"a\"\n\n[[entries]]\nname = \"B\"\ncode = \"b?\"\n"))]⟩
  repositories := [(⟨"/", ["guide"]⟩, {
    number := 0
    commits := [⟨commitId 0 0, "Add a", "", [⟨"pages/a.md", .regular, [10]⟩]⟩,
      ⟨commitId 0 1, "Add b", "", [⟨"pages/a.md", .regular, [10]⟩,
        ⟨"pages/b?.md", .regular, [10]⟩]⟩]
    staged := []
    hasIdentity := true })]
  logs := []

/-- Of two pages that a build links, the address of the one with a question mark in its name leads
elsewhere. -/
theorem build_addresses_question :
    ∃ (written : List Path) (s' : State),
      (build twoPagesLayout (Settings.ofTitle "T")).on questionGuide = (.ok written, s') ∧
      Warned questionGuide s' [] ∧
      Layout.child (stepDirectory twoPagesLayout "b?") "index.html" ∈ written ∧
      addressed (codeAddress "a") = .ok (codeAddress "a") ∧
      addressed (codeAddress "b?") ≠ .ok (codeAddress "b?") := by
  obtain ⟨written, hrun⟩ : ∃ written,
      (build twoPagesLayout (Settings.ofTitle "T")).on questionGuide =
        (.ok written, ((build twoPagesLayout (Settings.ofTitle "T")).on questionGuide).2) :=
    on_eq_ok (by decide +kernel)
  have hlisted : ((loadIndex twoPagesLayout.index).on questionGuide).1.toOption.map (·.codes) =
      some ["a", "b?"] := by decide +kernel
  have hfound : (Sequence.pages (historyIn questionGuide twoPagesLayout.root)
      twoPagesLayout.pagesDir (Settings.ofTitle "T").extension).toOption.map
        (·.map (·.page.code)) = some ["a", "b?"] := by decide +kernel
  have hnone : Warned questionGuide
      ((build twoPagesLayout (Settings.ofTitle "T")).on questionGuide).2 [] := by
    obtain ⟨theme, index, pages, steps, shared, hindex, hpages, hsteps, -, hwarned⟩ :=
      warned_buildFrom ((on_build _ _ _).symm.trans hrun)
    rw [hindex] at hlisted
    rw [hpages] at hfound
    exact (warned_nil_iff hindex hpages hsteps hwarned).mpr ((map_code_of_mapM hsteps).1.trans
      ((Option.some.inj hfound).trans (Option.some.inj hlisted).symm))
  have htidy : ∀ repository ∈ questionGuide.repositories, repository.2.Tidy := by
    intro repository hmem
    obtain rfl := List.mem_singleton.mp hmem
    exact ⟨by decide, by decide, by decide⟩
  obtain ⟨p, steps, -, -, -, -, hindex, -, -, -, -, hcodes⟩ :=
    build_addresses (by decide +kernel) htidy (by decide : twoPagesLayout.root.Resolved) rfl
      (eq_ok_of_toOption (by decide +kernel)) hrun hnone
  rw [hindex] at hlisted
  rw [show p.index.codes = ["a", "b?"] from Option.some.inj hlisted] at hcodes
  obtain ⟨-, hplain, -⟩ := hcodes "a" (by simp)
  obtain ⟨hwritten, hquestion, -⟩ := hcodes "b?" (by simp)
  exact ⟨written, _, hrun, hnone, hwritten, hplain.mpr (by decide),
    fun h ↦ absurd (hquestion.mp h) (by decide)⟩

end Guidebook.Workflow
