import Guidebook.Proofs.Index
import Guidebook.Proofs.Project.Alignment
import Guidebook.Proofs.Project.Stages

/-!
# Links and warnings

A build takes the links of a step from the index, by the step's number, and warns where the index
and the history disagree. It warns of nothing exactly if both list the same codes. Then every step
leads to its neighbours and is led to by them, and every page that is led to is written.
-/

namespace Guidebook.Workflow

open Git

variable {α β : Type} {Tree Blob : Type} {l : Layout}

/-! ## Warnings -/

/-- Between two worlds something was reported, with these warnings. -/
def Warned (s t : State) (warnings : List LogRecord) : Prop :=
  ∃ added, t.logs = s.logs ++ added ∧ added.filter (·.level == .warning) = warnings

section Warned

variable {s t u : State} {first second : List LogRecord}

theorem Warned.of_logs (h : t.logs = s.logs) : Warned s t [] := ⟨[], by simp [h], rfl⟩

theorem Warned.trans (h : Warned s t first) (h' : Warned t u second) :
    Warned s u (first ++ second) := by
  obtain ⟨added, hadded, rfl⟩ := h
  obtain ⟨more, hmore, rfl⟩ := h'
  refine ⟨added ++ more, ?_, List.filter_append ..⟩
  rw [hmore, hadded, List.append_assoc]

/-- The warnings between two worlds are known from the reports. -/
theorem Warned.iff_eq (h : Warned s t first) : Warned s t second ↔ first = second := by
  constructor
  · rintro ⟨other, hother, rfl⟩
    obtain ⟨added, hadded, rfl⟩ := h
    rw [List.append_cancel_left (hadded.symm.trans hother)]
  · rintro rfl
    exact h

end Warned

/-- Whenever the workflow succeeds it has given these warnings. -/
def Warns (warnings : List LogRecord) (w : Workflow α) : Prop :=
  ∀ s a t, w.on s = (.ok a, t) → Warned s t warnings

namespace Warns

variable {first second : List LogRecord}

theorem pure (a : α) : Warns [] (Pure.pure a : Workflow α) := by
  intro s _ t h
  obtain ⟨-, rfl⟩ := Prod.mk.inj h
  exact .of_logs rfl

theorem throw (failure : Failure) : Warns first (MonadExcept.throw failure : Workflow α) := by
  intro s _ t h
  cases h

theorem bind {w : Workflow α} {f : α → Workflow β} (hw : Warns first w)
    (hf : ∀ a, Warns second (f a)) : Warns (first ++ second) (w >>= f) := by
  intro s b t h
  obtain ⟨a, u, hfirst, hsecond⟩ := on_bind_eq_ok h
  exact (hw s a u hfirst).trans (hf a u b t hsecond)

/-- Nothing is warned of before the rest. -/
theorem after {w : Workflow α} {f : α → Workflow β} (hw : Warns [] w)
    (hf : ∀ a, Warns second (f a)) : Warns second (w >>= f) :=
  hw.bind hf

/-- Nothing is warned of after the first. -/
theorem before {w : Workflow α} {f : α → Workflow β} (hw : Warns first w)
    (hf : ∀ a, Warns [] (f a)) : Warns first (w >>= f) := by
  rw [← List.append_nil first]
  exact hw.bind hf

theorem ofResult (r : Except Failure α) : Warns [] (Guidebook.ofResult r : Workflow α) := by
  intro s a t h
  obtain ⟨-, rfl⟩ := on_ofResult_eq_ok h
  exact .of_logs rfl

theorem files : Warns [] Workflow.files := fun _ _ _ h ↦ by
  obtain ⟨-, rfl⟩ := Prod.mk.inj h
  exact .of_logs rfl

theorem setFiles (t : FileTree) : Warns [] (Workflow.setFiles t) := fun _ _ _ h ↦ by
  obtain ⟨-, rfl⟩ := Prod.mk.inj h
  exact .of_logs rfl

/-- A report that is no warning. -/
theorem log {level : LogLevel} (h : level ≠ .warning) (logger message : String) :
    Warns [] (Workflow.log level logger message) := by
  intro s _ t hrun
  obtain ⟨-, rfl⟩ := Prod.mk.inj hrun
  exact ⟨_, rfl, by simp [h]⟩

theorem warning (logger message : String) :
    Warns [⟨.warning, logger, message⟩] (Workflow.log .warning logger message) := by
  intro s _ t hrun
  obtain ⟨-, rfl⟩ := Prod.mk.inj hrun
  exact ⟨_, rfl, rfl⟩

theorem write (path : Path) (bytes : List UInt8) : Warns [] (Workflow.write path bytes) :=
  files.bind fun _ ↦ (ofResult _).bind setFiles

theorem makeDirectories (path : Path) : Warns [] (Workflow.makeDirectories path) :=
  files.bind fun _ ↦ (ofResult _).bind setFiles

theorem removeTree (path : Path) : Warns [] (Workflow.removeTree path) :=
  files.bind fun _ ↦ setFiles _

theorem themeOf (l : Layout) : Warns [] (Workflow.themeOf l) := files.bind fun _ ↦ pure _

theorem loadIndex (path : Path) : Warns [] (Workflow.loadIndex path) := by
  refine files.bind fun t ↦ ?_
  split
  · cases t.read path with
    | ok bytes => exact ofResult _
    | error problem => exact throw _
  · exact (log (by decide) _ _).bind fun _ ↦ pure _

theorem clearDirectory (path : Path) : Warns [] (Workflow.clearDirectory path) := by
  refine files.bind fun t ↦ ?_
  split
  · exact pure _
  · exact removeTree _
  · exact throw _

theorem copyFiles (dest : Path) (found : List (List String × List UInt8)) :
    Warns [] (Workflow.copyFiles dest found) := by
  induction found with
  | nil => exact pure _
  | cons file rest ih =>
    exact (makeDirectories _).bind fun _ ↦ (write _ _).bind fun _ ↦ ih.bind fun _ ↦ pure _

theorem copyDirectory (source dest : Path) : Warns [] (Workflow.copyDirectory source dest) := by
  refine files.bind fun t ↦ ?_
  split
  · exact copyFiles _ _
  · exact pure _

theorem copyStatic (theme : Theme) (dest : Path) : Warns [] (Workflow.copyStatic theme dest) := by
  cases theme with
  | packaged => exact copyFiles _ _
  | own dir => exact copyDirectory _ _

theorem writePublic (l : Layout) (settings : Settings) :
    Warns [] (Workflow.writePublic l settings) :=
  (copyDirectory _ _).bind fun _ ↦ (themeOf l).bind fun _ ↦ (copyStatic _ _).bind fun _ ↦
    (makeDirectories _).bind fun _ ↦ (write _ _).bind fun _ ↦ pure _

theorem writeMirrored (bytes : List UInt8) (target : Path) (revision : Option String)
    (path : String) : Warns [] (Workflow.writeMirrored bytes target revision path) :=
  (makeDirectories _).bind fun _ ↦ (write _ _).bind fun _ ↦ (ofResult _).bind fun _ ↦
    (write _ _).bind fun _ ↦ pure _

theorem writeLanding (l : Layout) (theme : Theme) (guide : GuideContext) :
    Warns [] (Workflow.writeLanding l theme guide) :=
  files.bind fun _ ↦ (ofResult _).bind fun _ ↦ (makeDirectories _).bind fun _ ↦
    (write _ _).bind fun _ ↦ pure _

theorem exportFiles (p : Projection Tree Blob) (step : Step) (tree : Tree) (out : Path)
    (paths : List String) : Warns [] (Workflow.exportFiles p step tree out paths) := by
  induction paths with
  | nil => exact pure _
  | cons path rest ih =>
    exact (ofResult _).bind fun _ ↦ (writeMirrored _ _ _ _).bind fun _ ↦ ih.bind fun _ ↦ pure _

theorem exportStep (p : Projection Tree Blob) (step : Step) :
    Warns [] (Workflow.exportStep p step) :=
  (makeDirectories _).bind fun _ ↦ (log (by decide) _ _).bind fun _ ↦ files.bind fun _ ↦
    (ofResult _).bind fun _ ↦ (write _ _).bind fun _ ↦ (ofResult _).bind fun _ ↦
      (exportFiles _ _ _ _ _).bind fun _ ↦ pure _

end Warns

/-- The warning that the index lists another number of pages, if it does. -/
def countWarnings (index : PageIndex) (count : Nat) : List LogRecord :=
  if count = index.size then []
  else [⟨.warning, "codasai.build",
    "history has " ++ toString count ++ " pages but the index lists " ++ toString index.size⟩]

/-- The warning that a page is not where the index has it, if it is not. -/
def positionWarnings (index : PageIndex) (page : SequencedPage) : List LogRecord :=
  (positionWarning index page.page.code page.number).toList.map (⟨.warning, "codasai.projector", ·⟩)

/-- All warnings of a build. -/
def buildWarnings (index : PageIndex) (pages : List SequencedPage) : List LogRecord :=
  countWarnings index pages.length ++ pages.flatMap (positionWarnings index)

theorem warns_reportPages (l : Layout) (index : PageIndex) (count : Nat) :
    Warns (countWarnings index count) (reportPages l index count) := by
  refine (Warns.log (by decide) _ _).after fun _ ↦ ?_
  rw [countWarnings]
  by_cases hcount : count = index.size
  · rw [if_pos hcount, if_neg (by simpa using hcount)]
    exact Warns.pure _
  · rw [if_neg hcount, if_pos (by simpa using hcount)]
    exact Warns.warning _ _

theorem warns_reportPosition (p : Projection Tree Blob) (page : SequencedPage) :
    Warns (positionWarnings p.index page) (reportPosition p page) := by
  rw [reportPosition, positionWarnings]
  cases positionWarning p.index page.page.code page.number with
  | none => exact Warns.pure _
  | some message => exact Warns.warning _ _

/-- Steps warn of their pages, one after another. -/
theorem warns_exportSteps (p : Projection Tree Blob) (pages : List SequencedPage) :
    Warns (pages.flatMap (positionWarnings p.index)) (exportSteps p pages) := by
  induction pages with
  | nil => exact Warns.pure _
  | cons page rest ih =>
    rw [exportSteps_cons, List.flatMap_cons]
    refine (warns_reportPosition p page).bind fun _ ↦ (Warns.ofResult _).after fun step ↦ ?_
    exact (Warns.exportStep p step).after fun _ ↦ ih.before fun _ ↦ Warns.pure _

theorem positionWarnings_eq_nil_iff {index : PageIndex} {page : SequencedPage} :
    positionWarnings index page = [] ↔ index.positionOf page.page.code = some page.number := by
  rw [positionWarnings, List.map_eq_nil_iff, Option.toList_eq_nil_iff, positionWarning]
  simp

/-- Numbered in order, a page has the number of its place. -/
private theorem number_eq {pages : List SequencedPage}
    (hnumbers : pages.map (·.number) = List.range pages.length) {i : Nat} {page : SequencedPage}
    (h : pages[i]? = some page) : page.number = i := by
  obtain ⟨hlt, -⟩ := List.getElem?_eq_some_iff.mp h
  have hi : (pages.map (·.number))[i]? = (List.range pages.length)[i]? := by rw [hnumbers]
  rw [List.getElem?_map, h, List.getElem?_range hlt] at hi
  exact Option.some.inj hi

/-- There is nothing to warn of exactly if the pages, numbered in order, have the codes of the
index in its order. -/
theorem buildWarnings_eq_nil_iff {index : PageIndex} (h : index.codes.Nodup)
    {pages : List SequencedPage} (hnumbers : pages.map (·.number) = List.range pages.length) :
    buildWarnings index pages = [] ↔ pages.map (·.page.code) = index.codes := by
  rw [buildWarnings, List.append_eq_nil_iff, List.flatMap_eq_nil_iff, ← PageIndex.eq_codes_iff h,
    List.length_map]
  refine and_congr (by simp [countWarnings]) ?_
  simp only [positionWarnings_eq_nil_iff]
  constructor
  · intro hpages i code hcode
    rw [List.getElem?_map] at hcode
    obtain ⟨page, hpage, rfl⟩ := Option.map_eq_some_iff.mp hcode
    rw [hpages page (List.mem_of_getElem? hpage), number_eq hnumbers hpage]
  · intro hplaces page hmem
    obtain ⟨i, hpage⟩ := List.mem_iff_getElem?.mp hmem
    rw [number_eq hnumbers hpage]
    exact hplaces i page.page.code (by rw [List.getElem?_map, hpage]; rfl)

/-! ## Links -/

/-- Steps that lead to their neighbours: the first has none before it and the last none behind it.
What they and the table of contents lead to is among the files written. -/
structure Linked (l : Layout) (guide : GuideContext) (steps : List Step) (written : List Path) :
    Prop where
  nodup : (steps.map (·.page.code)).Nodup
  previous : ∀ i step, steps[i]? = some step →
    step.previous = if i = 0 then none else (steps[i - 1]?).map (·.page.code)
  next : ∀ i step, steps[i]? = some step → step.next = (steps[i + 1]?).map (·.page.code)
  inverse : ∀ a ∈ steps, ∀ b ∈ steps,
    (a.next = some b.page.code ↔ b.previous = some a.page.code)
  written : ∀ code, (code ∈ guide.index.map (·.code) ∨
      ∃ step ∈ steps, step.previous = some code ∨ step.next = some code) →
    Layout.child (stepDirectory l code) "index.html" ∈ written

section Links

variable {p : Projection Tree Blob} {pages : List SequencedPage} {steps : List Step}

/-- A step takes its links from the index, beside its own place in the history. -/
theorem links_of_mapM (hnumbers : pages.map (·.number) = List.range pages.length)
    (hsteps : pages.mapM p.project = .ok steps) {i : Nat} {step : Step}
    (h : steps[i]? = some step) :
    step.previous = (if i = 0 then none else p.index.codes[i - 1]?) ∧
      step.next = p.index.codes[i + 1]? := by
  obtain ⟨page, hpage, hproject⟩ := getElem?_of_mapM hsteps h
  obtain ⟨d, -, rfl⟩ := map_eq_ok hproject
  obtain rfl := number_eq hnumbers hpage
  have hprevious := p.index.map_code_atPosition (page.number - 1 : Int)
  have hnext := p.index.map_code_atPosition (page.number + 1 : Int)
  have hbefore : (page.number - 1 : Int).toNat = page.number - 1 := by omega
  have hafter : (page.number + 1 : Int).toNat = page.number + 1 := by omega
  refine ⟨hprevious.trans ?_, hnext.trans ?_⟩
  · by_cases hzero : page.number = 0
    · rw [if_pos hzero, if_pos (by omega)]
    · rw [if_neg hzero, if_neg (by omega), hbefore]
  · rw [if_neg (by omega), hafter]

/-- Where the steps have the codes of the index, they lead to each other. -/
theorem linked_of_codes (hnumbers : pages.map (·.number) = List.range pages.length)
    (hsteps : pages.mapM p.project = .ok steps) (hindex : p.index.codes.Nodup)
    (hcodes : steps.map (·.page.code) = p.index.codes) {written : List Path}
    (hwritten : ∀ step ∈ steps,
      Layout.child (stepDirectory l step.page.code) "index.html" ∈ written) :
    Linked l (guideContext p.settings p.index) steps written := by
  have hcode (i : Nat) : p.index.codes[i]? = (steps[i]?).map (·.page.code) := by
    rw [← hcodes, List.getElem?_map]
  have hnodup : (steps.map (·.page.code)).Nodup := hcodes ▸ hindex
  have hprevious {i : Nat} {step : Step} (h : steps[i]? = some step) :
      step.previous = if i = 0 then none else (steps[i - 1]?).map (·.page.code) := by
    rw [(links_of_mapM hnumbers hsteps h).1, hcode]
  have hnext {i : Nat} {step : Step} (h : steps[i]? = some step) :
      step.next = (steps[i + 1]?).map (·.page.code) := by
    rw [(links_of_mapM hnumbers hsteps h).2, hcode]
  -- no two steps have one code, so a code says at which place it stands
  have hplace {i j : Nat} {step : Step} (h : steps[j]? = some step) :
      (steps[i]?).map (·.page.code) = some step.page.code ↔ i = j := by
    have hj : (steps.map (·.page.code))[j]? = some step.page.code := by
      rw [List.getElem?_map, h]
      rfl
    rw [← List.getElem?_map, ← hj, eq_comm,
      List.getElem?_inj (List.getElem?_eq_some_iff.mp hj).1 hnodup, eq_comm]
  refine ⟨hnodup, fun i step ↦ hprevious, fun i step ↦ hnext, ?_, ?_⟩
  · intro a ha b hb
    obtain ⟨i, hi⟩ := List.mem_iff_getElem?.mp ha
    obtain ⟨j, hj⟩ := List.mem_iff_getElem?.mp hb
    rw [hnext hi, hplace hj, hprevious hj]
    split
    · simp_all
    · rw [hplace hi]
      omega
  · intro code hled
    have hmem : code ∈ steps.map (·.page.code) := by
      rcases hled with hentry | ⟨step, hstep, hlink⟩
      · rw [hcodes]
        exact hentry
      · obtain ⟨i, hi⟩ := List.mem_iff_getElem?.mp hstep
        rcases hlink with hlink | hlink
        · rw [hprevious hi] at hlink
          split at hlink
          · cases hlink
          · rw [← List.getElem?_map] at hlink
            exact List.mem_of_getElem? hlink
        · rw [hnext hi, ← List.getElem?_map] at hlink
          exact List.mem_of_getElem? hlink
    obtain ⟨step, hstep, rfl⟩ := List.mem_map.mp hmem
    exact hwritten step hstep

end Links

/-! ## Builds -/

/-- An index that is loaded has no code twice. -/
theorem nodup_of_loadIndex {path : Path} {s : State} {index : PageIndex}
    (h : ((loadIndex path).on s).1 = .ok index) : index.codes.Nodup := by
  rcases (keeps_loadIndex s path s (.refl s)).2 index h with ⟨-, rfl⟩ | ⟨bytes, -, hbytes⟩
  · exact PageIndex.sound_empty.nodup
  · exact (PageIndex.sound_of_ofBytes hbytes).nodup

/-- What a build that succeeds has shown and told, with its warnings. -/
theorem warned_buildFrom {repository : Repository (Except Failure) Tree Blob}
    {settings : Settings} {s s' : State} {written : List Path}
    (hrun : (buildFrom repository l settings).on s = (.ok written, s')) :
    ∃ theme index pages steps shared, ((loadIndex l.index).on s).1 = .ok index ∧
      Sequence.pages repository l.pagesDir settings.extension = .ok pages ∧
      pages.mapM (Projection.mk repository l settings index theme).project = .ok steps ∧
      written = shared ++ steps.flatMap (stepPaths l) ++ [landingPath l] ∧
      Warned s s' (buildWarnings index pages) := by
  rw [buildFrom] at hrun
  obtain ⟨theme, s1, htheme, hrun⟩ := on_bind_eq_ok hrun
  have hsame : s = s1 := by
    rw [themeOf, on_bind_ok (on_files s)] at htheme
    exact (Prod.mk.inj htheme).2
  subst hsame
  obtain ⟨index, s2, hindex, hrun⟩ := on_bind_eq_ok hrun
  obtain ⟨_, s3, hclear, hrun⟩ := on_bind_eq_ok hrun
  obtain ⟨shared, s4, hpublic, hrun⟩ := on_bind_eq_ok hrun
  obtain ⟨pages, s5, hpages, hrun⟩ := on_bind_eq_ok hrun
  obtain ⟨hfound, rfl⟩ := on_ofResult_eq_ok hpages
  obtain ⟨_, s6, hreport, hrun⟩ := on_bind_eq_ok hrun
  obtain ⟨stepped, s7, hsteps, hrun⟩ := on_bind_eq_ok hrun
  obtain ⟨steps, hmap, rfl⟩ := (answer_exportSteps pages).answer trivial hsteps
  obtain ⟨landing, s8, hlanding, hrun⟩ := on_bind_eq_ok hrun
  obtain ⟨hwritten, rfl⟩ := Prod.mk.inj hrun
  obtain rfl : landing = landingPath l := answer_writeLanding.answer trivial hlanding
  refine ⟨theme, index, pages, steps, shared, by rw [hindex], hfound, hmap,
    (Except.ok.inj hwritten).symm, ?_⟩
  have hbefore : Warned s s4 [] :=
    ((Warns.loadIndex _ _ _ _ hindex).trans (Warns.clearDirectory _ _ _ _ hclear)).trans
      (Warns.writePublic _ _ _ _ _ hpublic)
  have hexported : Warned s4 s7 (buildWarnings index pages) :=
    (warns_reportPages _ _ _ _ _ _ hreport).trans (warns_exportSteps _ _ _ _ _ hsteps)
  have hall := (hbefore.trans hexported).trans (Warns.writeLanding _ _ _ _ _ _ hlanding)
  rwa [List.nil_append, List.append_nil] at hall

section Builds

variable {p : Projection Tree Blob} {pages : List SequencedPage} {steps : List Step}
  {extension : String} {s s' : State} (hindex : ((loadIndex l.index).on s).1 = .ok p.index)
  (hpages : Sequence.pages p.repository l.pagesDir extension = .ok pages)
  (hsteps : pages.mapM p.project = .ok steps)

include hindex hpages hsteps

/-- Nothing is warned of exactly if the steps have the codes of the index in order. -/
theorem warned_nil_iff (hwarned : Warned s s' (buildWarnings p.index pages)) :
    Warned s s' [] ↔ steps.map (·.page.code) = p.index.codes := by
  rw [hwarned.iff_eq, buildWarnings_eq_nil_iff (nodup_of_loadIndex hindex)
    (Sequence.map_number_pages hpages), (map_code_of_mapM hsteps).1]

/-- Where the steps have the codes of the index, a build that has written them has linked them. -/
theorem linked_of_written (hcodes : steps.map (·.page.code) = p.index.codes)
    {written front back : List Path}
    (htold : written = front ++ steps.flatMap (stepPaths l) ++ back) :
    Linked l (guideContext p.settings p.index) steps written := by
  refine linked_of_codes (Sequence.map_number_pages hpages) hsteps (nodup_of_loadIndex hindex)
    hcodes fun step hstep ↦ ?_
  have hpage : Layout.child (stepDirectory l step.page.code) "index.html" ∈ stepPaths l step :=
    List.mem_cons_self
  simp only [htold, List.mem_append, List.mem_flatMap]
  exact .inl (.inr ⟨step, hstep, hpage⟩)

end Builds

/-- A build that succeeds has warned of the numbers and the places in which the history and the
index differ, and of nothing else: of nothing at all exactly if its steps have the codes of the
index in order. Then the codes are different, every step leads to its neighbours and is led to by
them, and all pages that are led to are written. -/
theorem build_unwarned_iff {s s' : State} {settings : Settings} {written : List Path}
    (hrun : (build l settings).on s = (.ok written, s')) :
    ∃ (p : Projection TreeHandle (List UInt8)) (pages : List SequencedPage) (steps : List Step),
      p.repository = historyIn s l.root ∧ p.layout = l ∧ p.settings = settings ∧
      ((loadIndex l.index).on s).1 = .ok p.index ∧
      Sequence.pages p.repository l.pagesDir settings.extension = .ok pages ∧
      pages.mapM p.project = .ok steps ∧
      Warned s s' (buildWarnings p.index pages) ∧
      (Warned s s' [] ↔ steps.map (·.page.code) = p.index.codes) ∧
      (Warned s s' [] → Linked l (guideContext settings p.index) steps written) := by
  rw [on_build] at hrun
  obtain ⟨theme, index, pages, steps, shared, hindex, hpages, hsteps, rfl, hwarned⟩ :=
    warned_buildFrom hrun
  have hiff := warned_nil_iff hindex hpages hsteps hwarned
  exact ⟨⟨historyIn s l.root, l, settings, index, theme⟩, pages, steps, rfl, rfl, rfl, hindex,
    hpages, hsteps, hwarned, hiff, fun hnone ↦
      linked_of_written hindex hpages hsteps (hiff.mp hnone) rfl⟩

/-- Two pages that are saved one after the other lead to each other. -/
theorem build_unwarned_iff_saved :
    ∃ (written : List Path) (s' : State) (index : PageIndex) (steps : List Step),
      (build guideLayout (Settings.ofTitle "T")).on savedGuide = (.ok written, s') ∧
      steps.map (·.page.code) = ["a", "b"] ∧ Warned savedGuide s' [] ∧
      Linked guideLayout (guideContext (Settings.ofTitle "T") index) steps written := by
  obtain ⟨written, hrun⟩ : ∃ written,
      (build guideLayout (Settings.ofTitle "T")).on savedGuide =
        (.ok written, ((build guideLayout (Settings.ofTitle "T")).on savedGuide).2) :=
    on_eq_ok (by decide +kernel)
  obtain ⟨p, pages, steps, hrepository, -, hsettings, hindex, hpages, hsteps, -, hiff, hlinked⟩ :=
    build_unwarned_iff hrun
  have hlisted : ((loadIndex guideLayout.index).on savedGuide).1.toOption.map (·.codes) =
      some ["a", "b"] := by decide +kernel
  rw [hindex] at hlisted
  have hfound : (Sequence.pages (historyIn savedGuide guideLayout.root) guideLayout.pagesDir
      (Settings.ofTitle "T").extension).toOption.map (·.map (·.page.code)) = some ["a", "b"] := by
    decide +kernel
  rw [← hrepository, hpages] at hfound
  have hcodes : steps.map (·.page.code) = ["a", "b"] :=
    (map_code_of_mapM hsteps).1.trans (Option.some.inj hfound)
  have hnone := hiff.mpr (hcodes.trans (Option.some.inj hlisted).symm)
  exact ⟨written, _, p.index, steps, hrun, hcodes, hnone, hsettings ▸ hlinked hnone⟩

end Guidebook.Workflow
