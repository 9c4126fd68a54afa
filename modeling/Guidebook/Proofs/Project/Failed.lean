import Guidebook.Proofs.Project.Confined
import Guidebook.Proofs.Project.Leftovers

/-!
# Builds that fail

A build that fails keeps what it wrote before. What that is follows from the stage in which it
failed: nothing while it still loads what it needs, then some of the shared files, all of them, the
steps before the one that failed with some of its files, or everything but the landing page. The
whole history is sequenced before the first step is written.
-/

namespace Guidebook.Workflow

open Git FileTree

variable {α β : Type}

/-! ## Runs that fail -/

/-- A run in two parts that fails is one of which a part does. -/
theorem on_bind_eq_error {w : Workflow α} {f : α → Workflow β} {s t : State} {failure : Failure}
    (h : (w >>= f).on s = (.error failure, t)) :
    w.on s = (.error failure, t) ∨
      ∃ a u, w.on s = (.ok a, u) ∧ (f a).on u = (.error failure, t) := by
  rw [on_bind] at h
  rcases hw : w.on s with ⟨other | a, u⟩
  · rw [hw] at h
    obtain ⟨hfailure, rfl⟩ := Prod.mk.inj h
    exact .inl (by rw [Except.error.inj hfailure])
  · rw [hw] at h
    exact .inr ⟨a, u, rfl, h⟩

/-- A result that is a failure changes nothing. -/
theorem on_ofResult_eq_error {r : Except Failure α} {s t : State} {failure : Failure}
    (h : (ofResult r : Workflow α).on s = (.error failure, t)) : r = .error failure ∧ s = t := by
  rw [on_ofResult] at h
  exact Prod.mk.inj h

/-- Settings are loaded without a trace. -/
theorem on_loadRoot (root : Path) (s : State) :
    (loadRoot root).on s = (((loadRoot root).on s).1, s) := by
  have hsettings : ((loadSettings (Layout.ofRoot root).settings).on s).2 = s := by
    rw [loadSettings, on_bind_ok (on_files s)]
    split
    · rw [on_bind, on_read]
      cases s.files.read (Layout.ofRoot root).settings with
      | error problem => rfl
      | ok bytes => simp [Except.mapError]
    · rfl
  rw [loadRoot, on_bind]
  rcases hload : (loadSettings (Layout.ofRoot root).settings).on s with ⟨failure | settings, u⟩
  · rw [hload] at hsettings
    exact congrArg (Prod.mk _) hsettings
  · rw [hload] at hsettings
    exact congrArg (Prod.mk _) hsettings

section Stopping

variable {t : FileTree} {front : List Path} {P : List Path → Prop}

/-- A run that, once `front` was told, fails only when what was told has a property. -/
def Stops (t : FileTree) (front : List Path) (w : Workflow α) (P : List Path → Prop) : Prop :=
  ∀ s s' failure, Told t front s.files → w.on s = (.error failure, s') →
    ∃ written, P written ∧ Told t written s'.files

namespace Stops

theorem pure {a : α} : Stops t front (Pure.pure a) P := by
  intro s s' failure hs hrun
  cases hrun

theorem log (level : LogLevel) (logger message : String) :
    Stops t front (Workflow.log level logger message) P := by
  intro s s' failure hs hrun
  cases hrun

theorem ofResult (r : Except Failure α) (h : P front) :
    Stops t front (Guidebook.ofResult r) P := by
  intro s s' failure hs hrun
  obtain ⟨-, rfl⟩ := on_ofResult_eq_error hrun
  exact ⟨front, h, hs⟩

theorem write (path : Path) (bytes : List UInt8) (h : P front) :
    Stops t front (Workflow.write path bytes) P := by
  intro s s' failure hs hrun
  rw [on_write] at hrun
  split at hrun
  · cases hrun
  · obtain ⟨-, rfl⟩ := Prod.mk.inj hrun
    exact ⟨front, h, hs⟩

theorem makeDirectories (path : Path) (h : P front) :
    Stops t front (Workflow.makeDirectories path) P := by
  intro s s' failure hs hrun
  rw [on_makeDirectories] at hrun
  split at hrun
  · cases hrun
  · obtain ⟨-, rfl⟩ := Prod.mk.inj hrun
    exact ⟨front, h, hs⟩

/-- What follows a part starts from what this part has told. -/
theorem bind {w : Workflow α} {f : α → Workflow β} {told : α → List Path} {Q : α → Prop}
    (hw : Stops t front w P) (htells : Tells t front w told)
    (hanswer : ∀ s s' a, s.files.Sound → w.on s = (.ok a, s') → Q a)
    (hf : ∀ a, Q a → Stops t (told a) (f a) P) : Stops t front (w >>= f) P := by
  intro s s' failure hs hrun
  rcases on_bind_eq_error hrun with hrun | ⟨a, u, hfirst, hrun⟩
  · exact hw s s' failure hs hrun
  · exact hf a (hanswer s u a hs.sound hfirst) u s' failure (htells s u a hs hfirst) hrun

/-- Nothing needs to be known of the answer of a part. -/
theorem andThen {w : Workflow α} {f : α → Workflow β} {told : α → List Path}
    (hw : Stops t front w P) (htells : Tells t front w told)
    (hf : ∀ a, Stops t (told a) (f a) P) : Stops t front (w >>= f) P :=
  hw.bind htells (Q := fun _ ↦ True) (fun _ _ _ _ _ ↦ trivial) fun a _ ↦ hf a

theorem files {f : FileTree → Workflow α} (hf : ∀ u, u.Sound → Stops t front (f u) P) :
    Stops t front (Workflow.files >>= f) P := by
  intro s s' failure hs hrun
  rw [on_bind_ok (on_files s)] at hrun
  exact hf _ hs.sound s s' failure hs hrun

theorem mono {Q : List Path → Prop} {w : Workflow α} (h : Stops t front w P)
    (hmono : ∀ written, P written → Q written) : Stops t front w Q := by
  intro s s' failure hs hrun
  obtain ⟨written, hwritten, htold⟩ := h s s' failure hs hrun
  exact ⟨written, hmono written hwritten, htold⟩

/-! ### Shared files -/

section Shared

variable {R : Path → Prop} (hfront : ∀ path ∈ front, R path)

include hfront

theorem copyFiles {dest : Path} (hdest : dest.Plain) {found : List (List String × List UInt8)}
    (hfound : ∀ file ∈ found, ∀ name ∈ file.1, Path.IsPart name)
    (hR : ∀ path, Below dest path → R path) :
    Stops t front (Workflow.copyFiles dest found) (∀ path ∈ ·, R path) := by
  induction found generalizing front with
  | nil => exact pure
  | cons file rest ih =>
    obtain ⟨hfile, hrest⟩ := List.forall_mem_cons.mp hfound
    have htarget := hdest.join (Path.plain_ofNames hfile)
    refine (makeDirectories _ hfront).andThen (Tells.makeDirectories htarget.parent) fun _ ↦ ?_
    refine (write _ _ hfront).andThen (Tells.write htarget file.2) fun _ ↦ ?_
    have hmore : ∀ path ∈ front ++ [dest.join (Path.ofNames file.1)], R path := by
      simpa [or_imp, forall_and] using ⟨hfront, hR _ ⟨file.1, hfile, rfl⟩⟩
    exact (ih hmore hrest).andThen (Tells.copyFiles hdest hrest) fun _ ↦ pure

theorem copyDirectory {source dest : Path} (hsource : source.Resolved) (hdest : dest.Plain)
    (hR : ∀ path, Below dest path → R path) :
    Stops t front (Workflow.copyDirectory source dest) (∀ path ∈ ·, R path) := by
  refine files fun u hu ↦ ?_
  split
  · exact copyFiles hfront hdest (fun file hfile ↦ hu.named_filesBelow hsource hfile) hR
  · exact pure

end Shared

theorem themeOf {l : Layout} {f : Theme → Workflow α}
    (hf : ∀ theme, theme = .packaged ∨ theme = .own l.ownTheme → Stops t front (f theme) P) :
    Stops t front (Workflow.themeOf l >>= f) P := by
  intro s s' failure hs hrun
  rw [on_bind_ok (on_themeOf l s)] at hrun
  exact hf _ ((keeps_themeOf (P := fun _ ↦ True) s trivial).2 _ rfl) s s' failure hs hrun

/-- Shared files are written until one of them cannot be. -/
theorem writePublic {l : Layout} (hroot : l.root.Resolved) (settings : Settings) :
    Stops t [] (Workflow.writePublic l settings) (∀ path ∈ ·, Shared l settings.style path) := by
  have huser : l.userStatic.Resolved := Layout.resolved_child hroot (by decide)
  have hown : (Layout.child l.ownTheme "static").Resolved :=
    Layout.resolved_child (Layout.resolved_child (resolved_metadata hroot) (by decide)) (by decide)
  have hpublic : l.exportPublic.Resolved :=
    Layout.resolved_child (resolved_exportRoot hroot) (by decide)
  have hdest : ∀ {name}, Path.IsPart name → (Layout.child l.exportPublic name).Plain :=
    fun hname ↦ (Layout.resolved_child hpublic hname).plain
  have hadmits : ∀ {name} (s : State), Path.IsPart name →
      AdmitsBelow (Within (fun _ ↦ True) s.files.find? s.repositories)
        (Layout.child l.exportPublic name) :=
    fun s hname ↦ (Writable.of_plain (hdest hname)).admitsBelow
  have hshared : ∀ {name}, Path.IsPart name → ∀ path,
      Below (Layout.child l.exportPublic name) path → Shared l settings.style path :=
    fun hname path hpath ↦ .inl (hpath.of_child hname)
  have hsheet := plain_sheetPath hroot settings.style
  have hisUser : Path.IsPart "user" := by decide
  have hisTheme : Path.IsPart "theme" := by decide
  refine (copyDirectory (by simp) huser (hdest hisUser) (hshared hisUser)).bind
    (Tells.copyDirectory huser (hdest hisUser)) (fun s s' written hs hrun ↦
      (keeps_copyDirectory Within.aboutFiles huser (hadmits s hisUser)).answer (.refl hs) hrun)
    fun user huserBelow ↦ themeOf fun theme hchoice ↦ ?_
  have hfirst : ∀ path ∈ [] ++ user, Shared l settings.style path :=
    fun path hpath ↦ hshared hisUser path (huserBelow path hpath)
  have hstatic : Stops t ([] ++ user) (copyStatic theme (Layout.child l.exportPublic "theme"))
        (∀ path ∈ ·, Shared l settings.style path) ∧
      Tells t ([] ++ user) (copyStatic theme (Layout.child l.exportPublic "theme"))
        ([] ++ user ++ ·) ∧
      ∀ s s' written, s.files.Sound →
        (copyStatic theme (Layout.child l.exportPublic "theme")).on s = (.ok written, s') →
          ∀ path ∈ written, Below (Layout.child l.exportPublic "theme") path := by
    rcases hchoice with rfl | rfl
    · exact ⟨copyFiles hfirst (hdest hisTheme) (by decide) (hshared hisTheme),
        Tells.copyFiles (hdest hisTheme) (by decide), fun s s' written hs hrun ↦
          (keeps_copyFiles (hadmits s hisTheme) (by decide)).answer (.refl hs) hrun⟩
    · exact ⟨copyDirectory hfirst hown (hdest hisTheme) (hshared hisTheme),
        Tells.copyDirectory hown (hdest hisTheme), fun s s' written hs hrun ↦
          (keeps_copyDirectory Within.aboutFiles hown (hadmits s hisTheme)).answer (.refl hs) hrun⟩
  refine hstatic.1.bind hstatic.2.1 hstatic.2.2 fun themed hthemed ↦ ?_
  have hboth : ∀ path ∈ [] ++ user ++ themed, Shared l settings.style path := by
    rintro path hpath
    rcases List.mem_append.mp hpath with hpath | hpath
    · exact hfirst path hpath
    · exact hshared hisTheme path (hthemed path hpath)
  exact (makeDirectories _ hboth).andThen (Tells.makeDirectories hsheet.parent) fun _ ↦
    (write _ _ hboth).andThen (Tells.write hsheet _) fun _ ↦ pure

/-! ### Steps -/

/-- Some of a list of paths, in order, behind others. -/
def Partly (front full written : List Path) : Prop :=
  ∃ part, part <+: full ∧ written = front ++ part

theorem Partly.none (front full : List Path) : Partly front full front :=
  ⟨[], List.nil_prefix, (List.append_nil front).symm⟩

theorem Partly.left {full more written : List Path} (h : Partly front full written) :
    Partly front (full ++ more) written := by
  obtain ⟨part, hpart, rfl⟩ := h
  exact ⟨part, hpart.trans (List.prefix_append _ _), rfl⟩

theorem Partly.behind {full more written : List Path} (h : Partly (front ++ full) more written) :
    Partly front (full ++ more) written := by
  obtain ⟨part, hpart, rfl⟩ := h
  exact ⟨full ++ part, (List.prefix_append_right_inj _).mpr hpart, List.append_assoc _ _ _⟩

theorem writeMirrored {target : Path} (htarget : target.Plain) (bytes : List UInt8)
    (revision : Option String) (shown : String) :
    Stops t front (Workflow.writeMirrored bytes target revision shown)
      (Partly front [target, companionPath target]) := by
  have hnone := Partly.none front [target, companionPath target]
  have hone : Partly front [target, companionPath target] (front ++ [target]) :=
    ⟨[target], by simp, rfl⟩
  exact (makeDirectories _ hnone).andThen (Tells.makeDirectories htarget.parent) fun _ ↦
    (write _ _ hnone).andThen (Tells.write htarget bytes) fun _ ↦
      (ofResult _ hone).andThen (Tells.ofResult _) fun _ ↦
        (write _ _ hone).andThen (Tells.write (plain_companionPath htarget) _) fun _ ↦ pure

variable {Tree Blob : Type} {p : Projection Tree Blob}

theorem exportFiles (step : Step) (tree : Tree) {out : Path} (hout : out.Plain)
    (paths : List String) :
    Stops t front (Workflow.exportFiles p step tree out paths)
      (Partly front (paths.flatMap (mirrorPaths out))) := by
  induction paths generalizing front with
  | nil => exact pure
  | cons path rest ih =>
    have htarget := hout.join (Path.plain_ofString path)
    rw [List.flatMap_cons]
    refine (ofResult _ (.none _ _)).andThen (Tells.ofResult _) fun bytes ↦ ?_
    refine ((writeMirrored htarget _ _ _).mono fun _ h ↦ h.left).bind
      (Tells.writeMirrored htarget _ _ _)
      (fun _ _ _ _ hrun ↦ (answer_writeMirrored _ _ _ _).answer trivial hrun) fun written h ↦ ?_
    rw [h]
    exact (ih.mono fun _ h ↦ h.behind).andThen (Tells.exportFiles step tree hout rest) fun _ ↦ pure

/-- The files of a step are written in order until one of them cannot be. -/
theorem exportStep (hroot : p.layout.root.Resolved) (step : Step) :
    Stops t front (Workflow.exportStep p step) (Partly front (stepPaths p.layout step)) := by
  have hout := plain_stepDirectory hroot step.page.code
  have hchild : ∀ {name}, Path.IsPart name →
      (Layout.child (stepDirectory p.layout step.page.code) name).Plain :=
    fun hname ↦ hout.join (Path.plain_ofNames (by simpa using hname))
  have hnone := Partly.none front (stepPaths p.layout step)
  refine (makeDirectories _ hnone).andThen (Tells.makeDirectories hout) fun _ ↦ ?_
  refine (log _ _ _).andThen (Tells.log _ _ _) fun _ ↦ files fun u _ ↦ ?_
  refine (ofResult _ hnone).andThen (Tells.ofResult _) fun html ↦ ?_
  refine (write _ _ hnone).andThen (Tells.write (hchild (by decide)) _) fun _ ↦ ?_
  have hone : Partly front (stepPaths p.layout step)
      (front ++ [Layout.child (stepDirectory p.layout step.page.code) "index.html"]) :=
    ⟨_, List.prefix_append [_] _, rfl⟩
  refine (ofResult _ hone).andThen (Tells.ofResult _) fun tree ↦ ?_
  exact ((exportFiles step tree (hchild (by decide)) _).mono fun _ h ↦ h.behind).andThen
    (Tells.exportFiles step tree (hchild (by decide)) _) fun _ ↦ pure

end Stops

end Stopping

/-! ## Stages -/

section Stages

variable {Tree Blob : Type} {p : Projection Tree Blob} {s s' : State} {failure : Failure}

/-- Writes the step of a page, with a report if the page is not where the index has it. -/
def exportPage (p : Projection Tree Blob) (page : SequencedPage) : Workflow (List Path) := do
  reportPosition p page
  let step ← ofResult (p.project page)
  exportStep p step

theorem exportSteps_eq_bind (page : SequencedPage) (rest : List SequencedPage) :
    exportSteps p (page :: rest) = do
      let written ← exportPage p page
      let others ← exportSteps p rest
      return written ++ others := by
  simp [exportSteps_cons, exportPage]

/-- Steps that cannot all be written are written up to the first that cannot be. -/
theorem exportSteps_eq_error {pages : List SequencedPage}
    (h : (exportSteps p pages).on s = (.error failure, s')) :
    ∃ before page after written u, pages = before ++ page :: after ∧
      (exportSteps p before).on s = (.ok written, u) ∧
      (exportPage p page).on u = (.error failure, s') := by
  induction pages generalizing s with
  | nil => cases h
  | cons page rest ih =>
    rw [exportSteps_eq_bind] at h
    rcases on_bind_eq_error h with h | ⟨first, v, hfirst, h⟩
    · exact ⟨[], page, rest, [], s, rfl, rfl, h⟩
    · rcases on_bind_eq_error h with h | ⟨others, w, -, h⟩
      · obtain ⟨before, failed, after, written, u, rfl, hbefore, hfailed⟩ := ih h
        refine ⟨page :: before, failed, after, first ++ written, u, rfl, ?_, hfailed⟩
        rw [exportSteps_eq_bind, on_bind_ok hfirst, on_bind_ok hbefore]
        rfl
      · cases h

/-- Some files of the step of a page, in order: none if the page has no step. -/
def SomeOfStep (p : Projection Tree Blob) (page : SequencedPage) (part : List Path) : Prop :=
  part = [] ∨ ∃ step, p.project page = .ok step ∧ part <+: stepPaths p.layout step

theorem stops_exportPage {t : FileTree} {front : List Path} (hroot : p.layout.root.Resolved)
    (page : SequencedPage) :
    Stops t front (exportPage p page) fun written ↦
      ∃ part, SomeOfStep p page part ∧ written = front ++ part := by
  have hreport : Stops t front (reportPosition p page) fun written ↦
      ∃ part, SomeOfStep p page part ∧ written = front ++ part := by
    rw [reportPosition]
    split
    · exact .log _ _ _
    · exact .pure
  refine hreport.andThen (Tells.reportPosition page) fun _ ↦ ?_
  refine (Stops.ofResult _ ⟨[], .inl rfl, (List.append_nil front).symm⟩).bind (Tells.ofResult _)
    (fun _ _ _ _ hrun ↦ (on_ofResult_eq_ok hrun).1) fun step hstep ↦ ?_
  refine (Stops.exportStep hroot step).mono ?_
  rintro _ ⟨part, hpart, rfl⟩
  exact ⟨part, .inr ⟨step, hstep, hpart⟩, rfl⟩

end Stages

section Building

variable {l : Layout} {settings : Settings} {s s' : State} {failure : Failure}

/-- The places of the shared files and of the directories on the way to them. -/
inductive OnWay (l : Layout) (style : String) : List String → Prop
  | root : OnWay l style l.exportRoot.parts
  | inside {place : List String} (h : l.exportPublic.parts <+: place) : OnWay l style place
  | sheet {front : List String} (h : front <+: (sheetPath l style).parts) :
    OnWay l style (Path.normalizeNames [] front)

/-- With a style that is a name, the way to shared files stays in the public directory. -/
theorem OnWay.of_name (hroot : l.root.Resolved) {style : String} (hstyle : '/' ∉ style.toList)
    {place : List String} (h : OnWay l style place) (hinside : l.exportRoot.parts <+: place) :
    place = l.exportRoot.parts ∨ l.exportPublic.parts <+: place := by
  cases h with
  | root => exact .inl rfl
  | inside h => exact .inr h
  | @sheet front h =>
    obtain ⟨heq, hname⟩ := sheetPath_eq (l := l) hstyle
    have hpublic : l.exportPublic.Resolved :=
      Layout.resolved_child (resolved_exportRoot hroot) (by decide)
    have hparts : (sheetPath l style).parts =
        l.exportRoot.parts ++ [Page.publicDir, "theme", "syntax", style ++ ".css"] := by
      rw [heq, Layout.parts_child, Path.parts_join _ rfl, Layout.exportPublic, Layout.parts_child,
        List.append_assoc, List.append_assoc]
      rfl
    have hup : ".." ∉ front := by
      intro hmem
      have hall := h.mem hmem
      rw [hparts, List.mem_append] at hall
      rcases hall with hall | hall
      · exact (resolved_exportRoot hroot).not_up hall
      · simp only [List.mem_cons, List.not_mem_nil, or_false] at hall
        rcases hall with hall | hall | hall | hall
        · exact absurd hall (by decide)
        · exact absurd hall (by decide)
        · exact absurd hall (by decide)
        · exact hname.notUp hall.symm
    rw [Path.normalizeNames_eq hup, List.nil_append] at hinside ⊢
    rw [hparts] at h
    rcases Path.prefix_append_cases h with h | ⟨inner, hinner, hrest, rfl⟩
    · exact .inl (h.eq_of_length_le hinside.length_le)
    · right
      obtain ⟨first, more, rfl⟩ := List.exists_cons_of_ne_nil hinner
      rw [(List.cons_prefix_cons.mp hrest).1, Layout.exportPublic, Layout.parts_child]
      simp

/-- Shared files lie where they should, with directories on the way to them only. -/
private theorem find?_writePublic (hs : s.files.Sound) (hroot : l.root.Resolved)
    (hmeta : s.files.find? l.metadata.parts = some .directory)
    (hempty : ∀ place, l.exportRoot.parts <+: place → s.files.find? place = none)
    {written : List Path} (hrun : (writePublic l settings).on s = (.ok written, s')) :
    (∃ copied, written = copied ++ [sheetPath l settings.style] ∧
      ∀ path ∈ copied, Below l.exportPublic path) ∧
    ∀ place, l.exportRoot.parts <+: place → s'.files.find? place ≠ none →
      OnWay l settings.style place := by
  have hpublic : l.exportPublic.Resolved :=
    Layout.resolved_child (resolved_exportRoot hroot) (by decide)
  have hwritable : Writable (OnWay l settings.style) s.files.find? l.exportPublic := by
    refine .of_resolved hpublic (fun _ ↦ .inside) fun front hfront hne ↦ ?_
    rw [Layout.exportPublic, Layout.parts_child] at hfront hne
    have hout := (List.prefix_concat_iff.mp hfront).resolve_left hne
    rw [Layout.exportRoot, Layout.parts_child] at hout
    rcases List.prefix_concat_iff.mp hout with rfl | hout
    · rw [← Layout.parts_child]
      exact .inl .root
    · rw [hs.find?_front hmeta hout]
      exact .inr rfl
  have hsheet : FileWritable (OnWay l settings.style) s.files.find? (sheetPath l settings.style) :=
    ⟨plain_sheetPath hroot _,
      fun front hfront ↦ .inl (.sheet (hfront.trans (prefix_parts_parent _))),
      .sheet List.prefix_rfl⟩
  have hkeeps : Keeps (Within (OnWay l settings.style) s.files.find? s.repositories)
      (writePublic l settings) fun written ↦
        ∃ copied, written = copied ++ [sheetPath l settings.style] ∧
          ∀ path ∈ copied, Below l.exportPublic path :=
    keeps_writePublic Within.aboutFiles hroot hwritable.admitsBelow hsheet.admits
  refine ⟨hkeeps.answer (.refl hs) hrun, fun place hinside hthere ↦ by_contra fun hnot ↦ hthere ?_⟩
  rw [(hkeeps.after (.refl hs) hrun).elsewhere place hnot, hempty place hinside]

/-- How far a build came that failed once its export was empty, and what it has written. -/
inductive FailedStage {Tree Blob : Type} (repository : Repository (Except Failure) Tree Blob)
    (l : Layout) (settings : Settings) (s : State) (failure : Failure) (s' : State) :
    List Path → Prop
  | shared {written : List Path} (h : ∀ path ∈ written, Shared l settings.style path) :
    FailedStage repository l settings s failure s' written
  | sequence {copied : List Path} (copied_below : ∀ path ∈ copied, Below l.exportPublic path)
      (sequenced : Sequence.pages repository l.pagesDir settings.extension = .error failure)
      (ways : ∀ place, l.exportRoot.parts <+: place → s'.files.find? place ≠ none →
        OnWay l settings.style place) :
    FailedStage repository l settings s failure s' (copied ++ [sheetPath l settings.style])
  | step {theme : Theme} {index : PageIndex} {before after : List SequencedPage}
      {page : SequencedPage} {copied part : List Path} {steps : List Step} {u v : State}
      (copied_below : ∀ path ∈ copied, Below l.exportPublic path)
      (themed : ((themeOf l).on s).1 = .ok theme)
      (indexed : ((loadIndex l.index).on s).1 = .ok index)
      (sequenced : Sequence.pages repository l.pagesDir settings.extension =
        .ok (before ++ page :: after))
      (composed : before.mapM (Projection.mk repository l settings index theme).project = .ok steps)
      (exported : (exportSteps ⟨repository, l, settings, index, theme⟩ before).on u =
        (.ok (steps.flatMap (stepPaths l)), v))
      (failed : (exportPage ⟨repository, l, settings, index, theme⟩ page).on v =
        (.error failure, s'))
      (some : SomeOfStep ⟨repository, l, settings, index, theme⟩ page part) :
    FailedStage repository l settings s failure s'
      (copied ++ [sheetPath l settings.style] ++ steps.flatMap (stepPaths l) ++ part)
  | landing {theme : Theme} {index : PageIndex} {pages : List SequencedPage} {copied : List Path}
      {steps : List Step} {u v : State}
      (copied_below : ∀ path ∈ copied, Below l.exportPublic path)
      (themed : ((themeOf l).on s).1 = .ok theme)
      (indexed : ((loadIndex l.index).on s).1 = .ok index)
      (sequenced : Sequence.pages repository l.pagesDir settings.extension = .ok pages)
      (composed : pages.mapM (Projection.mk repository l settings index theme).project = .ok steps)
      (exported : (exportSteps ⟨repository, l, settings, index, theme⟩ pages).on u =
        (.ok (steps.flatMap (stepPaths l)), v))
      (failed : (writeLanding l theme (guideContext settings index)).on v = (.error failure, s')) :
    FailedStage repository l settings s failure s'
      (copied ++ [sheetPath l settings.style] ++ steps.flatMap (stepPaths l))

/-- The landing page is not written if it cannot be. -/
private theorem stops_writeLanding {t : FileTree} {front : List Path} (hroot : l.root.Resolved)
    (theme : Theme) (guide : GuideContext) :
    Stops t front (writeLanding l theme guide) (· = front) := by
  have htarget : (Layout.child l.exportRoot "index.html").Plain :=
    (Layout.resolved_child (resolved_exportRoot hroot) (by decide)).plain
  refine .files fun _ _ ↦ .andThen (.ofResult _ rfl) (Tells.ofResult _) fun html ↦ ?_
  refine .andThen (.makeDirectories _ rfl) (Tells.makeDirectories htarget.parent) fun _ ↦ ?_
  exact .andThen (.write _ _ rfl) (Tells.write htarget _) fun _ ↦ .pure

/-- Reports never fail. -/
private theorem stops_reportPages {t : FileTree} {front : List Path} {P : List Path → Prop}
    (index : PageIndex) (count : Nat) : Stops t front (reportPages l index count) P := by
  refine .andThen (.log _ _ _) (Tells.log _ _ _) fun _ ↦ ?_
  split
  · exact .log _ _ _
  · exact .pure

/-- What a run leaves that fails to fill the export. -/
private theorem fillExport_eq_error {Tree Blob : Type}
    {repository : Repository (Except Failure) Tree Blob} {theme : Theme} {index : PageIndex}
    {u : State} (hu : u.files.Sound) (hroot : l.root.Resolved)
    (hmeta : u.files.find? l.metadata.parts = some .directory)
    (hempty : ∀ place, l.exportRoot.parts <+: place → u.files.find? place = none)
    (htheme : ((themeOf l).on s).1 = .ok theme) (hindex : ((loadIndex l.index).on s).1 = .ok index)
    (hrun : (fillExport repository l settings theme index).on u = (.error failure, s')) :
    ∃ written, FailedStage repository l settings s failure s' written ∧
      Told u.files written s'.files := by
  have hstart : Told u.files [] u.files := .refl hu
  rw [fillExport] at hrun
  rcases on_bind_eq_error hrun with hrun | ⟨shared, v, hshared, hrun⟩
  · obtain ⟨written, hwritten, htold⟩ := Stops.writePublic hroot settings _ _ _ hstart hrun
    exact ⟨written, .shared hwritten, htold⟩
  have hv : Told u.files shared v.files := Tells.writePublic hroot settings _ _ _ hstart hshared
  obtain ⟨⟨copied, rfl, hcopied⟩, hways⟩ := find?_writePublic hu hroot hmeta hempty hshared
  rcases on_bind_eq_error hrun with hrun | ⟨pages, w, hfound, hrun⟩
  · obtain ⟨hpages, rfl⟩ := on_ofResult_eq_error hrun
    exact ⟨_, .sequence hcopied hpages hways, hv⟩
  obtain ⟨hpages, rfl⟩ := on_ofResult_eq_ok hfound
  rcases on_bind_eq_error hrun with hrun | ⟨_, w, hreport, hrun⟩
  · obtain ⟨_, hnever, -⟩ := stops_reportPages (P := fun _ ↦ False) _ _ _ _ _ hv hrun
    exact hnever.elim
  have hw := Tells.reportPages index pages.length _ _ _ hv hreport
  rcases on_bind_eq_error hrun with hrun | ⟨stepped, x, hsteps, hrun⟩
  · obtain ⟨before, page, after, written, x, rfl, hbefore, hfailed⟩ := exportSteps_eq_error hrun
    obtain ⟨steps, hmap, rfl⟩ := (answer_exportSteps before).answer trivial hbefore
    have hx := Tells.exportSteps hroot before _ _ _ hw hbefore
    obtain ⟨_, ⟨part, hpart, rfl⟩, htold⟩ := stops_exportPage hroot page _ _ _ hx hfailed
    exact ⟨_, .step hcopied htheme hindex hpages hmap hbefore hfailed hpart, htold⟩
  obtain ⟨steps, hmap, rfl⟩ := (answer_exportSteps pages).answer trivial hsteps
  have hx := Tells.exportSteps hroot pages _ _ _ hw hsteps
  rcases on_bind_eq_error hrun with hrun | ⟨_, _, _, hrun⟩
  · obtain ⟨_, rfl, htold⟩ := stops_writeLanding hroot _ _ _ _ _ hx hrun
    exact ⟨_, .landing hcopied htheme hindex hpages hmap hsteps hrun, htold⟩
  · cases hrun

end Building

/-- A build that fails leaves what it wrote before, and that follows from the stage it came to.
Settings that cannot be loaded, an index that cannot be loaded and a file in the place of the export
leave all files as they are. Otherwise the export was emptied, and the files in it are among those
written since: some shared files; all shared files if the history cannot be sequenced, with
directories on the way to them only; the shared files, all files of the steps before the one that
fails and some of this one, in order; or all of these without the landing page. A style that is a
name keeps the shared files, and the directories on the way, in the public directory. -/
theorem build_error {s : State} (hs : s.files.Sound) {root : Path} (hroot : root.Resolved) :
    (∀ failure s', (loadRoot root).on s = (.error failure, s') → s' = s) ∧
    ∀ l settings, ((loadRoot root).on s).1 = .ok (l, settings) →
      (∀ failure s', (build l settings).on s = (.error failure, s') →
        (s'.files = s.files ∧ (((loadIndex l.index).on s).1 = .error failure ∨
          ∃ bytes, s.files.find? l.exportRoot.parts = some (.file bytes))) ∨
        ∃ written, FailedStage (historyIn s l.root) l settings s failure s' written ∧
          (∀ path ∈ written, s'.files.isFile path = true) ∧
          (∀ place bytes, l.exportRoot.parts <+: place →
            s'.files.find? place = some (.file bytes) → ∃ path ∈ written, path.place = place) ∧
          ∀ place bytes, ¬ l.exportRoot.parts <+: place →
            s'.files.find? place = some (.file bytes) →
              s.files.find? place = some (.file bytes) ∨ ∃ path ∈ written, path.place = place) ∧
      ('/' ∉ settings.style.toList →
        (∀ path, Shared l settings.style path → Below l.exportPublic path) ∧
        ∀ place, l.exportRoot.parts <+: place → OnWay l settings.style place →
          place = l.exportRoot.parts ∨ l.exportPublic.parts <+: place) := by
  refine ⟨fun failure s' hrun ↦ ?_, fun l settings hload ↦ ⟨fun failure s' hrun ↦ ?_, ?_⟩⟩
  · rw [on_loadRoot] at hrun
    exact (Prod.mk.inj hrun).2.symm
  · obtain ⟨rfl, hmeta⟩ := metadata_of_loadRoot hs hroot hload
    have hexport := resolved_exportRoot hroot
    rw [on_build, buildFrom_eq, on_bind_ok (on_themeOf l s)] at hrun
    rcases on_bind_eq_error hrun with hrun | ⟨index, u, hindex, hrun⟩
    · have hsame := (keeps_loadIndex s l.index).after (Same.refl s) hrun
      exact .inl ⟨hsame.1, .inl (by rw [hrun])⟩
    have hu := (keeps_loadIndex s l.index).after (Same.refl s) hindex
    have hsound : u.files.Sound := hu.1 ▸ hs
    rcases on_bind_eq_error hrun with hrun | ⟨_, v, hclear, hrun⟩
    · by_cases hfile : ∃ bytes, u.files.find? l.exportRoot.parts = some (.file bytes)
      · obtain ⟨bytes, hfile⟩ := hfile
        rw [on_clearDirectory_file hsound hexport hfile] at hrun
        obtain ⟨-, rfl⟩ := Prod.mk.inj hrun
        exact .inl ⟨hu.1, .inr ⟨bytes, hu.1 ▸ hfile⟩⟩
      · rw [on_clearDirectory hsound hexport fun bytes hbytes ↦ hfile ⟨bytes, hbytes⟩] at hrun
        cases hrun
    obtain ⟨hv, hempty, helse⟩ := clearDirectory_eq_ok hsound hexport hclear
    have hout : ¬ l.exportRoot.parts <+: l.metadata.parts := by
      intro hprefix
      have hlength := hprefix.length_le
      rw [Layout.exportRoot, Layout.parts_child, List.length_append, List.length_singleton]
        at hlength
      omega
    obtain ⟨written, hstage, htold⟩ := fillExport_eq_error hv hroot
      (by rw [helse _ hout, hu.1, hmeta]) hempty (by rw [on_themeOf]) (by rw [hindex]) hrun
    refine .inr ⟨written, hstage, fun path hpath ↦ ?_, fun place bytes hinside hfound ↦ ?_,
      fun place bytes houtside hfound ↦ ?_⟩
    · obtain ⟨hresolve, bytes, hfound⟩ := htold.there path hpath
      simp [FileTree.isFile, FileTree.node?, hresolve, hfound]
    · refine (htold.told place bytes hfound).resolve_left fun hold ↦ ?_
      rw [hempty place hinside] at hold
      cases hold
    · rw [← hu.1, ← helse place houtside]
      exact htold.told place bytes hfound
  · obtain ⟨rfl, -⟩ := metadata_of_loadRoot hs hroot hload
    refine fun hstyle ↦ ⟨?_, fun place hinside hway ↦ hway.of_name hroot hstyle hinside⟩
    rintro path (hbelow | rfl)
    · exact hbelow
    · exact below_sheetPath hstyle

/-- A history that adds a page under a name that the export keeps for itself. -/
def reservedPage : Store where
  number := 0
  commits := [⟨commitId 0 0, "Add a", "", [⟨"pages/a.md", .regular, [10]⟩]⟩,
    ⟨commitId 0 1, "Add public", "", [⟨"pages/a.md", .regular, [10]⟩,
      ⟨"pages/public.md", .regular, [10]⟩]⟩]
  staged := []
  hasIdentity := true

/-- The guide of two pages with this history, after a build. -/
def reservedGuide : State :=
  { leftoverGuide with repositories := [(⟨"/", ["guide"]⟩, reservedPage)] }

/-- The guide cannot be sequenced, and nothing is left in the export but public files. -/
theorem build_error_reserved :
    ∃ failure s' written,
      (build twoPagesLayout (Settings.ofTitle "T")).on reservedGuide = (.error failure, s') ∧
      FailedStage (historyIn reservedGuide twoPagesLayout.root) twoPagesLayout
        (Settings.ofTitle "T") reservedGuide failure s' written ∧
      ∀ place bytes, twoPagesLayout.exportRoot.parts <+: place →
        s'.files.find? place = some (.file bytes) → ∃ path ∈ written, path.place = place := by
  have hload : ((loadRoot twoPagesLayout.root).on reservedGuide).1 =
      .ok (twoPagesLayout, Settings.ofTitle "T") := eq_ok_of_toOption (by decide +kernel)
  obtain ⟨-, hbuild⟩ := build_error (s := reservedGuide) (by decide)
    (by decide : twoPagesLayout.root.Resolved)
  obtain ⟨hfails, -⟩ := hbuild _ _ hload
  have hnone : ((build twoPagesLayout (Settings.ofTitle "T")).on reservedGuide).1.toOption.isSome =
      false := by decide +kernel
  rcases hrun : (build twoPagesLayout (Settings.ofTitle "T")).on reservedGuide with
    ⟨failure | written, s'⟩
  · rcases hfails failure s' hrun with ⟨-, hindex | ⟨bytes, hfile⟩⟩ | ⟨written, hstage, -, hin, -⟩
    · have hloads : ((loadIndex twoPagesLayout.index).on reservedGuide).1.toOption.isSome =
          true := by decide +kernel
      rw [hindex] at hloads
      cases hloads
    · have hdirectory : reservedGuide.files.find? twoPagesLayout.exportRoot.parts =
          some .directory := by decide
      rw [hdirectory] at hfile
      cases hfile
    · exact ⟨failure, s', written, rfl, hstage, hin⟩
  · rw [hrun] at hnone
    cases hnone

end Guidebook.Workflow
