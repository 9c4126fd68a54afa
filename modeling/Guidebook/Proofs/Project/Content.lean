import Guidebook.Proofs.Git.Pages
import Guidebook.Proofs.Project.Mirror
import Guidebook.Proofs.Project.Save

/-!
# Content that builds refuse

A build refuses a page that is binary or not text, and a workspace file beside a page that is
neither binary nor text. It finds them in the commits that the log names, and refuses nothing else
for its content.
-/

namespace Guidebook

open Git

/-- A complaint about the content of a page or of a workspace file. -/
def Failure.IsContent : Failure → Prop
  | .content _ _ _ => True
  | _ => False

/-- A complaint about bytes: about content, or about a file that is not text. -/
def Failure.IsAboutBytes : Failure → Prop
  | .content _ _ _ => True
  | .notText _ => True
  | _ => False

theorem Failure.IsContent.aboutBytes {failure : Failure} (h : failure.IsContent) :
    failure.IsAboutBytes := by
  cases failure <;> first | exact h | trivial

/-- Bytes that a page may have: text, and not taken for binary. -/
def IsText (bytes : List UInt8) : Prop :=
  Code.isBinary bytes = false ∧ ∃ text, Utf8.decode bytes = .ok text

/-- The outline of the workspace of a commit. -/
def Git.Commit.outline (commit : Commit) (dir : String) : Except Failure Outline.Directory := do
  let walk ← TreeHandle.walk ⟨treeId commit.oid, commit.snapshot⟩ dir
  (Outline.build walk).mapError .outline

/-- The workspace files that a step of a commit shows are binary or text. -/
def ReadableWorkspace (dir : String) (commit : Commit) : Prop :=
  ∀ d, commit.outline dir = .ok d → ∀ path ∈ outlineFiles d, ∀ leaf,
    commit.snapshot.leaf? (workspacePath dir path) = some leaf → Workflow.Readable leaf.bytes

/-- The pages that a commit adds are text, and if there are any, so are the workspace files beside
them, or they are binary. -/
structure Legible (l : Layout) (change : Commit × List Leaf) : Prop where
  pages : ∀ leaf ∈ change.2, IsText leaf.bytes
  workspace : change.2 ≠ [] → ReadableWorkspace l.workspaceDir change.1

/-! ## Pages -/

namespace Sequence

variable {s : Store} {root pagesDir extension : String}

/-- Where a page comes from: its commit, and the path and the text of what is read there. -/
def source (s : Store) (page : SequencedPage) :
    Option Commit × List (String × Option (List Char)) :=
  (s.commit? page.revision.oid, [(page.page.path, some page.page.text)])

/-- Where the page that a commit adds comes from. -/
def addedSource (change : Commit × List Leaf) :
    Option Commit × List (String × Option (List Char)) :=
  (some change.1, change.2.map fun leaf ↦ (leaf.path, (Utf8.decode leaf.bytes).toOption))

/-- A page is read if it is text; one that is not is complained of, unless something else is. -/
private theorem endsIn_readPage (revision : Revision) (leaf : Leaf) :
    EndsIn (readPage (s.repository root) extension revision ⟨leaf.path, leaf.bytes⟩)
      (fun page ↦ IsText leaf.bytes ∧
        (page.path, some page.text) = (leaf.path, (Utf8.decode leaf.bytes).toOption))
      (fun failure ↦ failure.IsContent → ¬ IsText leaf.bytes) := by
  have hblob : (s.repository root).blob leaf.bytes = .ok leaf.bytes := rfl
  rw [readPage, hblob, ofResult_result, Page.code]
  split
  · exact .error False.elim
  · simp only [bind, Except.bind, pageText]
    cases hbinary : Code.isBinary leaf.bytes with
    | true => exact .error fun _ htext ↦ by simp [IsText, hbinary] at htext
    | false =>
      cases hdecode : Utf8.decode leaf.bytes with
      | error fault => exact .error fun _ htext ↦ by simp [IsText, hdecode] at htext
      | ok text => exact .ok ⟨⟨hbinary, text, hdecode⟩, rfl⟩

/-- The pages of commits that the log names are read if they are text; otherwise one that is not
ends the run, unless something else does. -/
theorem endsIn_pagesFrom (old : Option TreeHandle) (number : Nat) (revisions : List Revision) :
    let changes := additions pagesDir extension ((old.map (·.snapshot)).getD [])
      (revisions.filterMap fun revision ↦ s.commit? revision.oid)
    EndsIn (pagesFrom (s.repository root) pagesDir extension old number revisions)
      (fun answer ↦ (∀ change ∈ changes, ∀ leaf ∈ change.2, IsText leaf.bytes) ∧
        answer.map (source s) = (changes.filter fun change ↦ !change.2.isEmpty).map addedSource)
      (fun failure ↦ failure.IsContent →
        ∃ change ∈ changes, ∃ leaf ∈ change.2, ¬ IsText leaf.bytes) := by
  induction revisions generalizing old number with
  | nil => exact .ok ⟨by simp [additions], rfl⟩
  | cons revision rest ih =>
    cases hcommit : s.commit? revision.oid with
    | none =>
      obtain ⟨problem, hunknown⟩ :=
        pagesFrom_unknown hcommit root pagesDir extension old number rest
      rw [hunknown]
      exact .error False.elim
    | some commit =>
      rw [pagesFrom_known hcommit, List.filterMap_cons, hcommit]
      simp only [additions, List.mem_cons, forall_eq_or_imp, exists_eq_or_imp]
      split
      · next hnone =>
        refine (ih (some ⟨treeId commit.oid, commit.snapshot⟩) number).mono ?_ ?_
        · rintro answer ⟨htexts, hcommits⟩
          refine ⟨⟨by simp [hnone], htexts⟩, ?_⟩
          rw [hcommits, List.filter_cons, hnone]
          rfl
        · rintro failure hfailure hcontent
          exact .inr (hfailure hcontent)
      · next leaf hone =>
        refine ((endsIn_readPage revision leaf).mono (fun _ h ↦ h) ?_).bind
          fun page hread ↦ ?_
        · rintro failure hfailure hcontent
          exact .inl ⟨leaf, by simp [hone], hfailure hcontent⟩
        obtain ⟨htext, hpage⟩ := hread
        refine ((ih (some ⟨treeId commit.oid, commit.snapshot⟩) (number + 1)).mono
          (fun _ h ↦ h) ?_).bind fun others hothers ↦ .ok ?_
        · rintro failure hfailure hcontent
          exact .inr (hfailure hcontent)
        · obtain ⟨htexts, hcommits⟩ := hothers
          refine ⟨⟨by simpa [hone] using htext, htexts⟩, ?_⟩
          have hsource : source s ⟨number, revision, page⟩ = addedSource (commit, [leaf]) := by
            rw [source, addedSource, hcommit, hpage]
            rfl
          rw [List.map_cons, hcommits, hsource, List.filter_cons, hone]
          rfl
      · exact .error False.elim

/-- The same of the pages of a whole history. -/
theorem endsIn_pages (h : s.Tidy) :
    let changes := additions pagesDir extension [] s.named
    EndsIn (pages (s.repository root) pagesDir extension)
      (fun answer ↦ (∀ change ∈ changes, ∀ leaf ∈ change.2, IsText leaf.bytes) ∧
        answer.map (source s) = (changes.filter fun change ↦ !change.2.isEmpty).map addedSource)
      (fun failure ↦ failure.IsContent →
        ∃ change ∈ changes, ∃ leaf ∈ change.2, ¬ IsText leaf.bytes) := by
  have hancestry : EndsIn (s.repository root).ancestry
      (fun revisions ↦ (revisions.filterMap fun revision ↦ s.commit? revision.oid) = s.named)
      (fun failure ↦ failure.IsContent →
        ∃ change ∈ additions pagesDir extension [] s.named, ∃ leaf ∈ change.2,
          ¬ IsText leaf.bytes) := by
    refine ⟨fun revisions ↦ h.ancestry, fun failure hfailure ↦ ?_⟩
    change s.ancestry root = _ at hfailure
    rw [Store.ancestry] at hfailure
    split at hfailure
    · obtain rfl := Except.error.inj hfailure
      exact False.elim
    · cases hfailure
  refine hancestry.bind fun revisions hnamed ↦ ?_
  rw [← hnamed]
  exact endsIn_pagesFrom none 0 revisions

end Sequence

/-! ## Workflows -/

namespace Workflow

variable {α β : Type} {Tree Blob : Type}

/-- However a workflow ends, its answers have one property and its failures another. -/
def Ends (w : Workflow α) (Q : α → Prop) (P : Failure → Prop) : Prop :=
  ∀ s, EndsIn (w.on s).1 Q P

namespace Ends

variable {Q : α → Prop} {R : β → Prop} {P : Failure → Prop}

theorem pure {a : α} (h : Q a) : Ends (Pure.pure a) Q P := fun _ ↦ .ok h

theorem throw {failure : Failure} (h : P failure) :
    Ends (MonadExcept.throw failure : Workflow α) Q P :=
  fun _ ↦ .error h

theorem bind {w : Workflow α} {f : α → Workflow β} (hw : Ends w Q P)
    (hf : ∀ a, Q a → Ends (f a) R P) : Ends (w >>= f) R P := by
  intro s
  rw [on_bind]
  have hs := hw s
  rcases hr : w.on s with ⟨failure | a, t⟩
  · rw [hr] at hs
    exact .error (hs.2 failure rfl)
  · rw [hr] at hs
    exact hf a (hs.1 a rfl) t

theorem mono {w : Workflow α} {Q' : α → Prop} {P' : Failure → Prop} (h : Ends w Q P)
    (hQ : ∀ a, Q a → Q' a) (hP : ∀ failure, P failure → P' failure) : Ends w Q' P' :=
  fun s ↦ (h s).mono hQ hP

theorem ofResult {r : Except Failure α} (h : EndsIn r Q P) : Ends (Guidebook.ofResult r) Q P := by
  intro s
  rw [on_ofResult]
  exact h

theorem files : Ends Workflow.files (fun _ ↦ True) P := fun _ ↦ .ok trivial

theorem setFiles (t : FileTree) : Ends (Workflow.setFiles t) (fun _ ↦ True) P :=
  fun _ ↦ .ok trivial

theorem log (level : LogLevel) (logger message : String) :
    Ends (Workflow.log level logger message) (fun _ ↦ True) P :=
  fun _ ↦ .ok trivial

section Files

variable (hP : ∀ problem path, P (.file problem path))

include hP

theorem onFile (path : Path) (r : Except FileProblem α) :
    Ends (Workflow.onFile path r) (fun _ ↦ True) P := by
  refine ofResult ?_
  cases r with
  | ok a => exact .ok trivial
  | error problem => exact .error (hP problem _)

theorem write (path : Path) (bytes : List UInt8) :
    Ends (Workflow.write path bytes) (fun _ ↦ True) P :=
  files.bind fun _ _ ↦ (onFile hP _ _).bind fun t _ ↦ setFiles t

theorem makeDirectories (path : Path) : Ends (Workflow.makeDirectories path) (fun _ ↦ True) P :=
  files.bind fun _ _ ↦ (onFile hP _ _).bind fun t _ ↦ setFiles t

theorem copyFiles (dest : Path) (found : List (List String × List UInt8)) :
    Ends (Workflow.copyFiles dest found) (fun _ ↦ True) P := by
  induction found with
  | nil => exact pure trivial
  | cons file rest ih =>
    exact (makeDirectories hP _).bind fun _ _ ↦ (write hP _ _).bind fun _ _ ↦ ih.bind fun _ _ ↦
      pure trivial

theorem copyDirectory (source dest : Path) :
    Ends (Workflow.copyDirectory source dest) (fun _ ↦ True) P := by
  refine files.bind fun t _ ↦ ?_
  split
  · exact copyFiles hP _ _
  · exact pure trivial

theorem writePublic (l : Layout) (settings : Settings) :
    Ends (Workflow.writePublic l settings) (fun _ ↦ True) P := by
  refine (copyDirectory hP _ _).bind fun _ _ ↦ ?_
  refine (files.bind fun t _ ↦ pure trivial : Ends (themeOf l) (fun _ ↦ True) P).bind
    fun theme _ ↦ ?_
  have hstatic : Ends (copyStatic theme (Layout.child l.exportPublic "theme"))
      (fun _ ↦ True) P := by
    cases theme with
    | packaged => exact copyFiles hP _ _
    | own dir => exact copyDirectory hP _ _
  exact hstatic.bind fun _ _ ↦ (makeDirectories hP _).bind fun _ _ ↦ (write hP _ _).bind fun _ _ ↦
    pure trivial

end Files

end Ends

/-! ## Steps -/

section Neutral

variable {P : Failure → Prop} (hP : ∀ failure, ¬ failure.IsAboutBytes → P failure)

include hP

/-- Loading an index does not complain of bytes. -/
theorem ends_loadIndex (path : Path) : Ends (loadIndex path) (fun _ ↦ True) P := by
  refine Ends.files.bind fun t _ ↦ ?_
  split
  · cases t.read path with
    | error problem => exact .throw (hP _ False.elim)
    | ok bytes =>
      refine .ofResult ⟨fun _ _ ↦ trivial, fun failure hfailure ↦ hP _ ?_⟩
      rw [PageIndex.ofBytes] at hfailure
      split at hfailure
      · cases hfailure
        exact False.elim
      · split at hfailure
        · next table _ =>
          cases htable : PageIndex.ofTable path.toString table with
          | ok index =>
            rw [htable] at hfailure
            cases hfailure
          | error problem =>
            rw [htable] at hfailure
            cases hfailure
            exact False.elim
        all_goals
          cases hfailure
          exact False.elim
  · exact (Ends.log _ _ _).bind fun _ _ ↦ .pure trivial

theorem ends_clearDirectory (path : Path) : Ends (clearDirectory path) (fun _ ↦ True) P := by
  refine Ends.files.bind fun t _ ↦ ?_
  split
  · exact .pure trivial
  · exact Ends.files.bind fun _ _ ↦ Ends.setFiles _
  · exact .throw (hP _ False.elim)

/-- Rendering does not complain of bytes, but for those of a template of the project's own. -/
theorem endsIn_render (tree : FileTree) {theme : Theme}
    (htheme : ∀ dir, theme = .own dir → ∀ fault, P (.notText fault)) (name : String)
    (guide : GuideContext) (page : Option PageContext) (slug : Option String) :
    EndsIn (Theme.render tree theme name guide page slug) (fun _ ↦ True) P := by
  cases theme with
  | packaged =>
    have hpackaged : ∀ fault, Theme.renderPackaged name guide page ≠ .error (.notText fault) := by
      intro fault
      rw [Theme.renderPackaged.eq_def]
      repeat' split
      all_goals rintro ⟨⟩
    rw [Theme.render]
    split
    · exact .ok trivial
    · exact .error (hP _ False.elim)
    · exact .error (hP _ False.elim)
    · next fault hfault => exact absurd hfault (hpackaged fault)
  | own dir =>
    rw [Theme.render]
    split
    · exact .ok trivial
    · exact .error (hP _ False.elim)
    · exact .error (hP _ False.elim)
    · exact .error (htheme dir rfl _)

private theorem ends_writeLanding (hT : ∀ fault, P (.notText fault)) (l : Layout) (theme : Theme)
    (guide : GuideContext) : Ends (writeLanding l theme guide) (fun _ ↦ True) P :=
  Ends.files.bind fun _ _ ↦ (Ends.ofResult (endsIn_render hP _ (fun _ _ ↦ hT) ..)).bind fun _ _ ↦
    (Ends.makeDirectories (fun _ _ ↦ hP _ False.elim) _).bind fun _ _ ↦
      (Ends.write (fun _ _ ↦ hP _ False.elim) _ _).bind fun _ _ ↦ .pure trivial

end Neutral

section Steps

variable {X : Prop}

private theorem of_not_aboutBytes (failure : Failure) (h : ¬ failure.IsAboutBytes) :
    failure.IsContent → X :=
  fun hcontent ↦ absurd hcontent.aboutBytes h

private theorem ends_writeMirrored (bytes : List UInt8) (target : Path) (revision : Option String)
    (path : String) :
    Ends (writeMirrored bytes target revision path) (fun _ ↦ Readable bytes)
      fun failure ↦ failure.IsContent → ¬ Readable bytes := by
  refine (Ends.makeDirectories (fun _ _ ↦ False.elim) _).bind fun _ _ ↦ ?_
  refine (Ends.write (fun _ _ ↦ False.elim) _ _).bind fun _ _ ↦ ?_
  have hcompanion : EndsIn (companionOf bytes target.name revision path)
      (fun _ ↦ Readable bytes) fun failure ↦ failure.IsContent → ¬ Readable bytes := by
    by_cases hreadable : Readable bytes
    · rw [companionOf_eq_ok hreadable]
      exact .ok hreadable
    · refine ⟨fun text htext ↦ ?_, fun _ _ _ ↦ hreadable⟩
      exact absurd (readable_of_companionOf htext) hreadable
  refine (Ends.ofResult hcompanion).bind fun text hreadable ↦ ?_
  exact (Ends.write (fun _ _ ↦ False.elim) _ _).bind fun _ _ ↦ .pure hreadable

variable {p : Projection Tree Blob}

/-- What the repository of a projection complains of is not content. -/
structure Neutral (repository : Repository (Except Failure) Tree Blob) : Prop where
  treeOf : ∀ revision failure, repository.treeOf revision = .error failure → ¬ failure.IsContent
  walkTree : ∀ tree dir failure, repository.walkTree tree dir = .error failure → ¬ failure.IsContent
  blobAt : ∀ tree path failure, repository.blobAt tree path = .error failure → ¬ failure.IsContent

/-- A workspace file can be mirrored, if it is there. -/
def ReadableAt (p : Projection Tree Blob) (tree : Tree) (path : String) : Prop :=
  ∀ bytes, p.repository.blobAt tree (workspacePath p.layout.workspaceDir path) = .ok bytes →
    Readable bytes

/-- All workspace files that a step shows can be mirrored. -/
def ReadableStep (p : Projection Tree Blob) (step : Step) : Prop :=
  ∀ tree, p.repository.treeOf step.revision = .ok tree →
    ∀ path ∈ outlineFiles step.workspace, ReadableAt p tree path

private theorem endsIn_project (hneutral : Neutral p.repository) (page : SequencedPage) :
    EndsIn (p.project page) (fun step ↦ p.project page = .ok step)
      fun failure ↦ failure.IsContent → X := by
  refine .of_error fun failure hfailure hcontent ↦ ?_
  rw [Projection.project, Projection.outline] at hfailure
  cases htree : p.repository.treeOf page.revision with
  | error other =>
    rw [htree] at hfailure
    obtain rfl : other = failure := Except.error.inj hfailure
    exact absurd hcontent (hneutral.treeOf _ _ htree)
  | ok tree =>
    simp only [htree, bind, Except.bind] at hfailure
    cases hwalk : p.repository.walkTree tree p.layout.workspaceDir with
    | error other =>
      rw [hwalk] at hfailure
      obtain rfl : other = failure := Except.error.inj hfailure
      exact absurd hcontent (hneutral.walkTree _ _ _ hwalk)
    | ok walk =>
      simp only [hwalk] at hfailure
      cases hbuild : Outline.build walk with
      | ok d =>
        rw [hbuild] at hfailure
        cases hfailure
      | error fault =>
        rw [hbuild] at hfailure
        cases hfailure
        cases hcontent

/-- Files are mirrored if they can be; one that cannot is complained of, unless something
else is. -/
private theorem ends_exportFiles (hneutral : Neutral p.repository) (step : Step) (tree : Tree)
    (out : Path) (paths : List String) :
    Ends (exportFiles p step tree out paths) (fun _ ↦ ∀ path ∈ paths, ReadableAt p tree path)
      fun failure ↦ failure.IsContent → ∃ path ∈ paths, ¬ ReadableAt p tree path := by
  induction paths with
  | nil => exact .pure (by simp)
  | cons path rest ih =>
    refine (Ends.ofResult (.of_error fun failure hfailure hcontent ↦
      absurd hcontent (hneutral.blobAt _ _ _ hfailure))).bind fun bytes hbytes ↦ ?_
    have hat : ReadableAt p tree path ↔ Readable bytes := by
      simp [ReadableAt, hbytes]
    refine ((ends_writeMirrored bytes _ _ _).mono (fun _ h ↦ h) ?_).bind fun _ hreadable ↦ ?_
    · rintro failure hfailure hcontent
      exact ⟨path, List.mem_cons_self, hat.not.mpr (hfailure hcontent)⟩
    refine (ih.mono (fun _ h ↦ h) ?_).bind fun _ hrest ↦ .pure ?_
    · rintro failure hfailure hcontent
      obtain ⟨other, hother, hbroken⟩ := hfailure hcontent
      exact ⟨other, List.mem_cons_of_mem _ hother, hbroken⟩
    · exact List.forall_mem_cons.mpr ⟨hat.mpr hreadable, hrest⟩

/-- The same of a whole step. -/
private theorem ends_exportStep (hneutral : Neutral p.repository) (step : Step) :
    Ends (exportStep p step) (fun _ ↦ ReadableStep p step)
      fun failure ↦ failure.IsContent → ¬ ReadableStep p step := by
  refine (Ends.makeDirectories (fun _ _ ↦ False.elim) _).bind fun _ _ ↦ ?_
  refine (Ends.log _ _ _).bind fun _ _ ↦ Ends.files.bind fun t _ ↦ ?_
  have hpage : EndsIn (p.page t step) (fun _ ↦ True)
      fun failure ↦ failure.IsContent → ¬ ReadableStep p step := by
    rw [Projection.page]
    split
    · exact .error False.elim
    · exact endsIn_render of_not_aboutBytes _ (fun _ _ _ ↦ False.elim) ..
  refine (Ends.ofResult hpage).bind fun html _ ↦ ?_
  refine (Ends.write (fun _ _ ↦ False.elim) _ _).bind fun _ _ ↦ ?_
  refine (Ends.ofResult (.of_error fun failure hfailure hcontent ↦
    absurd hcontent (hneutral.treeOf _ _ hfailure))).bind fun tree htree ↦ ?_
  refine ((ends_exportFiles hneutral step tree _ _).mono (fun _ h ↦ h) ?_).bind fun _ hfiles ↦
    .pure ?_
  · rintro failure hfailure hcontent hreadable
    obtain ⟨path, hpath, hbroken⟩ := hfailure hcontent
    exact hbroken (hreadable tree htree path hpath)
  · intro other hother
    obtain rfl := Except.ok.inj (htree.symm.trans hother)
    exact hfiles

/-- The same of the steps of pages. -/
private theorem ends_exportSteps (hneutral : Neutral p.repository) (pages : List SequencedPage) :
    Ends (exportSteps p pages)
      (fun _ ↦ ∀ page ∈ pages, ∀ step, p.project page = .ok step → ReadableStep p step)
      fun failure ↦ failure.IsContent →
        ∃ page ∈ pages, ∃ step, p.project page = .ok step ∧ ¬ ReadableStep p step := by
  induction pages with
  | nil => exact .pure (by simp)
  | cons page rest ih =>
    rw [exportSteps_cons]
    have hreport : Ends (reportPosition p page) (fun _ ↦ True) fun failure ↦ failure.IsContent →
        ∃ other ∈ page :: rest, ∃ step, p.project other = .ok step ∧ ¬ ReadableStep p step := by
      rw [reportPosition]
      split
      · exact Ends.log _ _ _
      · exact .pure trivial
    refine hreport.bind fun _ _ ↦ ?_
    refine (Ends.ofResult (endsIn_project hneutral page)).bind fun step hstep ↦ ?_
    refine ((ends_exportStep hneutral step).mono (fun _ h ↦ h) ?_).bind fun _ hreadable ↦ ?_
    · rintro failure hfailure hcontent
      exact ⟨page, List.mem_cons_self, step, hstep, hfailure hcontent⟩
    refine (ih.mono (fun _ h ↦ h) ?_).bind fun _ hrest ↦ .pure ?_
    · rintro failure hfailure hcontent
      obtain ⟨other, hother, hbroken⟩ := hfailure hcontent
      exact ⟨other, List.mem_cons_of_mem _ hother, hbroken⟩
    · refine List.forall_mem_cons.mpr ⟨fun other hother ↦ ?_, hrest⟩
      obtain rfl := Except.ok.inj (hstep.symm.trans hother)
      exact hreadable

end Steps

/-! ## Builds -/

section Builds

variable {store : Store} {root : String} {l : Layout} {settings : Settings}

private theorem neutral_repository (store : Store) (root : String) :
    Neutral (store.repository root) where
  treeOf := by
    intro revision failure hfailure
    change store.treeOf revision = _ at hfailure
    rw [Store.treeOf] at hfailure
    split at hfailure
    · cases hfailure
    · obtain rfl := Except.error.inj hfailure
      exact False.elim
  walkTree := by
    intro tree dir failure hfailure
    change tree.walk dir = _ at hfailure
    rw [TreeHandle.walk, handOver] at hfailure
    split at hfailure
    · obtain rfl := Except.error.inj hfailure
      exact False.elim
    · simp only [bind, Except.bind] at hfailure
      split at hfailure
      · obtain rfl := Except.error.inj hfailure
        exact False.elim
      · cases hfailure
  blobAt := by
    intro tree path failure hfailure
    change tree.blobAt path = _ at hfailure
    rw [TreeHandle.blobAt] at hfailure
    split at hfailure
    · cases hfailure
    · obtain rfl := Except.error.inj hfailure
      exact False.elim

/-- The step of a page shows what its commit has in the workspace. -/
private theorem readableStep_iff {p : Projection TreeHandle (List UInt8)}
    (hrepository : p.repository = store.repository root) {page : SequencedPage} {commit : Commit}
    (hcommit : store.commit? page.revision.oid = some commit) :
    (∀ step, p.project page = .ok step → ReadableStep p step) ↔
      ReadableWorkspace p.layout.workspaceDir commit := by
  have htree : p.repository.treeOf page.revision =
      .ok ⟨treeId commit.oid, commit.snapshot⟩ := by
    rw [hrepository]
    change store.treeOf page.revision = _
    rw [Store.treeOf, hcommit]
  have houtline : p.outline page.revision = commit.outline p.layout.workspaceDir := by
    rw [Projection.outline, htree, hrepository]
    rfl
  have hblob : ∀ path, ReadableAt p ⟨treeId commit.oid, commit.snapshot⟩ path ↔
      ∀ leaf, commit.snapshot.leaf? (workspacePath p.layout.workspaceDir path) = some leaf →
        Readable leaf.bytes := by
    intro path
    rw [ReadableAt, hrepository]
    change (∀ bytes, TreeHandle.blobAt _ _ = _ → _) ↔ _
    rw [TreeHandle.blobAt]
    cases commit.snapshot.leaf? (workspacePath p.layout.workspaceDir path) with
    | none => simp
    | some leaf => simp
  constructor
  · intro hsteps d hd path hpath
    have hproject : p.project page = .ok (Step.compose p.index page d) := by
      rw [Projection.project, houtline, hd]
      rfl
    exact (hblob path).mp (hsteps _ hproject _ htree path hpath)
  · intro hworkspace step hstep tree htree' path hpath
    obtain ⟨d, hd, rfl⟩ := map_eq_ok hstep
    obtain rfl := Except.ok.inj (htree.symm.trans htree')
    exact (hblob path).mpr (hworkspace d (houtline.symm.trans hd) path hpath)

section Changes

variable {pages : List SequencedPage} {changes : List (Commit × List Leaf)}
  (h : pages.map (Sequence.source store) =
    (changes.filter fun change ↦ !change.2.isEmpty).map Sequence.addedSource)

include h

/-- A page comes of a commit that adds pages. -/
theorem exists_change {page : SequencedPage} (hpage : page ∈ pages) :
    ∃ change ∈ changes, change.2 ≠ [] ∧
      Sequence.source store page = Sequence.addedSource change := by
  have hmem : Sequence.source store page ∈ pages.map (Sequence.source store) :=
    List.mem_map_of_mem hpage
  rw [h] at hmem
  obtain ⟨change, hchange, heq⟩ := List.mem_map.mp hmem
  obtain ⟨hchange, hne⟩ := List.mem_filter.mp hchange
  exact ⟨change, hchange, by simpa using hne, heq.symm⟩

/-- A commit that adds pages has one among them. -/
theorem exists_page {change : Commit × List Leaf} (hchange : change ∈ changes)
    (hne : change.2 ≠ []) :
    ∃ page ∈ pages, Sequence.source store page = Sequence.addedSource change := by
  have hmem : Sequence.addedSource change ∈ pages.map (Sequence.source store) := by
    rw [h]
    exact List.mem_map_of_mem (List.mem_filter.mpr ⟨hchange, by simpa using hne⟩)
  exact List.mem_map.mp hmem

end Changes

/-- A build goes through the pages and the workspaces of the commits that the log names. -/
theorem ends_buildFrom (htidy : store.Tidy) :
    let changes := Sequence.additions l.pagesDir settings.extension [] store.named
    Ends (buildFrom (store.repository root) l settings)
      (fun _ ↦ ∀ change ∈ changes, Legible l change)
      fun failure ↦ failure.IsContent → ∃ change ∈ changes, ¬ Legible l change := by
  intro changes
  refine (Ends.files.bind fun t _ ↦ .pure trivial : Ends (themeOf l) (fun _ ↦ True) _).bind
    fun theme _ ↦ ?_
  refine (ends_loadIndex of_not_aboutBytes _).bind fun index _ ↦
    (ends_clearDirectory of_not_aboutBytes _).bind fun _ _ ↦ ?_
  refine (Ends.writePublic (fun _ _ ↦ False.elim) _ _).bind fun shared _ ↦ ?_
  refine (Ends.ofResult ((Sequence.endsIn_pages htidy).mono (fun _ h ↦ h) ?_)).bind
    fun pages hpages ↦ ?_
  · rintro failure hfailure hcontent
    obtain ⟨change, hchange, leaf, hleaf, htext⟩ := hfailure hcontent
    exact ⟨change, hchange, fun hlegible ↦ htext (hlegible.pages leaf hleaf)⟩
  obtain ⟨htexts, hcommits⟩ := hpages
  have hreport : Ends (reportPages l index pages.length) (fun _ ↦ True)
      fun failure ↦ failure.IsContent → ∃ change ∈ changes, ¬ Legible l change := by
    refine (Ends.log _ _ _).bind fun _ _ ↦ ?_
    split
    · exact Ends.log _ _ _
    · exact .pure trivial
  refine hreport.bind fun _ _ ↦ ?_
  have hstep {page : SequencedPage} {commit : Commit}
      (hcommit : store.commit? page.revision.oid = some commit) :=
    readableStep_iff (p := ⟨store.repository root, l, settings, index, theme⟩) rfl hcommit
  have hsteps := ends_exportSteps (p := ⟨store.repository root, l, settings, index, theme⟩)
    (neutral_repository store root) pages
  refine (hsteps.mono (fun _ h ↦ h) ?_).bind fun written hreadable ↦ ?_
  · rintro failure hfailure hcontent
    obtain ⟨page, hpage, step, hproject, hbroken⟩ := hfailure hcontent
    obtain ⟨change, hchange, hne, hsource⟩ := exists_change hcommits hpage
    have hcommit : store.commit? page.revision.oid = some change.1 := congrArg Prod.fst hsource
    refine ⟨change, hchange, fun hlegible ↦ hbroken ?_⟩
    exact (hstep hcommit).mpr (hlegible.workspace hne) step hproject
  refine (ends_writeLanding of_not_aboutBytes (fun _ ↦ False.elim) _ _ _).bind fun landing _ ↦
    .pure fun change hchange ↦ ?_
  refine ⟨htexts change hchange, fun hne ↦ ?_⟩
  obtain ⟨page, hpage, hsource⟩ := exists_page hcommits hchange hne
  have hcommit : store.commit? page.revision.oid = some change.1 := congrArg Prod.fst hsource
  exact (hstep hcommit).mp (hreadable page hpage)

/-- A build that returns has found all content legible, and one that complains of content has found
some that is not. -/
theorem endsIn_build {s : State} {top : Path} (henclosing : s.enclosing? l.root = some (top, store))
    (htidy : store.Tidy) :
    let changes := Sequence.additions l.pagesDir settings.extension [] store.named
    EndsIn ((build l settings).on s).1 (fun _ ↦ ∀ change ∈ changes, Legible l change)
      fun failure ↦ failure.IsContent → ∃ change ∈ changes, ¬ Legible l change := by
  have hhistory : historyIn s l.root = store.repository l.root.toString := by
    rw [historyIn, henclosing]
  rw [on_build, hhistory]
  exact ends_buildFrom htidy s

end Builds

end Workflow

end Guidebook
