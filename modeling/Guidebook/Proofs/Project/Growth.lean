import Guidebook.Proofs.Git.Pages
import Guidebook.Proofs.Project.Parallel

/-!
# Guides that grow

Commits that are added to a history leave the steps of the guide as they are: their pages keep their
numbers, and what a build writes below their directories does not change. This needs that the log
names the commits of before by the same names. The only name that moves is that of the current
commit, which a summary can put into the log.
-/

namespace Guidebook

open Git

/-! ### Names in a log that grows -/

namespace Git.Store

variable {old new : Store}

/-- The records in the log of a store name the same commits in another. -/
def Steady (old new : Store) : Prop :=
  ∀ revision ∈ Git.readLog old.log, new.commit? revision.oid = old.commit? revision.oid

/-- A commit is known by its id however many commits are added. -/
theorem commit?_of_prefix (hlonger : old.commits <+: new.commits) {name : String}
    (hname : name ≠ headName) {commit : Commit} (hfound : old.commit? name = some commit) :
    new.commit? name = some commit := by
  obtain ⟨more, hmore⟩ := hlonger
  have hbeq : (name == headName) = false := by simpa using hname
  rw [commit?, hbeq, if_neg Bool.false_ne_true] at hfound ⊢
  rw [← hmore, List.find?_append, hfound]
  rfl

/-- The name of the current commit moves with every commit that is added. -/
theorem commit?_headName_eq_iff (htidy : new.Tidy) (hlonger : old.commits <+: new.commits) :
    new.commit? headName = old.commit? headName ↔ new.commits = old.commits := by
  have hhead : ∀ s : Store, s.commit? headName = s.commits.getLast? := fun s ↦ by
    rw [commit?, beq_self_eq_true, if_pos rfl]
  rw [hhead, hhead]
  refine ⟨fun hlast ↦ ?_, fun heq ↦ by rw [heq]⟩
  obtain ⟨more, hmore⟩ := hlonger
  rcases List.eq_nil_or_concat more with rfl | ⟨front, last, rfl⟩
  · rw [← hmore, List.append_nil]
  · -- the last commit would be there twice
    rw [← hmore, List.concat_eq_append, ← List.append_assoc, List.getLast?_concat] at hlast
    have hmem : last ∈ old.commits := List.mem_of_getLast? hlast.symm
    have hnodup := htidy.nodup
    rw [← hmore, List.map_append, List.nodup_append] at hnodup
    exact absurd rfl (hnodup.2.2 _ (List.mem_map_of_mem hmem) _ (List.mem_map_of_mem (by simp)))

/-- Where every record names a commit, the records keep their names exactly if none of them is the
name of the current commit, or if no commit is added. -/
theorem steady_iff (hold : old.Tidy) (hnew : new.Tidy) (hlonger : old.commits <+: new.commits)
    (hknown : ∀ revision ∈ Git.readLog old.log, ∃ commit, old.commit? revision.oid = some commit) :
    Steady old new ↔ new.commits = old.commits ∨
      ∀ commit ∈ old.commits, ∀ stray ∈ commit.strays, stray.oid ≠ headName := by
  constructor
  · intro hsteady
    by_cases heq : new.commits = old.commits
    · exact .inl heq
    · refine .inr fun commit hcommit stray hstray hname ↦ heq ?_
      have hmem : stray ∈ Git.readLog old.log := by
        rw [hold.readLog]
        exact List.mem_flatMap.mpr ⟨commit, hcommit, List.mem_cons_of_mem _ hstray⟩
      exact (commit?_headName_eq_iff hnew hlonger).mp
        (hname ▸ hsteady stray hmem)
  · rintro (heq | hstrays) revision hrevision
    · rw [commit?, commit?, heq]
    · obtain ⟨found, hfound⟩ := hknown revision hrevision
      have hname : revision.oid ≠ headName := by
        rw [hold.readLog] at hrevision
        obtain ⟨commit, hcommit, hrecord⟩ := List.mem_flatMap.mp hrevision
        rcases List.mem_cons.mp hrecord with rfl | hstray
        · exact hold.oid_ne_headName hcommit
        · exact hstrays commit hcommit revision hstray
      rw [hfound, commit?_of_prefix hlonger hname hfound]

end Git.Store

/-! ### Pages of a log that grows -/

/-- A history that goes on from another: the records of the other are there and name the
same trees. -/
structure Git.Repository.Extends {Tree Blob : Type}
    (longer repository : Repository (Except Failure) Tree Blob) : Prop where
  ancestry : ∀ revisions, repository.ancestry = .ok revisions →
    (∃ more, longer.ancestry = .ok (revisions ++ more)) ∧
      ∀ revision ∈ revisions, longer.treeOf revision = repository.treeOf revision
  added : longer.added = repository.added
  blob : longer.blob = repository.blob
  blobAt : longer.blobAt = repository.blobAt
  walkTree : longer.walkTree = repository.walkTree

/-- A store whose records keep their names goes on from the shorter one. -/
theorem Git.Store.Steady.extends {old new : Store} (hsteady : Store.Steady old new)
    (hold : old.Tidy)
    (hnew : new.Tidy) (hlonger : old.commits <+: new.commits) (root top : String) :
    (new.repository root).Extends (old.repository top) where
  ancestry := by
    intro revisions hancestry
    obtain ⟨more, hmore⟩ := hlonger
    change old.ancestry top = _ at hancestry
    rw [Store.ancestry] at hancestry
    split at hancestry
    · cases hancestry
    · next hne =>
      obtain rfl := Except.ok.inj hancestry
      refine ⟨⟨more.flatMap fun commit ↦ commit.listed :: commit.strays, ?_⟩,
        fun revision hrevision ↦ ?_⟩
      · change new.ancestry root = _
        have hne' : new.commits.isEmpty = false := by
          cases hcommits : old.commits with
          | nil => simp [hcommits] at hne
          | cons commit rest => simp [← hmore, hcommits]
        rw [Store.ancestry, hne', if_neg Bool.false_ne_true, hnew.readLog, hold.readLog, ← hmore,
          List.flatMap_append]
      · change new.treeOf revision = old.treeOf revision
        rw [Store.treeOf, Store.treeOf, hsteady revision hrevision]
  added := rfl
  blob := rfl
  blobAt := rfl
  walkTree := rfl

namespace Sequence

variable {Tree Blob : Type} {repository longer : Repository (Except Failure) Tree Blob}
  {pagesDir extension : String}

/-- Every record of a log that gives pages has a tree. -/
theorem treeOf_of_pagesFrom {previous : Option Tree} {number : Nat} {revisions : List Revision}
    {answer : List SequencedPage}
    (h : pagesFrom repository pagesDir extension previous number revisions = .ok answer) :
    ∀ revision ∈ revisions, ∃ tree, repository.treeOf revision = .ok tree := by
  induction revisions generalizing previous number answer with
  | nil => simp
  | cons revision rest ih =>
    obtain ⟨tree, files, htree, -, hpages⟩ := pagesFrom_cons_eq_ok h
    have hrest : ∀ other ∈ rest, ∃ tree, repository.treeOf other = .ok tree := by
      rcases hpages with ⟨-, hpages⟩ | ⟨_, _, _, -, -, hpages, -⟩
      · exact ih hpages
      · exact ih hpages
    exact List.forall_mem_cons.mpr ⟨⟨tree, htree⟩, hrest⟩

/-- The pages of a log come before those of what is added to it. -/
theorem pagesFrom_append (hadded : longer.added = repository.added)
    (hblob : longer.blob = repository.blob) {previous : Option Tree} {number : Nat}
    {front back : List Revision}
    (hsame : ∀ revision ∈ front, longer.treeOf revision = repository.treeOf revision)
    {pages answer : List SequencedPage}
    (h : pagesFrom repository pagesDir extension previous number front = .ok pages)
    (hlonger : pagesFrom longer pagesDir extension previous number (front ++ back) = .ok answer) :
    (∃ more, answer = pages ++ more) ∧ ∀ page ∈ pages, page.revision ∈ front := by
  induction front generalizing previous number pages answer with
  | nil =>
    obtain rfl := Except.ok.inj h
    exact ⟨⟨answer, rfl⟩, by simp⟩
  | cons revision rest ih =>
    obtain ⟨hfirst, hrest⟩ := List.forall_mem_cons.mp hsame
    obtain ⟨tree, files, htree, hfiles, hpages⟩ := pagesFrom_cons_eq_ok h
    obtain ⟨tree', files', htree', hfiles', hpages'⟩ := pagesFrom_cons_eq_ok hlonger
    obtain rfl := Except.ok.inj (htree.symm.trans (hfirst ▸ htree'))
    obtain rfl := Except.ok.inj (hfiles.symm.trans (hadded ▸ hfiles'))
    rcases hpages with ⟨hnone, hpages⟩ | ⟨file, page, others, hone, hread, hpages, rfl⟩
    · rcases hpages' with ⟨-, hpages'⟩ | ⟨file', _, _, hone', -, -, -⟩
      · obtain ⟨hmore, hmem⟩ := ih hrest hpages hpages'
        exact ⟨hmore, fun page hpage ↦ List.mem_cons_of_mem _ (hmem page hpage)⟩
      · rw [hnone] at hone'
        cases hone'
    · rcases hpages' with ⟨hnone', -⟩ | ⟨file', page', others', hone', hread', hpages', rfl⟩
      · rw [hone] at hnone'
        cases hnone'
      · obtain rfl : file = file' := by simpa [hone] using hone'
        have hpage : page = page' := by
          rw [readPage, hblob] at hread'
          exact Except.ok.inj (hread.symm.trans hread')
        obtain ⟨⟨more, rfl⟩, hmem⟩ := ih hrest hpages hpages'
        refine ⟨⟨more, by rw [hpage, List.cons_append]⟩, List.forall_mem_cons.mpr ⟨by simp, ?_⟩⟩
        exact fun page hpage ↦ List.mem_cons_of_mem _ (hmem page hpage)

/-- The pages of a history come first among those of a history that goes on from it, and their
commits have the trees they had. -/
theorem pages_append (hextends : longer.Extends repository) {front answer : List SequencedPage}
    (h : pages repository pagesDir extension = .ok front)
    (hlonger : pages longer pagesDir extension = .ok answer) :
    (∃ more, answer = front ++ more) ∧
      ∀ page ∈ front, longer.treeOf page.revision = repository.treeOf page.revision := by
  obtain ⟨revisions, hancestry, hfront⟩ := bind_eq_ok h
  obtain ⟨⟨back, hback⟩, hsame⟩ := hextends.ancestry revisions hancestry
  obtain ⟨all, hall, hanswer⟩ := bind_eq_ok hlonger
  obtain rfl := Except.ok.inj (hback.symm.trans hall)
  obtain ⟨hmore, hmem⟩ := pagesFrom_append hextends.added hextends.blob hsame hfront hanswer
  exact ⟨hmore, fun page hpage ↦ hsame page.revision (hmem page hpage)⟩

end Sequence

/-- If a store gives pages, then every record of its log names a commit. -/
theorem Git.Store.known_of_pages {store : Store} {root pagesDir extension : String}
    {pages : List SequencedPage}
    (h : Sequence.pages (store.repository root) pagesDir extension = .ok pages) :
    ∀ revision ∈ Git.readLog store.log, ∃ commit, store.commit? revision.oid = some commit := by
  obtain ⟨revisions, hancestry, hpages⟩ := bind_eq_ok h
  change store.ancestry root = _ at hancestry
  rw [Store.ancestry] at hancestry
  split at hancestry
  · cases hancestry
  · obtain rfl := Except.ok.inj hancestry
    intro revision hrevision
    obtain ⟨tree, htree⟩ := Sequence.treeOf_of_pagesFrom hpages revision hrevision
    change store.treeOf revision = _ at htree
    rw [Store.treeOf] at htree
    split at htree
    · next commit hcommit => exact ⟨commit, hcommit⟩
    · cases htree

/-! ### Builds of a history that grows -/

namespace Workflow

open FileTree

variable {l : Layout} {settings : Settings}

section Steps

variable {Tree Blob : Type} {p : Projection Tree Blob}
  {longer : Repository (Except Failure) Tree Blob}

private theorem ofResult_bind_congr {α β : Type} {r : Except Failure α} {f g : α → Workflow β}
    (h : ∀ a, r = .ok a → f a = g a) : ofResult r >>= f = ofResult r >>= g := by
  cases r with
  | error failure => rfl
  | ok a => exact h a rfl

private theorem exportFiles_congr (hblob : longer.blobAt = p.repository.blobAt) (step : Step)
    (tree : Tree) (out : Path) (paths : List String) :
    exportFiles { p with repository := longer } step tree out paths =
      exportFiles p step tree out paths := by
  induction paths with
  | nil => rfl
  | cons path rest ih => simp only [exportFiles, ih, hblob]

private theorem exportStep_congr (hblob : longer.blobAt = p.repository.blobAt) {step : Step}
    (htree : longer.treeOf step.revision = p.repository.treeOf step.revision) :
    exportStep { p with repository := longer } step = exportStep p step := by
  simp only [exportStep, exportFiles_congr hblob, htree]
  rfl

/-- A step is composed of its page, its commit and the workspace there. -/
private theorem project_congr (hwalk : longer.walkTree = p.repository.walkTree)
    {page : SequencedPage}
    (htree : longer.treeOf page.revision = p.repository.treeOf page.revision) :
    Projection.project { p with repository := longer } page = p.project page := by
  simp only [Projection.project, Projection.outline, hwalk, htree]

/-- Steps are exported alike from another history that knows their trees by the same names. -/
theorem exportSteps_congr (hwalk : longer.walkTree = p.repository.walkTree)
    (hblob : longer.blobAt = p.repository.blobAt) {pages : List SequencedPage}
    (hsame : ∀ page ∈ pages, longer.treeOf page.revision = p.repository.treeOf page.revision) :
    exportSteps { p with repository := longer } pages = exportSteps p pages := by
  induction pages with
  | nil => rfl
  | cons page rest ih =>
    obtain ⟨hpage, hrest⟩ := List.forall_mem_cons.mp hsame
    rw [exportSteps_cons, exportSteps_cons, ih hrest, project_congr hwalk hpage]
    refine bind_congr fun _ ↦ ofResult_bind_congr fun step hproject ↦ ?_
    have hrevision : step.revision = page.revision := by
      obtain ⟨workspace, -, rfl⟩ := map_eq_ok hproject
      rfl
    rw [exportStep_congr hblob (hrevision ▸ hpage)]

/-- Steps are exported part after part. -/
theorem exportSteps_append (front back : List SequencedPage) :
    exportSteps p (front ++ back) = (do
      let written ← exportSteps p front
      let others ← exportSteps p back
      return written ++ others) := by
  induction front with
  | nil => simp [exportSteps]
  | cons page rest ih =>
    rw [List.cons_append, exportSteps_cons, exportSteps_cons, ih]
    simp only [bind_assoc, pure_bind, List.append_assoc]

end Steps

/-! ### Directories of codes -/

section Directories

variable {code : String} {codes : List String} {place : List String}

/-- A code that names a directory in the export. -/
def NamesDirectory (code : String) : Prop := code ≠ "." ∧ code ≠ ".."

theorem stepPlace_eq (h : NamesDirectory code) :
    stepPlace l code = l.exportRoot.parts ++ [code] := by
  rw [stepPlace, if_neg h.1, if_neg h.2]

/-- The places that steps of some codes and the theme stand at. -/
def Lasting (l : Layout) (codes : List String) (place : List String) : Prop :=
  l.ownTheme.parts <+: place ∨ ∃ code ∈ codes, stepPlace l code <+: place

variable (hcodes : ∀ code ∈ codes, NamesDirectory code) (hcode : NamesDirectory code)
  (hnew : code ∉ codes)

include hcodes hcode hnew

/-- A directory of another code lies neither above nor below such a place. -/
private theorem not_lasting (hplace : place <+: stepPlace l code ∨ stepPlace l code <+: place) :
    ¬ Lasting l codes place := by
  rw [stepPlace_eq hcode] at hplace
  -- whatever is not longer and stands above the place stands above the directory
  have habove : ∀ front : List String, front.length ≤ (l.exportRoot.parts ++ [code]).length →
      front <+: place → front <+: l.exportRoot.parts ++ [code] := by
    intro front hlength hfront
    rcases hplace with hplace | hplace
    · exact hfront.trans hplace
    · exact List.prefix_of_prefix_length_le hfront hplace hlength
  rintro (htheme | ⟨other, hother, hfront⟩)
  · have hprefix := habove _ (by simp [Layout.ownTheme, Layout.exportRoot]) htheme
    rw [append_exportRoot, Layout.ownTheme, Layout.parts_child,
      List.prefix_append_right_inj] at hprefix
    exact absurd (List.cons_prefix_cons.mp hprefix).1 (by decide)
  · rw [stepPlace_eq (hcodes other hother)] at hfront
    have hprefix := habove _ (by simp) hfront
    rw [List.prefix_append_right_inj] at hprefix
    exact hnew ((List.cons_prefix_cons.mp hprefix).1 ▸ hother)

/-- Such places are left alone by a step of another code. -/
private theorem stepWritable_lasting (hroot : l.root.Resolved) (hpart : Page.IsCode code)
    (look : List String → Option Node) :
    StepWritable (fun place ↦ ¬ Lasting l codes place) look l code := by
  have hfree : ∀ {place}, place <+: stepPlace l code ∨ stepPlace l code <+: place →
      ¬ Lasting l codes place := not_lasting hcodes hcode hnew
  have hexport : Grounded (fun place ↦ ¬ Lasting l codes place) look l.exportRoot.parts := by
    intro front hfront
    have hup := (resolved_exportRoot hroot).not_up
    rw [Path.normalizeNames_eq fun hmem ↦ hup (hfront.subset hmem), List.nil_append]
    refine .inl (hfree (.inl ?_))
    rw [stepPlace_eq hcode]
    exact hfront.trans (List.prefix_append _ _)
  exact stepWritable_of_place hroot hpart
    (grounded_stepDirectory hroot hpart hexport (.inl (hfree (.inl List.prefix_rfl))))
    (hfree (.inr (List.prefix_append _ _)))
    fun names _ ↦ hfree (.inr (List.prefix_append _ _))

end Directories

/-- A run that keeps to places outside a region leaves two trees alike there. -/
private theorem alike_of_within {region : List String → Prop} {s s' t : State}
    {repositories : List (Path × Store)} (halike : Alike region s.files t.files)
    (hs : Within (fun place ↦ ¬ region place) s.files.find? repositories s') :
    Alike region s'.files t.files where
  left := hs.files
  right := halike.right
  same place hplace := (hs.elsewhere place (not_not.mpr hplace)).trans (halike.same place hplace)

section Growing

variable {Tree Blob : Type} {repository longer : Repository (Except Failure) Tree Blob}
  (hextends : longer.Extends repository)
  (hwalk : ∀ revision tree walk, longer.treeOf revision = .ok tree →
    longer.walkTree tree l.workspaceDir = .ok walk →
      ∀ e ∈ walk, e.kind = .file → IsFilePath e.path)
  (hroot : l.root.Resolved) {theme : Theme}
  (hchoice : theme = .packaged ∨ theme = .own l.ownTheme) (index : PageIndex)
  {region : List String → Prop} (htheme : ∀ place, l.ownTheme.parts <+: place → region place)
  (hexport : ∀ place, l.exportRoot.parts <+: place → region place)

include hextends hwalk hroot hchoice htheme hexport

/-- What steps leave below the directories of their codes is what they leave there with further
steps behind them. -/
private theorem exportSteps_of_extends {pages more : List SequencedPage}
    (hall : Sequence.pages longer l.pagesDir settings.extension = .ok (pages ++ more))
    (hsame : ∀ page ∈ pages, longer.treeOf page.revision = repository.treeOf page.revision)
    (hnames : ∀ page ∈ pages ++ more, NamesDirectory page.page.code)
    (hfresh : ∀ page ∈ more, page.page.code ∉ pages.map (·.page.code)) {s t s' t' : State}
    (halike : Alike region s.files t.files) {written told : List Path}
    (hs : (exportSteps ⟨repository, l, settings, index, theme⟩ pages).on s = (.ok written, s'))
    (ht : (exportSteps ⟨longer, l, settings, index, theme⟩ (pages ++ more)).on t =
      (.ok told, t')) :
    Alike (Lasting l (pages.map (·.page.code))) s'.files t'.files := by
  obtain ⟨hnames, hothers⟩ := List.forall_mem_append.mp hnames
  -- the longer run exports the steps of the shorter one first, in the same way
  rw [exportSteps_append] at ht
  obtain ⟨_, u, hfirst, ht⟩ := on_bind_eq_ok ht
  obtain ⟨_, v, hrest, ht⟩ := on_bind_eq_ok ht
  obtain ⟨-, rfl⟩ := Prod.mk.inj ht
  have hcongr := exportSteps_congr (p := ⟨repository, l, settings, index, theme⟩)
    hextends.walkTree hextends.blobAt hsame
  rw [hcongr] at hfirst
  have halike := ((Parallel.exportSteps hroot hchoice htheme pages s t halike).1 _ _ _ _
    hs hfirst).2
  -- its further steps keep clear of the directories of these steps
  have hcodes : ∀ code ∈ pages.map (·.page.code), NamesDirectory code := by
    intro code hcode
    obtain ⟨page, hpage, rfl⟩ := List.mem_map.mp hcode
    exact hnames page hpage
  have hlasting : ∀ place, Lasting l (pages.map (·.page.code)) place → region place := by
    rintro place (hplace | ⟨code, hcode, hplace⟩)
    · exact htheme place hplace
    · exact hexport place ((exportRoot_prefix_stepPlace (hcodes code hcode).2).trans hplace)
  have hkeeps : Keeps (Within (fun place ↦ ¬ Lasting l (pages.map (·.page.code)) place)
      u.files.find? u.repositories) (exportSteps ⟨longer, l, settings, index, theme⟩ more)
        fun _ ↦ True :=
    keeps_exportSteps hroot rfl (fun _ _ hd ↦ isFilePath_outline hwalk hd) fun page hpage ↦
      stepWritable_lasting hcodes (hothers page hpage) (hfresh page hpage) hroot
        (Sequence.isCode_of_mem_pages hall (List.mem_append_right _ hpage)) _
  have halike := halike.mono hlasting
  exact (alike_of_within halike.symm (hkeeps.after (.refl halike.right) hrest)).symm

/-- The export is filled alike below the directories of the codes of a history, whatever goes on
from it. -/
theorem fillExport_of_extends
    (hstatic : ∀ place, l.userStatic.parts <+: place → region place) {s t s' t' : State}
    (halike : Alike region s.files t.files) {written told : List Path}
    (hs : (fillExport repository l settings theme index).on s = (.ok written, s'))
    (ht : (fillExport longer l settings theme index).on t = (.ok told, t')) :
    ∃ pages more, Sequence.pages repository l.pagesDir settings.extension = .ok pages ∧
      Sequence.pages longer l.pagesDir settings.extension = .ok (pages ++ more) ∧
      ((∀ page ∈ pages ++ more, NamesDirectory page.page.code) →
        (∀ page ∈ more, page.page.code ∉ pages.map (·.page.code)) →
          Alike (Lasting l (pages.map (·.page.code))) s'.files t'.files) := by
  rw [fillExport] at hs ht
  obtain ⟨shared, s1, hpublic, hs⟩ := on_bind_eq_ok hs
  obtain ⟨shared', t1, hpublic', ht⟩ := on_bind_eq_ok ht
  obtain ⟨-, halike⟩ :=
    (Parallel.writePublic hroot settings hstatic htheme s t halike).1 _ _ _ _ hpublic hpublic'
  obtain ⟨pages, s2, hfound, hs⟩ := on_bind_eq_ok hs
  obtain ⟨hpages, rfl⟩ := on_ofResult_eq_ok hfound
  obtain ⟨all, t2, hfound', ht⟩ := on_bind_eq_ok ht
  obtain ⟨hall, rfl⟩ := on_ofResult_eq_ok hfound'
  obtain ⟨⟨more, rfl⟩, hsame⟩ := Sequence.pages_append hextends hpages hall
  refine ⟨pages, more, hpages, hall, fun hnames hfresh ↦ ?_⟩
  obtain ⟨_, s3, hreport, hs⟩ := on_bind_eq_ok hs
  obtain ⟨_, t3, hreport', ht⟩ := on_bind_eq_ok ht
  have halike := alike_of_within halike
    ((keeps_reportPages l index _).after (.refl halike.left) hreport)
  have halike := (alike_of_within halike.symm
    ((keeps_reportPages l index _).after (.refl halike.right) hreport')).symm
  obtain ⟨_, s4, hsteps, hs⟩ := on_bind_eq_ok hs
  obtain ⟨_, t4, hsteps', ht⟩ := on_bind_eq_ok ht
  have halike := exportSteps_of_extends hextends hwalk hroot hchoice index htheme hexport hall
    hsame hnames hfresh halike hsteps hsteps'
  -- the landing page is made of the theme and the index, which both runs have
  obtain ⟨_, s5, hlanding, hs⟩ := on_bind_eq_ok hs
  obtain ⟨-, rfl⟩ := Prod.mk.inj hs
  obtain ⟨_, t5, hlanding', ht⟩ := on_bind_eq_ok ht
  obtain ⟨-, rfl⟩ := Prod.mk.inj ht
  exact ((Parallel.writeLanding hroot hchoice (fun _ hplace ↦ .inl hplace) _ _ _ halike).1
    _ _ _ _ hlanding hlanding').2

end Growing

/-- The places that a build reads its sources from. -/
def Source (l : Layout) (place : List String) : Prop :=
  place = l.settings.parts ∨ place = l.index.parts ∨ l.ownTheme.parts <+: place ∨
    l.userStatic.parts <+: place

/-- Builds of two histories, one of which goes on from the other, from the same sources. -/
theorem buildFrom_of_extends {Tree Blob : Type}
    {repository longer : Repository (Except Failure) Tree Blob}
    (hextends : longer.Extends repository)
    (hwalk : ∀ revision tree walk, longer.treeOf revision = .ok tree →
      longer.walkTree tree l.workspaceDir = .ok walk →
        ∀ e ∈ walk, e.kind = .file → IsFilePath e.path)
    (hroot : l.root.Resolved) {s t s' t' : State} (halike : Alike (Source l) s.files t.files)
    {written told : List Path}
    (hs : (buildFrom repository l settings).on s = (.ok written, s'))
    (ht : (buildFrom longer l settings).on t = (.ok told, t')) :
    ∃ pages more, Sequence.pages repository l.pagesDir settings.extension = .ok pages ∧
      Sequence.pages longer l.pagesDir settings.extension = .ok (pages ++ more) ∧
      ((∀ page ∈ pages ++ more, NamesDirectory page.page.code) →
        (∀ page ∈ more, page.page.code ∉ pages.map (·.page.code)) →
          Alike (Lasting l (pages.map (·.page.code))) s'.files t'.files) := by
  have hown : l.ownTheme.Resolved := Layout.resolved_child (resolved_metadata hroot) (by decide)
  have htheme : s.files.isDirectory l.ownTheme = t.files.isDirectory l.ownTheme := by
    rw [FileTree.isDirectory, FileTree.isDirectory, halike.left.node?_eq hown,
      halike.right.node?_eq hown, halike.same _ (.inr (.inr (.inl List.prefix_rfl)))]
  have hchoice := (keeps_themeOf (l := l) (P := fun _ ↦ True) t trivial).2 _ rfl
  rw [buildFrom_eq] at hs ht
  rw [on_bind_ok (on_themeOf l s), htheme] at hs
  rw [on_bind_ok (on_themeOf l t)] at ht
  obtain ⟨index, s1, hindex, hs⟩ := on_bind_eq_ok hs
  obtain ⟨other, t1, hother, ht⟩ := on_bind_eq_ok ht
  obtain rfl : index = other := by
    have hsame := answer_loadIndex_congr halike.left halike.right (resolved_index hroot)
      (halike.same _ (.inr (.inl rfl)))
    rw [hindex, hother] at hsame
    exact Except.ok.inj hsame
  have hs1 := (keeps_loadIndex s l.index).after (Same.refl s) hindex
  have ht1 := (keeps_loadIndex t l.index).after (Same.refl t) hother
  rw [← hs1.1, ← ht1.1] at halike
  obtain ⟨_, s2, hclear, hs⟩ := on_bind_eq_ok hs
  obtain ⟨_, t2, hclear', ht⟩ := on_bind_eq_ok ht
  have halike := alike_clearDirectory halike (resolved_exportRoot hroot) hclear hclear'
  exact fillExport_of_extends hextends hwalk hroot hchoice index
    (fun _ hplace ↦ .inl (.inr (.inr (.inl hplace)))) (fun _ hplace ↦ .inr hplace)
    (fun _ hplace ↦ .inl (.inr (.inr (.inr hplace)))) halike hs ht

/-- The history before the second page was saved. -/
def onePage : Store := { twoPages with commits := twoPages.commits.take 1 }

/-- A guide of the first page. -/
def onePageGuide : State := { twoPagesGuide with repositories := [(⟨"/", ["guide"]⟩, onePage)] }

end Workflow

end Guidebook
