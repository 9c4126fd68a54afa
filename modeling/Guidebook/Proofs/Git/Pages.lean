import Guidebook.Proofs.Git.Store
import Guidebook.Proofs.Git.WorkTree
import Guidebook.Proofs.Sequence

/-!
# The pages of a repository

The codes that a repository's history gives the guide, one for every page that a commit adds, and
how they go on when something is staged and recorded. A tree is taken to hold a page whether or not
the page is a file there; only files are added.
-/

namespace Guidebook

open Git

namespace Sequence

/-- The codes of the pages that commits add to a tree, in order. -/
def codesFrom (pagesDir extension : String) (old : Snapshot) (commits : List Commit) :
    List String :=
  (additions pagesDir extension old commits).flatMap fun change ↦
    change.2.map fun leaf ↦ Page.slug leaf.path extension

variable {pagesDir extension : String}

@[simp] theorem codesFrom_nil (old : Snapshot) : codesFrom pagesDir extension old [] = [] := rfl

theorem codesFrom_cons (old : Snapshot) (commit : Commit) (rest : List Commit) :
    codesFrom pagesDir extension old (commit :: rest) =
      (newLeaves pagesDir extension old commit.snapshot).map (fun leaf ↦
        Page.slug leaf.path extension) ++ codesFrom pagesDir extension commit.snapshot rest := rfl

theorem codesFrom_append (old : Snapshot) (front back : List Commit) :
    codesFrom pagesDir extension old (front ++ back) =
      codesFrom pagesDir extension old front ++
        codesFrom pagesDir extension ((front.getLast?.map (·.snapshot)).getD old) back := by
  rw [codesFrom, additions_append, List.flatMap_append]
  rfl

variable {s : Store} {root : String}

/-- A revision that no commit has the name of ends the run. -/
theorem pagesFrom_unknown {revision : Revision} (h : s.commit? revision.oid = none)
    (root pagesDir extension : String) (old : Option TreeHandle) (number : Nat)
    (rest : List Revision) :
    ∃ problem, pagesFrom (s.repository root) pagesDir extension old number (revision :: rest) =
      .error (.git (.treeOf revision.oid) problem) := by
  obtain ⟨problem, htree⟩ : ∃ problem, (s.repository root).treeOf revision =
      .error (.git (.treeOf revision.oid) problem) := by
    change ∃ problem, s.treeOf revision = _
    rw [Store.treeOf, h]
    exact ⟨_, rfl⟩
  rw [pagesFrom, htree]
  exact ⟨problem, rfl⟩

/-- One revision of the loop: its commit is compared with the tree before it, and its only new page
is read. -/
theorem pagesFrom_known {old : Option TreeHandle} {number : Nat} {revision : Revision}
    {rest : List Revision} {commit : Commit} (h : s.commit? revision.oid = some commit) :
    pagesFrom (s.repository root) pagesDir extension old number (revision :: rest) =
      let tree : TreeHandle := ⟨treeId commit.oid, commit.snapshot⟩
      match newLeaves pagesDir extension ((old.map (·.snapshot)).getD []) commit.snapshot with
      | [] => pagesFrom (s.repository root) pagesDir extension (some tree) number rest
      | [leaf] => do
        let page ← readPage (s.repository root) extension revision ⟨leaf.path, leaf.bytes⟩
        let pages ← pagesFrom (s.repository root) pagesDir extension (some tree) (number + 1) rest
        return ⟨number, revision, page⟩ :: pages
      | leaves => .error (.multiplePages revision.oid (leaves.map (·.path))) := by
  have htree : (s.repository root).treeOf revision = .ok ⟨treeId commit.oid, commit.snapshot⟩ := by
    change s.treeOf revision = _
    rw [Store.treeOf, h]
  have hadded : (s.repository root).added old ⟨treeId commit.oid, commit.snapshot⟩ =
      .ok ((Snapshot.added ((old.map (·.snapshot)).getD []) commit.snapshot).map fun leaf ↦
        ⟨leaf.path, leaf.bytes⟩) := rfl
  rw [pagesFrom, htree]
  simp only [hadded, bind, Except.bind, newPages_map]
  generalize newLeaves pagesDir extension ((old.map (·.snapshot)).getD []) commit.snapshot = leaves
  cases leaves with
  | nil => rfl
  | cons leaf others =>
    cases others with
    | nil => rfl
    | cons other others =>
      simp only [List.map_cons, List.map_map]
      rfl

/-- The pages of revisions have the codes of what the commits of those names add. -/
theorem map_code_pagesFrom {old : Option TreeHandle} {number : Nat} {revisions : List Revision}
    {answer : List SequencedPage}
    (h : pagesFrom (s.repository root) pagesDir extension old number revisions = .ok answer) :
    answer.map (·.page.code) = codesFrom pagesDir extension ((old.map (·.snapshot)).getD [])
      (revisions.filterMap fun revision ↦ s.commit? revision.oid) := by
  induction revisions generalizing old number answer with
  | nil =>
    obtain rfl : [] = answer := Except.ok.inj h
    rfl
  | cons revision rest ih =>
    cases hcommit : s.commit? revision.oid with
    | none =>
      obtain ⟨problem, hunknown⟩ :=
        pagesFrom_unknown hcommit root pagesDir extension old number rest
      rw [hunknown] at h
      cases h
    | some commit =>
      rw [pagesFrom_known hcommit] at h
      rw [List.filterMap_cons, hcommit]
      simp only at h ⊢
      rw [codesFrom_cons]
      split at h
      · next hnone => rw [hnone, List.map_nil, List.nil_append, ih h]; rfl
      · next leaf hone =>
        obtain ⟨page, hpage, h⟩ := bind_eq_ok h
        obtain ⟨found, hfound, h⟩ := bind_eq_ok h
        obtain rfl := Except.ok.inj h
        rw [hone, List.map_cons, ih hfound, code_readPage hpage]
        rfl
      · cases h

end Sequence

namespace Git

open Sequence

variable {pagesDir extension : String} {codes : List String}

namespace Store

/-- The commits that the log of a repository names: its own, and behind each of them those that its
summary names besides. -/
def named (s : Store) : List Commit :=
  s.commits.flatMap fun commit ↦
    commit :: commit.strays.filterMap fun stray ↦ s.commit? stray.oid

variable {s : Store}

/-- Without strays the log names the commits. -/
theorem named_eq (h : ∀ commit ∈ s.commits, commit.strays = []) : s.named = s.commits := by
  have hcommits : s.named = s.commits.flatMap fun commit ↦ [commit] := by
    rw [named, List.flatMap_def, List.flatMap_def]
    refine congrArg List.flatten (List.map_congr_left fun commit hcommit ↦ ?_)
    rw [h commit hcommit, List.filterMap_nil]
  rw [hcommits, List.flatMap_singleton']

/-- The ancestry of a repository leads to the commits that its log names. -/
theorem Tidy.ancestry (h : s.Tidy) {root : String} {revisions : List Revision}
    (hancestry : (s.repository root).ancestry = .ok revisions) :
    (revisions.filterMap fun revision ↦ s.commit? revision.oid) = s.named := by
  change s.ancestry root = _ at hancestry
  rw [Store.ancestry, h.readLog] at hancestry
  split at hancestry
  · cases hancestry
  · obtain rfl := Except.ok.inj hancestry
    rw [List.filterMap_flatMap, named, List.flatMap_def, List.flatMap_def,
      List.map_congr_left fun commit hcommit ↦ ?_]
    rw [List.filterMap_cons, Commit.listed, h.commit?_oid hcommit]

/-- Without strays the pages of a repository are the specified ones. -/
theorem Tidy.pages_eq_specified (h : s.Tidy) (hne : s.commits ≠ [])
    (hstrays : ∀ commit ∈ s.commits, commit.strays = []) (root : String) :
    pages (s.repository root) pagesDir extension =
      specified extension (additions pagesDir extension [] s.commits) := by
  have hancestry : (s.repository root).ancestry = .ok (readBack s.commits) := by
    change s.ancestry root = _
    rw [Store.ancestry, h.readLog, if_neg (by simpa using hne)]
    rfl
  rw [pages, hancestry]
  refine pagesFrom_readBack (h.records root) fun change hchange ↦ hstrays change.1 ?_
  have hmem := List.mem_map_of_mem (f := (·.1)) ((List.takeWhile_prefix _).mem hchange)
  rwa [map_fst_additions] at hmem

/-- The changes of a history that goes on: behind those that there were come the pages that the next
commit adds to the current one. -/
theorem additions_commits (s : Store) (commit : Commit) (back : List Commit) :
    additions pagesDir extension [] (s.commits ++ commit :: back) =
      additions pagesDir extension [] s.commits ++
        (commit, newLeaves pagesDir extension s.head commit.snapshot) ::
          additions pagesDir extension commit.snapshot back := by
  have hhead : (s.commits.getLast?.map (·.snapshot)).getD [] = s.head := by
    rw [head]
    cases s.commits.getLast? <;> rfl
  rw [additions_append, hhead]
  rfl

/-- A commit that adds one page with a free code brings the page, if its bytes are text, and
otherwise the complaint about them. -/
theorem Tidy.pages_concat {new : Store} (h : new.Tidy) {commit : Commit}
    (hcommits : new.commits = s.commits ++ [commit])
    (hstrays : ∀ other ∈ new.commits, other.strays = []) {before : List SequencedPage}
    (hbefore : specified extension (additions pagesDir extension [] s.commits) = .ok before)
    {leaf : Leaf} (hone : newLeaves pagesDir extension s.head commit.snapshot = [leaf])
    {code : String} (hcode : Page.code leaf.path extension = .ok code) (root : String) :
    pages (new.repository root) pagesDir extension =
      (pageText commit.oid leaf.path leaf.bytes).map fun text ↦
        before ++ [⟨before.length, commit.listed, leaf.path, code, Page.titleOf text, text⟩] := by
  rw [h.pages_eq_specified (by simp [hcommits]) hstrays, hcommits, additions_commits, hone]
  exact specified_concat hbefore commit hcode

/-- The pages of a repository have the codes of what the commits add that its log names. -/
theorem Tidy.map_code_pages (h : s.Tidy) {root : String} {answer : List SequencedPage}
    (hpages : pages (s.repository root) pagesDir extension = .ok answer) :
    answer.map (·.page.code) = codesFrom pagesDir extension [] s.named := by
  obtain ⟨revisions, hancestry, hfrom⟩ := bind_eq_ok hpages
  rw [map_code_pagesFrom hfrom, h.ancestry hancestry]
  rfl

/-- A repository whose history gives the guide its codes. No page is staged but those of the current
commit, and all of these have one of the codes. -/
structure Gives (s : Store) (pagesDir extension : String) (codes : List String) : Prop where
  tidy : s.Tidy
  added : codesFrom pagesDir extension [] s.commits = codes
  staged : ∀ leaf ∈ s.staged, Page.isPagePath leaf.path pagesDir extension = true →
    ∃ other ∈ s.head, other.path = leaf.path
  head : ∀ leaf ∈ s.head, Page.isPagePath leaf.path pagesDir extension = true →
    Page.slug leaf.path extension ∈ codes

/-- A fresh repository gives no codes. -/
theorem gives_empty (number : Nat) (pagesDir extension : String) :
    (empty number).Gives pagesDir extension [] where
  tidy := tidy_empty number
  added := rfl
  staged := by simp [empty]
  head := by simp [empty, Store.head]

/-- Staging no other pages keeps the codes. -/
theorem Gives.withStaged (h : s.Gives pagesDir extension codes) {staged : Snapshot}
    (hnamed : staged.Named)
    (hpages : ∀ leaf ∈ staged, Page.isPagePath leaf.path pagesDir extension = true →
      ∃ other ∈ s.head, other.path = leaf.path) :
    (s.withStaged staged).Gives pagesDir extension codes :=
  ⟨h.tidy.withStaged hnamed, h.added, hpages, h.head⟩

/-- Whoever commits, the codes are the same. -/
theorem Gives.withIdentity (h : s.Gives pagesDir extension codes) (known : Bool) :
    Gives { s with hasIdentity := known } pagesDir extension codes :=
  ⟨⟨h.tidy.staged, h.tidy.commits, h.tidy.ids⟩, h.added, h.staged, h.head⟩

/-- Setting back all pages keeps the codes, whatever was staged. -/
theorem Gives.unstage (h : s.Gives pagesDir extension codes) {staged : Snapshot}
    (hnamed : staged.Named) {covers : String → Bool}
    (hpages : ∀ leaf ∈ staged, Page.isPagePath leaf.path pagesDir extension = true →
      covers leaf.path = true) :
    ((s.withStaged staged).unstage covers).Gives pagesDir extension codes := by
  refine ⟨(h.tidy.withStaged hnamed).unstage covers, h.added, fun leaf hleaf hpage ↦ ?_, h.head⟩
  rcases Snapshot.mem_of_mem_foldl_put hleaf with hleaf | hleaf
  · exact ⟨leaf, (List.mem_filter.mp hleaf).1, rfl⟩
  · obtain ⟨hstaged, hout⟩ := List.mem_filter.mp hleaf
    rw [hpages leaf hstaged hpage] at hout
    cases hout

/-- Recording goes on with the codes of the pages that are new. -/
theorem Gives.record (h : s.Gives pagesDir extension codes) {staged : Snapshot}
    (hnamed : staged.Named)
    (hpages : ∀ leaf ∈ staged, Page.isPagePath leaf.path pagesDir extension = true →
      leaf.isSubmodule = false ∨ ∃ other ∈ s.head, other.path = leaf.path)
    (message committer : String) :
    ((s.withStaged staged).record message committer).Gives pagesDir extension
      (codes ++ (newLeaves pagesDir extension s.head staged).map fun leaf ↦
        Page.slug leaf.path extension) := by
  refine ⟨(h.tidy.withStaged hnamed).record _ _, ?_, fun leaf hleaf _ ↦ ?_,
    fun leaf hleaf hpage ↦ ?_⟩
  · have hhead : (s.commits.getLast?.map (·.snapshot)).getD [] = s.head := by
      rw [Store.head]
      cases s.commits.getLast? <;> rfl
    change codesFrom pagesDir extension [] (s.commits ++ [_]) = _
    rw [codesFrom_append, h.added, hhead, codesFrom_cons, codesFrom_nil, List.append_nil]
    rfl
  · rw [head_record]
    exact ⟨leaf, hleaf, rfl⟩
  · rw [head_record] at hleaf
    rw [List.mem_append, List.mem_map]
    by_cases hold : ∃ other ∈ s.head, other.path = leaf.path
    · obtain ⟨other, hother, heq⟩ := hold
      exact .inl (heq ▸ h.head other hother (heq ▸ hpage))
    · have hfile := (hpages leaf hleaf hpage).resolve_right hold
      rw [not_exists] at hold
      exact .inr ⟨leaf, mem_newLeaves_iff.mpr
        ⟨hleaf, hfile, fun other hother heq ↦ hold other ⟨hother, heq⟩, hpage⟩, rfl⟩

end Store

namespace WorkTree

open Store

variable {w : WorkTree}

/-- What is staged of files has a path made of components. -/
theorem Sound.named_stage (hw : w.Sound) (hstaged : w.store.staged.Named)
    (places : List (List String)) : (w.stage places).Named := by
  intro leaf hleaf
  rcases hw.mem_stage.mp hleaf with htaken | ⟨⟨hold, -⟩, -⟩
  · obtain ⟨file, hfile, -, rfl⟩ := mem_taken.mp htaken
    exact ⟨file.1, hw.named file hfile, rfl⟩
  · exact hstaged leaf hold

/-- A page is staged as a file unless something was committed in its place. -/
theorem Sound.page_stage (hw : w.Sound) (h : w.store.Gives pagesDir extension codes)
    {places : List (List String)} {leaf : Leaf} (hleaf : leaf ∈ w.stage places)
    (hpage : Page.isPagePath leaf.path pagesDir extension = true) :
    leaf.isSubmodule = false ∨ ∃ other ∈ w.store.head, other.path = leaf.path := by
  rcases hw.mem_stage.mp hleaf with htaken | ⟨⟨hold, -⟩, -⟩
  · obtain ⟨file, -, -, rfl⟩ := mem_taken.mp htaken
    exact .inl (isSubmodule_leafOf w _ _)
  · exact .inr (h.staged leaf hold hpage)

/-- The only untracked page is the only one that staging it adds to what is committed, if its code
is a new one. -/
theorem Sound.newLeaves_stage (hw : w.Sound) (hstaged : w.store.staged.Sound)
    (h : w.store.Gives pagesDir extension codes) (htop : w.place = []) {paths : List String}
    (hpaths : w.untracked pagesDir = .ok paths) {path : String}
    (hone : (paths.filter fun path ↦ Page.isPagePath path pagesDir extension) = [path])
    (hnew : Page.slug path extension ∉ codes) {places : List (List String)}
    (hplaces : ∃ place ∈ places, pathspec [] pagesDir = .ok place) :
    (newLeaves pagesDir extension w.store.head (w.stage places)).map (fun leaf ↦
      Page.slug leaf.path extension) = [Page.slug path extension] := by
  obtain ⟨hlisted, hpage⟩ := Page.mem_of_filter_eq_singleton hone
  obtain ⟨place, hplace, names, hnames, rfl⟩ := (mem_untracked htop hpaths).mp hlisted
  obtain ⟨⟨⟨found, bytes⟩, hfile, hfound⟩, -, huntracked, hignored⟩ := mem_others.mp hnames
  obtain rfl : found = names := hfound
  -- a leaf is new exactly if it is that of the page
  have hiff : ∀ leaf, leaf ∈ newLeaves pagesDir extension w.store.head (w.stage places) ↔
      leaf = w.leafOf found bytes := by
    intro leaf
    rw [mem_newLeaves_iff]
    constructor
    · rintro ⟨hleaf, -, hfresh, hpage⟩
      rcases hw.mem_stage.mp hleaf with htaken | ⟨⟨hold, -⟩, -⟩
      · obtain ⟨⟨names, content⟩, hother, htakes, rfl⟩ := mem_taken.mp htaken
        have hfree : w.isTracked names = false := by
          rw [← Bool.not_eq_true]
          intro htracked
          obtain ⟨old, hold, heq⟩ := List.any_eq_true.mp htracked
          rw [beq_iff_eq] at heq
          obtain ⟨committed, hcommitted, hat⟩ := h.staged old hold (heq ▸ hpage)
          exact hfresh committed hcommitted (hat.trans heq)
        have hkept : ignores w.ignoreFiles names = false := by
          rw [takes, Bool.and_eq_true, hfree, Bool.false_or, Bool.not_eq_true'] at htakes
          exact htakes.2
        have hmem : gitPath names ∈ paths.filter fun path ↦
            Page.isPagePath path pagesDir extension :=
          List.mem_filter.mpr ⟨(mem_untracked htop hpaths).mpr ⟨place, hplace, names,
            mem_others.mpr ⟨⟨_, hother, rfl⟩, prefix_of_isPagePath (hw.named _ hother) hplace hpage,
              hfree, hkept⟩, rfl⟩, hpage⟩
        rw [hone, List.mem_singleton] at hmem
        obtain rfl := gitPath_inj (hw.named _ hother) (hw.named _ hfile) hmem
        rw [(Prod.mk.inj (hw.unique _ hother _ hfile rfl)).2]
      · obtain ⟨other, hother, heq⟩ := h.staged leaf hold hpage
        exact absurd heq (hfresh other hother)
    · rintro rfl
      have hcovers := covers_page (hw.named _ hfile) hplaces hpage
      have htakes : w.takes places found = true := by
        rw [takes, hcovers, huntracked, hignored]
        rfl
      refine ⟨hw.mem_stage.mpr (.inl (mem_taken.mpr ⟨_, hfile, htakes, rfl⟩)),
        isSubmodule_leafOf w _ _, fun other hother heq ↦ hnew ?_, hpage⟩
      have hat : other.path = gitPath found := heq
      rw [← hat]
      exact h.head other hother (hat ▸ hpage)
  have hsingle : newLeaves pagesDir extension w.store.head (w.stage places) =
      [w.leafOf found bytes] := by
    refine Snapshot.Sound.eq_of_mem_iff (((sound_stage hstaged places).filter _).filter _)
      ⟨List.pairwise_singleton _ _, by simp [Snapshot.isBelow_self]⟩ fun leaf ↦ ?_
    rw [hiff, List.mem_singleton]
  rw [hsingle]
  rfl

end WorkTree

end Git

end Guidebook
