import Mathlib.Data.List.TakeWhile
import Guidebook.Proofs.Git.Client
import Guidebook.Proofs.Path
import Guidebook.Proofs.Result
import Guidebook.Sequence

/-!
# The sequence of a history

What a history's pages are, said without a loop: the leaves of pages each commit adds to the one
before it, the first commit among them that is no step, and otherwise one numbered entry for every
added page. Reading a repository that records the history comes to the same.
-/

namespace Guidebook.Sequence

open Git

/-- The pages that a tree adds to an older one, in tree order. -/
def newLeaves (pagesDir extension : String) (old new : Snapshot) : List Leaf :=
  (Snapshot.added old new).filter fun leaf ↦ Page.isPagePath leaf.path pagesDir extension

/-- The commits after a tree, each with the pages it adds to the tree before it. -/
def additions (pagesDir extension : String) : Snapshot → List Commit → List (Commit × List Leaf)
  | _, [] => []
  | old, commit :: rest =>
    (commit, newLeaves pagesDir extension old commit.snapshot) ::
      additions pagesDir extension commit.snapshot rest

/-- Why a commit with the pages it adds can be no step of the guide: it adds several, or one with a
reserved code, or one that is binary or not text. -/
def offence (extension : String) : Commit × List Leaf → Option Failure
  | (_, []) => none
  | (commit, [leaf]) =>
    let code := Page.slug leaf.path extension
    if Page.isReserved code then some (.reservedCode code leaf.path)
    else if Code.isBinary leaf.bytes then
      some (.content .binaryPage (some commit.oid) leaf.path)
    else if (Utf8.decode leaf.bytes).toOption.isNone then
      some (.content .pageNotText (some commit.oid) leaf.path)
    else none
  | (commit, leaves) => some (.multiplePages commit.oid (leaves.map (·.path)))

/-- The text of a leaf, if it is text. -/
def leafText (leaf : Leaf) : List Char := (Utf8.decode leaf.bytes).toOption.getD []

/-- A page as an entry of the sequence. -/
def entry (extension : String) (number : Nat) (commit : Commit) (leaf : Leaf) : SequencedPage :=
  ⟨number, commit.listed, leaf.path, Page.slug leaf.path extension, Page.titleOf (leafText leaf),
    leafText leaf⟩

/-- The added pages in order, numbered from a number on. -/
def entriesFrom (extension : String) (number : Nat) (changes : List (Commit × List Leaf)) :
    List SequencedPage :=
  ((changes.flatMap fun change ↦ change.2.map (change.1, ·)).zipIdx number).map fun page ↦
    entry extension page.2 page.1.1 page.1.2

/-- The sequence of changes: the first offence, or else all pages numbered from zero on. -/
def specified (extension : String) (changes : List (Commit × List Leaf)) :
    Except Failure (List SequencedPage) :=
  match changes.findSome? (offence extension) with
  | some failure => .error failure
  | none => .ok (entriesFrom extension 0 changes)

variable {pagesDir extension : String}

/-- A page of a tree is new if the older tree has nothing at its path. -/
theorem mem_newLeaves_iff {old new : Snapshot} {leaf : Leaf} :
    leaf ∈ newLeaves pagesDir extension old new ↔ leaf ∈ new ∧ leaf.isSubmodule = false ∧
      (∀ other ∈ old, other.path ≠ leaf.path) ∧
      Page.isPagePath leaf.path pagesDir extension = true := by
  rw [newLeaves, Snapshot.added, List.mem_filter, List.mem_filter]
  simp [and_assoc]

/-- Changes of a longer history: those of its front and those after the front's last tree. -/
theorem additions_append (old : Snapshot) (front back : List Commit) :
    additions pagesDir extension old (front ++ back) =
      additions pagesDir extension old front ++
        additions pagesDir extension ((front.getLast?.map (·.snapshot)).getD old) back := by
  induction front generalizing old with
  | nil => rfl
  | cons commit front ih =>
    rw [List.cons_append, additions, additions, ih, List.cons_append, List.getLast?_cons]
    cases front.getLast? <;> rfl

/-- Every commit has its place among the changes. -/
theorem map_fst_additions (old : Snapshot) (history : List Commit) :
    (additions pagesDir extension old history).map (·.1) = history := by
  induction history generalizing old with
  | nil => rfl
  | cons commit history ih => rw [additions, List.map_cons, ih]

/-- The number of pages that changes add. -/
def pageCount (changes : List (Commit × List Leaf)) : Nat :=
  (changes.flatMap fun change ↦ change.2.map (change.1, ·)).length

/-- Numbers run on from one part of the changes to the next. -/
theorem entriesFrom_append (number : Nat) (front back : List (Commit × List Leaf)) :
    entriesFrom extension number (front ++ back) = entriesFrom extension number front ++
      entriesFrom extension (number + pageCount front) back := by
  rw [entriesFrom, List.flatMap_append, List.zipIdx_append, List.map_append]
  rfl

private theorem length_entriesFrom (number : Nat) (changes : List (Commit × List Leaf)) :
    (entriesFrom extension number changes).length = pageCount changes := by
  rw [entriesFrom, List.length_map, List.length_zipIdx, pageCount]

/-- A page more comes behind the others if its code is free and its bytes are text; otherwise it is
the first offence. -/
theorem specified_concat {changes : List (Commit × List Leaf)} {before : List SequencedPage}
    (h : specified extension changes = .ok before) (commit : Commit) {leaf : Leaf} {code : String}
    (hcode : Page.code leaf.path extension = .ok code) :
    specified extension (changes ++ [(commit, [leaf])]) =
      (pageText commit.oid leaf.path leaf.bytes).map fun text ↦
        before ++ [⟨before.length, commit.listed, leaf.path, code, Page.titleOf text, text⟩] := by
  rw [specified] at h
  split at h
  · cases h
  next hnone =>
  obtain rfl := Except.ok.inj h
  obtain ⟨hfree, rfl⟩ := Page.code_eq_ok_iff.mp hcode
  rw [specified, List.findSome?_append, hnone, List.findSome?_singleton, Option.none_or, offence,
    if_neg (by simp [hfree]), pageText, entriesFrom_append, length_entriesFrom, Nat.zero_add]
  cases Code.isBinary leaf.bytes with
  | true => rfl
  | false =>
    cases htext : Utf8.decode leaf.bytes with
    | error fault => rfl
    | ok text =>
      have hread : leafText leaf = text := by
        rw [leafText, htext]
        rfl
      rw [← hread]
      rfl

/-- The changes before the first offence. -/
def accepted (extension : String) (changes : List (Commit × List Leaf)) :
    List (Commit × List Leaf) :=
  changes.takeWhile fun change ↦ (offence extension change).isNone

private theorem accepted_cons_of_none {change : Commit × List Leaf}
    {changes : List (Commit × List Leaf)} (h : offence extension change = none) :
    accepted extension (change :: changes) = change :: accepted extension changes := by
  rw [accepted, List.takeWhile_cons, h]
  rfl

private theorem accepted_cons_of_some {change : Commit × List Leaf} {failure : Failure}
    {changes : List (Commit × List Leaf)} (h : offence extension change = some failure) :
    accepted extension (change :: changes) = [] := by
  rw [accepted, List.takeWhile_cons, h]
  rfl

/-- A history as it is read from its log: every commit with the strays of its summary. -/
def readBack (history : List Commit) : List Revision :=
  history.flatMap fun commit ↦ commit.listed :: commit.strays

private theorem readBack_cons (commit : Commit) (history : List Commit) :
    readBack (commit :: history) = commit.listed :: (commit.strays ++ readBack history) := by
  rw [readBack, List.flatMap_cons]
  rfl

/-- The log is read as the commits themselves exactly if no summary adds records to it. -/
theorem map_oid_readBack_eq_iff (history : List Commit) :
    (readBack history).map (·.oid) = history.map (·.oid) ↔
      ∀ commit ∈ history, commit.strays = [] := by
  constructor
  · intro h
    have hlength := congrArg List.length h
    rw [List.length_map, List.length_map] at hlength
    exact (length_flatMap_cons_eq_iff Commit.listed Commit.strays history).mp hlength
  · intro h
    induction history with
    | nil => rfl
    | cons commit history ih =>
      have hrest := ih fun other ho ↦ h other (by simp [ho])
      rw [readBack_cons, h commit (by simp), List.nil_append, List.map_cons, List.map_cons, hrest]
      rfl

private theorem pageCount_cons (change : Commit × List Leaf)
    (changes : List (Commit × List Leaf)) :
    pageCount (change :: changes) = pageCount [change] + pageCount changes := by
  simp [pageCount]

private theorem specified_ne_git (changes : List (Commit × List Leaf)) (oid : String)
    (problem : Problem) : specified extension changes ≠ .error (.git (.treeOf oid) problem) := by
  rw [specified]
  cases hf : changes.findSome? (offence extension) with
  | none => simp
  | some failure =>
    obtain ⟨⟨commit, leaves⟩, -, hoff⟩ := List.exists_of_findSome?_eq_some hf
    intro heq
    obtain rfl := Except.error.inj heq
    rw [offence.eq_def] at hoff
    split at hoff
    · cases hoff
    · simp only at hoff
      split at hoff
      · cases hoff
      · split at hoff
        · cases hoff
        · split at hoff <;> cases hoff
    · cases hoff

private theorem map_append_map (front back : List SequencedPage)
    (answer : Except Failure (List SequencedPage)) :
    (front ++ ·) <$> (back ++ ·) <$> answer = (front ++ back ++ ·) <$> answer := by
  cases answer with
  | error failure => rfl
  | ok pages => exact congrArg Except.ok (List.append_assoc front back pages).symm

section Records

/-- A revision that the repository knows no tree of. -/
def Unknown {Tree Blob : Type} (repository : Repository (Except Failure) Tree Blob)
    (revision : Revision) : Prop :=
  ∃ problem, repository.treeOf revision = .error (.git (.treeOf revision.oid) problem)

variable {Tree Blob : Type} {repository : Repository (Except Failure) Tree Blob}
  {tree : Commit → Tree} {blob : Leaf → Blob} {history : List Commit}

private theorem readPage_eq {commit : Commit} {leaf : Leaf}
    (h : repository.blob (blob leaf) = .ok leaf.bytes) :
    readPage repository extension commit.listed ⟨leaf.path, blob leaf⟩ =
      match offence extension (commit, [leaf]) with
      | some failure => .error failure
      | none => .ok ⟨leaf.path, Page.slug leaf.path extension, Page.titleOf (leafText leaf),
          leafText leaf⟩ := by
  simp only [readPage, offence, Page.code, h, bind, Except.bind, pageText, Commit.listed]
  by_cases hcode : Page.isReserved (Page.slug leaf.path extension)
  · simp only [hcode, if_true]
    rfl
  · by_cases hbinary : Code.isBinary leaf.bytes
    · simp only [hcode, hbinary, if_true]
      rfl
    · cases hd : Utf8.decode leaf.bytes with
      | error fault =>
        simp only [hcode, hbinary, Except.toOption]
        rfl
      | ok text =>
        simp only [hcode, hbinary, leafText, hd, Except.toOption]
        rfl

/-- Picking the pages among added files picks them among the leaves. -/
theorem newPages_map (old new : Snapshot) :
    newPages pagesDir extension ((Snapshot.added old new).map fun leaf ↦
      (⟨leaf.path, blob leaf⟩ : AddedFile Blob)) =
      (newLeaves pagesDir extension old new).map fun leaf ↦ ⟨leaf.path, blob leaf⟩ := by
  rw [newPages, List.filter_map]
  rfl

/-- A commit adds leaves of its own tree. -/
theorem mem_snapshot_of_mem_additions {old : Snapshot} {history : List Commit}
    {change : Commit × List Leaf} (h : change ∈ additions pagesDir extension old history) :
    ∀ leaf ∈ change.2, leaf ∈ change.1.snapshot := by
  induction history generalizing old with
  | nil => cases h
  | cons commit history ih =>
    rw [additions, List.mem_cons] at h
    rcases h with rfl | h
    · exact fun leaf hleaf ↦ (mem_newLeaves_iff.mp hleaf).1
    · exact ih h

/-- One commit of the loop: its offence ends the run, its page takes the next number, and its tree
is the one that the next commit is compared with. -/
theorem pagesFrom_listed (hrecords : repository.Records tree blob history) {old : Option Commit}
    (hold : ∀ commit ∈ old, commit ∈ history) {commit : Commit} (hcommit : commit ∈ history)
    (number : Nat) (rest : List Revision) :
    pagesFrom repository pagesDir extension (old.map tree) number (commit.listed :: rest) =
      let change := (commit, newLeaves pagesDir extension ((old.map (·.snapshot)).getD [])
        commit.snapshot)
      match offence extension change with
      | some failure => .error failure
      | none => (entriesFrom extension number [change] ++ ·) <$>
          pagesFrom repository pagesDir extension (some (tree commit))
            (number + pageCount [change]) rest := by
  have htree := hrecords.treeOf commit hcommit commit.listed rfl
  have hadded := hrecords.added old hold commit hcommit
  rw [pagesFrom]
  simp only [htree, hadded, bind, Except.bind, newPages_map]
  have hleaves : ∀ leaf ∈ newLeaves pagesDir extension ((old.map (·.snapshot)).getD [])
      commit.snapshot, repository.blob (blob leaf) = .ok leaf.bytes := by
    intro leaf hleaf
    obtain ⟨hmem, hfile, -⟩ := mem_newLeaves_iff.mp hleaf
    exact hrecords.bytes commit hcommit leaf hmem hfile
  cases hl : newLeaves pagesDir extension ((old.map (·.snapshot)).getD []) commit.snapshot with
  | nil =>
    change pagesFrom repository pagesDir extension (some (tree commit)) number rest =
      ([] ++ ·) <$> pagesFrom repository pagesDir extension (some (tree commit)) number rest
    simp
  | cons leaf others =>
    rw [hl] at hleaves
    cases others with
    | nil =>
      have hpage : readPage repository extension commit.listed ⟨leaf.path, blob leaf⟩ = _ :=
        readPage_eq (hleaves leaf (by simp))
      simp only [List.map_cons, List.map_nil, hpage]
      cases offence extension (commit, [leaf]) with
      | some failure => rfl
      | none =>
        change (pagesFrom repository pagesDir extension (some (tree commit)) (number + 1) rest).bind
          (fun pages ↦ .ok (entry extension number commit leaf :: pages)) =
          (entriesFrom extension number [(commit, [leaf])] ++ ·) <$>
            pagesFrom repository pagesDir extension (some (tree commit)) (number + 1) rest
        cases pagesFrom repository pagesDir extension (some (tree commit)) (number + 1) rest <;> rfl
    | cons other others =>
      simp only [List.map_cons, offence]
      simp [throw, throwThe, MonadExceptOf.throw, Commit.listed]

/-- A log as it is read, with further revisions behind it: the first offence among the commits ends
the run; without one their pages stand in front of what the revisions yield. Summaries may only add
records to the log once the run has ended. -/
theorem pagesFrom_log (hrecords : repository.Records tree blob history) {old : Option Commit}
    (hold : ∀ commit ∈ old, commit ∈ history) {front : List Commit}
    (hfront : ∀ commit ∈ front, commit ∈ history) (number : Nat) (rest : List Revision)
    (hstrays : ∀ change ∈ accepted extension
      (additions pagesDir extension ((old.map (·.snapshot)).getD []) front),
      change.1.strays = []) :
    pagesFrom repository pagesDir extension (old.map tree) number (readBack front ++ rest) =
      let changes := additions pagesDir extension ((old.map (·.snapshot)).getD []) front
      match changes.findSome? (offence extension) with
      | some failure => .error failure
      | none => (entriesFrom extension number changes ++ ·) <$>
          pagesFrom repository pagesDir extension ((front.getLast?.or old).map tree)
            (number + pageCount changes) rest := by
  induction front generalizing old number with
  | nil =>
    change pagesFrom repository pagesDir extension (old.map tree) number rest =
      ([] ++ ·) <$> pagesFrom repository pagesDir extension (old.map tree) number rest
    simp
  | cons commit front ih =>
    have hcommit := hfront commit (by simp)
    rw [readBack_cons, List.cons_append, pagesFrom_listed hrecords hold hcommit, additions]
    rw [additions] at hstrays
    simp only [List.findSome?_cons]
    generalize hchange : (commit, newLeaves pagesDir extension
      ((old.map (·.snapshot)).getD []) commit.snapshot) = change at hstrays
    cases hoff : offence extension change with
    | some failure => rfl
    | none =>
      rw [accepted_cons_of_none hoff] at hstrays
      have hsome : ∀ other ∈ some commit, other ∈ history := by simpa using hcommit
      have hnil : commit.strays = [] := by
        have := hstrays change (by simp)
        rwa [← hchange] at this
      have hrest := fun n ↦ ih hsome (fun other ho ↦ hfront other (by simp [ho])) n
        fun other ho ↦ hstrays other (List.mem_cons_of_mem _ ho)
      simp only [Option.map_some, Option.getD_some] at hrest
      have hlast : (commit :: front).getLast?.or old = front.getLast?.or (some commit) := by
        rw [List.getLast?_cons]
        cases front.getLast? <;> rfl
      simp only [hnil, List.nil_append, hrest, hlast]
      cases (additions pagesDir extension commit.snapshot front).findSome?
          (offence extension) with
      | some failure => rfl
      | none =>
        have hentries : entriesFrom extension number
            ([change] ++ additions pagesDir extension commit.snapshot front) = _ :=
          entriesFrom_append number _ _
        rw [List.singleton_append] at hentries
        simp only [map_append_map, hentries]
        rw [pageCount_cons change (additions pagesDir extension commit.snapshot front),
          Nat.add_assoc]

/-- The first record that a summary adds before the run has ended is asked for its tree. -/
theorem pagesFrom_stray (hrecords : repository.Records tree blob history) {old : Option Commit}
    (hold : ∀ commit ∈ old, commit ∈ history) {front : List Commit}
    (hfront : ∀ commit ∈ front, commit ∈ history) (number : Nat)
    (hunknown : ∀ change ∈ accepted extension
      (additions pagesDir extension ((old.map (·.snapshot)).getD []) front),
      ∀ stray ∈ change.1.strays, Unknown repository stray)
    (hstrays : ∃ change ∈ accepted extension
      (additions pagesDir extension ((old.map (·.snapshot)).getD []) front),
      change.1.strays ≠ []) :
    ∃ oid problem, pagesFrom repository pagesDir extension (old.map tree) number (readBack front) =
      .error (.git (.treeOf oid) problem) := by
  induction front generalizing old number with
  | nil =>
    obtain ⟨change, hchange, -⟩ := hstrays
    simp [additions, accepted] at hchange
  | cons commit front ih =>
    have hcommit := hfront commit (by simp)
    rw [readBack_cons, pagesFrom_listed hrecords hold hcommit]
    rw [additions] at hunknown hstrays
    generalize hchange : (commit, newLeaves pagesDir extension
      ((old.map (·.snapshot)).getD []) commit.snapshot) = change at hunknown hstrays
    cases hoff : offence extension change with
    | some failure =>
      obtain ⟨other, hother, -⟩ := hstrays
      rw [accepted_cons_of_some hoff] at hother
      simp at hother
    | none =>
      rw [accepted_cons_of_none hoff] at hunknown hstrays
      cases hs : commit.strays with
      | cons stray others =>
        have hmem : stray ∈ change.1.strays := by
          rw [← hchange, hs]
          exact List.mem_cons_self
        obtain ⟨problem, hproblem⟩ := hunknown change (by simp) stray hmem
        refine ⟨stray.oid, problem, ?_⟩
        simp only [List.cons_append, pagesFrom, hproblem, hoff]
        rfl
      | nil =>
        have hsome : ∀ other ∈ some commit, other ∈ history := by simpa using hcommit
        obtain ⟨other, hother, hne⟩ := hstrays
        have hother : other ∈ accepted extension
            (additions pagesDir extension commit.snapshot front) := by
          rcases List.mem_cons.mp hother with rfl | hother
          · rw [← hchange] at hne
            exact absurd hs hne
          · exact hother
        obtain ⟨oid, problem, hrest⟩ := ih hsome (fun other ho ↦ hfront other (by simp [ho]))
          (number + pageCount [change])
          (fun other ho ↦ hunknown other (List.mem_cons_of_mem _ ho)) ⟨other, hother, hne⟩
        refine ⟨oid, problem, ?_⟩
        simp only [Option.map_some] at hrest
        simp only [List.nil_append, hrest, hoff]
        rfl

/-- The pages of a log read back are the specified ones, as long as no summary adds records to it
before the first offence. -/
theorem pagesFrom_readBack (hrecords : repository.Records tree blob history)
    (hstrays : ∀ change ∈ accepted extension (additions pagesDir extension [] history),
      change.1.strays = []) :
    pagesFrom repository pagesDir extension none 0 (readBack history) =
      specified extension (additions pagesDir extension [] history) := by
  have hnone : ∀ commit ∈ (none : Option Commit), commit ∈ history := by simp
  have hlog := pagesFrom_log hrecords hnone (fun _ h ↦ h) 0 [] hstrays
  simp only [List.append_nil, Option.map_none, Option.getD_none] at hlog
  rw [hlog, specified]
  cases (additions pagesDir extension [] history).findSome? (offence extension) with
  | some failure => rfl
  | none => exact congrArg Except.ok (List.append_nil _)

end Records

section Codes

variable {Tree Blob : Type} {repository : Repository (Except Failure) Tree Blob}

/-- A page has the code of its path, which is not reserved. -/
theorem pageCode_readPage {revision : Revision} {file : AddedFile Blob} {page : PageDocument}
    (h : readPage repository extension revision file = .ok page) :
    Page.code file.path extension = .ok page.code := by
  rw [readPage] at h
  obtain ⟨code, hcode, h⟩ := bind_eq_ok h
  obtain ⟨bytes, -, h⟩ := bind_eq_ok h
  obtain ⟨text, -, h⟩ := bind_eq_ok h
  obtain rfl := Except.ok.inj h
  rwa [ofResult_result] at hcode

/-- The title of a page is that of its text. -/
theorem title_readPage {revision : Revision} {file : AddedFile Blob} {page : PageDocument}
    (h : readPage repository extension revision file = .ok page) :
    page.title = Page.titleOf page.text := by
  rw [readPage] at h
  obtain ⟨code, -, h⟩ := bind_eq_ok h
  obtain ⟨bytes, -, h⟩ := bind_eq_ok h
  obtain ⟨text, -, h⟩ := bind_eq_ok h
  obtain rfl := Except.ok.inj h
  rfl

/-- The code of a page is made of its path. -/
theorem code_readPage {revision : Revision} {file : AddedFile Blob} {page : PageDocument}
    (h : readPage repository extension revision file = .ok page) :
    page.code = Page.slug file.path extension :=
  (Page.code_eq_ok_iff.mp (pageCode_readPage h)).2

/-- The code of a page that is read is one that pages may have. -/
theorem isCode_readPage {revision : Revision} {file : AddedFile Blob} {page : PageDocument}
    (hpath : Page.isPagePath file.path pagesDir extension = true)
    (h : readPage repository extension revision file = .ok page) : Page.IsCode page.code := by
  obtain ⟨hfree, hcode⟩ := Page.code_eq_ok_iff.mp (pageCode_readPage h)
  rw [hcode] at hfree ⊢
  exact ⟨Page.slug_ne_empty hpath, Page.slash_not_mem_slug _ _, hfree⟩

/-- What a commit brings to the pages: none, or one of its own before the others. -/
theorem pagesFrom_cons_eq_ok {old : Option Tree} {number : Nat} {revision : Revision}
    {rest : List Revision} {answer : List SequencedPage}
    (h : pagesFrom repository pagesDir extension old number (revision :: rest) = .ok answer) :
    ∃ tree files, repository.treeOf revision = .ok tree ∧ repository.added old tree = .ok files ∧
      ((newPages pagesDir extension files = [] ∧
        pagesFrom repository pagesDir extension (some tree) number rest = .ok answer) ∨
      ∃ file page others, newPages pagesDir extension files = [file] ∧
        readPage repository extension revision file = .ok page ∧
        pagesFrom repository pagesDir extension (some tree) (number + 1) rest = .ok others ∧
        answer = ⟨number, revision, page⟩ :: others) := by
  rw [pagesFrom] at h
  obtain ⟨tree, htree, h⟩ := bind_eq_ok h
  obtain ⟨files, hfiles, h⟩ := bind_eq_ok h
  refine ⟨tree, files, htree, hfiles, ?_⟩
  split at h
  · next hnone => exact .inl ⟨hnone, h⟩
  · next file hone =>
    obtain ⟨page, hpage, h⟩ := bind_eq_ok h
    obtain ⟨others, hothers, h⟩ := bind_eq_ok h
    exact .inr ⟨file, page, others, hone, hpage, hothers, (Except.ok.inj h).symm⟩
  · cases h

/-- What holds of every page that is read from a file of a tree holds of every page of a history. -/
theorem forall_mem_pages {P : SequencedPage → Prop}
    (hread : ∀ (number : Nat) (revision : Revision) (tree : Tree) (file : AddedFile Blob)
      (page : PageDocument), repository.treeOf revision = .ok tree →
        Page.isPagePath file.path pagesDir extension = true →
          readPage repository extension revision file = .ok page → P ⟨number, revision, page⟩)
    {answer : List SequencedPage} (h : pages repository pagesDir extension = .ok answer) :
    ∀ page ∈ answer, P page := by
  have hfrom : ∀ (revisions : List Revision) (old : Option Tree) (number : Nat)
      (answer : List SequencedPage),
      pagesFrom repository pagesDir extension old number revisions = .ok answer →
        ∀ page ∈ answer, P page := by
    intro revisions
    induction revisions with
    | nil =>
      intro old number answer h
      obtain rfl : [] = answer := Except.ok.inj h
      simp
    | cons revision rest ih =>
      intro old number answer h
      obtain ⟨tree, files, htree, -, ⟨-, hrest⟩ | ⟨file, page, others, hone, hpage, hrest, rfl⟩⟩ :=
        pagesFrom_cons_eq_ok h
      · exact ih _ _ _ hrest
      · have hfile : file ∈ newPages pagesDir extension files := by simp [hone]
        have hpath := (List.mem_filter.mp hfile).2
        exact List.forall_mem_cons.mpr
          ⟨hread number revision tree file page htree hpath hpage, ih _ _ _ hrest⟩
  obtain ⟨revisions, -, h⟩ := bind_eq_ok h
  exact hfrom revisions none 0 answer h

/-- The pages of a history are numbered in order, from zero on. -/
theorem map_number_pages {answer : List SequencedPage}
    (h : pages repository pagesDir extension = .ok answer) :
    answer.map (·.number) = List.range answer.length := by
  have hfrom : ∀ (revisions : List Revision) (old : Option Tree) (number : Nat)
      (answer : List SequencedPage),
      pagesFrom repository pagesDir extension old number revisions = .ok answer →
        answer.map (·.number) = List.range' number answer.length := by
    intro revisions
    induction revisions with
    | nil =>
      intro old number answer h
      obtain rfl : [] = answer := Except.ok.inj h
      rfl
    | cons revision rest ih =>
      intro old number answer h
      obtain ⟨tree, files, -, -, ⟨-, hrest⟩ | ⟨file, page, others, -, -, hrest, rfl⟩⟩ :=
        pagesFrom_cons_eq_ok h
      · exact ih _ _ _ hrest
      · rw [List.map_cons, ih _ _ _ hrest, List.length_cons, List.range'_succ]
  obtain ⟨revisions, -, h⟩ := bind_eq_ok h
  rw [hfrom revisions none 0 answer h, List.range_eq_range']

/-- The pages of a history have codes that pages may have. -/
theorem isCode_of_mem_pages {answer : List SequencedPage}
    (h : pages repository pagesDir extension = .ok answer) {page : SequencedPage}
    (hpage : page ∈ answer) : Page.IsCode page.page.code :=
  forall_mem_pages (P := fun page ↦ Page.IsCode page.page.code)
    (fun _ _ _ _ _ _ hpath hread ↦ isCode_readPage hpath hread) h page hpage

/-- The pages of a history have the titles of their texts. -/
theorem title_of_mem_pages {answer : List SequencedPage}
    (h : pages repository pagesDir extension = .ok answer) {page : SequencedPage}
    (hpage : page ∈ answer) : page.page.title = Page.titleOf page.page.text :=
  forall_mem_pages (P := fun page ↦ page.page.title = Page.titleOf page.page.text)
    (fun _ _ _ _ _ _ _ hread ↦ title_readPage hread) h page hpage

/-- The commit of a page has a tree. -/
theorem treeOf_of_mem_pages {answer : List SequencedPage}
    (h : pages repository pagesDir extension = .ok answer) {page : SequencedPage}
    (hpage : page ∈ answer) : ∃ tree, repository.treeOf page.revision = .ok tree :=
  forall_mem_pages (P := fun page ↦ ∃ tree, repository.treeOf page.revision = .ok tree)
    (fun _ _ tree _ _ htree _ _ ↦ ⟨tree, htree⟩) h page hpage

end Codes

/-- The pages of the front of a history are a front of the pages of the history. -/
theorem specified_prefix {front history : List Commit} (hfront : front <+: history)
    {whole : List SequencedPage}
    (hwhole : specified extension (additions pagesDir extension [] history) = .ok whole) :
    ∃ part, specified extension (additions pagesDir extension [] front) = .ok part ∧
      part <+: whole := by
  obtain ⟨back, rfl⟩ := hfront
  rw [additions_append, specified, List.findSome?_append] at hwhole
  cases hf : (additions pagesDir extension [] front).findSome? (offence extension) with
  | some failure =>
    rw [hf] at hwhole
    cases hwhole
  | none =>
    refine ⟨entriesFrom extension 0 (additions pagesDir extension [] front), ?_, ?_⟩
    · rw [specified, hf]
    · rw [hf, Option.none_or] at hwhole
      split at hwhole
      · cases hwhole
      · obtain rfl := Except.ok.inj hwhole
        rw [entriesFrom_append]
        exact List.prefix_append _ _

variable {client : Client (Except Failure)} {root : String} {names : ObjectNames}
  {history : List Commit}

private theorem pages_client_eq (hserves : client.Serves root names history)
    (pagesDir extension : String) :
    pages (client.repository root) pagesDir extension =
      pagesFrom (client.repository root) pagesDir extension none 0 (readBack history) := by
  have hancestry : (client.repository root).ancestry = .ok (readBack history) := hserves.ancestry
  rw [pages, hancestry]
  rfl

/-- The pages of a history are the specified ones if no summary adds records before the first
offence. -/
theorem pages_eq_specified (hserves : client.Serves root names history) {pagesDir extension : String}
    (hstrays : ∀ change ∈ accepted extension (additions pagesDir extension [] history),
      change.1.strays = []) :
    pages (client.repository root) pagesDir extension =
      specified extension (additions pagesDir extension [] history) := by
  rw [pages_client_eq hserves]
  exact pagesFrom_readBack hserves.records hstrays

private theorem unknown_of_run {revision : Revision}
    (h : ∃ problem, client.run (.treeOf revision.oid) =
      .error (.git (.treeOf revision.oid) problem)) :
    Unknown (client.repository root) revision := by
  obtain ⟨problem, hproblem⟩ := h
  refine ⟨problem, ?_⟩
  change client.treeOf revision = _
  rw [Client.treeOf, Client.runText, hproblem]
  rfl

/-- The pages of a linear history that git serves. The log is read as the history exactly if no
summary adds records to it. If none does before the first offence, the pages are the specified ones:
an entry for every commit that adds a page, numbered without gaps, or else the first offence. If one
does, and git knows no commit by what is added, they are not. The pages of the front of a history
are a front of its pages. -/
theorem pages_client (hserves : client.Serves root names history) (pagesDir extension : String) :
    let answer := pages (client.repository root) pagesDir extension
    let changes := additions pagesDir extension [] history
    ((∃ revisions, client.ancestry root = .ok revisions ∧
        revisions.map (·.oid) = history.map (·.oid)) ↔
      ∀ commit ∈ history, commit.strays = []) ∧
    ((∀ change ∈ accepted extension changes, change.1.strays = []) →
      answer = specified extension changes) ∧
    ((∀ commit ∈ history, ∀ stray ∈ commit.strays, ∃ problem,
        client.run (.treeOf stray.oid) = .error (.git (.treeOf stray.oid) problem)) →
      answer = specified extension changes →
      ∀ change ∈ accepted extension changes, change.1.strays = []) ∧
    ((∀ commit ∈ history, commit.strays = []) →
      ∀ front, front <+: history → ∀ earlier : Client (Except Failure),
        earlier.Serves root names front → ∀ whole, answer = .ok whole →
        ∃ part, pages (earlier.repository root) pagesDir extension = .ok part ∧
          part <+: whole) := by
  intro answer changes
  have hcommit : ∀ {commits : List Commit},
      ∀ change ∈ accepted extension (additions pagesDir extension [] commits),
      change.1 ∈ commits := by
    intro commits change hchange
    have hmem := List.mem_map_of_mem (f := (·.1)) ((List.takeWhile_prefix _).mem hchange)
    rwa [map_fst_additions] at hmem
  have hanswer : answer = _ := pages_client_eq hserves pagesDir extension
  refine ⟨?_, ?_, ?_, ?_⟩
  · rw [← map_oid_readBack_eq_iff, hserves.ancestry]
    constructor
    · rintro ⟨revisions, heq, hoids⟩
      obtain rfl := Except.ok.inj heq
      exact hoids
    · intro hoids
      exact ⟨_, rfl, hoids⟩
  · exact pages_eq_specified hserves
  · intro hunknown hspecified
    by_contra hstrays
    have hnone : ∀ commit ∈ (none : Option Commit), commit ∈ history := by simp
    have hsome : ∃ change ∈ accepted extension changes, change.1.strays ≠ [] := by
      simpa using hstrays
    have hall : ∀ change ∈ accepted extension changes, ∀ stray ∈ change.1.strays,
        Unknown (client.repository root) stray := fun change hchange stray hstray ↦
      unknown_of_run (hunknown change.1 (hcommit change hchange) stray hstray)
    obtain ⟨oid, problem, herror⟩ :=
      pagesFrom_stray hserves.records hnone (fun _ h ↦ h) 0 hall hsome
    rw [Option.map_none, ← hanswer, hspecified] at herror
    exact specified_ne_git changes oid problem herror
  · intro hstrays front hfront earlier hearlier whole hwhole
    rw [hanswer, pagesFrom_readBack hserves.records
      fun change hchange ↦ hstrays _ (hcommit change hchange)] at hwhole
    obtain ⟨part, hpart, hprefix⟩ := specified_prefix hfront hwhole
    refine ⟨part, ?_, hprefix⟩
    rw [pages_client_eq hearlier, pagesFrom_readBack hearlier.records
      fun change hchange ↦ hstrays _ (hfront.mem (hcommit change hchange)), hpart]

/-- A history of three commits: a page, none, and another page in place of the first. -/
def shortHistory : List Commit :=
  [⟨"c0de01", "Add a", "", [⟨"pages/a.md", .regular, Utf8.ofString "# A\n"⟩]⟩,
    ⟨"c0de02", "Link a library", "", [⟨"lib", .submodule, []⟩,
      ⟨"pages/a.md", .executable, Utf8.ofString "# A\n"⟩]⟩,
    ⟨"c0de03", "Add b", "", [⟨"pages/b.md", .regular, Utf8.ofString "# B\n"⟩]⟩]

/-- Names for the short history: blobs go by their bytes. -/
def shortNames : ObjectNames where
  tree commit := treeId commit.oid
  blob leaf := String.ofList (leaf.bytes.flatMap fun b ↦ Text.hexDigits 2 b.toNat)

/-- The short history is served and replayed. -/
theorem pages_client_short :
    (Client.printing shortNames shortHistory).Serves "/guide" shortNames shortHistory ∧
      pages ((Client.printing shortNames shortHistory).repository "/guide") "pages" ".md" =
        specified ".md" (additions "pages" ".md" [] shortHistory) ∧
      (additions "pages" ".md" [] shortHistory).map (fun change ↦ change.2.map (·.path)) =
        [["pages/a.md"], [], ["pages/b.md"]] := by
  have hserves : (Client.printing shortNames shortHistory).Serves "/guide" shortNames
      shortHistory := Client.serves_printing "/guide" (by decide) (by decide) (by decide)
  exact ⟨hserves, (pages_client hserves "pages" ".md").2.1 (by decide), by decide⟩

end Guidebook.Sequence
