import Guidebook.Git.Pathspec
import Guidebook.Proofs.Git.Trees
import Guidebook.Proofs.Project.Frame
import Guidebook.Proofs.Sequence

/-!
# What a step shows

The outline of a step is read of a listing of the tree of its own commit. It is never refused, and
it holds the files below the workspace directory that lie where git takes the directory's name to
lead. That is all of them for a name without a colon at the front; behind a colon git reads
something else.
-/

namespace Guidebook

open Git Git.WorkTree

/-- The paths in the repository of the files that a step shows. -/
def Step.repositoryPaths (step : Step) (dir : String) : List String :=
  (outlineFiles step.workspace).map (workspacePath dir)

/-- A step shows the files of a snapshot below a directory: all of them, each once, and
no others. -/
structure Step.Shows (step : Step) (dir : String) (s : Snapshot) : Prop where
  nodup : (step.repositoryPaths dir).Nodup
  mem_iff : ∀ path, path ∈ step.repositoryPaths dir ↔ ∃ leaf ∈ s.filesBelow dir, leaf.path = path

/-- The path of a file of a workspace that is read as components. -/
theorem workspacePath_eq {dir : String} {parts names : List String}
    (hdir : Path.ofString dir = Path.ofNames parts) (hnames : Named names) :
    workspacePath dir (gitPath names) = gitPath (parts ++ names) := by
  rw [workspacePath, hdir, ofString_gitPath hnames]
  change (Path.ofNames (parts ++ names)).toString = _
  apply toString_ofNames
  simp [hnames.1]

/-- A path below the workspace directory has the directory in front of it in the repository. -/
theorem workspacePath_gitPath {dir names : List String} (hdir : Named dir) (hnames : Named names) :
    workspacePath (gitPath dir) (gitPath names) = gitPath (dir ++ names) :=
  workspacePath_eq (ofString_gitPath hdir) hnames

namespace Git

/-- A sound snapshot has every file below a directory once. -/
theorem Snapshot.Sound.nodup_filesBelow {s : Snapshot} (h : s.Sound) (dir : String) :
    ((s.filesBelow dir).map (·.path)).Nodup := by
  apply List.pairwise_map.mpr
  apply (h.sorted.filter _).imp
  intro a b hlt heq
  exact hlt.ne (congrArg String.toList heq)

namespace Trees

variable {t : Trees} {tree : String} {dir : List String}

/-- What is read of a listing is built to an outline of the leaves that the listing reaches. -/
theorem exists_outline (hnamed : (t.held tree).Named) (hdir : Named dir) (place : List String) :
    ∃ d, Outline.build (t.walk tree dir place) = .ok d ∧
      ((outlineFiles d).map (workspacePath (gitPath dir))).Perm
        ((t.leavesBelow tree dir place).map (·.path)) := by
  have hwalk : t.walk tree dir place =
      (t.rowsFrom tree [] (t.held tree)).filterMap (·.shown dir place) := by
    rw [walk, rows, List.filterMap_filter]
    rfl
  have hopen : Open dir place 0 [] := by
    refine ⟨Int.le_refl 0, fun front hfront hshown ↦ ?_⟩
    have hdeeper := hshown.deeper
    rw [List.prefix_nil.mp hfront] at hdeeper
    exact absurd hdeeper (Nat.not_lt_zero _)
  have hfits : Outline.Fits 0
      ((t.rowsFrom tree [] (t.held tree)).filterMap (·.shown dir place)) :=
    fits_rowsFrom hnamed [] hopen
  obtain ⟨d, hbuild, hperm⟩ := Outline.build_of_fits hfits
  rw [filePaths_rowsFrom hdir hnamed] at hperm
  refine ⟨d, hwalk ▸ hbuild, ?_⟩
  have hpaths := hperm.map (workspacePath (gitPath dir))
  rw [← Workflow.outlineFiles_eq, List.map_map] at hpaths
  refine hpaths.trans (.of_eq (List.map_congr_left fun leaf hleaf ↦ ?_))
  obtain ⟨hfile, -⟩ := List.mem_filter.mp hleaf
  obtain ⟨hmem, hbelow⟩ := List.mem_filter.mp hfile
  obtain ⟨names, hnames, hpath⟩ := hnamed leaf hmem
  rw [Bool.and_eq_true, hpath, isBelow_gitPath hnames hdir] at hbelow
  obtain ⟨-, hdeeper, rest, rfl⟩ := hbelow
  have hrest : Named rest := by
    refine ⟨?_, fun name hname ↦ hnames.2 name (List.mem_append_right _ hname)⟩
    rintro rfl
    simp at hdeeper
  rw [Function.comp_apply, hpath, components_gitPath hnames, List.drop_left,
    workspacePath_gitPath hdir hrest]

end Trees

end Git

namespace Projection

variable {client : Client (Except Failure)} {root : String} {t : Trees} {history : List Commit}
  {p : Projection String String} {dir : List String}

section Served

variable (hlists : client.Lists t history) (hrepository : p.repository = client.repository root)
  (hdir : Named dir) (hworkspace : p.layout.workspaceDir = gitPath dir)
  {page : SequencedPage} {tree : String} (htree : p.repository.treeOf page.revision = .ok tree)

include hlists hrepository hdir hworkspace htree

/-- The step of a page is composed of what its listing is built to. -/
private theorem project_eq :
    p.project page = ((t.place tree (gitPath dir)).map (t.walk tree dir)).bind fun walk ↦
      ((Outline.build walk).mapError .outline).map (Step.compose p.index page) := by
  have hlisted : p.repository.walkTree tree p.layout.workspaceDir =
      (t.place tree (gitPath dir)).map (t.walk tree dir) := by
    rw [hrepository] at htree ⊢
    rw [hworkspace]
    exact hlists.walkTree_eq htree hdir
  rw [project, outline, htree]
  simp only [bind, Except.bind, hlisted]
  cases (t.place tree (gitPath dir)).map (t.walk tree dir) <;> rfl

private theorem not_outline (fault : Outline.Fault) : p.project page ≠ .error (.outline fault) := by
  intro hfault
  rw [project_eq hlists hrepository hdir hworkspace htree] at hfault
  rw [hrepository] at htree
  cases hplace : t.place tree (gitPath dir) with
  | error failure =>
    rw [hplace] at hfault
    obtain rfl : failure = .outline fault := Except.error.inj hfault
    rcases hlists.refused page.revision tree htree _ _ hplace with ⟨problem, heq⟩ | heq
    · cases heq
    · cases heq
  | ok place =>
    obtain ⟨d, hbuild, -⟩ :=
      Trees.exists_outline (hlists.named page.revision tree htree).1 hdir place
    rw [hplace] at hfault
    simp only [Except.map, Except.bind, hbuild, Except.mapError] at hfault
    cases hfault

/-- A step shows the leaves that the listing of the place reaches. -/
private theorem project_ok {step : Step} :
    p.project page = .ok step → ∃ place, t.place tree (gitPath dir) = .ok place ∧
      Outline.build (t.walk tree dir place) = .ok step.workspace ∧
      (step.repositoryPaths (gitPath dir)).Perm ((t.leavesBelow tree dir place).map (·.path)) := by
  intro heq
  rw [project_eq hlists hrepository hdir hworkspace htree] at heq
  rw [hrepository] at htree
  cases hplace : t.place tree (gitPath dir) with
  | error failure =>
    rw [hplace] at heq
    cases heq
  | ok place =>
    obtain ⟨d, hbuild, hperm⟩ :=
      Trees.exists_outline (hlists.named page.revision tree htree).1 hdir place
    rw [hplace] at heq
    simp only [Except.map, Except.bind, hbuild, Except.mapError] at heq
    obtain rfl := Except.ok.inj heq
    exact ⟨place, rfl, hbuild, hperm⟩

/-- There is a step if the workspace directory leads to a place. -/
private theorem project_isOk {place : List String} :
    t.place tree (gitPath dir) = .ok place → ∃ step, p.project page = .ok step := by
  intro hplace
  have heq := project_eq hlists hrepository hdir hworkspace htree
  rw [hrepository] at htree
  obtain ⟨d, hbuild, -⟩ :=
    Trees.exists_outline (hlists.named page.revision tree htree).1 hdir place
  rw [hplace] at heq
  simp only [Except.map, Except.bind, hbuild, Except.mapError] at heq
  exact ⟨_, heq⟩

/-- A step shows everything below the workspace directory exactly if the place leads to it. -/
private theorem shows_iff {step : Step} {place : List String} :
    t.place tree (gitPath dir) = .ok place → p.project page = .ok step →
      (step.Shows (gitPath dir) (t.held tree) ↔
        ∀ leaf ∈ (t.held tree).filesBelow (gitPath dir),
          place <+: Snapshot.components leaf.path) := by
  intro hplace heq
  obtain ⟨found, hfound, -, hperm⟩ := project_ok hlists hrepository hdir hworkspace htree heq
  obtain rfl := Except.ok.inj (hplace.symm.trans hfound)
  rw [hrepository] at htree
  have hsound := hlists.sound page.revision tree htree
  constructor
  · intro hall leaf hleaf
    have hmem := hperm.mem_iff.mp ((hall.mem_iff leaf.path).mpr ⟨leaf, hleaf, rfl⟩)
    obtain ⟨other, hother, hpath⟩ := List.mem_map.mp hmem
    rw [← hpath]
    exact Path.hasPrefix_iff.mp (List.mem_filter.mp hother).2
  · intro hall
    have hleaves : t.leavesBelow tree dir place = (t.held tree).filesBelow (gitPath dir) :=
      List.filter_eq_self.mpr fun leaf hleaf ↦ Path.hasPrefix_iff.mpr (hall leaf hleaf)
    rw [hleaves] at hperm
    refine ⟨hperm.nodup_iff.mpr (hsound.nodup_filesBelow _), fun path ↦ ?_⟩
    rw [hperm.mem_iff, List.mem_map]

/-- What a step shows are files of the tree of its commit, each once. -/
private theorem shown_of_project {step : Step} :
    p.project page = .ok step → (step.repositoryPaths (gitPath dir)).Nodup ∧
      ∀ path ∈ step.repositoryPaths (gitPath dir), ∃ leaf ∈ (t.held tree).filesBelow (gitPath dir),
        leaf.path = path ∧ p.repository.blobAt tree path = .ok leaf.bytes := by
  intro heq
  obtain ⟨place, hplace, -, hperm⟩ := project_ok hlists hrepository hdir hworkspace htree heq
  rw [hrepository] at htree ⊢
  have hsound := hlists.sound page.revision tree htree
  constructor
  · rw [hperm.nodup_iff]
    exact (hsound.nodup_filesBelow _).sublist (List.filter_sublist.map _)
  · intro path hpath
    obtain ⟨leaf, hleaf, rfl⟩ := List.mem_map.mp (hperm.mem_iff.mp hpath)
    have hfile := (List.mem_filter.mp hleaf).1
    obtain ⟨hmem, hbelow⟩ := List.mem_filter.mp hfile
    rw [Bool.and_eq_true, Bool.not_eq_true'] at hbelow
    exact ⟨leaf, hfile, rfl, hlists.blobAt page.revision tree htree leaf hmem hbelow.1⟩

end Served

/-- Steps of a history that git serves. A step is never refused for its outline, and what it shows
are files below the workspace directory in the tree of its own commit, each once, whose bytes are
found at the paths that are asked for. It shows all of them exactly if the directory is taken to
lead to all of them, which it is if its name has no colon at the front. It shows nothing if nothing
lies below the directory. -/
theorem project_client (hserves : client.Serves root t.toObjectNames history)
    (hlists : client.Lists t history) (hrepository : p.repository = client.repository root)
    (hdir : Named dir) (hworkspace : p.layout.workspaceDir = gitPath dir)
    {pagesDir extension : String} {answer : List SequencedPage}
    (hanswer : Sequence.pages p.repository pagesDir extension = .ok answer) :
    ∀ page ∈ answer, ∃ tree, p.repository.treeOf page.revision = .ok tree ∧
      (∀ commit ∈ history, commit.oid = page.revision.oid → t.held tree = commit.snapshot) ∧
      (∀ fault, p.project page ≠ .error (.outline fault)) ∧
      (∀ step, p.project page = .ok step → (step.repositoryPaths (gitPath dir)).Nodup ∧
        ∀ path ∈ step.repositoryPaths (gitPath dir), ∃ leaf ∈ (t.held tree).filesBelow (gitPath dir),
          leaf.path = path ∧ p.repository.blobAt tree path = .ok leaf.bytes) ∧
      ((∃ step, p.project page = .ok step ∧ step.Shows (gitPath dir) (t.held tree)) ↔
        ∃ place, t.place tree (gitPath dir) = .ok place ∧
          ∀ leaf ∈ (t.held tree).filesBelow (gitPath dir),
            place <+: Snapshot.components leaf.path) ∧
      ('\x00' ∉ (gitPath dir).toList → (gitPath dir).toList.head? ≠ some ':' →
        ∃ step, p.project page = .ok step ∧ step.Shows (gitPath dir) (t.held tree) ∧
          ((∀ leaf ∈ t.held tree, Snapshot.isBelow leaf.path.toList (gitPath dir).toList = false) →
            step.workspace = Outline.Directory.empty "" 0)) := by
  intro page hpage
  obtain ⟨tree, htree⟩ := Sequence.treeOf_of_mem_pages hanswer hpage
  refine ⟨tree, htree, ?_, not_outline hlists hrepository hdir hworkspace htree,
    fun step ↦ shown_of_project hlists hrepository hdir hworkspace htree, ?_, ?_⟩
  · intro commit hcommit hoid
    have hrecorded := hserves.records.treeOf commit hcommit page.revision hoid.symm
    rw [← hrepository, htree] at hrecorded
    rw [Except.ok.inj hrecorded]
    exact hlists.held commit hcommit
  · constructor
    · rintro ⟨step, heq, hall⟩
      obtain ⟨place, hplace, -⟩ := project_ok hlists hrepository hdir hworkspace htree heq
      exact ⟨place, hplace,
        (shows_iff hlists hrepository hdir hworkspace htree hplace heq).mp hall⟩
    · rintro ⟨place, hplace, hall⟩
      obtain ⟨step, heq⟩ := project_isOk hlists hrepository hdir hworkspace htree hplace
      exact ⟨step, heq, (shows_iff hlists hrepository hdir hworkspace htree hplace heq).mpr hall⟩
  · intro hnul hcolon
    have htreeOf : client.treeOf page.revision = .ok tree := by
      rw [hrepository] at htree
      exact htree
    have hnamed := (hlists.named page.revision tree htreeOf).1
    have hplace := hlists.literal page.revision tree htreeOf dir hdir hnul hcolon
    obtain ⟨step, heq⟩ := project_isOk hlists hrepository hdir hworkspace htree hplace
    refine ⟨step, heq, (shows_iff hlists hrepository hdir hworkspace htree hplace heq).mpr ?_, ?_⟩
    · intro leaf hleaf
      obtain ⟨hmem, hbelow⟩ := List.mem_filter.mp hleaf
      obtain ⟨names, hnames, hpath⟩ := hnamed leaf hmem
      rw [Bool.and_eq_true, hpath, isBelow_gitPath hnames hdir] at hbelow
      rw [hpath, components_gitPath hnames]
      exact hbelow.2.2
    · intro hnone
      obtain ⟨place, -, hbuild, -⟩ := project_ok hlists hrepository hdir hworkspace htree heq
      rw [Trees.walk_eq_nil hnamed hdir hnone] at hbuild
      exact (Except.ok.inj hbuild).symm

/-- A history of one commit: a page, a workspace with a submodule in it, and a directory beside it
whose name has a colon at the front. -/
def colonHistory : List Commit :=
  [⟨"c0de01", "Add a", "", [⟨":w/z", .regular, [1]⟩, ⟨"pages/a.md", .regular, [10]⟩,
    ⟨"w-b/x", .regular, [2]⟩, ⟨"w/a.txt", .regular, [3]⟩, ⟨"w/c/d", .executable, [4]⟩,
    ⟨"w/lib", .submodule, []⟩]⟩]

/-- What git knows of the history: blobs go by their bytes. -/
def colonTrees : Trees :=
  .ofHistory ⟨fun commit ↦ treeId commit.oid, fun leaf ↦
    String.ofList (leaf.bytes.flatMap fun b ↦ Text.hexDigits 2 b.toNat)⟩ colonHistory fun _ _ ↦ "7ee5"

/-- A projection of the history with a workspace directory. -/
def colonProjection (dir : String) : Projection String String :=
  ⟨(Client.listing colonTrees colonHistory).repository "/guide", ⟨⟨"/", ["guide"]⟩, "pages", dir⟩,
    Settings.ofTitle "T", PageIndex.empty, .packaged⟩

/-- The page of the history. -/
def colonPage : SequencedPage :=
  ⟨0, ⟨"c0de01", "Add a"⟩, ⟨"pages/a.md", "a", "Untitled", ['\n']⟩⟩

/-- The step shows the workspace of its commit, but not that of a directory with a colon
in front. -/
theorem project_client_colon :
    (Client.listing colonTrees colonHistory).Serves "/guide" colonTrees.toObjectNames colonHistory ∧
      (Client.listing colonTrees colonHistory).Lists colonTrees colonHistory ∧
      Sequence.pages (colonProjection "w").repository "pages" ".md" = .ok [colonPage] ∧
      (∃ step, (colonProjection "w").project colonPage = .ok step ∧
        step.Shows "w" (colonHistory.flatMap (·.snapshot))) ∧
      ¬ ∃ step, (colonProjection ":w").project colonPage = .ok step ∧
        step.Shows ":w" (colonHistory.flatMap (·.snapshot)) := by
  have hserves : (Client.listing colonTrees colonHistory).Serves "/guide" colonTrees.toObjectNames
      colonHistory := Client.serves_listing "/guide" (by decide) (by decide) (by decide)
  have hlists : (Client.listing colonTrees colonHistory).Lists colonTrees colonHistory :=
    Client.lists_listing (by decide) (by decide) (by decide) (fun _ _ ↦ by decide) (by decide)
  have hstrays : ∀ change ∈
      Sequence.accepted ".md" (Sequence.additions "pages" ".md" [] colonHistory),
      change.1.strays = [] := by decide
  have hanswer : Sequence.pages (colonProjection "w").repository "pages" ".md" = .ok [colonPage] :=
    (Sequence.pages_eq_specified hserves hstrays).trans (by rfl)
  have hcommit : ∀ tree : String,
      (∀ commit ∈ colonHistory, commit.oid = "c0de01" → colonTrees.held tree = commit.snapshot) →
        colonTrees.held tree = colonHistory.flatMap (·.snapshot) := by
    intro tree hheld
    exact hheld _ List.mem_cons_self rfl
  refine ⟨hserves, hlists, hanswer, ?_, ?_⟩
  · obtain ⟨tree, -, hheld, -, -, -, hexact⟩ :=
      project_client hserves hlists (p := colonProjection "w") rfl (by decide : Named ["w"]) rfl
        hanswer colonPage (by decide)
    obtain ⟨step, heq, hshows, -⟩ := hexact (by decide) (by decide)
    rw [hcommit tree hheld] at hshows
    exact ⟨step, heq, hshows⟩
  · obtain ⟨tree, htree, hheld, -, -, hexact, -⟩ :=
      project_client hserves hlists (p := colonProjection ":w") rfl (by decide : Named [":w"]) rfl
        hanswer colonPage (by decide)
    rw [hcommit tree hheld] at hexact
    intro hsome
    obtain ⟨place, hplace, hall⟩ := hexact.mp hsome
    have htreeId := hserves.records.treeOf _ List.mem_cons_self colonPage.revision rfl
    obtain rfl := Except.ok.inj (htree.symm.trans htreeId)
    -- Git reads `w` behind the colon, which is not where the leaf lies.
    obtain rfl : ["w"] = place := Except.ok.inj hplace
    exact absurd (hall ⟨":w/z", .regular, [1]⟩ (by decide)) (by decide)

end Projection

end Guidebook
