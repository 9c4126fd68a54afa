import Guidebook.Proofs.Outline.TreeOrder
import Guidebook.Proofs.Project.Carried

/-!
# Outlines before and after a save

A preview shows the outline of the workspace as its files are listed, a step the outline of its
commit's tree. Both hold the same files in the same directories, but sibling directories come in the
order of their names in the one and in the order of trees in the other.
-/

namespace Guidebook.Workflow

open Git Outline

variable {l : Layout} {settings : Settings} {s s' : State} {store : Store}

/-- The rows of a workspace: what follows it in the paths of its files. -/
def workspaceRows (dir : List String) (taken : List String) : List (List String) :=
  taken.map fun path ↦ (Snapshot.components path).drop dir.length

private theorem map_gitPath_workspaceRows (dir taken : List String) :
    (workspaceRows dir taken).map WorkTree.gitPath = taken.map (Snapshot.pathFrom dir) :=
  List.map_map

/-- Files of a workspace have proper names there, and they stay in order. -/
private theorem workspaceRows_sorted {v : WorkTree} {place : List String} (hv : v.Sound)
    {taken : List String} (hsorted : taken.Pairwise fun a b ↦ a.toList < b.toList)
    (hmem : ∀ path ∈ taken, Takes l v place path) :
    (∀ row ∈ workspaceRows (Path.ofString l.workspaceDir).parts taken, WorkTree.Named row) ∧
      (workspaceRows (Path.ofString l.workspaceDir).parts taken).Pairwise fun a b ↦
        (WorkTree.gitPath a).toList < (WorkTree.gitPath b).toList := by
  generalize hdir : (Path.ofString l.workspaceDir).parts = dir
  have hrow : ∀ path ∈ taken, ∃ rest, WorkTree.Named rest ∧ path = WorkTree.gitPath (dir ++ rest) ∧
      (Snapshot.components path).drop dir.length = rest := by
    intro path hpath
    obtain ⟨⟨names, bytes⟩, hfile, -, rfl, hlong, hfront⟩ := hmem path hpath
    have hnamed : WorkTree.Named names := hv.named _ hfile
    rw [hdir] at hlong hfront
    obtain ⟨rest, rfl⟩ := hfront
    refine ⟨rest, ⟨?_, fun name hname ↦ hnamed.2 name (List.mem_append_right _ hname)⟩, rfl, ?_⟩
    · rintro rfl
      simp at hlong
    · rw [WorkTree.components_gitPath hnamed, List.drop_left]
  constructor
  · intro row hmem
    obtain ⟨path, hpath, rfl⟩ := List.mem_map.mp hmem
    obtain ⟨rest, hnamed, -, heq⟩ := hrow path hpath
    exact heq ▸ hnamed
  · rw [workspaceRows, List.pairwise_map]
    refine hsorted.imp_of_mem fun {a b} ha hb hlt ↦ ?_
    obtain ⟨x, hx, rfl, hrest⟩ := hrow a ha
    obtain ⟨y, hy, rfl, hrest'⟩ := hrow b hb
    rw [hrest, hrest']
    by_cases hnil : dir = []
    · rwa [hnil, List.nil_append, List.nil_append] at hlt
    · rw [WorkTree.toList_gitPath_append hnil hx.1, WorkTree.toList_gitPath_append hnil hy.1,
        append_lt_append_iff, List.cons_lt_cons_iff] at hlt
      exact (hlt.resolve_left (lt_irrefl _)).2

/-- The outline of a workspace depends on nothing but the files reported of it. -/
private theorem answer_workspaceOutline {paths : List String} {walk : List WalkEntry}
    (hpaths : ((workspaceFiles (workFiles l.root) l).on s).1 = .ok paths)
    (hwalk : entriesOfPaths paths = some walk) :
    ((workspaceOutline (workFiles l.root) l).on s).1 =
      (Outline.build walk).mapError .outline := by
  rcases hfiles : (workspaceFiles (workFiles l.root) l).on s with ⟨answer, t⟩
  rw [hfiles] at hpaths
  obtain rfl : answer = .ok paths := hpaths
  have hentries : (workspaceWalk (workFiles l.root) l).on s = (.ok walk, t) := by
    rw [workspaceWalk, on_bind_ok hfiles, hwalk]
    rfl
  rw [workspaceOutline, on_bind_ok hentries, on_ofResult]

private theorem workspaceFiles_of_workspaceOutline {listing : Directory}
    (h : ((workspaceOutline (workFiles l.root) l).on s).1 = .ok listing) :
    ∃ paths, ((workspaceFiles (workFiles l.root) l).on s).1 = .ok paths := by
  obtain ⟨walk, t, hwalk, -⟩ := on_bind_eq_ok (Prod.ext h rfl)
  obtain ⟨paths, u, hpaths, -⟩ := on_bind_eq_ok hwalk
  exact ⟨paths, congrArg Prod.fst hpaths⟩

/-- A guide with a page that is not saved yet and two directories in its workspace, of which one is
named like the other with an extension. -/
def overtakenGuide : State where
  files := ⟨unsavedGuide.files.nodes ++ [(["/", "guide", "workspace"], .directory),
    (["/", "guide", "workspace", "a"], .directory),
    (["/", "guide", "workspace", "a", "x"], .file [1]),
    (["/", "guide", "workspace", "a.b"], .directory),
    (["/", "guide", "workspace", "a.b", "y"], .file [2])]⟩
  repositories := [(⟨"/", ["guide"]⟩, { Store.empty 0 with hasIdentity := true })]
  logs := []

end Guidebook.Workflow
