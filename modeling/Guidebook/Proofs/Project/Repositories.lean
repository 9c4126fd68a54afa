import Guidebook.Project.Repositories
import Guidebook.Proofs.Git.WorkTree
import Guidebook.Proofs.Project.Workflow

/-!
# Commands in the world

A command is answered by the repository that its directory belongs to. It changes this repository at
most, and no file.
-/

namespace Guidebook

namespace State

/-- A world that can exist. -/
structure Sound (s : State) : Prop where
  files : s.files.Sound
  nodup : (s.repositories.map (·.1)).Nodup
  staged : ∀ repository ∈ s.repositories, repository.2.staged.Sound
  head : ∀ repository ∈ s.repositories, repository.2.head.Sound

instance (s : State) : Decidable s.Sound :=
  decidable_of_iff (s.files.Sound ∧ (s.repositories.map (·.1)).Nodup ∧
    (∀ repository ∈ s.repositories, repository.2.staged.Sound) ∧
    ∀ repository ∈ s.repositories, repository.2.head.Sound)
    ⟨fun h ↦ ⟨h.1, h.2.1, h.2.2.1, h.2.2.2⟩, fun h ↦ ⟨h.1, h.2, h.3, h.4⟩⟩

/-! ## What a directory belongs to -/

/-- The directories above a path lie on the way to it. -/
theorem prefix_of_mem_ancestors {dir top : Path} (h : top ∈ dir.ancestors) :
    top.parts <+: dir.parts := by
  obtain ⟨n, -, rfl⟩ := List.mem_map.mp h
  have htake := List.take_prefix (dir.names.length - n) dir.names
  rw [Path.parts, Path.parts]
  split
  · exact htake
  · exact List.cons_prefix_cons.mpr ⟨rfl, htake⟩

/-- What a directory belongs to goes by the repositories at it and above it. -/
theorem enclosing?_congr {s t : State} {dir : Path}
    (h : ∀ top ∈ dir.ancestors, s.repositories.lookup top = t.repositories.lookup top) :
    s.enclosing? dir = t.enclosing? dir := by
  rw [enclosing?, enclosing?]
  generalize dir.ancestors = tops at h
  induction tops with
  | nil => rfl
  | cons top rest ih =>
    obtain ⟨htop, hrest⟩ := List.forall_mem_cons.mp h
    rw [List.findSome?_cons, List.findSome?_cons, htop, ih hrest]

/-! ## Replacing a repository -/

/-- The world with the repository that a directory belongs to replaced. -/
def setAt (s : State) (dir : Path) (store : Git.Store) : State :=
  match s.enclosing? dir with
  | some (top, _) => s.setStore top store
  | none => s

private theorem any_of_lookup {repositories : List (Path × Git.Store)} {top : Path}
    {store : Git.Store} (h : repositories.lookup top = some store) :
    repositories.any (·.1 == top) = true :=
  List.any_eq_true.mpr ⟨_, mem_of_lookup h, beq_self_eq_true _⟩

/-- What a directory belongs to lies at or above it. -/
theorem enclosing?_eq_some {s : State} {dir top : Path} {store : Git.Store}
    (h : s.enclosing? dir = some (top, store)) :
    top ∈ dir.ancestors ∧ s.repositories.lookup top = some store := by
  obtain ⟨other, ho, hmap⟩ := List.exists_of_findSome?_eq_some h
  obtain ⟨found, hfound, heq⟩ := Option.map_eq_some_iff.mp hmap
  obtain ⟨rfl, rfl⟩ := Prod.mk.inj heq
  exact ⟨ho, hfound⟩

private theorem repositories_setAt {s : State} {dir top : Path} {old : Git.Store}
    (h : s.enclosing? dir = some (top, old)) (store : Git.Store) :
    (s.setAt dir store).repositories =
      s.repositories.map fun entry ↦ if entry.1 == top then (top, store) else entry := by
  rw [setAt, h]
  simp only
  rw [setStore, any_of_lookup (enclosing?_eq_some h).2, if_pos rfl]

/-- A directory with a repository belongs to it. -/
theorem enclosing?_self {s : State} {dir : Path} {store : Git.Store}
    (h : s.repositories.lookup dir = some store) : s.enclosing? dir = some (dir, store) := by
  obtain ⟨above, habove⟩ := dir.ancestors_eq_cons
  rw [enclosing?, habove, List.findSome?_cons, h]
  rfl

@[simp] theorem files_setAt (s : State) (dir : Path) (store : Git.Store) :
    (s.setAt dir store).files = s.files := by
  rw [setAt]
  split <;> rfl

/-- The directory belongs to the repository that is put there. -/
theorem enclosing?_setAt {s : State} {dir top : Path} {old : Git.Store}
    (h : s.enclosing? dir = some (top, old)) (store : Git.Store) :
    (s.setAt dir store).enclosing? dir = some (top, store) := by
  have hlookup := (enclosing?_eq_some h).2
  have hrepositories := repositories_setAt h store
  rw [enclosing?] at h ⊢
  rw [hrepositories]
  simp only [lookup_replace]
  generalize dir.ancestors = tops at h ⊢
  induction tops with
  | nil => cases h
  | cons other rest ih =>
    rw [List.findSome?_cons] at h ⊢
    by_cases heq : other = top
    · simp [heq, hlookup]
    · cases hother : s.repositories.lookup other with
      | none =>
        rw [hother] at h
        rw [if_neg (by simpa using heq)]
        exact ih h
      | some found =>
        rw [hother] at h
        exact absurd (Prod.mk.inj (Option.some.inj h)).1 heq

private theorem repositories_map_map (repositories : List (Path × Git.Store)) (top : Path)
    (a b : Git.Store) :
    (repositories.map fun old ↦ if old.1 == top then (top, a) else old).map
        (fun old ↦ if old.1 == top then (top, b) else old) =
      repositories.map fun old ↦ if old.1 == top then (top, b) else old := by
  rw [List.map_map]
  apply List.map_congr_left
  intro entry _
  by_cases heq : entry.1 = top <;> simp [heq]

/-- Only the last of two replacements counts. -/
theorem repositories_setAt_setAt {s : State} {dir top : Path} {old : Git.Store}
    (h : s.enclosing? dir = some (top, old)) (a b : Git.Store) :
    ((s.setAt dir a).setAt dir b).repositories = (s.setAt dir b).repositories := by
  rw [repositories_setAt (enclosing?_setAt h a), repositories_setAt h, repositories_setAt h,
    repositories_map_map]

/-- A replacement changes nothing exactly if it puts the repository that is there. -/
theorem repositories_setAt_eq_iff {s : State} (hs : (s.repositories.map (·.1)).Nodup)
    {dir top : Path} {old : Git.Store} (h : s.enclosing? dir = some (top, old))
    (store : Git.Store) : (s.setAt dir store).repositories = s.repositories ↔ store = old := by
  have hlookup := (enclosing?_eq_some h).2
  constructor
  · intro heq
    have hagain := (enclosing?_eq_some (enclosing?_setAt h store)).2
    rw [heq, hlookup] at hagain
    exact (Option.some.inj hagain).symm
  · rintro rfl
    rw [repositories_setAt h]
    conv_rhs => rw [← List.map_id s.repositories]
    apply List.map_congr_left
    intro entry hentry
    by_cases heq : entry.1 = top
    · have hfound : s.repositories.lookup top = some entry.2 :=
        (lookup_eq_some_iff hs).mpr (heq ▸ hentry)
      rw [hlookup] at hfound
      simp [heq, Option.some.inj hfound, Prod.ext_iff]
    · simp [heq]

/-- A replacement with the same commits leaves all commits as they are. -/
theorem commits_setAt {s : State} (hs : (s.repositories.map (·.1)).Nodup) {dir top : Path}
    {old store : Git.Store} (h : s.enclosing? dir = some (top, old))
    (hcommits : store.commits = old.commits) :
    ((s.setAt dir store).repositories.map fun entry ↦ (entry.1, entry.2.commits)) =
      s.repositories.map fun entry ↦ (entry.1, entry.2.commits) := by
  have hlookup := (enclosing?_eq_some h).2
  rw [repositories_setAt h, List.map_map]
  apply List.map_congr_left
  intro entry hentry
  by_cases heq : entry.1 = top
  · have hfound : s.repositories.lookup top = some entry.2 :=
      (lookup_eq_some_iff hs).mpr (heq ▸ hentry)
    rw [hlookup] at hfound
    simp [heq, hcommits, Option.some.inj hfound]
  · simp [heq]

/-- Putting the repository that is there changes nothing. -/
theorem setAt_self {s : State} (hs : (s.repositories.map (·.1)).Nodup) {dir top : Path}
    {store : Git.Store} (h : s.enclosing? dir = some (top, store)) : s.setAt dir store = s := by
  have hrepositories := (repositories_setAt_eq_iff hs h store).mpr rfl
  obtain ⟨files, repositories, logs⟩ := s
  rw [setAt, h] at hrepositories ⊢
  exact congrArg (State.mk files · logs) hrepositories

/-! ## Work trees of the world -/

/-- What is foreign to a repository does not depend on what the repositories hold. -/
private theorem isForeign_setAt (s : State) (dir : Path) (store : Git.Store) (top : Path)
    (names : List String) : (s.setAt dir store).isForeign top names = s.isForeign top names := by
  cases h : s.enclosing? dir with
  | none => rw [setAt, h]
  | some entry =>
    obtain ⟨place, old⟩ := entry
    rw [isForeign, isForeign, repositories_setAt h, List.any_map]
    refine congrArg (s.repositories.any ·) (funext fun repository ↦ ?_)
    by_cases heq : repository.1 = place
    · simp [heq]
    · simp [heq]

/-- A directory that belongs to a repository has a work tree. -/
theorem workTree?_eq_some_iff {s : State} {dir : Path} {w : Git.WorkTree} :
    s.workTree? dir = some w ↔ ∃ top store, s.enclosing? dir = some (top, store) ∧
      w = ⟨(s.files.filesBelow top).filter fun file ↦ !s.isForeign top file.1,
        (dir.relativeTo? top).getD [], store⟩ := by
  rw [workTree?, Option.map_eq_some_iff]
  constructor
  · rintro ⟨⟨top, store⟩, h, rfl⟩
    exact ⟨top, store, h, rfl⟩
  · rintro ⟨top, store, h, rfl⟩
    exact ⟨(top, store), h, rfl⟩

/-- The work tree of a directory whose repository is replaced. -/
theorem workTree?_setAt {s : State} {dir : Path} {w : Git.WorkTree}
    (h : s.workTree? dir = some w) (store : Git.Store) :
    (s.setAt dir store).workTree? dir = some { w with store := store } := by
  obtain ⟨top, old, henclosing, rfl⟩ := workTree?_eq_some_iff.mp h
  refine workTree?_eq_some_iff.mpr ⟨top, store, enclosing?_setAt henclosing store, ?_⟩
  simp only [files_setAt, isForeign_setAt]

/-- A work tree seen from the repository's own directory. -/
theorem workTree?_self {s : State} {dir : Path} {store : Git.Store}
    (h : s.repositories.lookup dir = some store) :
    s.workTree? dir = some ⟨(s.files.filesBelow dir).filter fun file ↦ !s.isForeign dir file.1, [],
      store⟩ := by
  refine workTree?_eq_some_iff.mpr ⟨dir, store, enclosing?_self h, ?_⟩
  have hplace : (dir.relativeTo? dir).getD [] = [] := by
    rw [Path.relativeTo?]
    split
    · rfl
    · rw [if_pos (Path.hasPrefix_iff.mpr List.prefix_rfl), List.drop_length]
      rfl
  rw [hplace]

/-- What a work tree is apart from its files depends on the repositories alone. -/
theorem workTree?_of_repositories {s t : State} (h : t.repositories = s.repositories) {dir : Path}
    {w : Git.WorkTree} (hw : s.workTree? dir = some w) :
    ∃ files, t.workTree? dir = some { w with files := files } := by
  obtain ⟨top, store, henclosing, rfl⟩ := workTree?_eq_some_iff.mp hw
  refine ⟨_, workTree?_eq_some_iff.mpr ⟨top, store, ?_, rfl⟩⟩
  rw [enclosing?, h]
  exact henclosing

theorem repositories_setAt_congr {s t : State} (h : t.repositories = s.repositories) (dir : Path)
    (store : Git.Store) :
    (t.setAt dir store).repositories = (s.setAt dir store).repositories := by
  have henclosing : t.enclosing? dir = s.enclosing? dir := by rw [enclosing?, enclosing?, h]
  rw [setAt, setAt, henclosing]
  split
  · rw [setStore, setStore, h]
  · exact h

/-- What the rules of a work tree are read from. -/
private theorem ignoreFiles_eq {s : State} {top : Path} {place : List String}
    (hplace : s.files.resolve top = .ok place) (front : List String) (store : Git.Store) :
    (Git.WorkTree.mk ((s.files.filesBelow top).filter fun file ↦ !s.isForeign top file.1) front
      store).ignoreFiles = (s.files.below place).filterMap fun
        | (names, .file bytes) =>
          if !s.isForeign top names && names.getLast? == some ".gitignore" then
            some (names.dropLast, Git.readIgnore (Utf8.decodeLenient bytes))
          else none
        | (_, .directory) => none := by
  rw [Git.WorkTree.ignoreFiles, FileTree.filesBelow, hplace]
  simp only [List.filterMap_filter, List.filterMap_filterMap]
  refine List.filterMap_congr fun x _ ↦ ?_
  obtain ⟨names, _ | bytes⟩ := x
  · rfl
  · simp only [Option.bind_some]
    cases s.isForeign top names <;> simp

/-- Putting something that holds no rules leaves the rules as they are. -/
theorem ignoreFiles_put {s : State} {place : List String} {node : Node}
    (hname : place.getLast? ≠ some ".gitignore") {top : Path} {found : List String}
    (hold : s.files.resolve top = .ok found)
    (hnew : (s.files.put place node).resolve top = .ok found) (front : List String)
    (store : Git.Store) :
    (Git.WorkTree.mk (((s.files.put place node).filesBelow top).filter fun file ↦
      !s.isForeign top file.1) front store).ignoreFiles =
      (Git.WorkTree.mk ((s.files.filesBelow top).filter fun file ↦ !s.isForeign top file.1) front
        store).ignoreFiles := by
  have hput := ignoreFiles_eq (s := { s with files := s.files.put place node }) hnew front store
  refine hput.trans ((FileTree.filterMap_below_put _ _ ?_).trans
    (ignoreFiles_eq hold front store).symm)
  rintro names (_ | bytes) hne rfl
  · rfl
  · rw [List.getLast?_append_of_ne_nil _ hne] at hname
    simp [hname]

/-- Overwriting a file that holds no rules leaves a work tree alike. -/
theorem workTree?_put {s : State} (hs : s.files.Sound) {place : List String}
    {old : List UInt8} (hne : place ≠ []) (hold : s.files.find? place = some (.file old))
    (hname : place.getLast? ≠ some ".gitignore") {dir : Path} {w : Git.WorkTree}
    (hw : s.workTree? dir = some w) (bytes : List UInt8) :
    ∃ v, State.workTree? { s with files := s.files.put place (.file bytes) } dir = some v ∧
      v.Alike w := by
  obtain ⟨top, store, henclosing, rfl⟩ := workTree?_eq_some_iff.mp hw
  refine ⟨_, workTree?_eq_some_iff.mpr ⟨top, store, henclosing, rfl⟩, ?_⟩
  cases htop : s.files.resolve top with
  | error problem =>
    have hput : (s.files.put place (.file bytes)).resolve top = .error problem := by
      rw [FileTree.resolve, hs.follow_put hne hold]
      exact htop
    constructor
    all_goals simp [FileTree.filesBelow, hput, htop, isForeign, Git.WorkTree.ignoreFiles]
  | ok front =>
    have hput : (s.files.put place (.file bytes)).resolve top = .ok front := by
      rw [FileTree.resolve, hs.follow_put hne hold]
      exact htop
    refine ⟨?_, ignoreFiles_put hname htop hput _ _, rfl, rfl⟩
    rw [hs.filesBelow_put hne hold htop, List.filter_map]
    simp [isForeign, Function.comp_def]

/-- The work tree of a directory in a file tree that can exist can exist. -/
theorem sound_workTree {s : State} (h : s.files.Sound) {dir : Path} (hdir : dir.Resolved)
    {w : Git.WorkTree} (hw : s.workTree? dir = some w) : w.Sound := by
  obtain ⟨top, store, henclosing, rfl⟩ := workTree?_eq_some_iff.mp hw
  obtain ⟨htop, -⟩ := enclosing?_eq_some henclosing
  have hresolved : top.Resolved := by
    obtain ⟨n, -, rfl⟩ := List.mem_map.mp htop
    exact ⟨hdir.absolute, fun name hname ↦ hdir.parts name (List.take_subset _ _ hname)⟩
  have hfile : ∀ names bytes, (names, bytes) ∈ s.files.filesBelow top →
      names ≠ [] ∧ (top.parts ++ names, Node.file bytes) ∈ s.files.nodes :=
    fun _ _ ↦ FileTree.node_of_mem_filesBelow hresolved
  constructor
  · rintro ⟨names, bytes⟩ hfile'
    have hbelow := (List.mem_filter.mp hfile').1
    exact ⟨(hfile names bytes hbelow).1, h.named_filesBelow hresolved hbelow⟩
  · rintro ⟨names, bytes⟩ ha ⟨other, bytes'⟩ hb rfl
    obtain ⟨hne, hnode⟩ := hfile _ _ (List.mem_filter.mp ha).1
    obtain ⟨-, hnode'⟩ := hfile _ _ (List.mem_filter.mp hb).1
    have hfound := (lookup_eq_some_iff h.nodup).mpr hnode
    rw [(lookup_eq_some_iff h.nodup).mpr hnode'] at hfound
    rw [Node.file.inj (Option.some.inj hfound)]
  · rintro ⟨names, bytes⟩ ha ⟨other, bytes'⟩ hb hprefix
    obtain ⟨hne, hnode⟩ := hfile _ _ (List.mem_filter.mp ha).1
    obtain ⟨-, hnode'⟩ := hfile _ _ (List.mem_filter.mp hb).1
    by_contra hneq
    have hdirectory := h.parents _ hnode' (top.parts ++ names)
      ((List.prefix_append_right_inj _).mpr hprefix) (by simpa using hneq)
    rw [(h.find?_eq_some (by simp [hne])).mpr hnode] at hdirectory
    cases hdirectory

/-- So can what is staged and committed beside it. -/
theorem Sound.workTree {s : State} (h : s.Sound) {dir : Path} (hdir : dir.Resolved)
    {w : Git.WorkTree} (hw : s.workTree? dir = some w) :
    w.Sound ∧ w.store.staged.Sound ∧ w.store.head.Sound := by
  have hsound := sound_workTree h.files hdir hw
  obtain ⟨top, store, henclosing, rfl⟩ := workTree?_eq_some_iff.mp hw
  have hmem : (top, store) ∈ s.repositories :=
    (lookup_eq_some_iff h.nodup).mp (enclosing?_eq_some henclosing).2
  exact ⟨hsound, h.staged _ hmem, h.head _ hmem⟩

/-- A world stays possible if its files are others that can exist. -/
theorem Sound.congr {s t : State} (h : s.Sound) (hfiles : t.files.Sound)
    (hrepositories : t.repositories = s.repositories) : t.Sound where
  files := hfiles
  nodup := by
    rw [hrepositories]
    exact h.nodup
  staged := by
    rw [hrepositories]
    exact h.staged
  head := by
    rw [hrepositories]
    exact h.head

/-- A repository that is replaced is found where it was. -/
theorem lookup_setAt {s : State} {dir : Path} {old : Git.Store}
    (h : s.repositories.lookup dir = some old) (store : Git.Store) :
    (s.setAt dir store).repositories.lookup dir = some store :=
  (enclosing?_eq_some (enclosing?_setAt (enclosing?_self h) store)).2

/-- A world stays possible if a repository is replaced by a possible one. -/
theorem Sound.setAt {s : State} (h : s.Sound) (dir : Path) {store : Git.Store}
    (hstaged : store.staged.Sound) (hhead : store.head.Sound) : (s.setAt dir store).Sound := by
  cases henclosing : s.enclosing? dir with
  | none =>
    rw [State.setAt, henclosing]
    exact h
  | some entry =>
    obtain ⟨top, old⟩ := entry
    have hmem : ∀ repository ∈ (s.setAt dir store).repositories,
        repository.2 = store ∨ repository ∈ s.repositories := by
      intro repository hrepository
      rw [repositories_setAt henclosing] at hrepository
      obtain ⟨entry, hentry, rfl⟩ := List.mem_map.mp hrepository
      split
      · exact .inl rfl
      · exact .inr hentry
    refine ⟨by rw [files_setAt]; exact h.files, ?_, fun repository hrepository ↦ ?_,
      fun repository hrepository ↦ ?_⟩
    · rw [repositories_setAt henclosing, List.map_map, List.map_congr_left (g := (·.1))]
      · exact h.nodup
      · intro entry _
        by_cases heq : entry.1 = top
        · simp [heq]
        · simp [heq]
    · rcases hmem repository hrepository with heq | hold
      · rw [heq]
        exact hstaged
      · exact h.staged repository hold
    · rcases hmem repository hrepository with heq | hold
      · rw [heq]
        exact hhead
      · exact h.head repository hold

end State

namespace Workflow

open Git

/-- What a question to a work tree answers. It changes nothing. -/
theorem on_asking {α : Type} (dir : Path) (command : Command)
    (answer : WorkTree → Except String α) (s : State) :
    (asking dir command answer).on s =
      (handOver command >>= fun _ ↦ match s.workTree? dir with
        | none => .error (.git command (.exited noRepository))
        | some w => (answer w).mapError fun complaint ↦ .git command (.exited complaint), s) := by
  rw [asking, on_bind, on_ofResult]
  cases handOver command with
  | error failure => rfl
  | ok _ =>
    simp only [on_bind, on_get]
    cases hw : s.workTree? dir with
    | none => rfl
    | some w => cases h : answer w <;> simp only [h] <;> rfl

/-- What a change to a repository answers and leaves behind. -/
theorem on_changing (dir : Path) (command : Command)
    (change : WorkTree → Except String (Store × Option String)) (s : State) :
    (changing dir command change).on s = match (asking dir command change).on s with
      | (.error failure, _) => (.error failure, s)
      | (.ok (store, none), _) => (.ok (), s.setAt dir store)
      | (.ok (store, some complaint), _) =>
        (.error (.git command (.exited complaint)), s.setAt dir store) := by
  have hstate : ((asking dir command change).on s).2 = s := by rw [on_asking]
  rw [changing, on_bind]
  rcases h : (asking dir command change).on s with ⟨failure | ⟨store, complaint⟩, t⟩
  · rw [h] at hstate
    rw [← hstate]
  · rw [h] at hstate
    obtain rfl : t = s := hstate
    simp only [on_bind, on_get]
    cases henclosing : t.enclosing? dir with
    | none =>
      rw [on_asking, State.workTree?, henclosing] at h
      cases hwords : handOver command <;> rw [hwords] at h <;> cases h
    | some entry =>
      simp only [State.setAt, henclosing]
      cases complaint <;> rfl

/-- Worlds that differ in what was reported have the same work trees. -/
theorem Same.workTree?_eq {s t : State} (h : Same s t) (dir : Path) :
    s.workTree? dir = t.workTree? dir := by
  obtain ⟨files, repositories, logs⟩ := s
  obtain ⟨files', repositories', logs'⟩ := t
  obtain ⟨rfl, rfl⟩ : files = files' ∧ repositories = repositories' := h
  rfl

theorem Same.setAt {s t : State} (h : Same s t) (dir : Path) (store : Store) :
    Same (s.setAt dir store) (t.setAt dir store) := by
  obtain ⟨files, repositories, logs⟩ := s
  obtain ⟨files', repositories', logs'⟩ := t
  obtain ⟨rfl, rfl⟩ : files = files' ∧ repositories = repositories' := h
  rw [State.setAt, State.setAt]
  cases henclosing : State.enclosing? ⟨files, repositories, logs⟩ dir with
  | none =>
    have henclosing' : State.enclosing? ⟨files, repositories, logs'⟩ dir = none := henclosing
    rw [henclosing']
    exact ⟨rfl, rfl⟩
  | some entry =>
    have henclosing' : State.enclosing? ⟨files, repositories, logs'⟩ dir = some entry := henclosing
    rw [henclosing']
    exact ⟨rfl, rfl⟩

theorem Quiet.asking {α : Type} (dir : Path) (command : Command)
    (answer : WorkTree → Except String α) : Quiet (asking dir command answer) := by
  intro s t h
  rw [on_asking, on_asking, h.workTree?_eq]
  exact ⟨rfl, h⟩

theorem Quiet.changing (dir : Path) (command : Command)
    (change : WorkTree → Except String (Store × Option String)) :
    Quiet (changing dir command change) := by
  intro s t h
  obtain ⟨hanswer, -⟩ := Quiet.asking dir command change s t h
  rw [on_changing, on_changing]
  rcases hs : (Workflow.asking dir command change).on s with ⟨_ | ⟨store, complaint⟩, s'⟩
  · rw [hs] at hanswer
    rcases ht : (Workflow.asking dir command change).on t with ⟨_ | _, t'⟩
    · rw [ht] at hanswer
      exact ⟨congrArg Except.error (Except.error.inj hanswer), h⟩
    · rw [ht] at hanswer
      cases hanswer
  · rw [hs] at hanswer
    rcases ht : (Workflow.asking dir command change).on t with ⟨_ | other, t'⟩
    · rw [ht] at hanswer
      cases hanswer
    · rw [ht] at hanswer
      obtain rfl := Except.ok.inj hanswer
      cases complaint <;> exact ⟨rfl, h.setAt dir store⟩

end Workflow

end Guidebook
