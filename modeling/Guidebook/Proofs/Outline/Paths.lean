import Mathlib.Data.List.Perm.Basic
import Guidebook.Outline.Builder
import Guidebook.Outline.Listing
import Guidebook.Proofs.Outline.Replay

/-!
# Paths in outlines

A builder takes the entries of a walk as long as none of them lies more than one level deeper than
what is open, and what it builds holds the entries of the walk, each as often as the walk lists it.
Nothing is said here of where the entries end up: a file keeps the path it came with. A walk that a
list of paths implies lists no file but these.
-/

namespace Guidebook.Outline

/-- The paths of the files that a walk lists. -/
def filePaths (entries : List WalkEntry) : List String :=
  (entries.filter (·.kind == .file)).map (·.path)

@[simp] theorem filePaths_nil : filePaths [] = [] := rfl

@[simp] theorem filePaths_append (front back : List WalkEntry) :
    filePaths (front ++ back) = filePaths front ++ filePaths back := by
  simp [filePaths]

namespace Directory

@[simp] theorem filePaths_fileEntries (files : List File) :
    filePaths (files.map fileEntry) = files.map (·.path) := by
  induction files with
  | nil => rfl
  | cons f files ih =>
    simp only [filePaths, fileEntry, List.map_cons] at ih ⊢
    simpa using ih

mutual

/-- The paths of the files of a directory, however deep. -/
def paths : Directory → List String
  | node _ _ directories files => files.map (·.path) ++ pathsOf directories

/-- The paths of the files of some directories. -/
def pathsOf : List Directory → List String
  | [] => []
  | d :: rest => paths d ++ pathsOf rest

end

mutual

/-- What a directory holds, however deep, as entries of a walk. A directory has no path. -/
def contents : Directory → List WalkEntry
  | node _ _ directories files => files.map fileEntry ++ contentsOf directories

/-- Some directories and what they hold as entries of a walk. -/
def contentsOf : List Directory → List WalkEntry
  | [] => []
  | d :: rest => ⟨d.name, .directory, d.depth, ""⟩ :: contents d ++ contentsOf rest

end

theorem contentsOf_append (ds es : List Directory) :
    contentsOf (ds ++ es) = contentsOf ds ++ contentsOf es := by
  induction ds with
  | nil => rw [List.nil_append, contentsOf, List.nil_append]
  | cons d ds ih =>
    rw [List.cons_append, contentsOf, contentsOf, ih, List.cons_append, List.cons_append,
      List.cons_append, List.append_assoc]

theorem contentsOf_singleton (d : Directory) :
    contentsOf [d] = ⟨d.name, .directory, d.depth, ""⟩ :: d.contents := by
  rw [contentsOf, contentsOf, List.append_nil]

@[simp] theorem contents_empty (name : String) (depth : Int) :
    (empty name depth).contents = [] := by
  rw [empty, contents, contentsOf, List.map_nil, List.append_nil]

theorem contents_addDirectory (d e : Directory) :
    (d.addDirectory e).contents = d.contents ++ contentsOf [e] := by
  cases d with
  | node name depth directories files =>
    rw [addDirectory, contents, contents, contentsOf_append, List.append_assoc]

theorem contents_addFile (d : Directory) (f : File) :
    (d.addFile f).contents.Perm (fileEntry f :: d.contents) := by
  cases d with
  | node name depth directories files =>
    rw [addFile, contents, contents, List.map_append, List.map_singleton, List.append_assoc,
      List.singleton_append]
    exact List.perm_middle

/-- Closing a directory into the one around it loses nothing. -/
theorem contentsOf_close (inner outer : Directory) (rest : List Directory) :
    (contentsOf (outer.addDirectory inner :: rest)).Perm (contentsOf (inner :: outer :: rest)) := by
  have hname : (outer.addDirectory inner).name = outer.name := by cases outer; rfl
  have hdepth : (outer.addDirectory inner).depth = outer.depth := by cases outer; rfl
  have hsplit : ∀ d ds, contentsOf (d :: ds) = contentsOf [d] ++ contentsOf ds := fun d ds ↦
    contentsOf_append [d] ds
  have houter :
      contentsOf [outer.addDirectory inner] = contentsOf [outer] ++ contentsOf [inner] := by
    rw [contentsOf_singleton, contentsOf_singleton outer, contents_addDirectory, hname, hdepth]
    rfl
  rw [hsplit, hsplit inner, hsplit outer, houter, ← List.append_assoc]
  exact List.perm_append_comm.append_right _

mutual

theorem filePaths_contents : ∀ d : Directory, filePaths d.contents = d.paths
  | node name depth directories files => by
    rw [contents, filePaths_append, filePaths_fileEntries, filePaths_contentsOf directories, paths]

theorem filePaths_contentsOf : ∀ ds : List Directory, filePaths (contentsOf ds) = pathsOf ds
  | [] => by rw [contentsOf, pathsOf, filePaths_nil]
  | d :: rest => by
    have hd := filePaths_contents d
    have hrest := filePaths_contentsOf rest
    rw [contentsOf, pathsOf, filePaths_append, hrest, ← hd]
    rfl

end

end Directory

/-- An entry as an outline keeps it: the path that comes with a directory is dropped. -/
def WalkEntry.kept (e : WalkEntry) : WalkEntry :=
  match e.kind with
  | .directory => { e with path := "" }
  | .file => e

@[simp] theorem filePaths_map_kept (entries : List WalkEntry) :
    filePaths (entries.map WalkEntry.kept) = filePaths entries := by
  induction entries with
  | nil => rfl
  | cons e rest ih =>
    have hcons : ∀ (x : WalkEntry) (xs : List WalkEntry),
        filePaths (x :: xs) = filePaths [x] ++ filePaths xs := fun x xs ↦ filePaths_append [x] xs
    rw [List.map_cons, hcons, hcons e, ih]
    cases hkind : e.kind <;> simp [filePaths, WalkEntry.kept, hkind]

namespace Directory

private theorem kept_fileEntries (files : List File) :
    (files.map fileEntry).map WalkEntry.kept = files.map fileEntry := by
  rw [List.map_map]
  rfl

mutual

private theorem kept_walkFrom (path : String) :
    ∀ d : Directory, (walkFrom path d).map WalkEntry.kept = contentsOf [d]
  | node name depth directories files => by
    rw [walkFrom, List.cons_append, List.map_cons, List.map_append, kept_fileEntries,
      kept_walkEach path directories, contentsOf_singleton, contents]
    rfl

private theorem kept_walkEach (path : String) :
    ∀ ds : List Directory, (walkEach path ds).map WalkEntry.kept = contentsOf ds
  | [] => by rw [walkEach, contentsOf, List.map_nil]
  | d :: rest => by
    rw [walkEach, List.map_append, kept_walkFrom _ d, kept_walkEach path rest]
    exact (contentsOf_append [d] rest).symm

end

/-- The walk of an outline lists what the outline holds. -/
theorem kept_walk (d : Directory) : d.walk.map WalkEntry.kept = d.contents := by
  cases d with
  | node name depth directories files =>
    rw [walk_eq, List.map_append, kept_fileEntries, kept_walkEach, contents]
    rfl

/-- The walk of an outline lists its files. -/
theorem filePaths_walk (d : Directory) : filePaths d.walk = d.paths := by
  rw [← filePaths_contents, ← kept_walk, filePaths_map_kept]

end Directory

open Directory

/-- The depth of the innermost directory that is open behind an entry. -/
def WalkEntry.cursor (e : WalkEntry) : Int :=
  match e.kind with
  | .directory => e.depth
  | .file => e.depth - 1

/-- Entries that a builder takes at a cursor: none lies above the first level, and none more than
one level below what is open. -/
def Fits (cursor : Int) : List WalkEntry → Prop
  | [] => True
  | e :: rest => (1 ≤ e.depth ∧ e.depth ≤ cursor + 1) ∧ Fits e.cursor rest

namespace Builder

/-- A builder whose cursor is the depth of the innermost open directory. -/
structure Level (b : Builder) : Prop where
  nonneg : 0 ≤ b.cursor
  length : (b.stack.length : Int) = b.cursor + 1

/-- A number of directories can be closed as long as one more is open. -/
theorem close_open {n : Nat} {stack : List Directory} (h : n < stack.length) :
    ∃ opened, close n stack = (opened, none) := by
  induction n generalizing stack with
  | zero => exact ⟨stack, rfl⟩
  | succ n ih =>
    rcases stack with _ | ⟨inner, _ | ⟨outer, rest⟩⟩
    · simp at h
    · simp at h
    · exact ih (by simpa using h)

theorem length_close {n : Nat} {stack opened : List Directory}
    (h : close n stack = (opened, none)) : opened.length + n = stack.length := by
  induction n generalizing stack with
  | zero =>
    obtain rfl : stack = opened := congrArg Prod.fst h
    rfl
  | succ n ih =>
    rcases stack with _ | ⟨inner, _ | ⟨outer, rest⟩⟩
    · cases congrArg Prod.snd h
    · cases congrArg Prod.snd h
    · have hclosed : close n (outer.addDirectory inner :: rest) = (opened, none) := h
      have hrest := ih hclosed
      simp only [List.length_cons] at hrest ⊢
      omega

/-- What is kept by closing one directory, while more are open than in the end, is kept by closing
several. -/
theorem close_induction {P : List Directory → Prop} {n : Nat} {stack opened : List Directory}
    (h : close n stack = (opened, none)) (hstack : P stack)
    (step : ∀ inner outer rest, opened.length < (inner :: outer :: rest : List Directory).length →
      P (inner :: outer :: rest) → P (outer.addDirectory inner :: rest)) : P opened := by
  induction n generalizing stack with
  | zero =>
    obtain rfl : stack = opened := congrArg Prod.fst h
    exact hstack
  | succ n ih =>
    have hlength := length_close h
    rcases stack with _ | ⟨inner, _ | ⟨outer, rest⟩⟩
    · cases congrArg Prod.snd h
    · cases congrArg Prod.snd h
    · have hclosed : close n (outer.addDirectory inner :: rest) = (opened, none) := h
      exact ih hclosed (step inner outer rest (by omega) hstack)

theorem contentsOf_closed {n : Nat} {stack opened : List Directory}
    (h : close n stack = (opened, none)) : (contentsOf opened).Perm (contentsOf stack) :=
  close_induction (P := fun now ↦ (contentsOf now).Perm (contentsOf stack)) h .rfl
    fun inner outer rest _ hperm ↦ (contentsOf_close inner outer rest).trans hperm

/-- The open directories once an entry has been put into the innermost one. -/
def entered (e : WalkEntry) : List Directory → List Directory
  | [] => []
  | top :: rest =>
    match e.kind with
    | .directory => empty e.name e.depth :: top :: rest
    | .file => top.addFile ⟨e.name, e.depth, e.path⟩ :: rest

theorem contentsOf_entered (e : WalkEntry) {opened : List Directory} (h : opened ≠ []) :
    (contentsOf (entered e opened)).Perm (e.kept :: contentsOf opened) := by
  obtain ⟨top, rest, rfl⟩ := List.exists_cons_of_ne_nil h
  cases hkind : e.kind with
  | directory =>
    have hkept : e.kept = ⟨e.name, .directory, e.depth, ""⟩ := by
      simp only [WalkEntry.kept, hkind]
    have hentered : entered e (top :: rest) = empty e.name e.depth :: top :: rest := by
      simp only [entered, hkind]
    rw [hentered, hkept, contentsOf, contents_empty]
    exact .rfl
  | file =>
    have hkept : e.kept = Directory.fileEntry ⟨e.name, e.depth, e.path⟩ := by
      cases e
      cases hkind
      rfl
    have hentered : entered e (top :: rest) =
        top.addFile ⟨e.name, e.depth, e.path⟩ :: rest := by
      simp only [entered, hkind]
    have hname : (top.addFile ⟨e.name, e.depth, e.path⟩).name = top.name := by cases top; rfl
    have hdepth : (top.addFile ⟨e.name, e.depth, e.path⟩).depth = top.depth := by cases top; rfl
    rw [hentered, hkept, contentsOf, contentsOf, hname, hdepth]
    exact (((contents_addFile top _).append_right _).cons _).trans (.swap _ _ _)

/-- An entry at most one level below the cursor is taken: every open directory at its depth or
deeper is closed, and the entry is put into the innermost one that is left. -/
theorem push_eq {b : Builder} (h : b.Level) {e : WalkEntry} (hlow : 1 ≤ e.depth)
    (hhigh : e.depth ≤ b.cursor + 1) :
    ∃ opened, close (b.cursor + 1 - e.depth).toNat b.stack = (opened, none) ∧
      (opened.length : Int) = e.depth ∧ b.push e = (⟨entered e opened, e.cursor⟩, none) := by
  have hlength := h.length
  have hrefuses : refuses b.cursor e.depth = false := by
    simp only [refuses, Bool.or_eq_false_iff, decide_eq_false_iff_not]
    omega
  have hless : (b.cursor + 1 - e.depth).toNat < b.stack.length := by omega
  obtain ⟨opened, hclose⟩ := close_open hless
  have hopened := length_close hclose
  refine ⟨opened, hclose, by omega, ?_⟩
  rcases opened with _ | ⟨top, rest⟩
  · simp only [List.length_nil] at hopened
    omega
  · cases hkind : e.kind <;>
      simp [push, hkind, pushDirectory, pushFile, unwind, hrefuses, hclose, entered,
        WalkEntry.cursor]

theorem level_entered {e : WalkEntry} {opened : List Directory} (hlow : 1 ≤ e.depth)
    (hopened : (opened.length : Int) = e.depth) : Level ⟨entered e opened, e.cursor⟩ := by
  rcases opened with _ | ⟨top, rest⟩
  · simp only [List.length_nil] at hopened
    omega
  · simp only [List.length_cons] at hopened
    cases hkind : e.kind <;>
      exact ⟨by simp only [WalkEntry.cursor, hkind]; omega,
        by simp only [entered, WalkEntry.cursor, hkind, List.length_cons]; omega⟩

/-- Entries that fit are taken, and the builder holds them besides what it held. -/
theorem extend_eq {b : Builder} (h : b.Level) {entries : List WalkEntry}
    (hfits : Fits b.cursor entries) :
    ∃ next, b.extend entries = (next, none) ∧ next.Level ∧
      (contentsOf next.stack).Perm (entries.map WalkEntry.kept ++ contentsOf b.stack) := by
  induction entries generalizing b with
  | nil => exact ⟨b, rfl, h, .rfl⟩
  | cons e rest ih =>
    obtain ⟨⟨hlow, hhigh⟩, hrest⟩ := hfits
    obtain ⟨opened, hclose, hopened, hpush⟩ := push_eq h hlow hhigh
    have hne : opened ≠ [] := by
      rintro rfl
      simp only [List.length_nil] at hopened
      omega
    obtain ⟨next, hextend, hnext, hperm⟩ := ih (level_entered hlow hopened) hrest
    have hentered := (contentsOf_entered e hne).trans ((contentsOf_closed hclose).cons e.kept)
    refine ⟨next, ?_, hnext, ?_⟩
    · rw [extend, hpush]
      exact hextend
    · exact (hperm.trans (hentered.append_left _)).trans List.perm_middle

/-- An entry above the first level or more than one level below the cursor is refused, and the
builder stays as it is. -/
theorem push_refused {b : Builder} {e : WalkEntry}
    (h : ¬(1 ≤ e.depth ∧ e.depth ≤ b.cursor + 1)) :
    b.push e = (b, some (.orphan e.name e.depth b.cursor)) := by
  have hrefuses : refuses b.cursor e.depth = true := by
    simp only [refuses, Bool.or_eq_true, decide_eq_true_eq]
    omega
  cases hkind : e.kind <;> simp [push, hkind, pushDirectory, pushFile, unwind, hrefuses]

/-- Entries that are taken fit. -/
theorem fits_of_extend {b next : Builder} (h : b.Level) {entries : List WalkEntry}
    (hextend : b.extend entries = (next, none)) : Fits b.cursor entries := by
  induction entries generalizing b with
  | nil => trivial
  | cons e rest ih =>
    by_cases hdepth : 1 ≤ e.depth ∧ e.depth ≤ b.cursor + 1
    · obtain ⟨opened, -, hopened, hpush⟩ := push_eq h hdepth.1 hdepth.2
      rw [extend, hpush] at hextend
      exact ⟨hdepth, ih (level_entered hdepth.1 hopened) hextend⟩
    · rw [extend, push_refused hdepth] at hextend
      cases congrArg Prod.snd hextend

/-- Closing everything gives away the root, with all that the open directories held. -/
theorem finish_eq {b : Builder} (h : b.Level) :
    ∃ root, close b.cursor.toNat b.stack = ([root], none) ∧ b.finish = (⟨[], 0⟩, .ok root) := by
  have hnonneg := h.nonneg
  have hlength := h.length
  have hless : b.cursor.toNat < b.stack.length := by omega
  obtain ⟨opened, hclose⟩ := close_open hless
  have hopened := length_close hclose
  obtain ⟨root, rfl⟩ : ∃ root, opened = [root] := List.length_eq_one_iff.mp (by omega)
  exact ⟨root, hclose, by simp [finish, hclose]⟩

/-- A builder with only the root open is at its level. -/
theorem level_start : start.Level := ⟨by decide, by decide⟩

end Builder

/-- Entries that fit are built to an outline that holds their files. -/
theorem build_of_fits {entries : List WalkEntry} (h : Fits 0 entries) :
    ∃ d, build entries = .ok d ∧ d.paths.Perm (filePaths entries) := by
  obtain ⟨b, hextend, hlevel, hperm⟩ := Builder.extend_eq Builder.level_start h
  obtain ⟨d, hclose, hfinish⟩ := Builder.finish_eq hlevel
  have hheld := ((Builder.contentsOf_closed hclose).trans hperm).filter (·.kind == .file)
  refine ⟨d, by rw [build, hextend]; exact congrArg Prod.snd hfinish, ?_⟩
  have hpaths := hheld.map (·.path)
  change (filePaths (contentsOf [d])).Perm (filePaths _) at hpaths
  rw [contentsOf_singleton, ← List.singleton_append, filePaths_append, filePaths_contents,
    filePaths_append, filePaths_map_kept] at hpaths
  simpa [Builder.start, contentsOf_singleton, filePaths] using hpaths

/-- Entries that are built fit. -/
theorem fits_of_build {entries : List WalkEntry} {d : Directory} (h : build entries = .ok d) :
    Fits 0 entries := by
  rw [build] at h
  split at h
  · cases h
  · next b hb => exact Builder.fits_of_extend Builder.level_start hb

/-- An outline holds the files of the walk that it is built from, each as often as listed. -/
theorem paths_build {entries : List WalkEntry} {d : Directory} (h : build entries = .ok d) :
    d.paths.Perm (filePaths entries) := by
  obtain ⟨found, hfound, hperm⟩ := build_of_fits (fits_of_build h)
  obtain rfl := Except.ok.inj (h.symm.trans hfound)
  exact hperm

/-- What holds of the files of a walk holds of the outline's. -/
theorem forall_mem_paths_build {p : String → Prop} {entries : List WalkEntry} {d : Directory}
    (h : build entries = .ok d) (hentries : ∀ e ∈ entries, e.kind = .file → p e.path) :
    ∀ path ∈ d.paths, p path := by
  intro path hpath
  obtain ⟨e, he, rfl⟩ := List.mem_map.mp ((paths_build h).mem_iff.mp hpath)
  obtain ⟨hmem, hfile⟩ := List.mem_filter.mp he
  exact hentries e hmem (by simpa using hfile)

/-! ## Walks of listings -/

theorem mem_insertParts {parts x : List String} {rows : List (List String)} :
    x ∈ insertParts parts rows ↔ x = parts ∨ x ∈ rows := by
  induction rows with
  | nil => simp [insertParts]
  | cons head rest ih =>
    rw [insertParts]
    split
    · next heq => simp [eq_of_beq heq]
    · split
      · exact List.mem_cons
      · rw [List.mem_cons, ih, List.mem_cons, or_left_comm]

theorem mem_foldr_insertParts {x : List String} {rows : List (List String)} :
    x ∈ rows.foldr insertParts [] ↔ x ∈ rows := by
  induction rows with
  | nil => rfl
  | cons row rows ih => rw [List.foldr_cons, mem_insertParts, ih, List.mem_cons]

theorem mem_orderedParts {paths : List String} {x : List String} :
    x ∈ orderedParts paths ↔ ∃ path ∈ paths, path ≠ "" ∧ (Path.ofString path).parts = x := by
  simp [orderedParts, mem_foldr_insertParts, and_assoc]

private theorem path_entriesFrom {rows : List (List String)} {opened : List String}
    {walk : List WalkEntry} (h : entriesFrom opened rows = some walk) :
    ∀ e ∈ walk, e.kind = .file → ∃ parts ∈ rows, parts ≠ [] ∧ e = fileEntry parts := by
  induction rows generalizing opened walk with
  | nil =>
    obtain rfl := Option.some.inj h
    simp
  | cons parts rest ih =>
    rw [entriesFrom] at h
    split at h
    · cases h
    · next hne =>
      obtain ⟨tail, htail, rfl⟩ := Option.map_eq_some_iff.mp h
      intro e he hfile
      rcases List.mem_append.mp he with he | he
      · obtain ⟨level, -, rfl⟩ := List.mem_map.mp he
        cases hfile
      · rcases List.mem_cons.mp he with rfl | he
        · exact ⟨parts, List.mem_cons_self, by simpa using hne, rfl⟩
        · obtain ⟨other, hother, hrest⟩ := ih htail e he hfile
          exact ⟨other, List.mem_cons_of_mem _ hother, hrest⟩

/-- The walk that a list of paths implies lists these paths, component by component. -/
theorem path_entriesOfPaths {paths : List String} {walk : List WalkEntry}
    (h : entriesOfPaths paths = some walk) :
    ∀ e ∈ walk, e.kind = .file → ∃ path ∈ paths, (Path.ofString path).parts ≠ [] ∧
      e.path = Text.joinStrings "/" (Path.ofString path).parts := by
  intro e he hfile
  obtain ⟨parts, hparts, hne, rfl⟩ := path_entriesFrom h e he hfile
  obtain ⟨path, hpath, -, rfl⟩ := mem_orderedParts.mp hparts
  exact ⟨path, hpath, hne, rfl⟩

end Guidebook.Outline
