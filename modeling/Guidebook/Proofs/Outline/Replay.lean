import Guidebook.Outline.Basic
import Guidebook.Outline.Builder

/-!
# Replaying walks

The walk of a directory keeps waiting directories on a stack. It lists the same entries as plain
recursion over the tree, in the same order: nothing on the stack is reached before all that lies
below what stands above it.

A builder that is given the walk of a levelled tree builds the tree again. Between two entries a
builder may hold directories that are complete but still open, because nothing closes them before
the next entry does. It is therefore described by what it settles to: the directories that remain
open once everything deeper than a level is closed.
-/

namespace Guidebook.Outline

namespace Directory

/-! ## Walks by recursion -/

mutual

/-- The entry of a directory with the written path `path`, and the walk of all it holds. -/
def walkFrom (path : String) : Directory → List WalkEntry
  | node name depth directories files =>
    ⟨name, .directory, depth, withoutSlashes path⟩ :: files.map fileEntry ++
      walkEach path directories

/-- The walks of directories one after another. -/
def walkEach (path : String) : List Directory → List WalkEntry
  | [] => []
  | d :: rest => walkFrom (path ++ d.name ++ "/") d ++ walkEach path rest

end

/-- The walk of one directory is its entry, its files and the walks of its subdirectories. -/
theorem walkFrom_eq (path : String) (d : Directory) :
    walkFrom path d = ⟨d.name, .directory, d.depth, withoutSlashes path⟩ ::
      d.files.map fileEntry ++ walkEach path d.directories := by
  cases d
  simp [walkFrom, name, depth, files, directories]

/-- The walks of subdirectories are those of the children put on the stack. -/
theorem walkEach_eq (path : String) (ds : List Directory) :
    walkEach path ds =
      (ds.map fun child ↦ (path ++ child.name ++ "/", child)).flatMap
        fun waiting ↦ walkFrom waiting.1 waiting.2 := by
  induction ds with
  | nil => simp [walkEach]
  | cons d rest ih => simp [walkEach, ih]

/-- What waits on a stack is walked in order, each directory to its end. -/
theorem walkStack_eq (stack : List (String × Directory)) :
    walkStack stack = stack.flatMap fun waiting ↦ walkFrom waiting.1 waiting.2 := by
  induction stack using walkStack.induct with
  | case1 => simp [walkStack]
  | case2 path d rest ih =>
    have hd : walkEach path d.directories =
        (d.children path).flatMap fun waiting ↦ walkFrom waiting.1 waiting.2 :=
      walkEach_eq path d.directories
    rw [walkStack, ih, List.flatMap_append, List.flatMap_cons, walkFrom_eq, hd]
    simp only [List.append_assoc, List.cons_append]

/-- A walk lists the files of the outline and then each subdirectory with all it holds. -/
theorem walk_eq (d : Directory) :
    d.walk = d.files.map fileEntry ++ walkEach "" d.directories := by
  rw [walk, walkStack_eq, walkEach_eq]
  rfl

/-! ## Levels -/

mutual

/-- Every file and every subdirectory lies one level below the directory that holds it. -/
def IsLevelled : Directory → Prop
  | node _ depth directories files =>
    (∀ f ∈ files, f.depth = depth + 1) ∧ AreLevelled depth directories

/-- The directories lie one level below a depth, and so does everything inside them in turn. -/
def AreLevelled (depth : Int) : List Directory → Prop
  | [] => True
  | d :: rest => d.depth = depth + 1 ∧ IsLevelled d ∧ AreLevelled depth rest

end

mutual

/-- Levels can be checked. -/
def decideLevelled : (d : Directory) → Decidable d.IsLevelled
  | node _ depth directories files =>
    have := decideAreLevelled depth directories
    inferInstanceAs (Decidable ((∀ f ∈ files, f.depth = depth + 1) ∧ AreLevelled depth directories))

/-- The levels of several directories can be checked. -/
def decideAreLevelled (depth : Int) : (ds : List Directory) → Decidable (AreLevelled depth ds)
  | [] => inferInstanceAs (Decidable True)
  | d :: rest =>
    have := decideLevelled d
    have := decideAreLevelled depth rest
    inferInstanceAs (Decidable (d.depth = depth + 1 ∧ d.IsLevelled ∧ AreLevelled depth rest))

end

instance (d : Directory) : Decidable d.IsLevelled := decideLevelled d

/-- A whole outline: the unnamed root at depth 0, with everything below it on its level. -/
structure IsOutline (d : Directory) : Prop where
  unnamed : d.name = ""
  atTop : d.depth = 0
  levelled : d.IsLevelled

/-- The directory with some more subdirectories. -/
def withDirectories : Directory → List Directory → Directory
  | node name depth directories files, more => node name depth (directories ++ more) files

/-- The directory with some more files. -/
def withFiles : Directory → List File → Directory
  | node name depth directories files, more => node name depth directories (files ++ more)

/-- Adding no subdirectories changes nothing. -/
@[simp] theorem withDirectories_nil (d : Directory) : d.withDirectories [] = d := by
  cases d
  simp [withDirectories]

/-- Subdirectories are added one by one. -/
@[simp] theorem withDirectories_addDirectory (d e : Directory) (rest : List Directory) :
    (d.addDirectory e).withDirectories rest = d.withDirectories (e :: rest) := by
  cases d
  simp [addDirectory, withDirectories]

/-- Adding no files changes nothing. -/
@[simp] theorem withFiles_nil (d : Directory) : d.withFiles [] = d := by
  cases d
  simp [withFiles]

/-- Files are added one by one. -/
@[simp] theorem withFiles_addFile (d : Directory) (f : File) (rest : List File) :
    (d.addFile f).withFiles rest = d.withFiles (f :: rest) := by
  cases d
  simp [addFile, withFiles]

end Directory

open Directory

namespace Builder

/-- Closing one directory more is closing the others first. -/
theorem close_succ (n : Nat) (stack opened : List Directory)
    (h : close n stack = (opened, none)) : close (n + 1) stack = closeOne opened := by
  induction n generalizing stack with
  | zero =>
    obtain rfl : stack = opened := by simpa [close] using h
    rw [close]
    rcases closeOne stack with ⟨rest, _ | fault⟩ <;> rfl
  | succ n ih =>
    rw [close] at h ⊢
    rcases hc : closeOne stack with ⟨rest, _ | fault⟩
    · rw [hc] at h
      exact ih rest h
    · rw [hc] at h
      simp at h

/-- With everything deeper than level `k` closed, the directories of `opened` are open. -/
structure Settles (b : Builder) (k : Int) (opened : List Directory) : Prop where
  level_le : k ≤ b.cursor
  closed : close (b.cursor - k).toNat b.stack = (opened, none)

/-- A builder settles at its cursor to the directories it holds. -/
theorem settles_self (stack : List Directory) (k : Int) : Settles ⟨stack, k⟩ k stack := by
  refine ⟨Int.le_refl k, ?_⟩
  simp [close]

/-- One level further up, the innermost directory lies in the one around it. -/
theorem Settles.up {b : Builder} {k : Int} {inner outer : Directory} {rest : List Directory}
    (h : b.Settles (k + 1) (inner :: outer :: rest)) :
    b.Settles k (outer.addDirectory inner :: rest) := by
  have hle := h.level_le
  refine ⟨by omega, ?_⟩
  have hn : (b.cursor - k).toNat = (b.cursor - (k + 1)).toNat + 1 := by omega
  rw [hn, close_succ _ _ _ h.closed]
  rfl

/-- An entry one level below a settled level is accepted, and everything deeper is closed. -/
theorem Settles.unwind_eq {b : Builder} {k : Int} {opened : List Directory} (h : b.Settles k opened)
    (hk : 0 ≤ k) (name : String) : b.unwind name (k + 1) = (⟨opened, b.cursor⟩, none) := by
  have hle := h.level_le
  have hr : refuses b.cursor (k + 1) = false := by
    simp only [refuses, Bool.or_eq_false_iff, decide_eq_false_iff_not]
    omega
  have hn : (b.cursor + 1 - (k + 1)).toNat = (b.cursor - k).toNat := by omega
  rw [unwind, hr, if_neg Bool.false_ne_true, hn]
  simp [h.closed]

/-- A file goes into the innermost directory of the level above it. -/
theorem Settles.push_file {b : Builder} {k : Int} {top : Directory} {rest : List Directory}
    (h : b.Settles k (top :: rest)) (hk : 0 ≤ k) (f : File) (hf : f.depth = k + 1) :
    b.push (Directory.fileEntry f) = (⟨top.addFile f :: rest, k⟩, none) := by
  cases f with
  | mk name depth path =>
    obtain rfl : depth = k + 1 := hf
    simp [push, Directory.fileEntry, pushFile, h.unwind_eq hk]

/-- A directory is opened inside the innermost directory of the level above it. -/
theorem Settles.push_directory {b : Builder} {k : Int} {opened : List Directory}
    (h : b.Settles k opened) (hk : 0 ≤ k) (name path : String) :
    b.push ⟨name, .directory, k + 1, path⟩ = (⟨empty name (k + 1) :: opened, k + 1⟩, none) := by
  simp [push, pushDirectory, h.unwind_eq hk]

/-- Two lists of entries are added one after the other. -/
theorem extend_append (b mid : Builder) (front back : List WalkEntry)
    (h : b.extend front = (mid, none)) : b.extend (front ++ back) = mid.extend back := by
  induction front generalizing b with
  | nil =>
    obtain rfl : b = mid := by simpa [extend] using h
    rfl
  | cons entry front ih =>
    rw [List.cons_append, extend]
    rw [extend] at h
    rcases hp : b.push entry with ⟨next, _ | fault⟩
    · rw [hp] at h
      exact ih next h
    · rw [hp] at h
      simp at h

/-- The files of a directory are added to it in order. -/
theorem extend_files {b : Builder} {k : Int} {top : Directory} {rest : List Directory}
    (h : b.Settles k (top :: rest)) (hk : 0 ≤ k) (fs : List File)
    (hf : ∀ f ∈ fs, f.depth = k + 1) :
    ∃ after, b.extend (fs.map Directory.fileEntry) = (after, none) ∧
      after.Settles k (top.withFiles fs :: rest) := by
  induction fs generalizing b top with
  | nil => exact ⟨b, rfl, by simpa using h⟩
  | cons f fs ih =>
    have hp := h.push_file hk f (hf f (by simp))
    obtain ⟨after, he, hs⟩ := ih (settles_self (top.addFile f :: rest) k)
      fun g hg ↦ hf g (by simp [hg])
    refine ⟨after, ?_, by simpa using hs⟩
    rw [List.map_cons, extend, hp]
    exact he

mutual

/-- The walk of a directory adds the directory where the builder stands. -/
theorem extend_walkFrom {b : Builder} {k : Int} {top : Directory} {rest : List Directory}
    (h : b.Settles k (top :: rest)) (hk : 0 ≤ k) (path : String) :
    (d : Directory) → d.depth = k + 1 → d.IsLevelled →
      ∃ after, b.extend (walkFrom path d) = (after, none) ∧
        after.Settles k (top.addDirectory d :: rest)
  | node name depth directories files, hd, hl => by
    obtain rfl : depth = k + 1 := hd
    obtain ⟨hfiles, hdirs⟩ : (∀ f ∈ files, f.depth = k + 1 + 1) ∧ AreLevelled (k + 1) directories :=
      hl
    have hopen := h.push_directory hk name (withoutSlashes path)
    have hself := settles_self (empty name (k + 1) :: top :: rest) (k + 1)
    obtain ⟨filled, hfill, hfilled⟩ := extend_files hself (by omega) files hfiles
    obtain ⟨after, hwalk, hafter⟩ := extend_walkEach hfilled (by omega) path directories hdirs
    refine ⟨after, ?_, ?_⟩
    · rw [walkFrom, List.cons_append, extend, hopen]
      exact (extend_append _ _ _ _ hfill).trans hwalk
    · simpa [empty, withFiles, withDirectories] using hafter.up

/-- The walks of directories add them in order where the builder stands. -/
theorem extend_walkEach {b : Builder} {k : Int} {top : Directory} {rest : List Directory}
    (h : b.Settles k (top :: rest)) (hk : 0 ≤ k) (path : String) :
    (ds : List Directory) → AreLevelled k ds →
      ∃ after, b.extend (walkEach path ds) = (after, none) ∧
        after.Settles k (top.withDirectories ds :: rest)
  | [], _ => ⟨b, by rw [walkEach]; rfl, by simpa using h⟩
  | d :: ds, hl => by
    obtain ⟨hd, hlevelled, hrest⟩ : d.depth = k + 1 ∧ d.IsLevelled ∧ AreLevelled k ds := hl
    obtain ⟨mid, hfirst, hmid⟩ := extend_walkFrom h hk (path ++ d.name ++ "/") d hd hlevelled
    obtain ⟨after, hothers, hafter⟩ := extend_walkEach hmid hk path ds hrest
    refine ⟨after, ?_, by simpa using hafter⟩
    rw [walkEach]
    exact (extend_append _ _ _ _ hfirst).trans hothers

end

/-- A builder that settles to one directory at the top gives it away. -/
theorem Settles.finish_eq {b : Builder} {root : Directory} (h : b.Settles 0 [root]) :
    b.finish.2 = .ok root := by
  have hc : close b.cursor.toNat b.stack = ([root], none) := by simpa using h.closed
  simp [finish, hc]

end Builder

/-- Replaying the walk of an outline builds it again, with the order of files and subdirectories
kept at every level. -/
theorem build_walk (d : Directory) (h : d.IsOutline) : build d.walk = .ok d := by
  rcases d with ⟨name, depth, directories, files⟩
  obtain rfl : name = "" := h.unnamed
  obtain rfl : depth = 0 := h.atTop
  obtain ⟨hfiles, hdirs⟩ : (∀ f ∈ files, f.depth = (0 : Int) + 1) ∧ AreLevelled 0 directories :=
    h.levelled
  have hstart : Builder.start.Settles 0 [empty "" 0] := Builder.settles_self _ _
  obtain ⟨filled, hfill, hfilled⟩ := Builder.extend_files hstart (by omega) files hfiles
  obtain ⟨after, hwalk, hafter⟩ := Builder.extend_walkEach hfilled (by omega) "" directories hdirs
  have hall : Builder.start.extend (node "" 0 directories files).walk = (after, none) := by
    rw [walk_eq]
    exact (Builder.extend_append _ _ _ _ hfill).trans hwalk
  have hroot : after.Settles 0 [node "" 0 directories files] := by
    simpa [empty, withFiles, withDirectories] using hafter
  rw [build, hall]
  exact hroot.finish_eq

/-- A walk that goes down three levels, past an empty directory, and back to a file-less sibling. -/
theorem build_walk_nested :
    let tree := node "" 0
      [node "src" 1 [node "a" 2 [node "b" 3 [] [⟨"x", 4, "src/a/b/x"⟩]] [], node "empty" 2 [] []]
        [⟨"main", 2, "src/main"⟩, ⟨"main", 2, "elsewhere"⟩],
       node "doc/" 1 [node "src" 2 [] []] []]
      [⟨"z", 1, "z"⟩, ⟨"a", 1, "a"⟩]
    tree.IsOutline ∧ build tree.walk = .ok tree := by
  intro tree
  have h : tree.IsOutline := ⟨rfl, rfl, by decide⟩
  exact ⟨h, build_walk tree h⟩

end Guidebook.Outline
