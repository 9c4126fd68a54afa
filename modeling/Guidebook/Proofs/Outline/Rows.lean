import Mathlib.Data.List.Basic
import Guidebook.Git.History
import Guidebook.Proofs.Outline.Replay

/-!
# Outlines of rows

A walk of files lists their components row by row, every directory right before the first row below
it. If no row comes between those of one directory, the walk is taken, and what is built is known
from the rows: each directory holds the files and subdirectories of its rows in the order in which
the rows have them.
-/

namespace Guidebook.Outline

open Git.Snapshot (walkFrom shared entry)

/-- Whether a row lies in a directory. -/
def isInside (name : String) : List String → Bool
  | head :: _ :: _ => head == name
  | _ => false

@[simp] theorem isInside_nil (name : String) : isInside name [] = false := rfl

@[simp] theorem isInside_singleton (name head : String) : isInside name [head] = false := rfl

@[simp] theorem isInside_cons (name head next : String) (rest : List String) :
    isInside name (head :: next :: rest) = (head == name) := rfl

theorem isInside_iff {name : String} {row : List String} :
    isInside name row = true ↔ ∃ rest, rest ≠ [] ∧ row = name :: rest := by
  constructor
  · intro h
    rcases row with _ | ⟨head, _ | ⟨next, rest⟩⟩
    · cases h
    · cases h
    · exact ⟨next :: rest, List.cons_ne_nil _ _, by rw [eq_of_beq h]⟩
  · rintro ⟨_ | ⟨next, rest⟩, hne, rfl⟩
    · exact absurd rfl hne
    · exact beq_self_eq_true name

/-- The rows in a directory, seen from there. -/
def below (name : String) (rows : List (List String)) : List (List String) :=
  (rows.filter (isInside name)).map List.tail

/-- The directories that rows lie in, each at its first row. -/
def heads : List (List String) → List String
  | (name :: _ :: _) :: rest => name :: (heads rest).filter (· != name)
  | _ :: rest => heads rest
  | [] => []

/-- A file of a directory. -/
def fileAt (front : List String) (name : String) : File :=
  ⟨name, front.length + 1, Text.joinStrings "/" (front ++ [name])⟩

/-- The files of a directory among the rows in it. -/
def filesAt (front : List String) : List (List String) → List File
  | [name] :: rest => fileAt front name :: filesAt front rest
  | _ :: rest => filesAt front rest
  | [] => []

/-- The subdirectories of a directory among the rows in it, as deep as the rows go. -/
def subtrees : Nat → List String → List (List String) → List Directory
  | 0, _, _ => []
  | n + 1, front, rows => (heads rows).map fun name ↦
    .node name (front.length + 1) (subtrees n (front ++ [name]) (below name rows))
      (filesAt (front ++ [name]) (below name rows))

@[simp] theorem subtrees_nil (n : Nat) (front : List String) : subtrees n front [] = [] := by
  cases n <;> rfl

/-! ## Rows in directories -/

theorem mem_below {name : String} {rows : List (List String)} {row : List String} :
    row ∈ below name rows ↔ row ≠ [] ∧ name :: row ∈ rows := by
  simp only [below, List.mem_map, List.mem_filter, isInside_iff]
  constructor
  · rintro ⟨_, ⟨hmem, rest, hne, rfl⟩, rfl⟩
    exact ⟨hne, hmem⟩
  · rintro ⟨hne, hmem⟩
    exact ⟨_, ⟨hmem, row, hne, rfl⟩, rfl⟩

theorem mem_heads {name : String} {rows : List (List String)} :
    name ∈ heads rows ↔ ∃ row ∈ rows, isInside name row = true := by
  induction rows with
  | nil => simp [heads]
  | cons row rest ih =>
    rcases row with _ | ⟨head, _ | ⟨next, tail⟩⟩
    · simpa [heads] using ih
    · simpa [heads] using ih
    · by_cases heq : head = name
      · simp [heads, heq]
      · simpa [heads, heq, Ne.symm heq] using ih

/-- The rows of a directory are those seen from there. -/
theorem map_below (name : String) (rows : List (List String)) :
    (below name rows).map (name :: ·) = rows.filter (isInside name) := by
  rw [below, List.map_map, List.map_congr_left, List.map_id]
  intro row hrow
  obtain ⟨rest, -, rfl⟩ := isInside_iff.mp (List.mem_filter.mp hrow).2
  rfl

theorem length_below_le {name : String} {rows : List (List String)} {n : Nat}
    (h : ∀ row ∈ rows, row.length ≤ n + 1) : ∀ row ∈ below name rows, row.length ≤ n :=
  fun _ hrow ↦ Nat.le_of_succ_le_succ (h _ (mem_below.mp hrow).2)

theorem mem_filesAt {front : List String} {rows : List (List String)} {f : File} :
    f ∈ filesAt front rows ↔ ∃ name, [name] ∈ rows ∧ fileAt front name = f := by
  induction rows with
  | nil => simp [filesAt]
  | cons row _ ih =>
    rcases row with _ | ⟨name, _ | ⟨_, _⟩⟩
    · simpa [filesAt] using ih
    · simp [filesAt, ih, or_and_right, exists_or, eq_comm]
    · simpa [filesAt] using ih

/-! ## Rows in one directory and in others -/

theorem length_filter_not_lt {name : String} {row : List String} (h : isInside name row = true)
    (rest : List (List String)) :
    ((row :: rest).filter (!isInside name ·)).length < (row :: rest).length := by
  rw [List.filter_cons_of_neg (by simp [h])]
  exact Nat.lt_succ_of_le (List.length_filter_le _ _)

theorem heads_filter_not (name : String) (rows : List (List String)) :
    heads (rows.filter (!isInside name ·)) = (heads rows).filter (· != name) := by
  induction rows with
  | nil => rfl
  | cons row rest ih =>
    rcases row with _ | ⟨head, _ | ⟨next, tail⟩⟩
    · simpa [heads] using ih
    · simpa [heads] using ih
    · by_cases heq : head = name
      · subst heq
        simpa [heads] using ih
      · simp [List.filter_cons, heads, heq, ih, Bool.and_comm]

theorem below_filter_not {name other : String} (hne : other ≠ name) (rows : List (List String)) :
    below other (rows.filter (!isInside name ·)) = below other rows := by
  rw [below, below, List.filter_filter]
  congr 1
  refine List.filter_congr fun row _ ↦ ?_
  rcases row with _ | ⟨head, _ | ⟨next, tail⟩⟩
  · rfl
  · rfl
  · by_cases heq : head = other
    · simp [heq, hne]
    · simp [heq]

theorem filesAt_filter_not (front : List String) (name : String) (rows : List (List String)) :
    filesAt front (rows.filter (!isInside name ·)) = filesAt front rows := by
  induction rows with
  | nil => rfl
  | cons row rest ih =>
    rcases row with _ | ⟨head, _ | ⟨next, tail⟩⟩
    · simpa [filesAt] using ih
    · simpa [filesAt] using ih
    · by_cases heq : head = name <;> simpa [List.filter_cons, filesAt, heq] using ih

/-- The directory of the first row comes before those of the rows elsewhere. -/
theorem subtrees_cons (n : Nat) (front : List String) {name : String} {row : List String}
    (hrow : isInside name row = true) (rest : List (List String)) :
    subtrees (n + 1) front (row :: rest) =
      .node name (front.length + 1) (subtrees n (front ++ [name]) (below name (row :: rest)))
          (filesAt (front ++ [name]) (below name (row :: rest))) ::
        subtrees (n + 1) front ((row :: rest).filter (!isInside name ·)) := by
  have hheads : heads (row :: rest) =
      name :: heads ((row :: rest).filter (!isInside name ·)) := by
    obtain ⟨_ | ⟨next, tail⟩, hne, rfl⟩ := isInside_iff.mp hrow
    · exact absurd rfl hne
    · rw [heads_filter_not]
      simp [heads]
  rw [subtrees, hheads, List.map_cons, subtrees]
  congr 1
  refine List.map_congr_left fun other hother ↦ ?_
  rw [heads_filter_not] at hother
  rw [below_filter_not (bne_iff_ne.mp (List.mem_filter.mp hother).2)]

/-! ## Orders of rows -/

private theorem filter_append_filter_not {α : Type} {p : α → Bool} {l : List α}
    (h : l.Pairwise fun x y ↦ p y = true → p x = true) :
    l.filter p ++ l.filter (!p ·) = l := by
  induction l with
  | nil => rfl
  | cons x l ih =>
    obtain ⟨hx, hl⟩ := List.pairwise_cons.mp h
    by_cases hp : p x = true
    · simpa [hp] using ih hl
    · have hnone : ∀ y ∈ l, ¬ p y = true := fun y hy hpy ↦ hp (hx y hy hpy)
      have hall : l.filter (!p ·) = l := List.filter_eq_self.mpr fun y hy ↦ by simpa using hnone y hy
      rw [List.filter_cons_of_neg hp, List.filter_eq_nil_iff.mpr hnone,
        List.filter_cons_of_pos (by simpa using hp), hall, List.nil_append]

/-- An order of rows that keeps those of a directory together, and so on in every directory.
Directories then come in an order of their names, and so do the files of a directory. -/
structure RowOrder (before : List String → List String → Prop) (ahead : String → String → Prop) :
    Prop where
  together : ∀ {name x y z}, isInside name x = true → isInside name z = true →
    before x y → before y z → isInside name y = true
  tail : ∀ {name x y}, x ≠ [] → y ≠ [] → before (name :: x) (name :: y) → before x y
  directories : ∀ {a b x y}, isInside a x = true → isInside b y = true → a ≠ b → before x y → ahead a b
  files : ∀ {a b}, before [a] [b] → a.toList < b.toList

variable {before : List String → List String → Prop} {ahead : String → String → Prop}
  {rows : List (List String)}

namespace RowOrder

variable (h : RowOrder before ahead)

include h

/-- The rows of a directory are in order. -/
theorem pairwise_below (hrows : rows.Pairwise before) (name : String) :
    (below name rows).Pairwise before := by
  have hmap := hrows.filter (isInside name)
  rw [← map_below, List.pairwise_map] at hmap
  exact hmap.imp_of_mem fun hx hy ↦ h.tail (mem_below.mp hx).1 (mem_below.mp hy).1

/-- The directories are in order. -/
theorem pairwise_heads (hrows : rows.Pairwise before) : (heads rows).Pairwise ahead := by
  induction rows with
  | nil => exact .nil
  | cons row rest ih =>
    obtain ⟨hrow, hrest⟩ := List.pairwise_cons.mp hrows
    rcases row with _ | ⟨name, _ | ⟨_, _⟩⟩
    · exact ih hrest
    · exact ih hrest
    · refine List.pairwise_cons.mpr ⟨fun other hother ↦ ?_, (ih hrest).filter _⟩
      obtain ⟨hmem, hne⟩ := List.mem_filter.mp hother
      obtain ⟨second, hsecond, hinside⟩ := mem_heads.mp hmem
      exact h.directories (isInside_iff.mpr ⟨_, List.cons_ne_nil _ _, rfl⟩) hinside
        (bne_iff_ne.mp hne).symm (hrow second hsecond)

/-- The files are in the order of their names. -/
theorem pairwise_filesAt (hrows : rows.Pairwise before) (front : List String) :
    (filesAt front rows).Pairwise fun a b ↦ a.name.toList < b.name.toList := by
  induction rows with
  | nil => exact .nil
  | cons row rest ih =>
    obtain ⟨hrow, hrest⟩ := List.pairwise_cons.mp hrows
    rcases row with _ | ⟨name, _ | ⟨_, _⟩⟩
    · exact ih hrest
    · refine List.pairwise_cons.mpr ⟨fun f hf ↦ ?_, ih hrest⟩
      obtain ⟨other, hother, rfl⟩ := mem_filesAt.mp hf
      exact h.files (hrow _ hother)
    · exact ih hrest

/-- The rows of the first directory come before all others. -/
theorem rows_eq (hrows : rows.Pairwise before) {row : List String} {rest : List (List String)}
    (heq : rows = row :: rest) {name : String} (hrow : isInside name row = true) :
    rows = (below name rows).map (name :: ·) ++ rows.filter (!isInside name ·) := by
  rw [map_below]
  subst heq
  obtain ⟨hfirst, hrest⟩ := List.pairwise_cons.mp hrows
  have hkeep : (row :: rest).Pairwise fun y z ↦ isInside name z = true → isInside name y = true :=
    List.pairwise_cons.mpr ⟨fun _ _ _ ↦ hrow,
      hrest.imp_of_mem fun hy _ hyz hz ↦ h.together hrow hz (hfirst _ hy) hyz⟩
  exact (filter_append_filter_not hkeep).symm

end RowOrder

/-! ## Walks of rows -/

theorem shared_append (front a b : List String) :
    shared (front ++ a) (front ++ b) = front.length + shared a b := by
  induction front with
  | nil => simp
  | cons name front ih => simp [shared, ih]; omega

/-- A walk goes on behind some rows from the directories of the last of them. -/
theorem walkFrom_append (opened : List String) (rows : List (List String)) (last : List String)
    (rest : List (List String)) :
    walkFrom opened (rows ++ [last] ++ rest) =
      walkFrom opened (rows ++ [last]) ++ walkFrom last.dropLast rest := by
  induction rows generalizing opened with
  | nil => simp [walkFrom]
  | cons row rows ih => simpa [walkFrom] using ih row.dropLast

/-- A file beside what is open is listed at once. -/
theorem walkFrom_file (front opened : List String) (name : String) (rest : List (List String)) :
    walkFrom (front ++ opened) ((front ++ [name]) :: rest) =
      Directory.fileEntry (fileAt front name) :: walkFrom front rest := by
  have hshared : shared (front ++ opened) front = front.length := by
    have hnil : shared opened [] = 0 := by cases opened <;> rfl
    simpa [hnil] using shared_append front opened []
  have hlevels : (List.range front.length).drop front.length = [] :=
    List.drop_eq_nil_of_le (by simp)
  simp [walkFrom, hshared, hlevels, entry, Directory.fileEntry, fileAt]

/-- A directory that is not open is listed right before its first row. -/
theorem walkFrom_directory (front opened : List String) {name : String} {row : List String}
    (hrow : row ≠ []) (hopened : opened.head? ≠ some name) (rest : List (List String)) :
    walkFrom (front ++ opened) ((front ++ name :: row) :: rest) =
      entry .directory (front ++ [name]) ::
        walkFrom (front ++ [name]) ((front ++ name :: row) :: rest) := by
  have hdrop : (front ++ name :: row).dropLast = front ++ name :: row.dropLast := by
    rw [List.dropLast_append_of_ne_nil (List.cons_ne_nil _ _), List.dropLast_cons_of_ne_nil hrow]
  have hclosed : shared (front ++ opened) (front ++ name :: row.dropLast) = front.length := by
    rw [shared_append]
    cases opened with
    | nil => rfl
    | cons other opened =>
      have hne : (other == name) = false := by simpa using hopened
      simp [shared, hne]
  have hopen : shared (front ++ [name]) (front ++ name :: row.dropLast) = front.length + 1 := by
    have hnil : shared [] row.dropLast = 0 := by rw [shared.eq_def]
    simpa [shared, hnil] using shared_append front [name] (name :: row.dropLast)
  have hlevels : (List.range (front ++ name :: row.dropLast).length).drop front.length =
      front.length :: (List.range (front ++ name :: row.dropLast).length).drop (front.length + 1) := by
    rw [List.drop_eq_getElem_cons (by simp)]
    simp
  have htake : (front ++ name :: row.dropLast).take (front.length + 1) = front ++ [name] := by
    rw [List.take_length_add_append]
    rfl
  rw [walkFrom, walkFrom]
  simp only [hdrop, hclosed, hopen, hlevels, List.map_cons, htake, List.cons_append]

/-- Behind the rows of a directory a walk goes on with the directory open. -/
theorem exists_walkFrom_append (front opened : List String) (name : String)
    {inner : List (List String)} (hne : inner ≠ []) (hnonempty : ∀ row ∈ inner, row ≠ [])
    (rest : List (List String)) :
    ∃ still, walkFrom (front ++ opened) ((inner.map (name :: ·) ++ rest).map (front ++ ·)) =
      walkFrom (front ++ opened) (inner.map (front ++ name :: ·)) ++
        walkFrom (front ++ name :: still) (rest.map (front ++ ·)) := by
  obtain ⟨others, last, rfl⟩ := (List.eq_nil_or_concat inner).resolve_left hne
  have hlast : last ≠ [] := hnonempty last (by simp)
  have hdrop : (front ++ name :: last).dropLast = front ++ name :: last.dropLast := by
    rw [List.dropLast_append_of_ne_nil (List.cons_ne_nil _ _), List.dropLast_cons_of_ne_nil hlast]
  refine ⟨last.dropLast, ?_⟩
  have happend := walkFrom_append (front ++ opened) (others.map (front ++ name :: ·))
    (front ++ name :: last) (rest.map (front ++ ·))
  rw [hdrop] at happend
  simpa [Function.comp_def] using happend

/-- More subdirectories and files are added in any order. -/
private theorem with_addFile (d : Directory) (f : File) (directories : List Directory)
    (files : List File) :
    ((d.addFile f).withDirectories directories).withFiles files =
      (d.withDirectories directories).withFiles (f :: files) := by
  cases d
  simp [Directory.addFile, Directory.withDirectories, Directory.withFiles]

/-- Rows up to a length that are in order are taken where a builder stands, unless what is open goes
on in them. The innermost directory gets what the rows hold. -/
private def TakesRows (before : List String → List String → Prop) (n : Nat) : Prop :=
  ∀ (opened : List String) {front : List String} {rows : List (List String)} {b : Builder}
    {top : Directory} {rest : List Directory}, rows.Pairwise before → (∀ row ∈ rows, row ≠ []) →
    (∀ row ∈ rows, row.length ≤ n) →
    (∀ name, opened.head? = some name → ∀ row ∈ rows, isInside name row = false) →
    b.Settles front.length (top :: rest) →
    ∃ after, b.extend (walkFrom (front ++ opened) (rows.map (front ++ ·))) = (after, none) ∧
      after.Settles front.length
        (((top.withDirectories (subtrees n front rows)).withFiles (filesAt front rows)) :: rest)

/-- The rows of a directory add it where a builder stands. -/
private theorem TakesRows.directory {n : Nat} (ih : TakesRows before n) {front opened : List String}
    {name : String} {inner : List (List String)} (hinner : inner.Pairwise before)
    (hne : inner ≠ []) (hnonempty : ∀ row ∈ inner, row ≠ []) (hlength : ∀ row ∈ inner, row.length ≤ n)
    (hopened : opened.head? ≠ some name) {b : Builder} {top : Directory} {rest : List Directory}
    (hb : b.Settles front.length (top :: rest)) :
    ∃ after, b.extend (walkFrom (front ++ opened) (inner.map (front ++ name :: ·))) =
        (after, none) ∧
      after.Settles front.length (top.addDirectory (.node name (front.length + 1)
        (subtrees n (front ++ [name]) inner) (filesAt (front ++ [name]) inner)) :: rest) := by
  have hlevel : ((front ++ [name]).length : Int) = front.length + 1 := by simp
  have hpush : b.push (entry .directory (front ++ [name])) =
      (⟨Directory.empty name (front.length + 1) :: top :: rest, front.length + 1⟩, none) := by
    simpa [entry] using hb.push_directory (Int.natCast_nonneg _) name
      (Text.joinStrings "/" (front ++ [name]))
  obtain ⟨after, hextend, hafter⟩ := ih [] hinner hnonempty hlength (by simp)
    (hlevel ▸ Builder.settles_self (Directory.empty name (front.length + 1) :: top :: rest)
      (front.length + 1))
  refine ⟨after, ?_, ?_⟩
  · obtain ⟨first, others, rfl⟩ := List.exists_cons_of_ne_nil hne
    rw [List.map_cons, walkFrom_directory front opened (hnonempty first List.mem_cons_self) hopened,
      Builder.extend, hpush]
    simpa using hextend
  · rw [hlevel] at hafter
    simpa [Directory.empty, Directory.withDirectories, Directory.withFiles] using hafter.up

private theorem isFile_or_isInside {row : List String} (h : row ≠ []) :
    (∃ name, row = [name]) ∨ ∃ name, isInside name row = true := by
  rcases row with _ | ⟨name, _ | ⟨next, rest⟩⟩
  · exact absurd rfl h
  · exact .inl ⟨name, rfl⟩
  · exact .inr ⟨name, beq_self_eq_true name⟩

private theorem RowOrder.takesRows (h : RowOrder before ahead) (n : Nat) : TakesRows before n := by
  -- over the length of rows, and for each length over the rows
  induction n with
  | zero =>
    intro opened front rows b top rest _ hnonempty hlength _ hb
    obtain rfl : rows = [] := List.eq_nil_iff_forall_not_mem.mpr fun row hrow ↦
      hnonempty row hrow (List.length_eq_zero_iff.mp (Nat.le_zero.mp (hlength row hrow)))
    exact ⟨b, rfl, by simpa [subtrees, filesAt] using hb⟩
  | succ n ihlength =>
    intro opened front rows b top rest hrows hnonempty hlength hopened hb
    induction hcount : rows.length using Nat.strongRecOn generalizing opened rows b top with
    | _ count ih =>
      subst hcount
      rcases rows with _ | ⟨row, others⟩
      · exact ⟨b, rfl, by simpa [filesAt] using hb⟩
      rcases isFile_or_isInside (hnonempty row List.mem_cons_self) with ⟨name, rfl⟩ | ⟨name, hrow⟩
      · have hfile := hb.push_file (Int.natCast_nonneg _) (fileAt front name) rfl
        obtain ⟨after, hextend, hafter⟩ := ih others.length (Nat.lt_succ_self _) []
          (List.pairwise_cons.mp hrows).2 (List.forall_mem_cons.mp hnonempty).2
          (List.forall_mem_cons.mp hlength).2 (by simp) (Builder.settles_self _ _) rfl
        refine ⟨after, ?_, ?_⟩
        · rw [List.map_cons, walkFrom_file, Builder.extend, hfile]
          simpa using hextend
        · rwa [with_addFile] at hafter
      · have hsplit := h.rows_eq hrows rfl hrow
        have htrees := subtrees_cons n front hrow others
        have hfewer : ((row :: others).filter (!isInside name ·)).length < (row :: others).length :=
          length_filter_not_lt hrow others
        have hmem : row ∈ row :: others := List.mem_cons_self
        generalize row :: others = rows at *
        obtain ⟨tail, htail, rfl⟩ := isInside_iff.mp hrow
        have hne : below name rows ≠ [] := List.ne_nil_of_mem (mem_below.mpr ⟨htail, hmem⟩)
        have hinner : ∀ row ∈ below name rows, row ≠ [] := fun row hrow ↦ (mem_below.mp hrow).1
        have helse : ∀ row ∈ rows.filter (!isInside name ·), row ∈ rows :=
          fun row hrow ↦ (List.mem_filter.mp hrow).1
        -- the rows of the directory, and then the rows elsewhere
        obtain ⟨middle, hinside, hmiddle⟩ := ihlength.directory (h.pairwise_below hrows name) hne
          hinner (length_below_le hlength) (fun hhead ↦ by simp [hopened name hhead _ hmem] at hrow) hb
        obtain ⟨still, hwalk⟩ := exists_walkFrom_append front opened name hne hinner
          (rows.filter (!isInside name ·))
        obtain ⟨after, helsewhere, hafter⟩ := ih _ hfewer (name :: still)
          (hrows.filter _) (fun row hrow ↦ hnonempty row (helse row hrow))
          (fun row hrow ↦ hlength row (helse row hrow))
          (fun other hother row hrow ↦ by
            obtain rfl := Option.some.inj hother
            simpa using (List.mem_filter.mp hrow).2) hmiddle rfl
        refine ⟨after, ?_, ?_⟩
        · rw [hsplit, hwalk, Builder.extend_append _ _ _ _ hinside, helsewhere]
        · rw [htrees]
          simpa [filesAt_filter_not] using hafter

/-- Rows in order are built to an outline of what they hold. -/
theorem RowOrder.build_walkFrom (h : RowOrder before ahead) (hrows : rows.Pairwise before)
    (hnonempty : ∀ row ∈ rows, row ≠ []) {n : Nat} (hlength : ∀ row ∈ rows, row.length ≤ n) :
    build (walkFrom [] rows) = .ok (.node "" 0 (subtrees n [] rows) (filesAt [] rows)) := by
  have hstart : Builder.start.Settles (([] : List String).length : Int) [Directory.empty "" 0] :=
    Builder.settles_self _ _
  obtain ⟨after, hextend, hafter⟩ := h.takesRows n [] hrows hnonempty hlength (by simp) hstart
  have hwalk : Builder.start.extend (walkFrom [] rows) = (after, none) := by simpa using hextend
  have hroot : after.Settles 0 [.node "" 0 (subtrees n [] rows) (filesAt [] rows)] := by
    simpa [Directory.empty, Directory.withDirectories, Directory.withFiles] using hafter
  rw [build, hwalk]
  exact hroot.finish_eq

end Guidebook.Outline
