import Mathlib.Data.List.Perm.Subperm
import Guidebook.Proofs.Outline.Placement
import Guidebook.Proofs.Outline.TreeOrder

/-!
# What a listing lists

A walk remembers no more than the directories of the last row. Where the rows of a directory stand
together this is enough, and no directory is opened twice. A listing of paths then has every path
and every directory above one, each of them once, and its outline holds the same.
-/

namespace Guidebook.Outline

open Git.WorkTree
open Git.Snapshot (walkFrom shared entry)

variable {before : List String → List String → Prop} {ahead : String → String → Prop}
  {opened parents front row : List String} {rows : List (List String)}

/-- The directories down to `parents` that are not open, outermost first. -/
def opening (opened parents : List String) : List (List String) :=
  ((List.range parents.length).drop (shared opened parents)).map fun level ↦
    parents.take (level + 1)

/-- What a walk of rows lists: directories and files, given by their components. -/
def listed (opened : List String) : List (List String) → List (EntryKind × List String)
  | [] => []
  | row :: rest => (opening opened row.dropLast).map (EntryKind.directory, ·) ++
      (.file, row) :: listed row.dropLast rest

theorem walkFrom_eq_listed (opened : List String) (rows : List (List String)) :
    walkFrom opened rows = (listed opened rows).map fun item ↦ entry item.1 item.2 := by
  induction rows generalizing opened with
  | nil => rfl
  | cons row rest ih =>
    rw [walkFrom, listed, opening, ih, List.map_append, List.map_map, List.map_map]
    rfl

/-! ## Which directories and files are listed -/

private theorem take_prefix_iff {n : Nat} (h : n ≤ parents.length) :
    parents.take n <+: opened ↔ n ≤ shared opened parents := by
  induction opened generalizing parents n with
  | nil => cases n <;> cases parents <;> simp_all [shared]
  | cons a opened ih =>
    cases parents with
    | nil => simp_all [shared]
    | cons b parents =>
      cases n with
      | zero => simp
      | succ n =>
        by_cases heq : a = b
        · simpa [shared, heq, List.cons_prefix_cons] using ih (Nat.le_of_succ_le_succ h)
        · simp [shared, heq, Ne.symm heq, List.cons_prefix_cons]

private theorem mem_drop_range {level n count : Nat} :
    level ∈ (List.range n).drop count ↔ count ≤ level ∧ level < n := by
  rw [List.range_eq_range', List.drop_range', List.mem_range'_1]
  omega

theorem mem_opening :
    front ∈ opening opened parents ↔ front ≠ [] ∧ front <+: parents ∧ ¬ front <+: opened := by
  simp only [opening, List.mem_map, mem_drop_range]
  constructor
  · rintro ⟨level, ⟨hshared, hlevel⟩, rfl⟩
    refine ⟨?_, List.take_prefix _ _, ?_⟩
    · rw [Ne, List.take_eq_nil_iff, not_or]
      exact ⟨Nat.succ_ne_zero _, List.ne_nil_of_length_pos (by omega)⟩
    · rw [take_prefix_iff (by omega)]
      omega
  · rintro ⟨hne, hparents, hopened⟩
    have hlength := hparents.length_le
    have hpos := List.length_pos_of_ne_nil hne
    obtain hfront : front = parents.take front.length := List.prefix_iff_eq_take.mp hparents
    rw [hfront, take_prefix_iff hlength] at hopened
    refine ⟨front.length - 1, ⟨by omega, by omega⟩, ?_⟩
    rw [Nat.sub_add_cancel hpos, ← hfront]

/-- The files that are listed are the rows, one by one. -/
theorem files_listed (opened : List String) (rows : List (List String)) :
    ((listed opened rows).filter (·.1 == .file)).map (·.2) = rows := by
  induction rows generalizing opened with
  | nil => rfl
  | cons row rest ih => simp [listed, ih]

theorem file_mem_listed : (EntryKind.file, row) ∈ listed opened rows ↔ row ∈ rows := by
  conv_rhs => rw [← files_listed opened rows]
  simp

theorem of_directory_mem_listed (h : (EntryKind.directory, front) ∈ listed opened rows) :
    front ≠ [] ∧ ∃ row ∈ rows, front <+: row.dropLast := by
  induction rows generalizing opened with
  | nil => cases h
  | cons row rest ih =>
    simp only [listed, List.mem_append, List.mem_map, List.mem_cons, Prod.mk.injEq, true_and,
      exists_eq_right, reduceCtorEq, false_and, false_or, mem_opening] at h
    rcases h with ⟨hne, hfront, -⟩ | h
    · exact ⟨hne, row, List.mem_cons_self, hfront⟩
    · obtain ⟨hne, other, hother, hfront⟩ := ih h
      exact ⟨hne, other, List.mem_cons_of_mem _ hother, hfront⟩

/-- A directory above a row is open or it is listed. -/
theorem directory_mem_listed (hne : front ≠ []) (hrow : row ∈ rows)
    (hfront : front <+: row.dropLast) :
    front <+: opened ∨ (EntryKind.directory, front) ∈ listed opened rows := by
  induction rows generalizing opened with
  | nil => cases hrow
  | cons head rest ih =>
    simp only [listed, List.mem_append, List.mem_map, List.mem_cons, Prod.mk.injEq, true_and,
      exists_eq_right, reduceCtorEq, false_and, false_or, mem_opening]
    have hhead : front <+: head.dropLast ∨
        (EntryKind.directory, front) ∈ listed head.dropLast rest := by
      rcases List.mem_cons.mp hrow with rfl | hrest
      · exact .inl hfront
      · exact ih hrest
    tauto

/-! ## Each directory once, and before what lies in it -/

private theorem prefix_dropLast_iff (hrow : row ≠ []) :
    front <+: row.dropLast ↔ ∃ inner, inner ≠ [] ∧ row = front ++ inner := by
  obtain ⟨above, last, rfl⟩ := (List.eq_nil_or_concat' row).resolve_left hrow
  rw [List.dropLast_concat]
  constructor
  · rintro ⟨rest, rfl⟩
    exact ⟨rest ++ [last], by simp, by simp⟩
  · rintro ⟨inner, hinner, heq⟩
    obtain ⟨others, name, rfl⟩ := (List.eq_nil_or_concat' inner).resolve_left hinner
    rw [← List.append_assoc] at heq
    exact ⟨others, (List.append_inj_left' heq rfl).symm⟩

namespace RowOrder

variable (h : RowOrder before ahead)

include h

/-- What stands between two rows of a directory lies in it, however deep it is. -/
theorem inside_of_between {x y z : List String} (hx : x ≠ []) (hy : y ≠ []) (hz : z ≠ [])
    (hxy : before (front ++ x) y) (hyz : before y (front ++ z)) :
    ∃ inner, inner ≠ [] ∧ y = front ++ inner := by
  induction front generalizing y with
  | nil => exact ⟨y, hy, rfl⟩
  | cons name front ih =>
    obtain ⟨tail, htail, rfl⟩ := isInside_iff.mp <| h.together
      (isInside_iff.mpr ⟨front ++ x, by simp [hx], rfl⟩)
      (isInside_iff.mpr ⟨front ++ z, by simp [hz], rfl⟩) hxy hyz
    obtain ⟨inner, hinner, rfl⟩ := ih htail
      (h.tail (by simp [hx]) htail hxy) (h.tail htail (by simp [hz]) hyz)
    exact ⟨inner, hinner, rfl⟩

/-- What is open behind a row is not opened again. -/
theorem not_reopened {last : List String} (hrows : (last :: rows).Pairwise before)
    (hnonempty : ∀ row ∈ last :: rows, row ≠ [])
    (hfront : (EntryKind.directory, front) ∈ listed last.dropLast rows) :
    ¬ front <+: last.dropLast := by
  induction rows generalizing last with
  | nil => cases hfront
  | cons row rest ih =>
    obtain ⟨hlast, hrest⟩ := List.pairwise_cons.mp hrows
    obtain ⟨hne, hnonempty⟩ := List.forall_mem_cons.mp hnonempty
    have hrow := hnonempty row List.mem_cons_self
    simp only [listed, List.mem_append, List.mem_map, List.mem_cons, Prod.mk.injEq, true_and,
      exists_eq_right, reduceCtorEq, false_and, false_or, mem_opening] at hfront
    rcases hfront with ⟨-, -, hclosed⟩ | hlater
    · exact hclosed
    · -- a later row of the directory would keep it open behind `row`
      intro hopen
      refine ih hrest hnonempty hlater ?_
      obtain ⟨-, other, hother, hbelow⟩ := of_directory_mem_listed hlater
      have hne' := hnonempty other (List.mem_cons_of_mem _ hother)
      obtain ⟨x, hx, rfl⟩ := (prefix_dropLast_iff hne).mp hopen
      obtain ⟨z, hz, rfl⟩ := (prefix_dropLast_iff hne').mp hbelow
      exact (prefix_dropLast_iff hrow).mpr <| h.inside_of_between hx hrow hz
        (hlast row List.mem_cons_self) ((List.pairwise_cons.mp hrest).1 _ hother)

end RowOrder

/-- What is listed second is no directory of what is listed first, and not the same directory. -/
def Ahead (a b : EntryKind × List String) : Prop :=
  b.1 = .directory → b.2 <+: a.2 → a.1 = .file ∧ a.2 = b.2

private theorem pairwise_opening (opened parents : List String) :
    (opening opened parents).Pairwise fun a b ↦ ¬ b <+: a := by
  rw [opening, List.pairwise_map]
  refine (List.pairwise_lt_range.drop).imp_of_mem fun {level deeper} _ hdeeper hlt hprefix ↦ ?_
  have hlength := hprefix.length_le
  have := (mem_drop_range.mp hdeeper).2
  rw [List.length_take, List.length_take] at hlength
  omega

/-- Directories come before what lies in them, each of them once. -/
theorem RowOrder.pairwise_listed (h : RowOrder before ahead) (hrows : rows.Pairwise before)
    (hnonempty : ∀ row ∈ rows, row ≠ []) (opened : List String) :
    (listed opened rows).Pairwise Ahead := by
  induction rows generalizing opened with
  | nil => exact .nil
  | cons row rest ih =>
    obtain ⟨hne, hrest⟩ := List.forall_mem_cons.mp hnonempty
    have hlater : ∀ other, (EntryKind.directory, other) ∈ listed row.dropLast rest →
        ¬ other <+: row.dropLast := fun other hother ↦ h.not_reopened hrows hnonempty hother
    rw [listed, List.pairwise_append, List.pairwise_map, List.pairwise_cons]
    refine ⟨(pairwise_opening opened row.dropLast).imp fun hnot _ hprefix ↦ absurd hprefix hnot,
      ⟨?_, ih (List.pairwise_cons.mp hrows).2 hrest _⟩, ?_⟩
    · rintro ⟨_, other⟩ hother rfl hstarts
      refine ⟨rfl, ?_⟩
      by_contra hproper
      obtain ⟨inner, rfl⟩ := hstarts
      refine hlater other hother ((prefix_dropLast_iff hne).mpr ⟨inner, ?_, rfl⟩)
      rintro rfl
      exact hproper (List.append_nil other)
    · rintro ⟨_, dir⟩ hdir ⟨_, other⟩ hother rfl hstarts
      obtain ⟨dir, hopening, heq⟩ := List.mem_map.mp hdir
      obtain ⟨rfl, rfl⟩ := Prod.mk.inj heq
      have hother := (List.mem_cons.mp hother).resolve_left (by simp)
      exact absurd (hstarts.trans (mem_opening.mp hopening).2.1) (hlater other hother)

/-! ## Entries by their components -/

/-- The components of the path of an entry. -/
def WalkEntry.parts (e : WalkEntry) : List String := (Path.ofString e.path).names

/-- What a walk of files, given by their components, has to list. -/
structure Lists (files : List (List String)) (walk : List WalkEntry) : Prop where
  /-- Entries are named by the last component, as deep as they have components. -/
  written : ∀ e ∈ walk, e.parts ≠ [] ∧ e.name = e.parts.getLastD "" ∧
    e.depth = e.parts.length ∧ e.path = Text.joinStrings "/" e.parts
  /-- The file entries are the files. -/
  mem_files : ∀ parts, (∃ e ∈ walk, e.kind = .file ∧ e.parts = parts) ↔ parts ∈ files
  /-- The directory entries are the directories above files. -/
  mem_directories : ∀ parts, (∃ e ∈ walk, e.kind = .directory ∧ e.parts = parts) ↔
    parts ≠ [] ∧ ∃ file ∈ files, parts <+: file ∧ parts ≠ file
  /-- Every file comes behind those before it in the order of components. -/
  sorted : ((walk.filter (·.kind == .file)).map WalkEntry.parts).Pairwise fun a b ↦
    a.map String.toList < b.map String.toList
  /-- No directory is listed twice. -/
  once : ((walk.filter (·.kind == .directory)).map WalkEntry.parts).Nodup
  /-- What comes before the entry of a directory does not lie in it. -/
  ahead : walk.Pairwise fun e f ↦ f.kind = .directory → f.parts <+: e.parts → f.parts = e.parts

private theorem parts_entry {names : List String} (h : Written names) (kind : EntryKind) :
    (entry kind names).parts = names := by
  have hpath : (entry kind names).path = gitPath names := rfl
  rw [WalkEntry.parts, hpath, h.ofString_gitPath]
  rfl

private theorem written_of_subset (hrow : Written row) (hne : front ≠ []) (hfront : front ⊆ row) :
    Written front :=
  ⟨hne, fun name hname ↦ hrow.2 name (hfront hname)⟩

section

variable (hwritten : ∀ row ∈ rows, Written row)

include hwritten

private theorem written_listed {item : EntryKind × List String} (hitem : item ∈ listed [] rows) :
    Written item.2 := by
  obtain ⟨_ | _, names⟩ := item
  · exact hwritten names (file_mem_listed.mp hitem)
  · obtain ⟨hne, row, hrow, hfront⟩ := of_directory_mem_listed hitem
    exact written_of_subset (hwritten row hrow) hne
      (hfront.trans (List.dropLast_prefix row)).subset

private theorem exists_entry_iff {kind : EntryKind} {parts : List String} :
    (∃ e ∈ walkFrom [] rows, e.kind = kind ∧ e.parts = parts) ↔ (kind, parts) ∈ listed [] rows := by
  simp only [walkFrom_eq_listed, List.mem_map]
  constructor
  · rintro ⟨_, ⟨item, hitem, rfl⟩, rfl, rfl⟩
    rw [parts_entry (written_listed hwritten hitem)]
    exact hitem
  · intro hitem
    exact ⟨_, ⟨_, hitem, rfl⟩, rfl, parts_entry (written_listed hwritten hitem) kind⟩

private theorem parts_filter (kind : EntryKind) :
    ((walkFrom [] rows).filter (·.kind == kind)).map WalkEntry.parts =
      ((listed [] rows).filter (·.1 == kind)).map (·.2) := by
  rw [walkFrom_eq_listed, List.filter_map, List.map_map]
  exact List.map_congr_left fun item hitem ↦
    parts_entry (written_listed hwritten (List.mem_filter.mp hitem).1) item.1

/-- A walk of rows in order lists them and the directories above them. -/
theorem lists_walkFrom (hrows : rows.Pairwise fun a b ↦ Path.partsBefore a b = true) :
    Lists rows (walkFrom [] rows) := by
  have hitems := rowOrder_names.pairwise_listed hrows (fun row hrow ↦ (hwritten row hrow).1) []
  constructor
  case written =>
    intro e he
    rw [walkFrom_eq_listed] at he
    obtain ⟨item, hitem, rfl⟩ := List.mem_map.mp he
    have hnames := written_listed hwritten hitem
    rw [parts_entry hnames]
    exact ⟨hnames.1, rfl, rfl, rfl⟩
  case mem_files => exact fun parts ↦ (exists_entry_iff hwritten).trans file_mem_listed
  case mem_directories =>
    intro parts
    rw [exists_entry_iff hwritten]
    constructor
    · intro hitem
      obtain ⟨hne, row, hrow, hfront⟩ := of_directory_mem_listed hitem
      obtain ⟨inner, hinner, rfl⟩ := (prefix_dropLast_iff (hwritten row hrow).1).mp hfront
      exact ⟨hne, _, hrow, List.prefix_append _ _, by simpa using hinner⟩
    · rintro ⟨hne, _, hrow, ⟨inner, rfl⟩, hproper⟩
      have hinner : inner ≠ [] := by simpa using hproper
      have hfront := (prefix_dropLast_iff (hwritten _ hrow).1).mpr ⟨inner, hinner, rfl⟩
      exact (directory_mem_listed hne hrow hfront).resolve_left
        fun hnil ↦ hne (List.prefix_nil.mp hnil)
  case sorted =>
    rw [parts_filter hwritten, files_listed]
    exact hrows.imp Path.partsBefore_iff.mp
  case once =>
    rw [parts_filter hwritten, List.Nodup, List.pairwise_map]
    refine (hitems.filter _).imp_of_mem fun {a b} ha hb hahead heq ↦ ?_
    have hfile := (hahead (eq_of_beq (List.mem_filter.mp hb).2) (heq ▸ List.prefix_rfl)).1
    simp [hfile] at ha
  case ahead =>
    rw [walkFrom_eq_listed, List.pairwise_map]
    refine hitems.imp_of_mem fun {a b} ha hb hahead hkind hprefix ↦ ?_
    rw [parts_entry (written_listed hwritten ha), parts_entry (written_listed hwritten hb)] at *
    exact (hahead hkind hprefix).2.symm

end

/-! ## The outline of a walk -/

/-- The written path of a directory, as paths of what lies in it start. -/
private def slashed (front : List String) : String :=
  if front.isEmpty then "" else gitPath front ++ "/"

private theorem slashed_append (front : List String) (name : String) :
    slashed front ++ name = gitPath (front ++ [name]) := by
  by_cases hfront : front = []
  · subst hfront
    simp [slashed, gitPath, Text.joinStrings, Text.joinWith]
  · rw [slashed, if_neg (by simpa using hfront), ← String.toList_inj,
      toList_gitPath_append hfront (List.cons_ne_nil _ _)]
    simp [gitPath, Text.joinStrings, Text.joinWith]

private theorem slashed_concat (front : List String) (name : String) :
    slashed front ++ name ++ "/" = slashed (front ++ [name]) := by
  rw [slashed_append]
  simp [slashed]

private theorem withoutSlashes_slashed (front : List String) {name : String}
    (hname : name = ".." ∨ Path.IsPart name) :
    Directory.withoutSlashes (slashed (front ++ [name])) = gitPath (front ++ [name]) := by
  obtain ⟨hne, hslash⟩ : name.toList ≠ [] ∧ '/' ∉ name.toList := by
    rcases hname with rfl | hpart
    · decide
    · exact ⟨fun hnil ↦ hpart.notEmpty (String.toList_eq_nil_iff.mp hnil), hpart.noSlash⟩
  obtain ⟨others, c, hlast⟩ := (List.eq_nil_or_concat' name.toList).resolve_left hne
  have hc : c ≠ '/' := by
    rintro rfl
    simp [hlast] at hslash
  rw [← slashed_concat, ← slashed_append, Directory.withoutSlashes, ← String.toList_inj]
  simp [hlast, hc]

private theorem mem_walkEach_heads {name : String} (hname : name ∈ heads rows)
    (hpart : name = ".." ∨ Path.IsPart name) {n : Nat} {e : WalkEntry}
    (he : e = entry .directory (front ++ [name]) ∨
      e ∈ (filesAt (front ++ [name]) (below name rows)).map Directory.fileEntry ++
        Directory.walkEach (slashed (front ++ [name]))
          (subtrees n (front ++ [name]) (below name rows))) :
    e ∈ Directory.walkEach (slashed front) (subtrees (n + 1) front rows) := by
  rw [Directory.walkEach_eq, subtrees, List.map_map, List.mem_flatMap]
  refine ⟨_, List.mem_map_of_mem hname, ?_⟩
  simp only [Function.comp_apply, Directory.name, slashed_concat, Directory.walkFrom_eq,
    withoutSlashes_slashed front hpart, Directory.depth, Directory.files, Directory.directories,
    List.cons_append, List.mem_cons]
  refine he.imp_left fun heq ↦ ?_
  rw [heq, entry]
  simp [gitPath]

private theorem mem_listed_cases (hnonempty : ∀ row ∈ rows, row ≠ []) {kind : EntryKind}
    {name : String} {inner : List String} (hitem : (kind, name :: inner) ∈ listed [] rows) :
    (kind = .file ∧ inner = [] ∧ [name] ∈ rows) ∨
      name ∈ heads rows ∧ (kind = .directory ∧ inner = [] ∨
        (kind, inner) ∈ listed [] (below name rows)) := by
  cases kind with
  | file =>
    have hrow := file_mem_listed.mp hitem
    by_cases hinner : inner = []
    · exact .inl ⟨rfl, hinner, hinner ▸ hrow⟩
    · exact .inr ⟨mem_heads.mpr ⟨_, hrow, isInside_iff.mpr ⟨inner, hinner, rfl⟩⟩,
        .inr (file_mem_listed.mpr (mem_below.mpr ⟨hinner, hrow⟩))⟩
  | directory =>
    obtain ⟨-, row, hrow, hfront⟩ := of_directory_mem_listed hitem
    obtain ⟨x, hx, rfl⟩ := (prefix_dropLast_iff (hnonempty row hrow)).mp hfront
    have hrest : inner ++ x ≠ [] := by simp [hx]
    refine .inr ⟨mem_heads.mpr ⟨_, hrow, isInside_iff.mpr ⟨inner ++ x, hrest, rfl⟩⟩, ?_⟩
    refine or_iff_not_imp_left.mpr fun hnot ↦ ?_
    have hinner : inner ≠ [] := fun hnil ↦ hnot ⟨rfl, hnil⟩
    have hbelow : inner ++ x ∈ below name rows := mem_below.mpr ⟨hrest, hrow⟩
    exact (directory_mem_listed hinner hbelow
      ((prefix_dropLast_iff hrest).mpr ⟨x, hx, rfl⟩)).resolve_left
        fun hnil ↦ hinner (List.prefix_nil.mp hnil)

/-- What rows list in a directory is in the walk of the directory. -/
private theorem mem_walkEach_subtrees (front : List String) {n : Nat}
    (hlength : ∀ row ∈ rows, row.length ≤ n) (hwritten : ∀ row ∈ rows, Written row)
    {item : EntryKind × List String} (hitem : item ∈ listed [] rows) :
    entry item.1 (front ++ item.2) ∈ (filesAt front rows).map Directory.fileEntry ++
      Directory.walkEach (slashed front) (subtrees n front rows) := by
  induction n generalizing front rows item with
  | zero =>
    obtain rfl : rows = [] := List.eq_nil_iff_forall_not_mem.mpr fun row hrow ↦
      (hwritten row hrow).1 (List.length_eq_zero_iff.mp (Nat.le_zero.mp (hlength row hrow)))
    cases hitem
  | succ n ih =>
    have hnames := written_listed hwritten hitem
    obtain ⟨kind, _ | ⟨name, inner⟩⟩ := item
    · exact absurd rfl hnames.1
    have hpart := hnames.2 name List.mem_cons_self
    rcases mem_listed_cases (fun row hrow ↦ (hwritten row hrow).1) hitem with
      ⟨rfl, rfl, hrow⟩ | ⟨hname, hinside⟩
    · have hfile : fileAt front name ∈ filesAt front rows := mem_filesAt.mpr ⟨name, hrow, rfl⟩
      refine List.mem_append_left _ (List.mem_map.mpr ⟨_, hfile, ?_⟩)
      simp [entry, Directory.fileEntry, fileAt]
    · refine List.mem_append_right _ (mem_walkEach_heads hname hpart ?_)
      rcases hinside with ⟨rfl, rfl⟩ | hinside
      · exact .inl rfl
      · have hbelow : ∀ row ∈ below name rows, Written row := fun row hrow ↦
          written_of_subset (hwritten _ (mem_below.mp hrow).2) (mem_below.mp hrow).1
            (List.subset_cons_self name row)
        refine .inr ?_
        simpa using ih (front ++ [name]) (length_below_le hlength) hbelow hinside

private theorem nodup_listed (hrows : rows.Pairwise fun a b ↦ Path.partsBefore a b = true)
    (hnonempty : ∀ row ∈ rows, row ≠ []) : (listed [] rows).Nodup := by
  have hnodup : rows.Nodup :=
    hrows.imp fun hlt heq ↦ (Path.partsBefore_iff.mp hlt).ne (congrArg _ heq)
  rw [← files_listed [] rows, List.Nodup, List.pairwise_map, List.pairwise_filter] at hnodup
  refine ((rowOrder_names.pairwise_listed hrows hnonempty []).and hnodup).imp ?_
  rintro ⟨_ | _, names⟩ _ ⟨hahead, hfiles⟩ rfl
  · exact hfiles rfl rfl rfl
  · cases (hahead rfl List.prefix_rfl).1

/-- The walk of the outline of rows is the walk of the rows in another order. -/
theorem walk_perm (hwritten : ∀ row ∈ rows, Written row)
    (hrows : rows.Pairwise fun a b ↦ Path.partsBefore a b = true) :
    ∃ d, build (walkFrom [] rows) = .ok d ∧ d.walk.Perm (walkFrom [] rows) ∧
      ∀ e ∈ d.all, (e.directories.map Directory.name).Nodup := by
  obtain ⟨n, hn⟩ : ∃ n, ∀ row ∈ rows, row.length ≤ n :=
    ⟨_, fun row hrow ↦ (List.sublist_flatten_of_mem hrow).length_le⟩
  have hnonempty : ∀ row ∈ rows, row ≠ [] := fun row hrow ↦ (hwritten row hrow).1
  have hbuild := rowOrder_names.build_walkFrom hrows hnonempty hn
  refine ⟨_, hbuild, ?_, ?_⟩
  · -- nothing is missing, and there are as many entries
    obtain ⟨-, -, hkept, -⟩ := arranged_of_build hbuild
    have hlength := hkept.length_eq
    rw [List.length_map, List.length_map] at hlength
    have hnodup : (walkFrom [] rows).Nodup := by
      rw [walkFrom_eq_listed]
      refine (nodup_listed hrows hnonempty).map_on fun a ha b hb heq ↦ ?_
      have hparts := congrArg WalkEntry.parts heq
      rw [parts_entry (written_listed hwritten ha), parts_entry (written_listed hwritten hb)]
        at hparts
      exact Prod.ext (congrArg WalkEntry.kind heq) hparts
    have hsub : walkFrom [] rows ⊆
        (Directory.node "" 0 (subtrees n [] rows) (filesAt [] rows)).walk := by
      intro e he
      rw [walkFrom_eq_listed] at he
      obtain ⟨item, hitem, rfl⟩ := List.mem_map.mp he
      rw [Directory.walk_eq]
      exact mem_walkEach_subtrees [] hn hwritten hitem
    exact ((List.subperm_of_subset hnodup hsub).perm_of_length_le hlength.le).symm
  · obtain ⟨hhere, hdeeper⟩ := pairwise_subtrees hrows n []
    have hdistinct : ∀ {ds : List Directory},
        (ds.Pairwise fun a b ↦ a.name.toList < b.name.toList) → (ds.map Directory.name).Nodup :=
      fun hds ↦ List.pairwise_map.mpr (hds.imp fun hlt heq ↦ hlt.ne (congrArg _ heq))
    rw [Directory.all]
    exact List.forall_mem_cons.mpr ⟨hdistinct hhere, fun e he ↦ hdistinct (hdeeper e he)⟩

/-! ## Listings of paths -/

/-- A relative path that names something. -/
structure IsListed (path : String) : Prop where
  relative : (Path.ofString path).anchor = ""
  named : (Path.ofString path).names ≠ []

instance (path : String) : Decidable (IsListed path) :=
  decidable_of_iff ((Path.ofString path).anchor = "" ∧ (Path.ofString path).names ≠ [])
    ⟨fun h ↦ ⟨h.1, h.2⟩, fun h ↦ ⟨h.1, h.2⟩⟩

namespace IsListed

variable {path : String} (h : IsListed path)

include h

theorem parts_eq : (Path.ofString path).parts = (Path.ofString path).names := by
  rw [Path.parts, if_pos (by rw [h.relative]; rfl)]

theorem written : Written (Path.ofString path).names := ⟨h.named, Path.plain_ofString path⟩

theorem ne_empty : path ≠ "" := by
  rintro rfl
  exact h.named (by decide)

end IsListed

theorem Lists.congr {files others : List (List String)} {walk : List WalkEntry}
    (h : Lists files walk) (hmem : ∀ parts, parts ∈ files ↔ parts ∈ others) : Lists others walk :=
  { h with
    mem_files := fun parts ↦ (h.mem_files parts).trans (hmem parts)
    mem_directories := fun parts ↦ by simp only [h.mem_directories, hmem] }

private theorem mem_orderedParts_iff {paths : List String} (h : ∀ path ∈ paths, IsListed path)
    (row : List String) :
    row ∈ orderedParts paths ↔ row ∈ paths.map fun path ↦ (Path.ofString path).names := by
  rw [mem_orderedParts, List.mem_map]
  refine exists_congr fun path ↦ and_congr_right fun hpath ↦ ?_
  rw [(h path hpath).parts_eq, and_iff_right (h path hpath).ne_empty]

/-- Lists of the same paths have the same components in order. -/
private theorem orderedParts_congr {paths others : List String}
    (h : ∀ path ∈ paths, IsListed path) (hothers : ∀ path ∈ others, IsListed path)
    (hmem : ∀ p, p ∈ others.map Path.ofString ↔ p ∈ paths.map Path.ofString) :
    orderedParts others = orderedParts paths := by
  have : Std.Irrefl fun a b : List String ↦ Path.partsBefore a b = true :=
    ⟨fun _ hlt ↦ lt_irrefl _ (Path.partsBefore_iff.mp hlt)⟩
  have : Std.Antisymm fun a b : List String ↦ Path.partsBefore a b = true :=
    ⟨fun _ _ hab hba ↦ absurd (Path.partsBefore_iff.mp hba) (Path.partsBefore_iff.mp hab).asymm⟩
  have hnames : ∀ files : List String, (files.map fun path ↦ (Path.ofString path).names) =
      (files.map Path.ofString).map Path.names := fun files ↦ by rw [List.map_map]; rfl
  refine (pairwise_orderedParts others).eq_of_mem_iff (pairwise_orderedParts paths) fun row ↦ ?_
  rw [mem_orderedParts_iff h, mem_orderedParts_iff hothers, hnames, hnames, List.mem_map,
    List.mem_map]
  simp only [hmem]

/-- A list of relative paths, however written and in whatever order, is walked file by file in the
order of components, with the directories above the files. The walk is taken to an outline that
holds the same, with siblings of different names; and it is the walk of any list of these paths. -/
theorem entriesOfPaths_lists {paths : List String} (h : ∀ path ∈ paths, IsListed path) :
    ∃ walk outline, entriesOfPaths paths = some walk ∧
      Lists (paths.map fun path ↦ (Path.ofString path).names) walk ∧
      build walk = .ok outline ∧ outline.walk.Perm walk ∧
      (∀ d ∈ outline.all, (d.directories.map Directory.name).Nodup) ∧
      ∀ others : List String,
        (∀ p, p ∈ others.map Path.ofString ↔ p ∈ paths.map Path.ofString) →
          entriesOfPaths others = some walk := by
  have hmem := mem_orderedParts_iff h
  have hwritten : ∀ row ∈ orderedParts paths, Written row := fun row hrow ↦ by
    obtain ⟨path, hpath, rfl⟩ := List.mem_map.mp ((hmem row).mp hrow)
    exact (h path hpath).written
  have hsorted := pairwise_orderedParts paths
  have hwalk : entriesOfPaths paths = some (walkFrom [] (orderedParts paths)) :=
    entriesFrom_eq fun row hrow ↦ (hwritten row hrow).1
  obtain ⟨outline, hbuild, hperm, hdistinct⟩ := walk_perm hwritten hsorted
  refine ⟨_, outline, hwalk, (lists_walkFrom hwritten hsorted).congr hmem, hbuild, hperm, hdistinct,
    fun others hothers ↦ ?_⟩
  have hlisted : ∀ path ∈ others, IsListed path := fun path hpath ↦ by
    obtain ⟨same, hsame, heq⟩ :=
      List.mem_map.mp ((hothers _).mp (List.mem_map_of_mem (f := Path.ofString) hpath))
    exact ⟨heq ▸ (h same hsame).relative, heq ▸ (h same hsame).named⟩
  rw [← hwalk, entriesOfPaths, entriesOfPaths, orderedParts_congr h hlisted hothers]

/-- A file with the name of a directory, a name that goes on where that of a directory ends, and a
path that is written twice. -/
theorem entriesOfPaths_lists_mixed :
    ∃ walk outline,
      entriesOfPaths ["b", "./a//x", "a", "a/x", "a.b/y", "a/../c"] = some walk ∧
      walk.map (fun e ↦ (e.kind, e.path)) = [(.file, "a"), (.directory, "a"),
        (.directory, "a/.."), (.file, "a/../c"), (.file, "a/x"), (.directory, "a.b"),
        (.file, "a.b/y"), (.file, "b")] ∧
      build walk = .ok outline ∧ outline.walk.Perm walk ∧
      entriesOfPaths ["a/../c", "a", "a.b//y", "a/x", "b"] = some walk := by
  obtain ⟨walk, outline, hwalk, -, hbuild, hperm, -, hothers⟩ :=
    entriesOfPaths_lists
      (by decide : ∀ path ∈ ["b", "./a//x", "a", "a/x", "a.b/y", "a/../c"], IsListed path)
  refine ⟨walk, outline, hwalk, ?_, hbuild, hperm, hothers _ fun p ↦ ⟨?_, ?_⟩⟩
  · rw [← Option.some_inj, ← Option.map_some, ← hwalk]
    decide
  · exact (by decide : ∀ p ∈ ["a/../c", "a", "a.b//y", "a/x", "b"].map Path.ofString,
      p ∈ ["b", "./a//x", "a", "a/x", "a.b/y", "a/../c"].map Path.ofString) p
  · exact (by decide : ∀ p ∈ ["b", "./a//x", "a", "a/x", "a.b/y", "a/../c"].map Path.ofString,
      p ∈ ["a/../c", "a", "a.b//y", "a/x", "b"].map Path.ofString) p

end Guidebook.Outline
