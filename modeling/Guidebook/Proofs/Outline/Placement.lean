import Mathlib.Data.List.Induction
import Guidebook.Proofs.Outline.Paths
import Guidebook.Proofs.Outline.Replay

/-!
# Where entries are placed

The place of an entry in an outline follows from the walk alone: the entry belongs into the
directory that the last directory entry one level further up has opened, or into the root. An
outline is arranged by a walk if each of its directories holds the entries that belong there in the
order of the walk.

A builder keeps to this by what it has open. The open directory of a level is the last one that was
read of this level; once it is closed, no entry that is still to come belongs into it.
-/

namespace Guidebook.Outline

open Directory

/-- Whether an entry opens a directory of a depth. -/
def WalkEntry.opens (e : WalkEntry) (depth : Int) : Bool :=
  e.kind == .directory && e.depth == depth

/-- The position of the last directory entry of a depth. -/
def lastDirectory (entries : List WalkEntry) (depth : Int) : Option Nat :=
  ((entries.zipIdx.filter (·.1.opens depth)).getLast?).map (·.2)

/-- The entries that belong into a directory, each with its position. The directory is given by the
position of its own entry, the root by `none`: no entry of depth 0 is accepted. -/
def children (entries : List WalkEntry) (place : Option Nat) : List (WalkEntry × Nat) :=
  entries.zipIdx.filter fun row ↦
    lastDirectory (entries.take row.2) (row.1.depth - 1) == place

/-- The files that belong into a directory. -/
def childFiles (entries : List WalkEntry) (place : Option Nat) : List File :=
  ((children entries place).filter (·.1.kind == .file)).map fun row ↦
    ⟨row.1.name, row.1.depth, row.1.path⟩

/-- The directory entries that belong into a directory, each with its position. -/
def childDirectories (entries : List WalkEntry) (place : Option Nat) : List (WalkEntry × Nat) :=
  (children entries place).filter (·.1.kind == .directory)

namespace Directory

mutual

/-- A directory holds the files and subdirectories that belong there, in the order of the walk. -/
def Arranged (entries : List WalkEntry) (place : Option Nat) : Directory → Prop
  | node _ _ directories files =>
    files = childFiles entries place ∧
      AreArranged entries (childDirectories entries place) directories

/-- The directories are those of the directory entries `rows`, one by one, and hold what belongs
into them. -/
def AreArranged (entries : List WalkEntry) : List (WalkEntry × Nat) → List Directory → Prop
  | [], [] => True
  | (e, place) :: rows, d :: ds =>
    d.name = e.name ∧ d.depth = e.depth ∧ Arranged entries (some place) d ∧
      AreArranged entries rows ds
  | _, _ => False

end

end Directory

/-- The depth of the innermost directory that is open behind some entries. -/
def cursorBehind (entries : List WalkEntry) : Int :=
  (entries.getLast?.map WalkEntry.cursor).getD 0

/-- Whether an entry may come behind some others: on the first level or deeper, and at most one
level below what is open. -/
def Accepted (front : List WalkEntry) (e : WalkEntry) : Prop :=
  1 ≤ e.depth ∧ e.depth ≤ cursorBehind front + 1

/-- Every entry may come behind those in front of it. -/
def AllAccepted (entries : List WalkEntry) : Prop :=
  ∀ front e rest, entries = front ++ e :: rest → Accepted front e

/-! ## Entries that are accepted -/

private theorem fits_append (cursor : Int) (front rest : List WalkEntry) :
    Fits cursor (front ++ rest) ↔
      Fits cursor front ∧ Fits ((front.getLast?.map WalkEntry.cursor).getD cursor) rest := by
  induction front generalizing cursor with
  | nil => exact (iff_of_eq (true_and _)).symm
  | cons e front ih =>
    have hcursor : (((e :: front).getLast?.map WalkEntry.cursor).getD cursor) =
        (front.getLast?.map WalkEntry.cursor).getD e.cursor := by
      rw [List.getLast?_cons]
      cases front.getLast? <;> rfl
    rw [hcursor, List.cons_append, Fits, Fits, ih]
    exact and_assoc.symm

/-- Entries fit behind the root exactly if each of them may come where it comes. -/
theorem fits_iff_allAccepted (entries : List WalkEntry) :
    Fits 0 entries ↔ AllAccepted entries := by
  constructor
  · rintro h front e rest rfl
    exact ((fits_append 0 front (e :: rest)).mp h).2.1
  · intro h
    induction entries using List.reverseRecOn with
    | nil => trivial
    | append_singleton front e ih =>
      refine (fits_append 0 front [e]).mpr ⟨ih ?_, h front e [] rfl, trivial⟩
      rintro before x behind rfl
      exact h before x (behind ++ [e]) (by simp)

/-- Some entry is the first that may not come where it comes, unless there is none. -/
private theorem exists_first_refused {entries : List WalkEntry} (h : ¬AllAccepted entries) :
    ∃ front e rest, entries = front ++ e :: rest ∧ AllAccepted front ∧ ¬Accepted front e := by
  induction entries using List.reverseRecOn with
  | nil =>
    refine absurd ?_ h
    intro front e rest heq
    simp at heq
  | append_singleton before last ih =>
    by_cases hbefore : AllAccepted before
    · refine ⟨before, last, [], rfl, hbefore, fun hlast ↦ h ?_⟩
      rw [← fits_iff_allAccepted] at hbefore ⊢
      exact (fits_append 0 before [last]).mpr ⟨hbefore, hlast, trivial⟩
    · obtain ⟨front, e, rest, rfl, hfront, he⟩ := ih hbefore
      exact ⟨front, e, rest ++ [last], by simp, hfront, he⟩

/-- Once a level is closed, it takes a directory of this level before anything below it can come. -/
private theorem depth_le_of_fits {cursor depth : Int} {front : List WalkEntry} {x : WalkEntry}
    (hfits : Fits cursor (front ++ [x])) (hcursor : cursor < depth)
    (hopens : ∀ y ∈ front, y.opens depth = false) : x.depth ≤ depth := by
  induction front generalizing cursor with
  | nil =>
    have := hfits.1.2
    omega
  | cons y front ih =>
    have hy := hopens y List.mem_cons_self
    have hdepth := hfits.1.2
    refine ih hfits.2 ?_ fun z hz ↦ hopens z (List.mem_cons_of_mem _ hz)
    cases hkind : y.kind with
    | directory =>
      simp [WalkEntry.opens, hkind] at hy
      simp only [WalkEntry.cursor, hkind]
      omega
    | file =>
      simp only [WalkEntry.cursor, hkind]
      omega

/-! ## Positions of directory entries -/

theorem lastDirectory_snoc (front : List WalkEntry) (e : WalkEntry) (depth : Int) :
    lastDirectory (front ++ [e]) depth =
      if e.opens depth then some front.length else lastDirectory front depth := by
  rw [lastDirectory, List.zipIdx_append, List.filter_append]
  cases hopens : e.opens depth <;> simp [lastDirectory, hopens]

/-- The last directory entry of a depth is a directory entry of this depth. -/
theorem opens_lastDirectory {front : List WalkEntry} {depth : Int} {i : Nat}
    (h : lastDirectory front depth = some i) : ∃ e, front[i]? = some e ∧ e.opens depth = true := by
  induction front using List.reverseRecOn with
  | nil => cases h
  | append_singleton front x ih =>
    rw [lastDirectory_snoc] at h
    split at h
    · next hx =>
      obtain rfl := Option.some.inj h
      exact ⟨x, by simp, hx⟩
    · obtain ⟨e, he, hopens⟩ := ih h
      have hlt := (List.getElem?_eq_some_iff.mp he).1
      exact ⟨e, by rw [List.getElem?_append_left hlt, he], hopens⟩

theorem lastDirectory_lt {front : List WalkEntry} {depth : Int} {i : Nat}
    (h : lastDirectory front depth = some i) : i < front.length := by
  obtain ⟨e, he, -⟩ := opens_lastDirectory h
  exact (List.getElem?_eq_some_iff.mp he).1

/-- An entry opens directories of one depth only. -/
theorem lastDirectory_inj {front : List WalkEntry} {depth other : Int} {i : Nat}
    (h : lastDirectory front depth = some i) (hother : lastDirectory front other = some i) :
    depth = other := by
  obtain ⟨e, he, hopens⟩ := opens_lastDirectory h
  obtain ⟨e', he', hopens'⟩ := opens_lastDirectory hother
  obtain rfl := Option.some.inj (he.symm.trans he')
  simp only [WalkEntry.opens, Bool.and_eq_true, beq_iff_eq] at hopens hopens'
  exact hopens.2.symm.trans hopens'.2

/-- If the last directory entry of a depth lies in the front, it is the last there, and none comes
behind. -/
theorem lastDirectory_append {front back : List WalkEntry} {depth : Int} {i : Nat}
    (h : lastDirectory (front ++ back) depth = some i) (hi : i < front.length) :
    lastDirectory front depth = some i ∧ ∀ x ∈ back, x.opens depth = false := by
  induction back using List.reverseRecOn with
  | nil => exact ⟨by simpa using h, by simp⟩
  | append_singleton back x ih =>
    rw [← List.append_assoc, lastDirectory_snoc] at h
    split at h
    · have := Option.some.inj h
      rw [List.length_append] at this
      omega
    · next hx =>
      obtain ⟨hfront, hback⟩ := ih h
      refine ⟨hfront, fun y hy ↦ ?_⟩
      rcases List.mem_append.mp hy with hy | hy
      · exact hback y hy
      · obtain rfl := List.mem_singleton.mp hy
        simpa using hx

/-- Entries that fit open no directory on the level of the root. -/
theorem lastDirectory_zero {front : List WalkEntry} (h : AllAccepted front) :
    lastDirectory front 0 = none := by
  by_contra hne
  obtain ⟨i, hi⟩ := Option.ne_none_iff_exists'.mp hne
  obtain ⟨e, he, hopens⟩ := opens_lastDirectory hi
  obtain ⟨hlt, rfl⟩ := List.getElem?_eq_some_iff.mp he
  have haccepted := h (front.take i) front[i] (front.drop (i + 1)) (by simp)
  simp only [WalkEntry.opens, Bool.and_eq_true, beq_iff_eq] at hopens
  have := haccepted.1
  omega

/-! ## Members of a directory -/

theorem children_snoc (front : List WalkEntry) (e : WalkEntry) (place : Option Nat) :
    children (front ++ [e]) place = children front place ++
      if lastDirectory front (e.depth - 1) = place then [(e, front.length)] else [] := by
  have hfront : (front.zipIdx.filter fun row ↦
      lastDirectory ((front ++ [e]).take row.2) (row.1.depth - 1) == place) =
        children front place := by
    refine List.filter_congr fun row hrow ↦ ?_
    have hlt := List.snd_lt_of_mem_zipIdx hrow
    rw [List.take_append_of_le_length (by omega)]
  rw [children, List.zipIdx_append, List.filter_append, hfront]
  by_cases hplace : lastDirectory front (e.depth - 1) = place <;> simp [hplace]

/-- What belongs into a directory lies behind its entry. -/
theorem children_of_length_le {front : List WalkEntry} {i : Nat} (h : front.length ≤ i + 1) :
    children front (some i) = [] := by
  induction front using List.reverseRecOn with
  | nil => rfl
  | append_singleton front e ih =>
    rw [List.length_append, List.length_singleton] at h
    rw [children_snoc, ih (by omega), if_neg, List.nil_append]
    intro hlast
    have := lastDirectory_lt hlast
    omega

/-- Once the directory of a level is closed, nothing that is still to come belongs into it. -/
theorem children_closed {front rest : List WalkEntry} (hfits : Fits 0 (front ++ rest)) {depth : Int}
    {i : Nat} (hlast : lastDirectory front depth = some i)
    (hclosed : ∀ e ∈ rest.head?, e.depth ≤ depth) :
    children (front ++ rest) (some i) = children front (some i) := by
  induction rest using List.reverseRecOn with
  | nil => rw [List.append_nil]
  | append_singleton mid x ih =>
    rw [← List.append_assoc] at hfits ⊢
    have hmid := (fits_append 0 (front ++ mid) [x]).mp hfits
    rw [children_snoc, ih hmid.1 fun e he ↦ hclosed e (by rw [List.head?_append, he]; rfl), if_neg,
      List.append_nil]
    intro hplace
    -- the entry would lie one level below the closed directory
    obtain ⟨hfront, hopens⟩ := lastDirectory_append hplace (lastDirectory_lt hlast)
    obtain rfl := lastDirectory_inj hlast hfront
    rw [List.append_assoc] at hfits
    have hrest := ((fits_append 0 front (mid ++ [x])).mp hfits).2
    cases mid with
    | nil =>
      have := hclosed x rfl
      omega
    | cons y mid =>
      have hy := hclosed y rfl
      have hnot := hopens y List.mem_cons_self
      have hcursor : y.cursor < x.depth - 1 := by
        cases hkind : y.kind with
        | directory =>
          simp [WalkEntry.opens, hkind] at hnot
          simp only [WalkEntry.cursor, hkind]
          omega
        | file =>
          simp only [WalkEntry.cursor, hkind]
          omega
      have := depth_le_of_fits hrest.2 hcursor fun z hz ↦ hopens z (List.mem_cons_of_mem _ hz)
      omega

/-! ## What the builder has open -/

namespace Directory

theorem areArranged_snoc {entries : List WalkEntry} {rows : List (WalkEntry × Nat)}
    {ds : List Directory} (h : AreArranged entries rows ds) {e : WalkEntry} {place : Nat}
    {d : Directory} (hname : d.name = e.name) (hdepth : d.depth = e.depth)
    (hd : d.Arranged entries (some place)) :
    AreArranged entries (rows ++ [(e, place)]) (ds ++ [d]) := by
  induction rows generalizing ds with
  | nil =>
    cases ds with
    | nil => exact ⟨hname, hdepth, hd, trivial⟩
    | cons _ _ => exact h.elim
  | cons row rows ih =>
    cases ds with
    | nil => exact h.elim
    | cons first ds => exact ⟨h.1, h.2.1, h.2.2.1, ih h.2.2.2⟩

end Directory

/-- What an open directory holds behind some front of all entries: the files and subdirectories
that belong there so far, save for a subdirectory that is itself still open. -/
structure Holding (all front : List WalkEntry) (place : Option Nat)
    (opened : List (WalkEntry × Nat)) (d : Directory) : Prop where
  files : d.files = childFiles front place
  directories : ∃ shut, childDirectories front place = shut ++ opened ∧
    AreArranged all shut d.directories

/-- The open directories behind some front of all entries, innermost first. Each is the last that
was read of its level and waits for the one inside. -/
inductive Spine (all front : List WalkEntry) : List (WalkEntry × Nat) → List Directory → Prop
  | root {opened : List (WalkEntry × Nat)} {d : Directory} (unnamed : d.name = "")
      (atTop : d.depth = 0) (holding : Holding all front none opened d) : Spine all front opened [d]
  | inside {opened : List (WalkEntry × Nat)} {d : Directory} {outer : List Directory}
      {e : WalkEntry} {place : Nat} (name : d.name = e.name) (depth : d.depth = e.depth)
      (level : d.depth = outer.length) (last : lastDirectory front d.depth = some place)
      (holding : Holding all front (some place) opened d)
      (spine : Spine all front [(e, place)] outer) : Spine all front opened (d :: outer)

section

variable {all front : List WalkEntry}

/-- A directory that nothing more belongs into is arranged. -/
theorem Holding.arranged {place : Option Nat} {d : Directory} (h : Holding all front place [] d)
    (hclosed : children all place = children front place) : d.Arranged all place := by
  obtain ⟨hfiles, shut, hshut, hd⟩ := h
  cases d with
  | node name depth directories files =>
    refine ⟨?_, ?_⟩
    · rw [childFiles, hclosed]
      exact hfiles
    · rw [childDirectories, hclosed]
      rw [childDirectories, List.append_nil] at hshut
      exact hshut ▸ hd

/-- The subdirectory that was still open is closed. -/
theorem Holding.close {place : Option Nat} {e : WalkEntry} {at_ : Nat} {outer inner : Directory}
    (h : Holding all front place [(e, at_)] outer) (hname : inner.name = e.name)
    (hdepth : inner.depth = e.depth) (hinner : inner.Arranged all (some at_)) :
    Holding all front place [] (outer.addDirectory inner) := by
  obtain ⟨hfiles, shut, hshut, hd⟩ := h
  cases outer with
  | node name depth directories files =>
    exact ⟨hfiles, shut ++ [(e, at_)], by rw [hshut, List.append_nil],
      areArranged_snoc hd hname hdepth hinner⟩

/-- The innermost directory is closed, once nothing more belongs into it. -/
theorem Spine.close {inner outer : Directory} {rest : List Directory}
    (h : Spine all front [] (inner :: outer :: rest))
    (hclosed : ∀ place, lastDirectory front inner.depth = some place →
      children all (some place) = children front (some place)) :
    Spine all front [] (outer.addDirectory inner :: rest) := by
  have hname : (outer.addDirectory inner).name = outer.name := by cases outer; rfl
  have hdepth : (outer.addDirectory inner).depth = outer.depth := by cases outer; rfl
  cases h with
  | inside name depth level last holding spine =>
    have hinner := holding.arranged (hclosed _ last)
    cases spine with
    | root unnamed atTop waiting =>
      exact .root (hname.trans unnamed) (hdepth.trans atTop) (waiting.close name depth hinner)
    | inside name' depth' level' last' waiting spine' =>
      exact .inside (hname.trans name') (hdepth.trans depth') (hdepth.trans level')
        (by rw [hdepth]; exact last') (waiting.close name depth hinner) spine'

/-- An entry that belongs elsewhere changes nothing. -/
theorem Holding.elsewhere {place : Option Nat} {opened : List (WalkEntry × Nat)} {d : Directory}
    (h : Holding all front place opened d) {e : WalkEntry}
    (hplace : lastDirectory front (e.depth - 1) ≠ place) :
    Holding all (front ++ [e]) place opened d := by
  have hsame : children (front ++ [e]) place = children front place := by
    rw [children_snoc, if_neg hplace, List.append_nil]
  obtain ⟨hfiles, hdirectories⟩ := h
  refine ⟨?_, ?_⟩
  · rw [childFiles, hsame]
    exact hfiles
  · rw [childDirectories, hsame]
    exact hdirectories

/-- An entry deeper than all that is open, and one level more, leaves these directories alone. -/
theorem Spine.deeper {opened : List (WalkEntry × Nat)} {stack : List Directory}
    (h : Spine all front opened stack) {e : WalkEntry} (hdeep : (stack.length : Int) < e.depth)
    {place : Nat} (hplace : lastDirectory front (e.depth - 1) = some place) :
    Spine all (front ++ [e]) opened stack := by
  induction h with
  | root unnamed atTop holding =>
    exact .root unnamed atTop (holding.elsewhere (by simp [hplace]))
  | inside name depth level last holding spine ih =>
    simp only [List.length_cons] at hdeep
    refine .inside name depth level ?_ (holding.elsewhere ?_) (ih (by omega))
    · rw [lastDirectory_snoc, if_neg, last]
      simp only [WalkEntry.opens, Bool.and_eq_true, beq_iff_eq]
      omega
    · intro heq
      have := lastDirectory_inj heq last
      omega

/-- A file is put into the directory that it belongs into. -/
theorem Holding.addFile {place : Option Nat} {d : Directory} (h : Holding all front place [] d)
    {e : WalkEntry} (hkind : e.kind = .file) (hplace : lastDirectory front (e.depth - 1) = place) :
    Holding all (front ++ [e]) place [] (d.addFile ⟨e.name, e.depth, e.path⟩) := by
  obtain ⟨hfiles, shut, hshut, hd⟩ := h
  cases d with
  | node name depth directories files =>
    refine ⟨?_, shut, ?_, hd⟩
    · rw [childFiles, children_snoc, if_pos hplace, List.filter_append, List.map_append,
        ← childFiles, ← hfiles]
      simp [hkind, Directory.addFile, Directory.files]
    · rw [childDirectories, children_snoc, if_pos hplace, List.filter_append, ← childDirectories,
        hshut]
      simp [hkind]

/-- A directory waits for the subdirectory that is opened in it. -/
theorem Holding.opening {place : Option Nat} {d : Directory} (h : Holding all front place [] d)
    {e : WalkEntry} (hkind : e.kind = .directory)
    (hplace : lastDirectory front (e.depth - 1) = place) :
    Holding all (front ++ [e]) place [(e, front.length)] d := by
  obtain ⟨hfiles, shut, hshut, hd⟩ := h
  refine ⟨?_, shut, ?_, hd⟩
  · rw [hfiles, childFiles, childFiles, children_snoc, if_pos hplace, List.filter_append]
    simp [hkind]
  · rw [childDirectories, children_snoc, if_pos hplace, List.filter_append, ← childDirectories,
      hshut]
    simp [hkind]

theorem holding_empty (e : WalkEntry) :
    Holding all (front ++ [e]) (some front.length) [] (empty e.name e.depth) := by
  have hnone : children (front ++ [e]) (some front.length) = [] :=
    children_of_length_le (by simp)
  refine ⟨?_, [], ?_, trivial⟩
  · rw [childFiles, hnone]
    rfl
  · rw [childDirectories, hnone]
    rfl

/-- An entry is put into the innermost directory, if this is one level further up. -/
theorem Spine.enter (hfront : AllAccepted front) {stack : List Directory}
    (h : Spine all front [] stack) {e : WalkEntry} (hdepth : (stack.length : Int) = e.depth) :
    Spine all (front ++ [e]) [] (Builder.entered e stack) := by
  cases h with
  | @root _ d unnamed atTop holding =>
    have hone : e.depth = 1 := by simpa using hdepth.symm
    have hplace : lastDirectory front (e.depth - 1) = none := by
      rw [hone]
      exact lastDirectory_zero hfront
    cases hkind : e.kind with
    | file =>
      have hname : (d.addFile ⟨e.name, e.depth, e.path⟩).name = d.name := by cases d; rfl
      have hdepth' : (d.addFile ⟨e.name, e.depth, e.path⟩).depth = d.depth := by cases d; rfl
      simp only [Builder.entered, hkind]
      exact .root (hname.trans unnamed) (hdepth'.trans atTop) (holding.addFile hkind hplace)
    | directory =>
      simp only [Builder.entered, hkind]
      refine .inside rfl rfl hdepth.symm ?_ (holding_empty e)
        (.root unnamed atTop (holding.opening hkind hplace))
      rw [lastDirectory_snoc, if_pos]
      simp [WalkEntry.opens, hkind, empty, depth]
  | @inside _ d outer e' place name depth level last holding spine =>
    simp only [List.length_cons] at hdepth
    have hplace : lastDirectory front (e.depth - 1) = some place := by
      rw [← last]
      congr 1
      omega
    have hopens : e.opens d.depth = false := by
      simp only [WalkEntry.opens, Bool.and_eq_false_iff, beq_eq_false_iff_ne]
      omega
    have hlast : lastDirectory (front ++ [e]) d.depth = some place := by
      rw [lastDirectory_snoc, hopens, if_neg Bool.false_ne_true, last]
    have houter := spine.deeper (e := e) (by omega) hplace
    cases hkind : e.kind with
    | file =>
      have hname : (d.addFile ⟨e.name, e.depth, e.path⟩).name = d.name := by cases d; rfl
      have hdepth' : (d.addFile ⟨e.name, e.depth, e.path⟩).depth = d.depth := by cases d; rfl
      simp only [Builder.entered, hkind]
      exact .inside (hname.trans name) (hdepth'.trans depth) (hdepth'.trans level)
        (by rw [hdepth']; exact hlast) (holding.addFile hkind hplace) houter
    | directory =>
      simp only [Builder.entered, hkind]
      refine .inside rfl rfl hdepth.symm ?_ (holding_empty e)
        (.inside name depth level hlast (holding.opening hkind hplace) houter)
      rw [lastDirectory_snoc, if_pos]
      simp [WalkEntry.opens, hkind, empty, Directory.depth]

end

/-! ## What is built -/

namespace Builder

/-- A builder that has taken the entries of a front of all entries. -/
structure Reads (all front : List WalkEntry) (b : Builder) : Prop where
  level : b.Level
  cursor : b.cursor = cursorBehind front
  spine : Spine all front [] b.stack

variable {all front rest : List WalkEntry} {e : WalkEntry} {b : Builder}

/-- Directories are closed once nothing more belongs into them. -/
theorem Reads.close (h : b.Reads all front) (hfits : AllAccepted all) (hall : all = front ++ rest)
    {n : Nat} {opened : List Directory} (hclose : Builder.close n b.stack = (opened, none))
    (hhead : ∀ e ∈ rest.head?, e.depth ≤ opened.length) : Spine all front [] opened := by
  refine close_induction (P := Spine all front []) hclose h.spine
    fun inner outer outermost hlt hspine ↦ hspine.close fun place hplace ↦ ?_
  have hlevel : inner.depth = (outer :: outermost : List Directory).length := by
    cases hspine with
    | inside _ _ level _ _ _ => exact level
  simp only [List.length_cons] at hlt hlevel
  subst hall
  refine children_closed ((fits_iff_allAccepted _).mpr hfits) hplace fun e he ↦ ?_
  have := hhead e he
  omega

/-- An accepted entry is taken. -/
theorem Reads.push (h : b.Reads all front) (hfits : AllAccepted all)
    (hall : all = front ++ e :: rest) :
    ∃ next, b.push e = (next, none) ∧ next.Reads all (front ++ [e]) := by
  have haccepted := hfits front e rest hall
  obtain ⟨opened, hclose, hopened, hpush⟩ :=
    push_eq h.level haccepted.1 (h.cursor.symm ▸ haccepted.2)
  refine ⟨_, hpush, level_entered haccepted.1 hopened, ?_, ?_⟩
  · simp [cursorBehind]
  · have hfront : AllAccepted front := by
      rintro before x behind rfl
      exact hfits before x (behind ++ e :: rest) (by simp [hall])
    exact (h.close hfits hall hclose (by simp [hopened])).enter hfront hopened

/-- Entries that are all accepted are all taken. -/
theorem Reads.extend (h : b.Reads all front) (hfits : AllAccepted all)
    (hall : all = front ++ rest) :
    ∃ next, b.extend rest = (next, none) ∧ next.Reads all all := by
  induction rest generalizing b front with
  | nil =>
    obtain rfl : all = front := by simpa using hall
    exact ⟨b, rfl, h⟩
  | cons e rest ih =>
    obtain ⟨middle, hpush, hmiddle⟩ := h.push hfits hall
    obtain ⟨next, hextend, hnext⟩ := ih hmiddle (by simp [hall])
    refine ⟨next, ?_, hnext⟩
    rw [Builder.extend, hpush]
    exact hextend

theorem reads_start (all : List WalkEntry) : start.Reads all [] :=
  ⟨level_start, rfl, .root rfl rfl ⟨rfl, [], rfl, trivial⟩⟩

/-- The root that is given away is arranged by all entries. -/
theorem Reads.finish (h : b.Reads all all) (hfits : AllAccepted all) :
    ∃ root, Builder.close b.cursor.toNat b.stack = ([root], none) ∧ b.finish.2 = .ok root ∧
      root.name = "" ∧ root.depth = 0 ∧ root.Arranged all none := by
  obtain ⟨root, hclose, hfinish⟩ := finish_eq h.level
  refine ⟨root, hclose, congrArg Prod.snd hfinish, ?_⟩
  cases h.close hfits (List.append_nil all).symm hclose (by simp) with
  | root unnamed atTop holding => exact ⟨unnamed, atTop, holding.arranged rfl⟩
  | inside _ _ _ _ _ spine => cases spine

end Builder

section

variable {entries : List WalkEntry}

/-- A directory is open on every level down to the cursor. -/
private theorem lastDirectory_ne_none (h : AllAccepted entries) {depth : Int} (hlow : 1 ≤ depth)
    (hhigh : depth ≤ cursorBehind entries) : lastDirectory entries depth ≠ none := by
  induction entries using List.reverseRecOn with
  | nil =>
    change depth ≤ 0 at hhigh
    omega
  | append_singleton front e ih =>
    have hcursor : cursorBehind (front ++ [e]) = e.cursor := by simp [cursorBehind]
    have he := (h front e [] rfl).2
    have hfront : AllAccepted front := by
      rintro before x behind rfl
      exact h before x (behind ++ [e]) (by simp)
    rw [hcursor] at hhigh
    rw [lastDirectory_snoc]
    split
    · exact Option.some_ne_none _
    · next hopens =>
      refine ih hfront ?_
      cases hkind : e.kind with
      | directory =>
        simp only [WalkEntry.cursor, hkind] at hhigh
        simp only [WalkEntry.opens, hkind, beq_self_eq_true, Bool.true_and, beq_iff_eq] at hopens
        omega
      | file =>
        simp only [WalkEntry.cursor, hkind] at hhigh
        omega

/-- What belongs into the root lies on the first level. -/
private theorem depth_of_mem_root (h : AllAccepted entries) {row : WalkEntry × Nat}
    (hrow : row ∈ children entries none) : row.1.depth = 1 := by
  obtain ⟨hmem, hplace⟩ := List.mem_filter.mp hrow
  obtain ⟨hlt, he⟩ := List.getElem?_eq_some_iff.mp (List.mem_zipIdx_iff_getElem?.mp hmem)
  have hsplit : entries = entries.take row.2 ++ row.1 :: entries.drop (row.2 + 1) := by
    rw [← he]
    simp
  obtain ⟨hlow, hhigh⟩ := h _ _ _ hsplit
  have hfront : AllAccepted (entries.take row.2) := by
    intro before x behind heq
    exact h before x (behind ++ row.1 :: entries.drop (row.2 + 1)) (by
      rw [← List.cons_append, ← List.append_assoc, ← heq]
      exact hsplit)
  by_contra hne
  have habove : 1 ≤ row.1.depth - 1 := by omega
  exact lastDirectory_ne_none hfront habove (by omega) (beq_iff_eq.mp hplace)

/-- What belongs into a directory lies one level below its entry. -/
private theorem depth_of_mem_children {row : WalkEntry × Nat} {place : Nat} {e : WalkEntry}
    (hrow : row ∈ children entries (some place)) (he : entries[place]? = some e) :
    row.1.depth = e.depth + 1 := by
  obtain ⟨-, hplace⟩ := List.mem_filter.mp hrow
  have hlast := beq_iff_eq.mp hplace
  obtain ⟨found, hfound, hopens⟩ := opens_lastDirectory hlast
  have hlt := lastDirectory_lt hlast
  rw [List.getElem?_take_of_lt (by rw [List.length_take] at hlt; omega), he] at hfound
  obtain rfl := Option.some.inj hfound
  simp only [WalkEntry.opens, Bool.and_eq_true, beq_iff_eq] at hopens
  omega

mutual

private theorem isLevelled_of_arranged {place : Option Nat} :
    ∀ d : Directory, d.Arranged entries place →
      (∀ row ∈ children entries place, row.1.depth = d.depth + 1) → d.IsLevelled
  | node name depth directories files, ⟨hfiles, hdirectories⟩, hchildren => by
    refine ⟨fun f hf ↦ ?_, areLevelled_of_arranged directories hdirectories fun row hrow ↦ ?_⟩
    · rw [hfiles] at hf
      obtain ⟨row, hrow, rfl⟩ := List.mem_map.mp hf
      exact hchildren row (List.mem_filter.mp hrow).1
    · obtain ⟨hmem, -⟩ := List.mem_filter.mp hrow
      exact ⟨hchildren row hmem, List.mem_zipIdx_iff_getElem?.mp (List.mem_filter.mp hmem).1⟩

private theorem areLevelled_of_arranged {depth : Int} :
    ∀ (ds : List Directory) {rows : List (WalkEntry × Nat)}, AreArranged entries rows ds →
      (∀ row ∈ rows, row.1.depth = depth + 1 ∧ entries[row.2]? = some row.1) →
      AreLevelled depth ds
  | [], _, _, _ => trivial
  | d :: ds, [], h, _ => h.elim
  | d :: ds, (e, place) :: rows, ⟨_, hdepth, hd, hds⟩, hrows => by
    obtain ⟨he, hplace⟩ := hrows (e, place) List.mem_cons_self
    refine ⟨hdepth.trans he, isLevelled_of_arranged d hd fun row hrow ↦ ?_,
      areLevelled_of_arranged ds hds fun row hrow ↦ hrows row (List.mem_cons_of_mem _ hrow)⟩
    rw [hdepth]
    exact depth_of_mem_children hrow hplace

end

/-- Entries that are all accepted are built to an outline that is arranged by them. -/
private theorem build_of_allAccepted (h : AllAccepted entries) :
    ∃ d, build entries = .ok d ∧ d.IsOutline ∧
      (d.walk.map WalkEntry.kept).Perm (entries.map WalkEntry.kept) ∧ d.Arranged entries none := by
  obtain ⟨b, hextend, hreads⟩ := (Builder.reads_start entries).extend h rfl
  obtain ⟨root, hclose, hfinish, hname, hdepth, harranged⟩ := hreads.finish h
  have hlevelled := isLevelled_of_arranged root harranged fun row hrow ↦ by
    rw [hdepth]
    exact depth_of_mem_root h hrow
  refine ⟨root, ?_, ⟨hname, hdepth, hlevelled⟩, ?_, harranged⟩
  · rw [build, hextend]
    exact hfinish
  · obtain ⟨next, hnext, -, hperm⟩ :=
      Builder.extend_eq Builder.level_start ((fits_iff_allAccepted entries).mpr h)
    obtain rfl : b = next := congrArg Prod.fst (hextend.symm.trans hnext)
    have hheld := (Builder.contentsOf_closed hclose).trans
      (hperm.trans List.perm_append_comm)
    rw [contentsOf_singleton, hname, hdepth, Builder.start, contentsOf_singleton,
      contents_empty] at hheld
    rw [kept_walk]
    exact hheld.cons_inv

/-- Entries are refused at the first that may not come where it comes. -/
private theorem build_of_refused {front rest : List WalkEntry} {e : WalkEntry}
    (hfront : AllAccepted front) (he : ¬Accepted front e) :
    build (front ++ e :: rest) = .error (.orphan e.name e.depth (cursorBehind front)) := by
  obtain ⟨b, hextend, hreads⟩ := (Builder.reads_start front).extend hfront rfl
  have hrefused : ¬(1 ≤ e.depth ∧ e.depth ≤ b.cursor + 1) := hreads.cursor ▸ he
  rw [build, Builder.extend_append _ _ _ _ hextend, Builder.extend, Builder.push_refused hrefused,
    hreads.cursor]

/-- An outline that is built is arranged by its entries. -/
theorem arranged_of_build {d : Directory} (h : build entries = .ok d) :
    AllAccepted entries ∧ d.IsOutline ∧
      (d.walk.map WalkEntry.kept).Perm (entries.map WalkEntry.kept) ∧ d.Arranged entries none := by
  by_cases hall : AllAccepted entries
  · obtain ⟨root, hroot, harranged⟩ := build_of_allAccepted hall
    obtain rfl := Except.ok.inj (hroot.symm.trans h)
    exact ⟨hall, harranged⟩
  · obtain ⟨front, e, rest, rfl, hfront, he⟩ := exists_first_refused hall
    cases (build_of_refused hfront he).symm.trans h

/-- Building fails exactly if some entry lies above the first level or more than one level below
what is open, and then reports the first such entry with the depth that is open in front of it.
Otherwise the outline is well-formed, holds every entry once and nothing else, and has each of them
in the directory that the last directory entry one level further up has opened, in the order of the
entries. -/
theorem build_arranges (entries : List WalkEntry) :
    (∀ fault, build entries = .error fault ↔
      ∃ front e rest, entries = front ++ e :: rest ∧ AllAccepted front ∧ ¬Accepted front e ∧
        fault = .orphan e.name e.depth (cursorBehind front)) ∧
    ((∃ d, build entries = .ok d) ↔ AllAccepted entries) ∧
    ∀ d, build entries = .ok d → d.IsOutline ∧
      (d.walk.map WalkEntry.kept).Perm (entries.map WalkEntry.kept) ∧ d.Arranged entries none := by
  refine ⟨fun fault ↦ ⟨fun hfault ↦ ?_, ?_⟩, ⟨?_, fun h ↦ ?_⟩, fun d hd ↦ (arranged_of_build hd).2⟩
  · have hrefused : ¬AllAccepted entries := fun hall ↦ by
      obtain ⟨d, hd, -⟩ := build_of_allAccepted hall
      cases hd.symm.trans hfault
    obtain ⟨front, e, rest, rfl, hfront, he⟩ := exists_first_refused hrefused
    exact ⟨front, e, rest, rfl, hfront, he,
      Except.error.inj (hfault.symm.trans (build_of_refused hfront he))⟩
  · rintro ⟨front, e, rest, rfl, hfront, he, rfl⟩
    exact build_of_refused hfront he
  · rintro ⟨d, hd⟩
    exact (arranged_of_build hd).1
  · obtain ⟨d, hd, -⟩ := build_of_allAccepted h
    exact ⟨d, hd⟩

end

end Guidebook.Outline
