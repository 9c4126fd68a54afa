import Guidebook.Proofs.Files
import Guidebook.Proofs.Git.Snapshot

/-!
# Alike file trees

Two file trees may list their nodes in different orders and still have the same at a place. The
operations go by the places only: paths lead to the same places, the files below a directory are
listed in the same order, and what is written leaves the trees alike.
-/

namespace Guidebook

/-- Places are ordered component by component. -/
theorem Path.partsBefore_iff {a b : List String} :
    partsBefore a b = true ↔ a.map String.toList < b.map String.toList := by
  induction a generalizing b with
  | nil => cases b <;> simp [partsBefore]
  | cons x a ih =>
    cases b with
    | nil => simp [partsBefore]
    | cons y b =>
      rw [partsBefore, List.map_cons, List.map_cons, List.cons_lt_cons_iff]
      by_cases heq : x = y
      · subst heq
        simp [ih]
      · have hlist : x.toList ≠ y.toList := fun h ↦ heq (String.toList_inj.mp h)
        simp [heq, hlist, Text.lessThan_iff]

namespace FileTree

variable {t u t' u' : FileTree} {path : Path} {region : List String → Prop}

/-! ### Listings -/

private theorem insertPlace_comm {x y : List String × Node} (h : x.1 ≠ y.1)
    (places : List (List String × Node)) :
    insertPlace x (insertPlace y places) = insertPlace y (insertPlace x places) := by
  have hne : x.1.map String.toList ≠ y.1.map String.toList := fun heq ↦
    h (List.map_injective_iff.mpr (fun _ _ ↦ String.toList_inj.mp) heq)
  induction places with
  | nil =>
    rcases lt_or_gt_of_ne hne with hlt | hgt
    · simp [insertPlace, Path.partsBefore_iff, hlt, hlt.le]
    · simp [insertPlace, Path.partsBefore_iff, hgt, hgt.le]
  | cons head rest ih =>
    by_cases hx : head.1.map String.toList < x.1.map String.toList
    · by_cases hy : head.1.map String.toList < y.1.map String.toList
      · simp [insertPlace, Path.partsBefore_iff, hx, hy, ih]
      · have hyx := lt_of_le_of_lt (not_lt.mp hy) hx
        simp [insertPlace, Path.partsBefore_iff, hx, hy, hyx]
    · by_cases hy : head.1.map String.toList < y.1.map String.toList
      · have hxy := lt_of_le_of_lt (not_lt.mp hx) hy
        simp [insertPlace, Path.partsBefore_iff, hx, hy, hxy]
      · rcases lt_or_gt_of_ne hne with hlt | hgt
        · simp [insertPlace, Path.partsBefore_iff, hx, hy, hlt, hlt.le]
        · simp [insertPlace, Path.partsBefore_iff, hx, hy, hgt, hgt.le]

/-- The files below a directory are listed alike if the trees are the same there. -/
theorem Sound.filesBelow_congr (ht : t.Sound) (hu : u.Sound) (hpath : path.Resolved)
    (hdir : t.find? path.parts = some .directory)
    (h : ∀ place, path.parts <+: place → t.find? place = u.find? place) :
    t.filesBelow path = u.filesBelow path := by
  have hdir' : u.find? path.parts = some .directory := h _ List.prefix_rfl ▸ hdir
  have hbelow : t.below path.parts = u.below path.parts := by
    have hperm : (t.nodes.filter fun node ↦
        path.parts.length < node.1.length && Path.hasPrefix path.parts node.1).Perm
        (u.nodes.filter fun node ↦
          path.parts.length < node.1.length && Path.hasPrefix path.parts node.1) := by
      rw [List.perm_ext_iff_of_nodup (ht.nodup.of_map.filter _) (hu.nodup.of_map.filter _)]
      rintro ⟨place, node⟩
      simp only [List.mem_filter, Bool.and_eq_true, decide_eq_true_eq, Path.hasPrefix_iff]
      refine and_congr_left fun hbelow ↦ ?_
      have hne : place ≠ [] := List.ne_nil_of_length_pos (Nat.zero_lt_of_lt hbelow.1)
      rw [← ht.find?_eq_some hne, ← hu.find?_eq_some hne, h place hbelow.2]
    refine (hperm.map _).foldr_eq' ?_ []
    -- nodes of one place are one node, so whatever is inserted may be inserted in any order
    intro x hx y hy places
    obtain ⟨⟨p, node⟩, hp, rfl⟩ := List.mem_map.mp hx
    obtain ⟨⟨q, other⟩, hq, rfl⟩ := List.mem_map.mp hy
    simp only [List.mem_filter, Bool.and_eq_true, Path.hasPrefix_iff] at hp hq
    by_cases hsame : p.drop path.parts.length = q.drop path.parts.length
    · have hpq : p = q := by
        rw [List.prefix_iff_eq_append.mp hp.2.2 |>.symm, hsame,
          List.prefix_iff_eq_append.mp hq.2.2]
      subst hpq
      obtain rfl : node = other := by
        have hlookup := (lookup_eq_some_iff ht.nodup).mpr hp.1
        rw [(lookup_eq_some_iff ht.nodup).mpr hq.1] at hlookup
        exact (Option.some.inj hlookup).symm
      rfl
    · exact (insertPlace_comm hsame places).symm
  simp only [filesBelow, ht.resolve_eq hpath hdir, hu.resolve_eq hpath hdir', hbelow]

/-! ### Making directories -/

/-- What is there stays there while directories are made. -/
theorem find?_makeSteps_of_some {done names : List String} {q : List String} {node : Node}
    (hmake : t.makeSteps done names = .ok t') (hq : t.find? q = some node) :
    t'.find? q = some node := by
  refine makeSteps_induct (P := fun v ↦ v.find? q = some node) ?_ hq hmake
  intro v place front hv _ _ hnone
  have hne : place ≠ [] := by
    rintro rfl
    cases hnone
  rw [find?_put _ hne, if_neg, hv]
  rintro rfl
  rw [hv] at hnone
  cases hnone

private theorem find?_makeSteps {done names front : List String}
    (hmake : t.makeSteps done names = .ok t') (hfront : front <+: names) (hne : front ≠ []) :
    t'.find? (Path.normalizeNames [] (done ++ front)) = some .directory := by
  induction names generalizing done front t with
  | nil => exact absurd (List.prefix_nil.mp hfront) hne
  | cons name names ih =>
    obtain ⟨head, front, rfl⟩ := List.exists_cons_of_ne_nil hne
    obtain ⟨rfl, hrest⟩ := List.cons_prefix_cons.mp hfront
    rw [makeSteps] at hmake
    split at hmake
    · cases hmake
    · next place hplace =>
      have hnormal := follow_eq_normalizeNames hplace
      -- the first step is a directory before the next steps are made
      have hstep : ∃ v : FileTree, v.makeSteps (done ++ [head]) names = .ok t' ∧
          v.find? place = some .directory := by
        split at hmake
        · next hfound => exact ⟨t, hmake, hfound⟩
        · split at hmake <;> cases hmake
        · next hnone =>
          refine ⟨_, hmake, ?_⟩
          have hplace : place ≠ [] := by
            rintro rfl
            cases hnone
          rw [find?_put _ hplace, if_pos rfl]
      obtain ⟨v, hmake, hfound⟩ := hstep
      by_cases hlast : front = []
      · subst hlast
        exact hnormal ▸ find?_makeSteps_of_some hmake hfound
      · simpa using ih hmake hrest hlast

/-- Once the directories on the way of a path are made, all of them are there. -/
theorem find?_makeDirectories_of_above (hmake : t.makeDirectories path = .ok t')
    {front : List String} (hfront : front <+: path.parts) :
    t'.find? (Path.normalizeNames [] front) = some .directory := by
  by_cases hne : front = []
  · subst hne
    rfl
  · simpa using find?_makeSteps hmake hfront hne

/-- Only the directories on the way of a path are made. -/
theorem find?_makeDirectories_of_ne (hmake : t.makeDirectories path = .ok t') {q : List String}
    (hq : ∀ front, front <+: path.parts → Path.normalizeNames [] front ≠ q) :
    t'.find? q = t.find? q := by
  refine makeSteps_induct (P := fun v ↦ v.find? q = t.find? q) ?_ rfl hmake
  intro v place front hv hfront hplace hnone
  have hne : place ≠ [] := by
    rintro rfl
    cases hnone
  rw [find?_put _ hne, if_neg, hv]
  exact fun heq ↦ hq front hfront ((follow_eq_normalizeNames hplace).symm.trans heq.symm)

/-! ### Trees that are the same everywhere -/

section Everywhere

variable (h : ∀ place, t.find? place = u.find? place)

include h

/-- Paths lead to the same places. -/
theorem follow_congr (place names : List String) : t.follow place names = u.follow place names := by
  induction names generalizing place with
  | nil => rfl
  | cons name rest ih => simp only [follow, ih, h]

/-- Writing is hindered by the same things. -/
theorem write_congr (path : Path) (bytes : List UInt8) :
    (t.write path bytes).map (fun _ ↦ ()) = (u.write path bytes).map fun _ ↦ () := by
  rw [write, write, resolve, resolve, follow_congr h]
  cases hplace : u.follow [] path.parts with
  | error problem => rfl
  | ok place =>
    simp only [bind, Except.bind]
    rw [h place]
    rcases u.find? place with _ | _ | _ <;> rfl

end Everywhere

/-- Making directories is hindered by the same things. -/
theorem makeSteps_congr (h : ∀ place, t.find? place = u.find? place) (done names : List String) :
    (t.makeSteps done names).map (fun _ ↦ ()) = (u.makeSteps done names).map fun _ ↦ () := by
  induction names generalizing done t u with
  | nil => rfl
  | cons name rest ih =>
    rw [makeSteps, makeSteps, follow_congr h]
    cases hplace : u.follow [] (done ++ [name]) with
    | error problem => rfl
    | ok place =>
      simp only [h place]
      cases hfound : u.find? place with
      | some node =>
        cases node with
        | directory => exact ih h _
        | file bytes => rfl
      | none =>
        have hne : place ≠ [] := by
          rintro rfl
          cases hfound
        exact ih (fun q ↦ by rw [find?_put _ hne, find?_put _ hne, h q]) _

/-! ### Trees that are the same in a region -/

/-- Two trees with the same at every place of a region. -/
structure Alike (region : List String → Prop) (t u : FileTree) : Prop where
  left : t.Sound
  right : u.Sound
  same : ∀ place, region place → t.find? place = u.find? place

namespace Alike

theorem mono {smaller : List String → Prop} (h : Alike region t u)
    (hsmaller : ∀ place, smaller place → region place) : Alike smaller t u :=
  ⟨h.left, h.right, fun place hplace ↦ h.same place (hsmaller place hplace)⟩

theorem symm (h : Alike region t u) : Alike region u t :=
  ⟨h.right, h.left, fun place hplace ↦ (h.same place hplace).symm⟩

/-- The same file may be written to alike trees. -/
theorem write (h : Alike region t u) (hpath : path.Plain) {bytes : List UInt8}
    (ht : t.write path bytes = .ok t') (hu : u.write path bytes = .ok u') :
    Alike region t' u' where
  left := h.left.write hpath ht
  right := h.right.write hpath hu
  same place hplace := by
    by_cases hself : path.place = place
    · rw [← hself, h.left.find?_write_self ht, h.right.find?_write_self hu]
    · rw [h.left.find?_write ht hself, h.right.find?_write hu hself, h.same place hplace]

/-- The same directories may be made in alike trees. -/
theorem makeDirectories (h : Alike region t u) (hpath : path.Plain)
    (ht : t.makeDirectories path = .ok t') (hu : u.makeDirectories path = .ok u') :
    Alike region t' u' where
  left := h.left.makeDirectories hpath ht
  right := h.right.makeDirectories hpath hu
  same place hplace := by
    by_cases hway : ∃ front, front <+: path.parts ∧ Path.normalizeNames [] front = place
    · obtain ⟨front, hfront, rfl⟩ := hway
      rw [find?_makeDirectories_of_above ht hfront, find?_makeDirectories_of_above hu hfront]
    · have hway : ∀ front, front <+: path.parts → Path.normalizeNames [] front ≠ place :=
        fun front hfront heq ↦ hway ⟨front, hfront, heq⟩
      rw [find?_makeDirectories_of_ne ht hway, find?_makeDirectories_of_ne hu hway,
        h.same place hplace]

/-- A directory of the region has the same files below it. -/
theorem filesBelow (h : Alike region t u) (hpath : path.Resolved)
    (hregion : ∀ place, path.parts <+: place → region place) :
    (if t.isDirectory path then t.filesBelow path else []) =
      if u.isDirectory path then u.filesBelow path else [] := by
  rw [isDirectory, isDirectory, h.left.node?_eq hpath, h.right.node?_eq hpath,
    ← h.same _ (hregion _ List.prefix_rfl)]
  split
  · next hdir =>
    exact h.left.filesBelow_congr h.right hpath (by simpa using hdir)
      fun place hplace ↦ h.same place (hregion place hplace)
  · rfl

end Alike

end FileTree

end Guidebook
