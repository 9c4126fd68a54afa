import Mathlib.Data.List.Infix
import Mathlib.Data.List.Nodup
import Guidebook.Files
import Guidebook.Proofs.Path
import Guidebook.Proofs.Result

/-!
# Sound file trees

In a tree that can exist every place is taken once, everything lies in directories, and no component
of a path is written in a way that paths read differently. Every operation keeps this, and a path
leads to the place that its components name once every `..` is carried out.
-/

namespace Guidebook

/-- What a key is found with is listed with it. -/
theorem mem_of_lookup {α β : Type} [BEq α] [LawfulBEq α] {entries : List (α × β)} {key : α}
    {value : β} (h : entries.lookup key = some value) : (key, value) ∈ entries := by
  induction entries with
  | nil => cases h
  | cons head entries ih =>
    rw [List.lookup_cons] at h
    by_cases hkey : key = head.1
    · subst hkey
      simp only [beq_self_eq_true, Option.some.injEq] at h
      exact List.mem_cons.mpr (.inl (Prod.ext rfl h.symm))
    · have hbeq : (key == head.1) = false := by simpa using hkey
      rw [hbeq] at h
      exact List.mem_cons_of_mem _ (ih h)

/-- In a list that has every key once, a key is found with what it is listed with. -/
theorem lookup_eq_some_iff {α β : Type} [BEq α] [LawfulBEq α] {entries : List (α × β)}
    (h : (entries.map (·.1)).Nodup) {key : α} {value : β} :
    entries.lookup key = some value ↔ (key, value) ∈ entries := by
  induction entries with
  | nil => simp
  | cons head entries ih =>
    obtain ⟨k, v⟩ := head
    rw [List.map_cons, List.nodup_cons] at h
    have hrest := ih h.2
    rw [List.lookup_cons]
    by_cases hkey : key = k
    · subst hkey
      have hnot : ∀ other, (key, other) ∉ entries := fun other hm ↦
        h.1 (List.mem_map.mpr ⟨_, hm, rfl⟩)
      simp [hnot, eq_comm]
    · have hbeq : (key == k) = false := by simpa using hkey
      simp [hbeq, hrest, hkey]

/-- What is found where every entry of one key is replaced. -/
theorem lookup_replace {α β : Type} [BEq α] [LawfulBEq α] (entries : List (α × β)) (key other : α)
    (value : β) :
    (entries.map fun old ↦ if old.1 == key then (key, value) else old).lookup other =
      if other == key then (entries.lookup key).map fun _ ↦ value else entries.lookup other := by
  induction entries with
  | nil => simp
  | cons head rest ih =>
    rw [List.map_cons, List.lookup_cons, List.lookup_cons, List.lookup_cons, ih]
    by_cases hhead : head.1 = key
    · by_cases heq : other = key
      · simp [hhead, heq]
      · simp [hhead, beq_false_of_ne heq]
    · by_cases heq : other = key
      · subst heq
        simp [hhead, beq_false_of_ne (Ne.symm hhead)]
      · simp [hhead, beq_false_of_ne heq]

namespace FileTree

/-! ## Sound trees -/

/-- A file tree that can exist. The first component of a place may be the top of the tree. -/
structure Sound (t : FileTree) : Prop where
  nodup : (t.nodes.map (·.1)).Nodup
  notTop : ∀ node ∈ t.nodes, node.1 ≠ []
  parents : ∀ node ∈ t.nodes, ∀ front, front <+: node.1 → front ≠ node.1 →
    t.find? front = some .directory
  named : ∀ node ∈ t.nodes, ∀ name ∈ node.1.tail, Path.IsPart name

instance (t : FileTree) : Decidable t.Sound :=
  decidable_of_iff ((t.nodes.map (·.1)).Nodup ∧ (∀ node ∈ t.nodes, node.1 ≠ []) ∧
    (∀ node ∈ t.nodes, ∀ front ∈ node.1.inits, front ≠ node.1 →
      t.find? front = some .directory) ∧ ∀ node ∈ t.nodes, ∀ name ∈ node.1.tail, Path.IsPart name)
    ⟨fun h ↦ ⟨h.1, h.2.1, fun node hnode front hfront ↦
        h.2.2.1 node hnode front ((List.mem_inits _ _).mpr hfront), h.2.2.2⟩,
      fun h ↦ ⟨h.1, h.2, fun node hnode front hfront ↦
        h.3 node hnode front ((List.mem_inits _ _).mp hfront), h.4⟩⟩

@[simp] theorem find?_nil (t : FileTree) : t.find? [] = some .directory := rfl

/-- What lies at a place is what is listed for it. -/
theorem Sound.find?_eq_some {t : FileTree} (h : t.Sound) {place : List String} {node : Node}
    (hplace : place ≠ []) : t.find? place = some node ↔ (place, node) ∈ t.nodes := by
  have hempty : place.isEmpty = false := List.isEmpty_eq_false_iff.mpr hplace
  rw [find?, hempty, if_neg Bool.false_ne_true]
  exact lookup_eq_some_iff h.nodup

/-! ## Putting and removing -/

/-- A tree lists what is put, and everything else as before. -/
theorem mem_put {t : FileTree} {place : List String} {node : Node} {entry : List String × Node} :
    entry ∈ (t.put place node).nodes ↔
      entry = (place, node) ∨ entry.1 ≠ place ∧ entry ∈ t.nodes := by
  rw [put]
  split
  · next hany =>
    obtain ⟨old, hold, hplace⟩ := List.any_eq_true.mp hany
    have hplace : old.1 = place := by simpa using hplace
    rw [List.mem_map]
    constructor
    · rintro ⟨other, ho, rfl⟩
      by_cases heq : other.1 = place
      · simp [heq]
      · simp [heq, ho]
    · rintro (rfl | ⟨hne, hmem⟩)
      · exact ⟨old, hold, by simp [hplace]⟩
      · exact ⟨entry, hmem, by simp [hne]⟩
  · next hnone =>
    have hnone : ∀ other ∈ t.nodes, other.1 ≠ place := fun other ho heq ↦
      hnone (List.any_eq_true.mpr ⟨other, ho, by simpa using heq⟩)
    rw [List.mem_cons]
    constructor
    · rintro (rfl | hmem)
      · exact .inl rfl
      · exact .inr ⟨hnone _ hmem, hmem⟩
    · rintro (rfl | ⟨-, hmem⟩)
      · exact .inl rfl
      · exact .inr hmem

private theorem nodup_put {t : FileTree} (h : (t.nodes.map (·.1)).Nodup) (place : List String)
    (node : Node) : ((t.put place node).nodes.map (·.1)).Nodup := by
  rw [put]
  split
  · have hmap : (t.nodes.map fun old ↦ if old.1 == place then (place, node) else old).map (·.1) =
        t.nodes.map (·.1) := by
      rw [List.map_map]
      apply List.map_congr_left
      intro old _
      by_cases heq : old.1 = place
      · simp [heq]
      · simp [heq]
    rw [hmap]
    exact h
  · next hnone =>
    have hnone : ∀ other ∈ t.nodes, other.1 ≠ place := fun other ho heq ↦
      hnone (List.any_eq_true.mpr ⟨other, ho, by simpa using heq⟩)
    rw [List.map_cons, List.nodup_cons]
    refine ⟨?_, h⟩
    intro hmem
    obtain ⟨other, ho, heq⟩ := List.mem_map.mp hmem
    exact hnone other ho heq

/-- What lies at a place after something is put. -/
theorem find?_put (t : FileTree) {place : List String} (hplace : place ≠ []) (node : Node)
    (q : List String) :
    (t.put place node).find? q = if q = place then some node else t.find? q := by
  by_cases hq : q = []
  · subst hq
    rw [if_neg hplace.symm, find?_nil, find?_nil]
  have hempty : q.isEmpty = false := List.isEmpty_eq_false_iff.mpr hq
  rw [find?, find?, hempty, if_neg Bool.false_ne_true, if_neg Bool.false_ne_true, put]
  split
  · next hany =>
    obtain ⟨old, hold, hkey⟩ := List.any_eq_true.mp hany
    obtain rfl : old.1 = place := by simpa using hkey
    rw [lookup_replace]
    by_cases heq : q = old.1
    · cases hfound : t.nodes.lookup old.1 with
      | some found => simp [heq]
      | none => simpa using List.lookup_eq_none_iff.mp hfound old hold
    · simp [heq]
  · rw [List.lookup_cons]
    by_cases heq : q = place
    · simp [heq]
    · simp [heq, beq_false_of_ne heq]

theorem Sound.find?_put {t : FileTree} (_ : t.Sound) {place : List String} (hplace : place ≠ [])
    (node : Node) (q : List String) :
    (t.put place node).find? q = if q = place then some node else t.find? q :=
  t.find?_put hplace node q

/-- Putting something where its directory is keeps a tree sound, unless a file takes the place of a
directory. -/
theorem Sound.put {t : FileTree} (h : t.Sound) {place : List String} {node : Node}
    (hplace : place ≠ [])
    (hparents : ∀ front, front <+: place → front ≠ place → t.find? front = some .directory)
    (hnamed : ∀ name ∈ place.tail, Path.IsPart name)
    (hnode : t.find? place = some .directory → node = .directory) : (t.put place node).Sound where
  nodup := nodup_put h.nodup place node
  notTop := by
    intro entry hentry
    rcases mem_put.mp hentry with rfl | ⟨-, hmem⟩
    · exact hplace
    · exact h.notTop entry hmem
  parents := by
    intro entry hentry front hfront hne
    have hold : t.find? front = some .directory := by
      rcases mem_put.mp hentry with rfl | ⟨-, hmem⟩
      · exact hparents front hfront hne
      · exact h.parents entry hmem front hfront hne
    rw [h.find?_put hplace]
    split
    · next heq =>
      subst heq
      rw [hnode hold]
    · exact hold
  named := by
    intro entry hentry
    rcases mem_put.mp hentry with rfl | ⟨-, hmem⟩
    · exact hnamed
    · exact h.named entry hmem

theorem mem_removeAll {t : FileTree} {place : List String} {entry : List String × Node} :
    entry ∈ (t.removeAll place).nodes ↔ entry ∈ t.nodes ∧ ¬ place <+: entry.1 := by
  rw [removeAll, List.mem_filter, Bool.not_eq_true', ← Bool.not_eq_true, Path.hasPrefix_iff]

/-- What lies outside of what is removed stays. -/
theorem find?_removeAll (t : FileTree) {place q : List String} (h : ¬ place <+: q) :
    (t.removeAll place).find? q = t.find? q := by
  have hlookup : ∀ nodes : List (List String × Node),
      (nodes.filter (!Path.hasPrefix place ·.1)).lookup q = nodes.lookup q := by
    intro nodes
    induction nodes with
    | nil => rfl
    | cons head nodes ih =>
      obtain ⟨p, n⟩ := head
      by_cases hp : Path.hasPrefix place p = true
      · have hne : (q == p) = false := by
          simp only [beq_eq_false_iff_ne]
          rintro rfl
          exact h (Path.hasPrefix_iff.mp hp)
        simp [hp, ih, List.lookup_cons, hne]
      · simp [hp, ih, List.lookup_cons]
  rw [find?, find?, removeAll]
  split
  · rfl
  · exact hlookup t.nodes

/-- Nothing is left of what is removed. -/
theorem find?_removeAll_below (t : FileTree) {place q : List String} (hplace : place ≠ [])
    (h : place <+: q) : (t.removeAll place).find? q = none := by
  have hq : q.isEmpty = false := List.isEmpty_eq_false_iff.mpr (h.ne_nil hplace)
  rw [find?, hq, if_neg Bool.false_ne_true, List.lookup_eq_none_iff]
  intro entry hentry
  rw [bne_iff_ne]
  rintro rfl
  exact (mem_removeAll.mp hentry).2 h

/-- Removing a place with everything below it keeps a tree sound. -/
theorem Sound.removeAll {t : FileTree} (h : t.Sound) (place : List String) :
    (t.removeAll place).Sound where
  nodup := h.nodup.sublist (List.filter_sublist.map _)
  notTop entry hentry := h.notTop entry (mem_removeAll.mp hentry).1
  parents := by
    intro entry hentry front hfront hne
    obtain ⟨hmem, hout⟩ := mem_removeAll.mp hentry
    rw [find?_removeAll t fun hp ↦ hout (hp.trans hfront)]
    exact h.parents entry hmem front hfront hne
  named entry hentry := h.named entry (mem_removeAll.mp hentry).1

/-! ## Where paths lead -/

/-- A path leads to the place that its components name. -/
theorem follow_eq_normalizeNames {t : FileTree} {place names q : List String}
    (h : t.follow place names = .ok q) : q = Path.normalizeNames place names := by
  induction names generalizing place with
  | nil => exact (Except.ok.inj h).symm
  | cons name names ih =>
    rw [follow] at h
    rw [Path.normalizeNames]
    split at h
    · next hup =>
      rw [if_pos hup]
      exact ih h
    · next hup =>
      rw [if_neg hup]
      simp only at h
      split at h
      · next hlast =>
        obtain rfl := List.isEmpty_iff.mp hlast
        exact (Except.ok.inj h).symm
      · split at h
        · exact ih h
        · cases h
        · cases h

/-- The place that a path leads to lies in directories. -/
theorem follow_parents {t : FileTree} {place names q : List String}
    (hplace : ∀ front, front <+: place → t.find? front = some .directory)
    (h : t.follow place names = .ok q) :
    ∀ front, front <+: q → front ≠ q → t.find? front = some .directory := by
  induction names generalizing place with
  | nil =>
    obtain rfl := Except.ok.inj h
    exact fun front hfront _ ↦ hplace front hfront
  | cons name names ih =>
    rw [follow] at h
    split at h
    · exact ih (fun front hfront ↦ hplace front (hfront.trans (List.dropLast_prefix _))) h
    · simp only at h
      split at h
      · obtain rfl := Except.ok.inj h
        intro front hfront hne
        rcases List.prefix_concat_iff.mp hfront with heq | hfront
        · exact absurd heq hne
        · exact hplace front hfront
      · split at h
        · next hnext =>
          apply ih _ h
          intro front hfront
          rcases List.prefix_concat_iff.mp hfront with rfl | hfront
          · exact hnext
          · exact hplace front hfront
        · cases h
        · cases h

/-- Components lead to the place that they name, if there are directories on the way. -/
theorem follow_eq_normalized {t : FileTree} {names : List String} (place : List String)
    (h : ∀ front, front <+: names → front ≠ [] → front ≠ names →
      t.find? (Path.normalizeNames place front) = some .directory) :
    t.follow place names = .ok (Path.normalizeNames place names) := by
  induction names generalizing place with
  | nil => rfl
  | cons name names ih =>
    have hbehind : ∀ front, front <+: names → front ≠ names →
        t.find? (Path.normalizeNames place (name :: front)) = some .directory := by
      intro front hfront hne
      exact h _ (List.cons_prefix_cons.mpr ⟨rfl, hfront⟩) (List.cons_ne_nil _ _) (by simpa using hne)
    rw [follow, Path.normalizeNames]
    by_cases hup : (name == "..") = true
    · simp only [Path.normalizeNames, hup, if_true] at hbehind ⊢
      exact ih _ fun front hfront _ hne ↦ hbehind front hfront hne
    · simp only [Path.normalizeNames, hup] at hbehind ⊢
      by_cases hlast : names = []
      · subst hlast
        rfl
      · have hempty : names.isEmpty = false := List.isEmpty_eq_false_iff.mpr hlast
        have hnext := hbehind [] List.nil_prefix (Ne.symm hlast)
        simp only [Path.normalizeNames, Bool.false_eq_true, if_false] at hnext hbehind
        simp only [hempty, hnext, Bool.false_eq_true, if_false]
        exact ih _ fun front hfront _ hne ↦ hbehind front hfront hne

/-- Components are followed through directories. -/
theorem follow_eq_ok {t : FileTree} {names : List String} (hup : ".." ∉ names)
    (place : List String)
    (h : ∀ front, front <+: names → front ≠ [] → front ≠ names →
      t.find? (place ++ front) = some .directory) :
    t.follow place names = .ok (place ++ names) := by
  rw [follow_eq_normalized place, Path.normalizeNames_eq hup]
  intro front hfront hne hother
  rw [Path.normalizeNames_eq fun hm ↦ hup (hfront.mem hm)]
  exact h front hfront hne hother

/-- What follows components that lead through directories is followed from there. -/
theorem follow_append {t : FileTree} {names rest : List String} (hup : ".." ∉ names)
    (hrest : rest ≠ []) (place : List String)
    (h : ∀ front, front <+: names → front ≠ [] → t.find? (place ++ front) = some .directory) :
    t.follow place (names ++ rest) = t.follow (place ++ names) rest := by
  induction names generalizing place with
  | nil => rw [List.nil_append, List.append_nil]
  | cons name names ih =>
    have hname : (name == "..") = false := by simpa using fun heq ↦ hup (by simp [heq])
    have hmore : (names ++ rest).isEmpty = false :=
      List.isEmpty_eq_false_iff.mpr (by simp [hrest])
    have hnext := h [name] (by simp) (by simp)
    have hback := ih (fun hm ↦ hup (by simp [hm])) (place ++ [name]) fun front hfront _ ↦ by
      have := h (name :: front) (List.cons_prefix_cons.mpr ⟨rfl, hfront⟩) (by simp)
      rwa [List.append_assoc, List.singleton_append]
    rw [List.cons_append, follow, hname, if_neg Bool.false_ne_true]
    simp only [hmore, Bool.false_eq_true, if_false, hnext, hback, List.append_assoc,
      List.singleton_append]

/-- What follows ways up is followed from above. -/
theorem follow_up {t : FileTree} (place up rest : List String) :
    t.follow place (up.map (fun _ ↦ "..") ++ rest) =
      t.follow (place.take (place.length - up.length)) rest := by
  induction up generalizing place with
  | nil => simp
  | cons name up ih =>
    rw [List.map_cons, List.cons_append, follow, if_pos (beq_self_eq_true ".."), ih,
      List.dropLast_eq_take, List.take_take, List.length_take, List.length_cons]
    congr 2
    omega

/-- Where a path leads, it leads as well once there are more directories. -/
theorem follow_mono {t u : FileTree}
    (h : ∀ q, t.find? q = some .directory → u.find? q = some .directory)
    {place names q : List String} (hfollow : t.follow place names = .ok q) :
    u.follow place names = .ok q := by
  induction names generalizing place with
  | nil => exact hfollow
  | cons name names ih =>
    rw [follow] at hfollow ⊢
    split at hfollow
    · next hup =>
      rw [if_pos hup]
      exact ih hfollow
    · next hup =>
      rw [if_neg hup]
      simp only at hfollow ⊢
      split at hfollow
      · next hlast =>
        rw [if_pos hlast]
        exact hfollow
      · next hlast =>
        rw [if_neg hlast]
        split at hfollow
        · next hnext =>
          rw [h _ hnext]
          exact ih hfollow
        · cases hfollow
        · cases hfollow

/-- A resolved path leads to its own components, once everything above it is a directory. -/
theorem resolve_eq_parts {t : FileTree} {path : Path} (hpath : path.Resolved)
    (h : ∀ front, front <+: path.parts → front ≠ path.parts → t.find? front = some .directory) :
    t.resolve path = .ok path.parts :=
  follow_eq_ok hpath.not_up [] fun front hfront _ hne ↦ h front hfront hne

private theorem tail_normalizeNames {done names : List String}
    (hdone : ∀ name ∈ done.tail, Path.IsPart name)
    (hnames : ∀ name ∈ names, name = ".." ∨ Path.IsPart name) :
    ∀ name ∈ (Path.normalizeNames done names).tail, Path.IsPart name := by
  induction names generalizing done with
  | nil => exact hdone
  | cons first names ih =>
    rw [Path.normalizeNames]
    split
    · refine ih (fun name hname ↦ hdone name ?_) fun name hname ↦ hnames name (by simp [hname])
      rw [List.tail_dropLast] at hname
      exact List.dropLast_subset _ hname
    · next hup =>
      have hfirst : Path.IsPart first := by
        rcases hnames first (by simp) with rfl | hpart
        · exact absurd rfl hup
        · exact hpart
      refine ih ?_ fun name hname ↦ hnames name (by simp [hname])
      intro name hname
      cases done with
      | nil => simp at hname
      | cons head done =>
        rw [List.cons_append, List.tail_cons, List.mem_append, List.mem_singleton] at hname
        rcases hname with hname | rfl
        · exact hdone name hname
        · exact hfirst

/-- Places that the front of a plain path leads to are named as paths name them. -/
theorem follow_named {t : FileTree} {path : Path} (hpath : path.Plain) {front place : List String}
    (hfront : front <+: path.parts) (h : t.follow [] front = .ok place) :
    ∀ name ∈ place.tail, Path.IsPart name := by
  rw [follow_eq_normalizeNames h]
  rw [Path.parts] at hfront
  split at hfront
  · exact tail_normalizeNames (by simp) fun name hname ↦ hpath name (hfront.mem hname)
  · cases front with
    | nil => simp [Path.normalizeNames]
    | cons anchor names =>
      have hnames := (List.cons_prefix_cons.mp hfront).2
      have hplain : ∀ name ∈ names, name = ".." ∨ Path.IsPart name := fun name hname ↦
        hpath name (hnames.mem hname)
      rw [Path.normalizeNames]
      split
      · exact tail_normalizeNames (by simp) hplain
      · exact tail_normalizeNames (by simp) hplain

/-- The top of the tree lies in nothing. -/
private theorem nil_parents (t : FileTree) :
    ∀ front, front <+: ([] : List String) → t.find? front = some .directory := by
  intro front hfront
  rw [List.prefix_nil.mp hfront]
  rfl

/-! ## Operations -/

/-- A file that can be written is put at the place that its path leads to. -/
theorem write_eq_ok_iff {t t' : FileTree} {path : Path} {bytes : List UInt8} :
    t.write path bytes = .ok t' ↔ ∃ place, t.resolve path = .ok place ∧
      t.find? place ≠ some .directory ∧ t' = t.put place (.file bytes) := by
  rw [write]
  cases hr : t.resolve path with
  | error problem => simp [bind, Except.bind]
  | ok place =>
    simp only [bind, Except.bind, Except.ok.injEq, exists_eq_left']
    cases hf : t.find? place with
    | none => simp [eq_comm]
    | some node =>
      cases node with
      | directory => simp
      | file old => simp [eq_comm]

private theorem ne_nil_of_find? {t : FileTree} {place : List String}
    (h : t.find? place ≠ some .directory) : place ≠ [] := by
  rintro rfl
  exact h rfl

/-- Writing a file keeps a tree sound. -/
theorem Sound.write {t t' : FileTree} (h : t.Sound) {path : Path} (hpath : path.Plain)
    {bytes : List UInt8} (hwrite : t.write path bytes = .ok t') : t'.Sound := by
  obtain ⟨place, hr, hf, rfl⟩ := write_eq_ok_iff.mp hwrite
  exact h.put (ne_nil_of_find? hf) (follow_parents (nil_parents t) hr)
    (follow_named hpath List.prefix_rfl hr) fun hd ↦ absurd hd hf

/-- Writing a file leaves alone what lies elsewhere. -/
theorem Sound.find?_write {t t' : FileTree} (h : t.Sound) {path : Path} {bytes : List UInt8}
    (hwrite : t.write path bytes = .ok t') {q : List String}
    (hq : Path.normalizeNames [] path.parts ≠ q) : t'.find? q = t.find? q := by
  obtain ⟨place, hr, hfree, rfl⟩ := write_eq_ok_iff.mp hwrite
  rw [h.find?_put (ne_nil_of_find? hfree), if_neg]
  rintro rfl
  exact hq (follow_eq_normalizeNames hr).symm

/-- A file that is written lies where its path leads. -/
theorem Sound.find?_write_self {t t' : FileTree} (h : t.Sound) {path : Path} {bytes : List UInt8}
    (hwrite : t.write path bytes = .ok t') : t'.find? path.place = some (.file bytes) := by
  obtain ⟨place, hr, hfree, rfl⟩ := write_eq_ok_iff.mp hwrite
  rw [Path.place, ← follow_eq_normalizeNames hr, h.find?_put (ne_nil_of_find? hfree), if_pos rfl]

/-- A file is read back as it was written. -/
theorem read_write {t t' : FileTree} {path : Path} {bytes : List UInt8}
    (hwrite : t.write path bytes = .ok t') : t'.read path = .ok bytes := by
  obtain ⟨place, hr, hfree, rfl⟩ := write_eq_ok_iff.mp hwrite
  have hne := ne_nil_of_find? hfree
  -- what is put is on no way through directories
  have hsame : (t.put place (.file bytes)).resolve path = .ok place := by
    refine follow_mono (fun q hq ↦ ?_) hr
    rw [t.find?_put hne, if_neg, hq]
    rintro rfl
    exact hfree hq
  have hfound : (t.put place (.file bytes)).find? place = some (.file bytes) := by
    rw [t.find?_put hne, if_pos rfl]
  rw [read, hsame]
  simp only [bind, Except.bind, hfound]

/-- What making directories keeps: whatever putting a directory where nothing is keeps. -/
theorem makeSteps_induct {P : FileTree → Prop} {done names : List String}
    (hput : ∀ t place front, P t → front <+: done ++ names → t.follow [] front = .ok place →
      t.find? place = none → P (t.put place .directory))
    {t t' : FileTree} (ht : P t) (h : t.makeSteps done names = .ok t') : P t' := by
  induction names generalizing done t with
  | nil =>
    obtain rfl := Except.ok.inj h
    exact ht
  | cons name names ih =>
    have hput' : ∀ t place front, P t → front <+: done ++ [name] ++ names →
        t.follow [] front = .ok place → t.find? place = none → P (t.put place .directory) := by
      intro t place front ht hfront
      rw [List.append_assoc, List.singleton_append] at hfront
      exact hput t place front ht hfront
    rw [makeSteps] at h
    split at h
    · cases h
    · next place hr =>
      split at h
      · exact ih hput' ht h
      · split at h <;> cases h
      · next hf =>
        have hfront : done ++ [name] <+: done ++ name :: names := by
          rw [List.prefix_append_right_inj, List.cons_prefix_cons]
          exact ⟨rfl, List.nil_prefix⟩
        exact ih hput' (hput t place _ ht hfront hr hf) h

/-- A directory on the way along a plain path is put where nothing is. -/
theorem Sound.put_step {t : FileTree} (h : t.Sound) {path : Path} (hpath : path.Plain)
    {place front : List String} (hfront : front <+: path.parts)
    (hr : t.follow [] front = .ok place) (hnone : t.find? place = none) :
    place ≠ [] ∧ (t.put place .directory).Sound := by
  have hfree : t.find? place ≠ some .directory := by simp [hnone]
  have hne := ne_nil_of_find? hfree
  exact ⟨hne, h.put hne (follow_parents (nil_parents t) hr) (follow_named hpath hfront hr)
    fun _ ↦ rfl⟩

/-- Making directories keeps a tree sound. -/
theorem Sound.makeDirectories {t t' : FileTree} (h : t.Sound) {path : Path} (hpath : path.Plain)
    (hmake : t.makeDirectories path = .ok t') : t'.Sound := by
  refine makeSteps_induct ?_ h hmake
  intro t place front ht hfront hr hnone
  exact (ht.put_step hpath hfront hr hnone).2

/-- Making directories keeps what is there. -/
theorem Sound.find?_makeDirectories {t t' : FileTree} (h : t.Sound) {path : Path}
    (hpath : path.Plain) (hmake : t.makeDirectories path = .ok t') {q : List String} {node : Node}
    (hq : t.find? q = some node) : t'.find? q = some node := by
  have hboth : t'.Sound ∧ t'.find? q = some node := by
    refine makeSteps_induct (P := fun u ↦ u.Sound ∧ u.find? q = some node) ?_ ⟨h, hq⟩ hmake
    rintro u place front ⟨hu, hfound⟩ hfront hr hnone
    obtain ⟨hne, hput⟩ := hu.put_step hpath hfront hr hnone
    refine ⟨hput, ?_⟩
    rw [hu.find?_put hne, if_neg, hfound]
    rintro rfl
    rw [hnone] at hfound
    cases hfound
  exact hboth.2

/-- Making directories on the way to a resolved path makes nothing elsewhere. -/
theorem Sound.find?_makeDirectories_of_not_prefix {t t' : FileTree} (h : t.Sound) {path : Path}
    (hpath : path.Resolved) (hmake : t.makeDirectories path = .ok t') {q : List String}
    (hq : ¬ q <+: path.parts) : t'.find? q = t.find? q := by
  have hboth : t'.Sound ∧ t'.find? q = t.find? q := by
    refine makeSteps_induct (P := fun u ↦ u.Sound ∧ u.find? q = t.find? q) ?_ ⟨h, rfl⟩ hmake
    rintro u place front ⟨hu, hfound⟩ hfront hr hnone
    obtain ⟨hne, hput⟩ := hu.put_step hpath.plain hfront hr hnone
    have hplace := follow_eq_normalizeNames hr
    rw [Path.normalizeNames_eq fun hm ↦ hpath.not_up (hfront.subset hm), List.nil_append] at hplace
    refine ⟨hput, ?_⟩
    rw [hu.find?_put hne, if_neg, hfound]
    rintro rfl
    exact hq (hplace ▸ hfront)
  exact hboth.2

/-- Overwriting a file keeps a tree sound. -/
theorem Sound.put_file {t : FileTree} (h : t.Sound) {place : List String} {old : List UInt8}
    (hne : place ≠ []) (hold : t.find? place = some (.file old)) (bytes : List UInt8) :
    (t.put place (.file bytes)).Sound := by
  have hnode := (h.find?_eq_some hne).mp hold
  refine h.put hne (h.parents _ hnode) (h.named _ hnode) fun hdirectory ↦ ?_
  rw [hold] at hdirectory
  cases hdirectory

private theorem makeSteps_eq_self {t : FileTree} {done names : List String}
    (h : ∀ front, front <+: done ++ names →
      t.find? (Path.normalizeNames [] front) = some .directory) :
    t.makeSteps done names = .ok t := by
  induction names generalizing done with
  | nil => rfl
  | cons name names ih =>
    have hlist : done ++ name :: names = done ++ [name] ++ names := by simp
    rw [hlist] at h
    have hfront : done ++ [name] <+: done ++ [name] ++ names := List.prefix_append _ _
    have hfollow : t.follow [] (done ++ [name]) = .ok (Path.normalizeNames [] (done ++ [name])) :=
      follow_eq_normalized [] fun front hf _ _ ↦ h front (hf.trans hfront)
    rw [makeSteps, hfollow]
    simp only [h _ hfront]
    exact ih h

/-- If there are directories on the way of a path, they are made by doing nothing. -/
theorem makeDirectories_eq_self {t : FileTree} {path : Path}
    (h : ∀ front, front <+: path.parts →
      t.find? (Path.normalizeNames [] front) = some .directory) :
    t.makeDirectories path = .ok t :=
  makeSteps_eq_self h

/-- A sound tree lists nothing at a place but what lies there. -/
private theorem Sound.node_eq {t : FileTree} (h : t.Sound) {place : List String} {node : Node}
    (hplace : place ≠ []) (hfound : t.find? place = some node) {entry : List String × Node}
    (hentry : entry ∈ t.nodes) (heq : entry.1 = place) : entry = (place, node) := by
  subst heq
  rw [(h.find?_eq_some hplace).mpr hentry] at hfound
  exact Prod.ext rfl (Option.some.inj hfound)

/-- Nothing changes where what lies at a place is put there again. -/
theorem Sound.put_eq_self {t : FileTree} (h : t.Sound) {place : List String} {node : Node}
    (hplace : place ≠ []) (hfound : t.find? place = some node) : t.put place node = t := by
  have hany : t.nodes.any (·.1 == place) = true :=
    List.any_eq_true.mpr ⟨_, (h.find?_eq_some hplace).mp hfound, by simp⟩
  have hsame : (t.nodes.map fun old ↦ if old.1 == place then (place, node) else old) = t.nodes := by
    conv_rhs => rw [← List.map_id t.nodes]
    refine List.map_congr_left fun entry hentry ↦ ?_
    by_cases heq : entry.1 = place
    · simp [h.node_eq hplace hfound hentry heq]
    · simp [heq]
  rw [FileTree.put, if_pos hany, hsame]

/-- A file that was overwritten is put back. -/
theorem Sound.put_put {t : FileTree} (h : t.Sound) {place : List String} {node old : Node}
    (hplace : place ≠ []) (hold : t.find? place = some old) :
    (t.put place node).put place old = t := by
  have hmem : (place, old) ∈ t.nodes := (h.find?_eq_some hplace).mp hold
  have hany : ∀ n : Node, t.nodes.any (·.1 == place) = true := fun _ ↦
    List.any_eq_true.mpr ⟨_, hmem, by simp⟩
  have hfirst : t.put place node =
      ⟨t.nodes.map fun entry ↦ if entry.1 == place then (place, node) else entry⟩ := by
    rw [FileTree.put, if_pos (hany node)]
  have hagain : (t.put place node).nodes.any (·.1 == place) = true :=
    List.any_eq_true.mpr ⟨(place, node), mem_put.mpr (.inl rfl), by simp⟩
  have hself := h.put_eq_self hplace hold
  rw [FileTree.put, if_pos (hany old)] at hself
  rw [FileTree.put, if_pos hagain, hfirst, List.map_map]
  conv_rhs => rw [← hself]
  refine congrArg FileTree.mk (List.map_congr_left fun entry _ ↦ ?_)
  by_cases heq : entry.1 = place <;> simp [heq]

/-- A file that was not there is removed again. -/
theorem Sound.removeAll_put {t : FileTree} (h : t.Sound) {place : List String} {node : Node}
    (hplace : place ≠ []) (hnone : t.find? place = none) :
    (t.put place node).removeAll place = t := by
  have hout : ∀ entry ∈ t.nodes, ¬ place <+: entry.1 := by
    intro entry hentry hprefix
    by_cases heq : place = entry.1
    · have hfound := (h.find?_eq_some hplace).mpr (by rw [heq]; exact hentry : (place, entry.2) ∈ _)
      rw [hnone] at hfound
      cases hfound
    · have hfound := h.parents entry hentry place hprefix heq
      rw [hnone] at hfound
      cases hfound
  have hany : ¬ t.nodes.any (·.1 == place) = true := by
    intro hany
    obtain ⟨entry, hentry, heq⟩ := List.any_eq_true.mp hany
    exact hout entry hentry (by rw [beq_iff_eq.mp heq])
  have hkept : t.nodes.filter (!Path.hasPrefix place ·.1) = t.nodes :=
    List.filter_eq_self.mpr fun entry hentry ↦ by
      rw [Bool.not_eq_true', ← Bool.not_eq_true, Path.hasPrefix_iff]
      exact hout entry hentry
  have hself : Path.hasPrefix place place = true := Path.hasPrefix_iff.mpr List.prefix_rfl
  rw [FileTree.put, if_neg hany, FileTree.removeAll, List.filter_cons]
  simp [hself, hkept]

/-! ## Resolved paths -/

/-- Above a directory there are directories. -/
theorem Sound.find?_front {t : FileTree} (h : t.Sound) {place : List String}
    (hplace : t.find? place = some .directory) {front : List String} (hfront : front <+: place) :
    t.find? front = some .directory := by
  by_cases heq : front = place
  · rw [heq, hplace]
  · have hne : place ≠ [] := by
      rintro rfl
      exact heq (List.prefix_nil.mp hfront)
    exact h.parents _ ((h.find?_eq_some hne).mp hplace) front hfront heq

/-- Above anything there are directories. -/
theorem Sound.find?_parent {t : FileTree} (h : t.Sound) {place front : List String} {node : Node}
    (hplace : t.find? place = some node) (hfront : front <+: place) (hne : front ≠ place) :
    t.find? front = some .directory := by
  have hplace' : place ≠ [] := by
    rintro rfl
    exact hne (List.prefix_nil.mp hfront)
  exact h.parents _ ((h.find?_eq_some hplace').mp hplace) front hfront hne

/-- A resolved path leads to whatever lies at its components. -/
theorem Sound.resolve_eq {t : FileTree} (h : t.Sound) {path : Path} (hpath : path.Resolved)
    {node : Node} (hnode : t.find? path.parts = some node) : t.resolve path = .ok path.parts :=
  resolve_eq_parts hpath fun _ hfront hne ↦ h.find?_parent hnode hfront hne

/-- What lies at a resolved path. -/
theorem Sound.node?_eq {t : FileTree} (h : t.Sound) {path : Path} (hpath : path.Resolved) :
    t.node? path = t.find? path.parts := by
  rw [node?]
  cases hr : t.resolve path with
  | ok place =>
    rw [resolve] at hr
    rw [follow_eq_normalizeNames hr, Path.normalizeNames_eq hpath.not_up, List.nil_append]
  | error problem =>
    cases hf : t.find? path.parts with
    | none => rfl
    | some node =>
      rw [h.resolve_eq hpath hf] at hr
      cases hr

/-- The bytes that are read at a resolved path. -/
theorem Sound.read_eq_ok_iff {t : FileTree} (h : t.Sound) {path : Path} (hpath : path.Resolved)
    {bytes : List UInt8} :
    t.read path = .ok bytes ↔ t.find? path.parts = some (.file bytes) := by
  constructor
  · intro hread
    have hnode := h.node?_eq hpath
    rw [node?] at hnode
    rw [read] at hread
    cases hr : t.resolve path with
    | error problem =>
      rw [hr] at hread
      cases hread
    | ok place =>
      rw [hr] at hnode hread
      simp only [bind, Except.bind] at hread
      simp only at hnode
      rw [← hnode]
      cases hf : t.find? place with
      | none =>
        rw [hf] at hread
        cases hread
      | some node =>
        rw [hf] at hread
        cases node with
        | directory => cases hread
        | file old => rw [Except.ok.inj hread]
  · intro hf
    rw [read, h.resolve_eq hpath hf]
    simp only [bind, Except.bind, hf]

/-- A file beside a directory is read by the way up to where the two part, and down from there. -/
theorem Sound.read_beside {t : FileTree} (h : t.Sound) {dir : Path} (hdir : dir.Resolved)
    (hthere : t.find? dir.parts = some .directory) {common up down : List String}
    (hparts : dir.parts = common ++ up) (hup : ".." ∉ down) {bytes : List UInt8}
    (hfile : t.find? (common ++ down) = some (.file bytes)) :
    t.read (dir.join (Path.ofNames (up.map (fun _ ↦ "..") ++ down))) = .ok bytes := by
  have hdown : down ≠ [] := by
    rintro rfl
    have hcommon := h.find?_front hthere (hparts ▸ List.prefix_append common up)
    rw [List.append_nil, hcommon] at hfile
    cases hfile
  have habove : ∀ front, front <+: down → front ≠ [] → front ≠ down →
      t.find? (common ++ front) = some .directory := fun front hfront _ hne ↦
    h.find?_parent hfile ((List.prefix_append_right_inj common).mpr hfront) (by simpa using hne)
  have hresolve : t.resolve (dir.join (Path.ofNames (up.map (fun _ ↦ "..") ++ down))) =
      .ok (common ++ down) := by
    rw [resolve, Path.parts_join _ rfl]
    change t.follow [] (dir.parts ++ (up.map (fun _ ↦ "..") ++ down)) = _
    rw [follow_append hdir.not_up (by simp [hdown]) [] fun front hfront _ ↦
        h.find?_front hthere hfront, follow_up, List.nil_append, hparts, List.length_append,
      Nat.add_sub_cancel, List.take_left, follow_eq_ok hup common habove]
  rw [read, hresolve]
  simp only [bind, Except.bind, hfile]

/-- What can be read is there. -/
theorem present_of_read {t : FileTree} {path : Path} {bytes : List UInt8}
    (h : t.read path = .ok bytes) : t.present path = true := by
  rw [read] at h
  obtain ⟨place, hplace, h⟩ := bind_eq_ok h
  rw [present, node?, hplace]
  cases hfound : t.find? place with
  | none =>
    rw [hfound] at h
    cases h
  | some node => simp [hfound]

/-- A directory that exists is made by doing nothing. -/
theorem Sound.makeDirectories_eq {t : FileTree} (h : t.Sound) {path : Path}
    (hpath : path.Resolved) (hdir : t.find? path.parts = some .directory) :
    t.makeDirectories path = .ok t :=
  makeDirectories_eq_self fun _ hfront ↦ by
    rw [Path.normalizeNames_eq fun hm ↦ hpath.not_up (hfront.mem hm)]
    exact h.find?_front hdir hfront

private theorem makeSteps_eq_ok {path : Path} (hpath : path.Plain) {done names : List String}
    (hparts : done ++ names = path.parts) {t : FileTree} (h : t.Sound)
    (hdone : ∀ front, front <+: done → t.find? (Path.normalizeNames [] front) = some .directory)
    (hfree : ∀ front, front <+: path.parts → ∀ bytes,
      t.find? (Path.normalizeNames [] front) ≠ some (.file bytes)) :
    ∃ t', t.makeSteps done names = .ok t' ∧ ∀ front, front <+: path.parts →
      t'.find? (Path.normalizeNames [] front) = some .directory := by
  induction names generalizing done t with
  | nil =>
    rw [List.append_nil] at hparts
    subst hparts
    exact ⟨t, rfl, hdone⟩
  | cons name names ih =>
    have hlist : done ++ [name] ++ names = path.parts := by simpa using hparts
    have hfront : done ++ [name] <+: path.parts := ⟨names, hlist⟩
    have hbefore : ∀ front, front <+: done ++ [name] → front ≠ done ++ [name] →
        t.find? (Path.normalizeNames [] front) = some .directory := fun front hf hne ↦
      hdone front ((List.prefix_concat_iff.mp hf).resolve_left hne)
    have hfollow : t.follow [] (done ++ [name]) = .ok (Path.normalizeNames [] (done ++ [name])) :=
      follow_eq_normalized [] fun front hf _ hne ↦ hbefore front hf hne
    rw [makeSteps, hfollow]
    cases hfound : t.find? (Path.normalizeNames [] (done ++ [name])) with
    | none =>
      obtain ⟨hne, hput⟩ := h.put_step hpath hfront hfollow hfound
      simp only [hfound]
      apply ih hlist hput
      · intro front hf
        rw [h.find?_put hne]
        split
        · rfl
        · next hother => exact hbefore front hf fun heq ↦ hother (heq ▸ rfl)
      · intro front hf bytes
        rw [h.find?_put hne]
        split
        · simp
        · exact hfree front hf bytes
    | some node =>
      cases node with
      | file bytes => exact absurd hfound (hfree _ hfront bytes)
      | directory =>
        simp only [hfound]
        apply ih hlist h _ hfree
        intro front hf
        by_cases heq : front = done ++ [name]
        · rw [heq, hfound]
        · exact hbefore front hf heq

/-- Directories can be made where no file is in the way, and are there then. -/
theorem Sound.exists_makeDirectories {t : FileTree} (h : t.Sound) {path : Path} (hpath : path.Plain)
    (hfree : ∀ front, front <+: path.parts → ∀ bytes,
      t.find? (Path.normalizeNames [] front) ≠ some (.file bytes)) :
    ∃ t', t.makeDirectories path = .ok t' ∧ ∀ front, front <+: path.parts →
      t'.find? (Path.normalizeNames [] front) = some .directory := by
  refine makeSteps_eq_ok hpath (List.nil_append _) h (fun front hfront ↦ ?_) hfree
  rw [List.prefix_nil.mp hfront]
  rfl

/-- Directories can be made along a resolved path where no file is in the way. -/
theorem Sound.makeDirectories_eq_ok {t : FileTree} (h : t.Sound) {path : Path}
    (hpath : path.Resolved)
    (hfree : ∀ front, front <+: path.parts → ∀ bytes, t.find? front ≠ some (.file bytes)) :
    ∃ t', t.makeDirectories path = .ok t' ∧
      ∀ front, front <+: path.parts → t'.find? front = some .directory := by
  have hplace : ∀ front, front <+: path.parts → Path.normalizeNames [] front = front :=
    fun front hfront ↦ Path.normalizeNames_eq (fun hm ↦ hpath.not_up (hfront.mem hm)) []
  obtain ⟨t', hmake, hthere⟩ := h.exists_makeDirectories hpath.plain fun front hfront bytes ↦ by
    rw [hplace front hfront]
    exact hfree front hfront bytes
  exact ⟨t', hmake, fun front hfront ↦ hplace front hfront ▸ hthere front hfront⟩

/-- Where nothing lies, there is nothing below it to remove. -/
theorem Sound.removeAll_eq_self {t : FileTree} (h : t.Sound) {place : List String}
    (hnone : t.find? place = none) : t.removeAll place = t := by
  have hplace : place ≠ [] := by
    rintro rfl
    cases hnone
  have hkept : t.nodes.filter (!Path.hasPrefix place ·.1) = t.nodes := by
    rw [List.filter_eq_self]
    intro node hnode
    rw [Bool.not_eq_true', ← Bool.not_eq_true, Path.hasPrefix_iff]
    intro hprefix
    by_cases heq : place = node.1
    · rw [heq, (h.find?_eq_some (h.notTop node hnode)).mpr hnode] at hnone
      cases hnone
    · rw [h.parents node hnode place hprefix heq] at hnone
      cases hnone
  rw [FileTree.removeAll, hkept]

/-- Removing what lies at a resolved path. -/
theorem Sound.remove_eq {t : FileTree} (h : t.Sound) {path : Path} (hpath : path.Resolved)
    {node : Node} (hnode : t.find? path.parts = some node) :
    t.remove path = t.removeAll path.parts := by
  rw [remove, h.resolve_eq hpath hnode]

/-- Removing keeps a tree sound. -/
theorem Sound.remove {t : FileTree} (h : t.Sound) (path : Path) : (t.remove path).Sound := by
  rw [FileTree.remove]
  split
  · exact h.removeAll _
  · exact h

/-- Removing a directory leaves alone what does not lie in it. -/
theorem find?_remove (t : FileTree) {path : Path} (hpath : path.Resolved) {q : List String}
    (h : ¬ path.parts <+: q) : (t.remove path).find? q = t.find? q := by
  rw [FileTree.remove]
  split
  · next place hr =>
    have hplace := follow_eq_normalizeNames hr
    rw [Path.normalizeNames_eq hpath.not_up, List.nil_append] at hplace
    exact t.find?_removeAll (hplace ▸ h)
  · rfl

private theorem mem_insertPlace {entry x : List String × Node}
    {places : List (List String × Node)} :
    x ∈ insertPlace entry places ↔ x = entry ∨ x ∈ places := by
  induction places with
  | nil => simp [insertPlace]
  | cons head rest ih =>
    rw [insertPlace]
    split
    · rw [List.mem_cons, ih, List.mem_cons, or_left_comm]
    · rw [List.mem_cons]

private theorem mem_foldr_insertPlace {places : List (List String × Node)}
    {x : List String × Node} : x ∈ places.foldr insertPlace [] ↔ x ∈ places := by
  induction places with
  | nil => rfl
  | cons head rest ih => rw [List.foldr_cons, mem_insertPlace, ih, List.mem_cons]

/-- What lies below a place, by its components from there. -/
theorem mem_below {t : FileTree} {place names : List String} {node : Node} :
    (names, node) ∈ t.below place ↔ names ≠ [] ∧ (place ++ names, node) ∈ t.nodes := by
  simp only [below, mem_foldr_insertPlace, List.mem_map, List.mem_filter, Bool.and_eq_true,
    decide_eq_true_eq, Path.hasPrefix_iff]
  constructor
  · rintro ⟨⟨whole, other⟩, ⟨hmem, hlength, hprefix⟩, heq⟩
    obtain ⟨back, rfl⟩ := hprefix
    rw [List.drop_left, Prod.mk.injEq] at heq
    obtain ⟨rfl, rfl⟩ := heq
    refine ⟨?_, hmem⟩
    rintro rfl
    simp at hlength
  · rintro ⟨hne, hmem⟩
    refine ⟨(place ++ names, node), ⟨hmem, ?_, List.prefix_append _ _⟩, ?_⟩
    · rw [List.length_append]
      have := List.length_pos_iff.mpr hne
      omega
    · rw [List.drop_left]

/-- The files below a directory, by their components from there. -/
theorem mem_filesBelow {t : FileTree} {path : Path} {place : List String}
    (hplace : t.resolve path = .ok place) {names : List String} {bytes : List UInt8} :
    (names, bytes) ∈ t.filesBelow path ↔
      names ≠ [] ∧ (place ++ names, .file bytes) ∈ t.nodes := by
  rw [filesBelow, hplace, ← mem_below]
  simp only [List.mem_filterMap]
  constructor
  · rintro ⟨⟨other, node⟩, hmem, hsome⟩
    cases node with
    | directory => cases hsome
    | file old =>
      obtain ⟨rfl, rfl⟩ := Prod.mk.inj (Option.some.inj hsome)
      exact hmem
  · intro hmem
    exact ⟨_, hmem, rfl⟩

/-- What is listed below a resolved path lies below its components. -/
theorem node_of_mem_filesBelow {t : FileTree} {path : Path} (hpath : path.Resolved)
    {names : List String} {bytes : List UInt8} (h : (names, bytes) ∈ t.filesBelow path) :
    names ≠ [] ∧ (path.parts ++ names, Node.file bytes) ∈ t.nodes := by
  cases hr : t.resolve path with
  | error problem =>
    rw [filesBelow, hr] at h
    cases h
  | ok place =>
    have hplace := follow_eq_normalizeNames hr
    rw [Path.normalizeNames_eq hpath.not_up, List.nil_append] at hplace
    rw [← hplace]
    exact (mem_filesBelow hr).mp h

/-- The files below a resolved path in a tree that can exist. -/
theorem Sound.mem_filesBelow_iff {t : FileTree} (h : t.Sound) {path : Path} (hpath : path.Resolved)
    {names : List String} {bytes : List UInt8} :
    (names, bytes) ∈ t.filesBelow path ↔
      names ≠ [] ∧ t.find? (path.parts ++ names) = some (.file bytes) := by
  have hne : path.parts ++ names ≠ [] := by simp [hpath.parts_ne_nil]
  constructor
  · intro hmem
    obtain ⟨hnames, hnode⟩ := node_of_mem_filesBelow hpath hmem
    exact ⟨hnames, (h.find?_eq_some hne).mpr hnode⟩
  · rintro ⟨hnames, hfound⟩
    have hdir := h.find?_parent hfound (List.prefix_append _ _) (by simpa using hnames)
    exact (mem_filesBelow (h.resolve_eq hpath hdir)).mpr
      ⟨hnames, (h.find?_eq_some hne).mp hfound⟩

/-- The components of a listed file each name something. -/
theorem Sound.named_filesBelow {t : FileTree} (h : t.Sound) {path : Path} (hpath : path.Resolved)
    {file : List String × List UInt8} (hfile : file ∈ t.filesBelow path) :
    ∀ name ∈ file.1, Path.IsPart name := by
  intro name hname
  refine h.named _ (node_of_mem_filesBelow hpath hfile).2 name ?_
  rw [hpath.parts_eq, List.cons_append, List.tail_cons]
  exact List.mem_append_right _ hname

private theorem insertPlace_map (f : List String × Node → Node) (entry : List String × Node)
    (places : List (List String × Node)) :
    insertPlace (entry.1, f entry) (places.map fun x ↦ (x.1, f x)) =
      (insertPlace entry places).map fun x ↦ (x.1, f x) := by
  induction places with
  | nil => rfl
  | cons head rest ih =>
    rw [List.map_cons, insertPlace, insertPlace]
    split
    · rw [List.map_cons, ih]
    · rfl

private theorem foldr_insertPlace_map (f : List String × Node → Node)
    (places : List (List String × Node)) :
    (places.map fun x ↦ (x.1, f x)).foldr insertPlace [] =
      (places.foldr insertPlace []).map fun x ↦ (x.1, f x) := by
  induction places with
  | nil => rfl
  | cons head rest ih => rw [List.map_cons, List.foldr_cons, ih, insertPlace_map, List.foldr_cons]

/-- What takes another's place stays where that was among what lies below a directory. -/
private theorem below_put {t : FileTree} {place : List String}
    (hany : t.nodes.any (·.1 == place) = true) (node : Node) (top : List String) :
    (t.put place node).below top =
      (t.below top).map fun x ↦ (x.1, if top ++ x.1 = place then node else x.2) := by
  have hnodes : (t.put place node).nodes =
      t.nodes.map fun x ↦ (x.1, if x.1 = place then node else x.2) := by
    rw [FileTree.put, if_pos hany]
    apply List.map_congr_left
    intro x _
    by_cases hx : x.1 = place <;> simp [hx]
  rw [below, below, ← foldr_insertPlace_map, hnodes, List.filter_map, List.map_map, List.map_map]
  refine congrArg (List.foldr insertPlace []) (List.map_congr_left fun x hx ↦ ?_)
  have hprefix := (List.mem_filter.mp hx).2
  simp only [Function.comp_apply, Bool.and_eq_true, Path.hasPrefix_iff] at hprefix
  obtain ⟨back, hback⟩ := hprefix.2
  simp only [Function.comp_apply, ← hback, List.drop_left]

private theorem filterMap_insertPlace {β : Type} {f : List String × Node → Option β}
    {entry : List String × Node} (h : f entry = none) (places : List (List String × Node)) :
    (insertPlace entry places).filterMap f = places.filterMap f := by
  induction places with
  | nil => rw [insertPlace, List.filterMap_cons, h]
  | cons head rest ih =>
    rw [insertPlace]
    split
    · rw [List.filterMap_cons, ih, List.filterMap_cons]
    · rw [List.filterMap_cons, h]

/-- Whatever is put at a place, what is picked elsewhere stays the same, in the same order. -/
theorem filterMap_below_put {β : Type} (t : FileTree) {place top : List String} (node : Node)
    {f : List String × Node → Option β}
    (hf : ∀ names node, names ≠ [] → top ++ names = place → f (names, node) = none) :
    ((t.put place node).below top).filterMap f = (t.below top).filterMap f := by
  by_cases hany : t.nodes.any (·.1 == place) = true
  · rw [below_put hany, List.filterMap_map]
    refine List.filterMap_congr fun x hmem ↦ ?_
    have hne := (mem_below.mp hmem).1
    by_cases hx : top ++ x.1 = place
    · rw [Function.comp_apply, hf x.1 _ hne hx, hf x.1 x.2 hne hx]
    · rw [Function.comp_apply, if_neg hx]
  · rw [put, if_neg hany, below, below]
    by_cases hbelow : top <+: place ∧ top.length < place.length
    · obtain ⟨⟨back, hback⟩, hlength⟩ := hbelow
      have hprefix : Path.hasPrefix top place = true := Path.hasPrefix_iff.mpr ⟨back, hback⟩
      rw [List.filter_cons_of_pos (by simp [hlength, hprefix]), List.map_cons, List.foldr_cons,
        filterMap_insertPlace]
      have hdrop : place.drop top.length = back := by rw [← hback, List.drop_left]
      simp only [hdrop]
      refine hf back node ?_ hback
      rintro rfl
      simp [← hback] at hlength
    · rw [List.filter_cons_of_neg]
      simpa [Path.hasPrefix_iff, and_comm] using hbelow

/-- Overwriting a file leads paths nowhere else. -/
theorem Sound.follow_put {t : FileTree} (h : t.Sound) {place : List String}
    {old bytes : List UInt8} (hne : place ≠ []) (hold : t.find? place = some (.file old))
    (from' names : List String) :
    (t.put place (.file bytes)).follow from' names = t.follow from' names := by
  induction names generalizing from' with
  | nil => rfl
  | cons name names ih =>
    rw [follow, follow, ih]
    simp only [ih, h.find?_put hne]
    by_cases hnext : from' ++ [name] = place
    · simp only [hnext, if_true, hold]
    · simp only [hnext, if_false]

/-- A file that is overwritten stays where it was among the files below a directory. -/
theorem Sound.filesBelow_put {t : FileTree} (h : t.Sound) {place : List String}
    {old bytes : List UInt8} (hne : place ≠ []) (hold : t.find? place = some (.file old))
    {path : Path} {top : List String} (htop : t.resolve path = .ok top) :
    (t.put place (.file bytes)).filesBelow path = (t.filesBelow path).map fun file ↦
      (file.1, if top ++ file.1 = place then bytes else file.2) := by
  have htop' : (t.put place (.file bytes)).resolve path = .ok top := by
    rw [resolve, h.follow_put hne hold]
    exact htop
  have hany : t.nodes.any (·.1 == place) = true :=
    List.any_eq_true.mpr ⟨_, (h.find?_eq_some hne).mp hold, by simp⟩
  have hbelow := below_put hany (.file bytes) top
  rw [filesBelow, filesBelow, htop, htop']
  simp only [hbelow, List.filterMap_map, List.map_filterMap]
  refine List.filterMap_congr fun x hx ↦ ?_
  obtain ⟨names, node⟩ := x
  have hmem := (mem_below.mp hx).2
  by_cases hplace : top ++ names = place
  · have hfile : node = .file old := by
      rw [hplace] at hmem
      have hfound := (h.find?_eq_some hne).mpr hmem
      rw [hold] at hfound
      exact (Option.some.inj hfound).symm
    simp [hplace, hfile]
  · cases node <;> simp [hplace]

end FileTree

/-! ## Places of a project -/

namespace Layout

/-- The components of a path of one more component. -/
@[simp] theorem parts_child (path : Path) (name : String) :
    (child path name).parts = path.parts ++ [name] :=
  Path.parts_join path rfl

/-- A component leads on from the place of a path. -/
theorem place_child (path : Path) {name : String} (hname : name ≠ "..") :
    (child path name).place = path.place ++ [name] :=
  Path.place_join path rfl (by simpa [Path.ofNames] using Ne.symm hname)

@[simp] theorem parent_child (path : Path) (name : String) :
    Workflow.parent (child path name) = path := by
  rw [child, Path.join, Workflow.parent, Path.ofNames]
  simp

/-- A path of one more component is resolved if the component is one. -/
theorem resolved_child {path : Path} (h : path.Resolved) {name : String}
    (hname : Path.IsPart name) : (child path name).Resolved :=
  h.join (List.forall_mem_singleton.mpr hname)

end Layout

/-- A file is written into a directory that exists. -/
theorem FileTree.Sound.write_child {t : FileTree} (h : t.Sound) {dir : Path} (hdir : dir.Resolved)
    (hat : t.find? dir.parts = some .directory) {name : String} (hname : Path.IsPart name)
    (hfree : t.find? (dir.parts ++ [name]) ≠ some .directory) (bytes : List UInt8) :
    t.write (Layout.child dir name) bytes = .ok (t.put (dir.parts ++ [name]) (.file bytes)) := by
  refine FileTree.write_eq_ok_iff.mpr ⟨dir.parts ++ [name], ?_, hfree, rfl⟩
  rw [← Layout.parts_child]
  refine FileTree.resolve_eq_parts (Layout.resolved_child hdir hname) fun front hfront hne ↦ ?_
  rw [Layout.parts_child] at hfront hne
  rcases List.prefix_concat_iff.mp hfront with heq | hfront
  · exact absurd heq hne
  · exact h.find?_front hat hfront

end Guidebook
