import Mathlib.Data.Char
import Mathlib.Data.List.Lex
import Mathlib.Data.List.Sort
import Guidebook.Git.Store
import Guidebook.Proofs.Text.Split

/-!
# Sound snapshots

The leaves of a tree stand in the order of their paths, and none lies below another. Putting a leaf
keeps this, so a snapshot is known by its leaves. What is taken out of a staging area is known by
them as well.
-/

namespace Guidebook

namespace Text

/-- Texts are ordered character by character. -/
theorem lessThan_iff {a b : List Char} : lessThan a b = true ↔ a < b := by
  induction a generalizing b with
  | nil => cases b <;> simp [lessThan]
  | cons c a ih =>
    cases b with
    | nil => simp [lessThan]
    | cons d b =>
      rw [lessThan, List.cons_lt_cons_iff]
      by_cases heq : c = d
      · subst heq
        simp [ih]
      · have hbeq : (c == d) = false := by simpa using heq
        have hlt : c.toNat < d.toNat ↔ c < d := by
          rw [Char.lt_def, UInt32.lt_iff_toNat_lt, Char.toNat_val, Char.toNat_val]
        simp [hbeq, heq, hlt]

/-- Texts in order are known by what they are. -/
theorem eq_of_sorted {a b : List String} (ha : a.Pairwise fun x y ↦ x.toList < y.toList)
    (hb : b.Pairwise fun x y ↦ x.toList < y.toList) (h : ∀ x, x ∈ a ↔ x ∈ b) : a = b := by
  have : Std.Irrefl fun x y : String ↦ x.toList < y.toList := ⟨fun x ↦ lt_irrefl _⟩
  have : Std.Antisymm fun x y : String ↦ x.toList < y.toList :=
    ⟨fun x y hxy hyx ↦ absurd hyx hxy.asymm⟩
  exact ha.eq_of_mem_iff hb h

end Text

namespace Git

namespace Snapshot

/-- Neither path is the other or lies below it, so that leaves can be at both. -/
def Clear (a b : String) : Prop :=
  a ≠ b ∧ isBelow a.toList b.toList = false ∧ isBelow b.toList a.toList = false

theorem isBelow_iff {path dir : List Char} : isBelow path dir = true ↔ dir ++ ['/'] <+: path := by
  rw [isBelow, Text.startsWith, Option.isSome_iff_exists]
  simp only [Text.dropPrefix?_eq_some_iff]
  exact exists_congr fun rest ↦ eq_comm

/-- Nothing lies below itself. -/
theorem isBelow_self (path : List Char) : isBelow path path = false := by
  rw [← Bool.not_eq_true, isBelow_iff]
  intro hprefix
  have hlength := hprefix.length_le
  rw [List.length_append, List.length_singleton] at hlength
  omega

/-- A snapshot that can exist. -/
structure Sound (s : Snapshot) : Prop where
  sorted : s.Pairwise fun a b ↦ a.path.toList < b.path.toList
  apart : ∀ a ∈ s, ∀ b ∈ s, isBelow a.path.toList b.path.toList = false

instance (s : Snapshot) : Decidable s.Sound :=
  decidable_of_iff ((s.Pairwise fun a b ↦ a.path.toList < b.path.toList) ∧
    ∀ a ∈ s, ∀ b ∈ s, isBelow a.path.toList b.path.toList = false)
    ⟨fun h ↦ ⟨h.1, h.2⟩, fun h ↦ ⟨h.1, h.2⟩⟩

theorem sound_nil : Sound [] := ⟨List.Pairwise.nil, by simp⟩

/-- A sound snapshot has one leaf at a path. -/
theorem Sound.eq_of_path_eq {s : Snapshot} (h : s.Sound) {a b : Leaf} (ha : a ∈ s) (hb : b ∈ s)
    (heq : a.path = b.path) : a = b := by
  have hnodup : (s.map (·.path)).Nodup :=
    List.pairwise_map.mpr (h.sorted.imp fun hlt heq ↦ hlt.ne (congrArg String.toList heq))
  exact List.inj_on_of_nodup_map hnodup ha hb heq

/-- A leaf of a sound snapshot is found by its path. -/
theorem Sound.leaf?_eq {s : Snapshot} (h : s.Sound) {leaf : Leaf} (hleaf : leaf ∈ s) :
    s.leaf? leaf.path = some leaf := by
  cases hfind : s.leaf? leaf.path with
  | none => exact absurd (List.find?_eq_none.mp hfind leaf hleaf) (by simp)
  | some found =>
    have hpath : found.path = leaf.path := by simpa using List.find?_some hfind
    rw [h.eq_of_path_eq (List.mem_of_find?_eq_some hfind) hleaf hpath]

/-- Different leaves of a sound snapshot are clear of each other. -/
theorem Sound.clear {s : Snapshot} (h : s.Sound) {a b : Leaf} (ha : a ∈ s) (hb : b ∈ s)
    (hne : a ≠ b) : Clear a.path b.path :=
  ⟨fun heq ↦ hne (h.eq_of_path_eq ha hb heq), h.apart a ha b hb, h.apart b hb a ha⟩

/-- A sound snapshot is known by its leaves. -/
theorem Sound.eq_of_mem_iff {s t : Snapshot} (hs : s.Sound) (ht : t.Sound)
    (h : ∀ leaf, leaf ∈ s ↔ leaf ∈ t) : s = t := by
  have : Std.Irrefl fun a b : Leaf ↦ a.path.toList < b.path.toList := ⟨fun a ↦ lt_irrefl _⟩
  have : Std.Antisymm fun a b : Leaf ↦ a.path.toList < b.path.toList :=
    ⟨fun a b hab hba ↦ absurd hba hab.asymm⟩
  exact hs.sorted.eq_of_mem_iff ht.sorted h

/-- Leaving leaves out keeps a snapshot sound. -/
theorem Sound.filter {s : Snapshot} (h : s.Sound) (p : Leaf → Bool) : Sound (s.filter p) where
  sorted := h.sorted.filter p
  apart a ha b hb := h.apart a (List.mem_filter.mp ha).1 b (List.mem_filter.mp hb).1

/-! ## Putting leaves -/

private theorem mem_insertSorted {leaf x : Leaf} {s : Snapshot} :
    x ∈ insertSorted leaf s ↔ x = leaf ∨ x ∈ s := by
  induction s with
  | nil => simp [insertSorted]
  | cons head rest ih =>
    rw [insertSorted]
    split
    · rw [List.mem_cons]
    · rw [List.mem_cons, ih, List.mem_cons, or_left_comm]

private theorem sorted_insertSorted {leaf : Leaf} {s : Snapshot}
    (h : s.Pairwise fun a b ↦ a.path.toList < b.path.toList) (hne : ∀ a ∈ s, a.path ≠ leaf.path) :
    (insertSorted leaf s).Pairwise fun a b ↦ a.path.toList < b.path.toList := by
  induction s with
  | nil => simp [insertSorted]
  | cons head rest ih =>
    obtain ⟨hhead, hrest⟩ := List.pairwise_cons.mp h
    rw [insertSorted]
    split
    · next hlt =>
      have hlt := Text.lessThan_iff.mp hlt
      refine List.pairwise_cons.mpr ⟨?_, h⟩
      intro a ha
      rcases List.mem_cons.mp ha with rfl | ha
      · exact hlt
      · exact hlt.trans (hhead a ha)
    · next hge =>
      rw [Text.lessThan_iff, not_lt] at hge
      have hpath : head.path.toList ≠ leaf.path.toList := fun heq ↦
        hne head (by simp) (String.toList_inj.mp heq)
      refine List.pairwise_cons.mpr ⟨?_, ih hrest fun a ha ↦ hne a (by simp [ha])⟩
      intro a ha
      rcases mem_insertSorted.mp ha with rfl | ha
      · exact lt_of_le_of_ne hge hpath
      · exact hhead a ha

/-- What a snapshot has once a leaf is put: the leaf, and whatever is clear of it. -/
theorem mem_put {s : Snapshot} {leaf x : Leaf} :
    x ∈ s.put leaf ↔ x = leaf ∨ x ∈ s ∧ Clear x.path leaf.path := by
  rw [put, mem_insertSorted, clearAbove, List.mem_filter, remove, List.mem_filter]
  simp [Clear, and_assoc]

/-- Putting a leaf keeps a snapshot sound. -/
theorem Sound.put {s : Snapshot} (h : s.Sound) (leaf : Leaf) : (s.put leaf).Sound where
  sorted := by
    apply sorted_insertSorted
    · exact (h.sorted.filter _).filter _
    · intro a ha
      rw [clearAbove, List.mem_filter, remove, List.mem_filter] at ha
      have hne := ha.1.2
      rw [Bool.and_eq_true, bne_iff_ne] at hne
      exact hne.1
  apart := by
    intro a ha b hb
    rcases mem_put.mp ha with rfl | ⟨ha, hclear⟩
    · rcases mem_put.mp hb with rfl | ⟨hb, hclear⟩
      · exact isBelow_self _
      · exact hclear.2.2
    · rcases mem_put.mp hb with rfl | ⟨hb, -⟩
      · exact hclear.2.1
      · exact h.apart a ha b hb

/-- Leaves put one after another are sound again. -/
theorem Sound.foldl_put {s : Snapshot} (h : s.Sound) (leaves : List Leaf) :
    (leaves.foldl Snapshot.put s).Sound := by
  induction leaves generalizing s with
  | nil => exact h
  | cons leaf leaves ih => exact ih (h.put leaf)

/-- Putting leaves adds nothing but them. -/
theorem mem_of_mem_foldl_put {leaves : List Leaf} {s : Snapshot} {x : Leaf}
    (h : x ∈ leaves.foldl Snapshot.put s) : x ∈ leaves ∨ x ∈ s := by
  induction leaves generalizing s with
  | nil => exact .inr h
  | cons leaf leaves ih =>
    rcases ih h with hx | hx
    · exact .inl (List.mem_cons_of_mem leaf hx)
    · rcases mem_put.mp hx with rfl | ⟨hx, -⟩
      · exact .inl List.mem_cons_self
      · exact .inr hx

/-- What a snapshot has once leaves are put that are clear of each other: all of them, and whatever
is clear of them. -/
theorem mem_foldl_put {leaves : List Leaf}
    (h : ∀ a ∈ leaves, ∀ b ∈ leaves, a ≠ b → Clear a.path b.path) {s : Snapshot} {x : Leaf} :
    x ∈ leaves.foldl Snapshot.put s ↔
      x ∈ leaves ∨ x ∈ s ∧ ∀ leaf ∈ leaves, Clear x.path leaf.path := by
  induction leaves generalizing s with
  | nil => simp
  | cons leaf leaves ih =>
    have hrest : ∀ a ∈ leaves, ∀ b ∈ leaves, a ≠ b → Clear a.path b.path := fun a ha b hb ↦
      h a (List.mem_cons_of_mem leaf ha) b (List.mem_cons_of_mem leaf hb)
    rw [List.foldl_cons, ih hrest, mem_put, List.mem_cons, List.forall_mem_cons]
    constructor
    · rintro (hx | ⟨rfl | ⟨hx, hleaf⟩, hall⟩)
      · exact .inl (.inr hx)
      · exact .inl (.inl rfl)
      · exact .inr ⟨hx, hleaf, hall⟩
    · rintro ((rfl | hx) | ⟨hx, hleaf, hall⟩)
      · by_cases hmem : x ∈ leaves
        · exact .inl hmem
        · refine .inr ⟨.inl rfl, fun b hb ↦ ?_⟩
          exact h x List.mem_cons_self b (List.mem_cons_of_mem x hb) fun heq ↦ hmem (heq ▸ hb)
      · exact .inl hx
      · exact .inr ⟨.inr ⟨hx, hleaf⟩, hall⟩

end Snapshot

/-! ## Taking out of the staging area -/

namespace Store

/-- The repository with something else staged. -/
def withStaged (s : Store) (staged : Snapshot) : Store := { s with staged := staged }

@[simp] theorem staged_withStaged (s : Store) (staged : Snapshot) :
    (s.withStaged staged).staged = staged := rfl

@[simp] theorem head_withStaged (s : Store) (staged : Snapshot) :
    (s.withStaged staged).head = s.head := rfl

variable {s : Store} {covers : String → Bool}

/-- What is staged once paths are set back: the current leaves at the paths, and elsewhere whatever
is clear of these. -/
theorem mem_unstage (hhead : s.head.Sound) {x : Leaf} :
    x ∈ (s.unstage covers).staged ↔ x ∈ s.head ∧ covers x.path = true ∨
      (x ∈ s.staged ∧ covers x.path = false) ∧
        ∀ leaf ∈ s.head, covers leaf.path = true → Snapshot.Clear x.path leaf.path := by
  rw [unstage]
  simp only
  rw [Snapshot.mem_foldl_put]
  · simp only [List.mem_filter, Bool.not_eq_true', and_imp]
  · intro a ha b hb hne
    exact hhead.clear (List.mem_filter.mp ha).1 (List.mem_filter.mp hb).1 hne

/-- Setting paths back keeps a staging area sound. -/
theorem sound_unstage (h : s.staged.Sound) : (s.unstage covers).staged.Sound :=
  (h.filter _).foldl_put _

/-- Setting paths back brings an older staging area back exactly if at the paths it was the current
snapshot, and nothing of it is missing elsewhere. -/
theorem unstage_staged_eq_iff {old : Snapshot} (hold : old.Sound) (hstaged : s.staged.Sound)
    (hhead : s.head.Sound)
    (helse : ∀ leaf ∈ s.staged, covers leaf.path = false → leaf ∈ old) :
    (s.unstage covers).staged = old ↔
      (∀ leaf : Leaf, covers leaf.path = true → (leaf ∈ old ↔ leaf ∈ s.head)) ∧
        ∀ leaf ∈ old, covers leaf.path = false → leaf ∈ s.staged := by
  constructor
  · rintro rfl
    constructor
    · intro leaf hleaf
      rw [mem_unstage hhead]
      constructor
      · rintro (h | h)
        · exact h.1
        · rw [hleaf] at h
          cases h.1.2
      · intro h
        exact .inl ⟨h, hleaf⟩
    · intro leaf hmem hleaf
      rcases (mem_unstage hhead).mp hmem with h | h
      · rw [hleaf] at h
        cases h.2
      · exact h.1.1
  · rintro ⟨hcovered, hrest⟩
    refine (sound_unstage hstaged).eq_of_mem_iff hold fun leaf ↦ ?_
    rw [mem_unstage hhead]
    cases hleaf : covers leaf.path with
    | true => simp [hcovered leaf hleaf]
    | false =>
      simp only [Bool.false_eq_true, and_false, and_true, false_or]
      constructor
      · exact fun h ↦ helse leaf h.1 hleaf
      · intro h
        refine ⟨hrest leaf h hleaf, fun other ho hother ↦ ?_⟩
        refine hold.clear h ((hcovered other hother).mpr ho) ?_
        rintro rfl
        rw [hleaf] at hother
        cases hother

end Store

end Git

end Guidebook
