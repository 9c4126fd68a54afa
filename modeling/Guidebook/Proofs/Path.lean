import Mathlib.Data.List.Count
import Mathlib.Data.List.Infix
import Guidebook.Project.Load
import Guidebook.Proofs.Text.Split
import Guidebook.Sequence

/-!
# Components of paths

Which components name something by themselves, and where the components of a path lead once every
`..` is carried out.
-/

namespace Guidebook

namespace Path

/-- A component of a path that names something by itself. -/
structure IsPart (name : String) : Prop where
  notUp : name ≠ ".."
  notEmpty : name ≠ ""
  notHere : name ≠ "."
  noSlash : '/' ∉ name.toList

instance (name : String) : Decidable (IsPart name) :=
  decidable_of_iff (name ≠ ".." ∧ name ≠ "" ∧ name ≠ "." ∧ '/' ∉ name.toList)
    ⟨fun h ↦ ⟨h.1, h.2.1, h.2.2.1, h.2.2.2⟩, fun h ↦ ⟨h.1, h.2, h.3, h.4⟩⟩

/-- A path from the top of the file tree on, without `..`. -/
structure Resolved (p : Path) : Prop where
  absolute : p.anchor = "/" ∨ p.anchor = "//"
  parts : ∀ name ∈ p.names, IsPart name

instance (p : Path) : Decidable p.Resolved :=
  decidable_of_iff ((p.anchor = "/" ∨ p.anchor = "//") ∧ ∀ name ∈ p.names, IsPart name)
    ⟨fun h ↦ ⟨h.1, h.2⟩, fun h ↦ ⟨h.1, h.2⟩⟩

/-- What lies above something in a directory lies above the directory or in it. -/
theorem prefix_append_cases {front base names : List String} (h : front <+: base ++ names) :
    front <+: base ∨ ∃ inner, inner ≠ [] ∧ inner <+: names ∧ front = base ++ inner := by
  rcases List.prefix_or_prefix_of_prefix h (List.prefix_append base names) with hout | ⟨inner, rfl⟩
  · exact .inl hout
  · by_cases hinner : inner = []
    · rw [hinner, List.append_nil]
      exact .inl List.prefix_rfl
    · exact .inr ⟨inner, hinner, (List.prefix_append_right_inj base).mp h, rfl⟩

theorem hasPrefix_iff {front names : List String} :
    hasPrefix front names = true ↔ front <+: names := by
  induction front generalizing names with
  | nil => simp [hasPrefix]
  | cons a front ih =>
    cases names with
    | nil => simp [hasPrefix]
    | cons b names => simp [hasPrefix, ih, List.cons_prefix_cons]

/-- A path whose components are written as paths write them. -/
def Plain (path : Path) : Prop := ∀ name ∈ path.names, name = ".." ∨ IsPart name

theorem Resolved.plain {p : Path} (h : p.Resolved) : p.Plain :=
  fun name hname ↦ .inr (h.parts name hname)

/-- Components without `..` stay as they are. -/
theorem normalizeNames_append {names : List String} (h : ".." ∉ names) (done rest : List String) :
    normalizeNames done (names ++ rest) = normalizeNames (done ++ names) rest := by
  induction names generalizing done with
  | nil => rw [List.nil_append, List.append_nil]
  | cons name names ih =>
    have hname : (name == "..") = false := by simpa using fun heq ↦ h (by simp [heq])
    have hrest := ih (fun hm ↦ h (by simp [hm])) (done ++ [name])
    rw [List.cons_append, normalizeNames, hname, List.append_assoc] at *
    simpa using hrest

theorem normalizeNames_eq {names : List String} (h : ".." ∉ names) (done : List String) :
    normalizeNames done names = done ++ names := by
  have happend := normalizeNames_append h done []
  rwa [List.append_nil] at happend

/-- The components of a resolved path. -/
theorem Resolved.parts_eq {p : Path} (h : p.Resolved) : p.parts = p.anchor :: p.names := by
  rcases h.absolute with ha | ha <;> rw [Path.parts, ha] <;> rfl

/-- A resolved path starts at the top of the tree. -/
theorem Resolved.parts_ne_nil {p : Path} (h : p.Resolved) : p.parts ≠ [] := by
  rw [h.parts_eq]
  exact List.cons_ne_nil _ _

/-- Resolved paths are known by their parts. -/
theorem Resolved.eq_of_parts_eq {p q : Path} (hp : p.Resolved) (hq : q.Resolved)
    (h : p.parts = q.parts) : p = q := by
  rw [hp.parts_eq, hq.parts_eq] at h
  obtain ⟨hanchor, hnames⟩ := List.cons.inj h
  rw [Path.mk.injEq]
  exact ⟨hanchor, hnames⟩

theorem Resolved.not_up {p : Path} (h : p.Resolved) : ".." ∉ p.parts := by
  rw [h.parts_eq, List.mem_cons, not_or]
  refine ⟨?_, fun hm ↦ (h.parts _ hm).notUp rfl⟩
  rcases h.absolute with ha | ha <;> rw [ha] <;> decide

/-- A component that is not `..` is the last one however the others are carried out. -/
theorem normalizeNames_concat {name : String} (h : name ≠ "..") (done names : List String) :
    normalizeNames done (names ++ [name]) = normalizeNames done names ++ [name] := by
  have hname : (name == "..") = false := by simpa using h
  induction names generalizing done with
  | nil => simp [normalizeNames, hname]
  | cons first names ih =>
    rw [List.cons_append, normalizeNames, normalizeNames]
    split <;> exact ih _

/-- Components without `..` stay at the end however the others are carried out. -/
theorem normalizeNames_append_eq {back : List String} (h : ".." ∉ back) (done names : List String) :
    normalizeNames done (names ++ back) = normalizeNames done names ++ back := by
  induction names generalizing done with
  | nil => exact normalizeNames_eq h done
  | cons name names ih =>
    rw [List.cons_append, normalizeNames, normalizeNames]
    split <;> exact ih _

/-- Once every `..` is carried out, components that are written as paths write them name something. -/
theorem isPart_normalizeNames {done names : List String} (hdone : ∀ name ∈ done, IsPart name)
    (hnames : ∀ name ∈ names, name = ".." ∨ IsPart name) :
    ∀ name ∈ normalizeNames done names, IsPart name := by
  induction names generalizing done with
  | nil => exact hdone
  | cons first names ih =>
    obtain ⟨hfirst, hnames⟩ := List.forall_mem_cons.mp hnames
    rw [normalizeNames]
    split
    · exact ih (fun name hname ↦ hdone name (List.dropLast_subset _ hname)) hnames
    · next hup =>
      have hpart : IsPart first := hfirst.resolve_left (by simpa using hup)
      exact ih (List.forall_mem_append.mpr ⟨hdone, List.forall_mem_singleton.mpr hpart⟩) hnames

/-- A path from the top of the file tree on is resolved once every `..` is carried out. -/
theorem Plain.normalize {p : Path} (hp : p.Plain) (habsolute : p.anchor = "/" ∨ p.anchor = "//") :
    p.normalize.Resolved :=
  ⟨habsolute, isPart_normalizeNames (by simp) hp⟩

/-- The components that are read from a text are written as paths write them. -/
theorem plain_ofString (s : String) : (ofString s).Plain := by
  intro name hname
  obtain ⟨piece, hpiece, rfl⟩ := List.mem_map.mp hname
  obtain ⟨hsplit, hpiece⟩ := List.mem_filter.mp hpiece
  rw [isName, Bool.and_eq_true, bne_iff_ne, bne_iff_ne] at hpiece
  by_cases hup : String.ofList piece = ".."
  · exact .inl hup
  refine .inr ⟨hup, fun heq ↦ hpiece.1 ?_, fun heq ↦ hpiece.2 ?_, fun hslash ↦ ?_⟩
  · rw [← String.toList_ofList (l := piece), heq]
    rfl
  · rw [← String.toList_ofList (l := piece), heq]
    rfl
  · rw [String.toList_ofList] at hslash
    have hsep := (Text.of_mem_splitBy hsplit hslash).1
    simp at hsep

/-- Text without slashes behind a path stays at the end of its last component. -/
theorem names_append (s : String) {t : String} (hslash : '/' ∉ t.toList)
    (hlong : 1 < t.toList.length) :
    ∃ others last, (ofString (s ++ t)).names = others ++ [last ++ t] := by
  have hsep : ∀ c ∈ t.toList, (c == '/') = false := by
    intro c hc
    rw [beq_eq_false_iff_ne]
    rintro rfl
    exact hslash hc
  obtain ⟨others, last, hsplit⟩ := Text.splitBy_concat s.toList hsep
  have hname : isName (last ++ t.toList) = true := by
    rw [isName, Bool.and_eq_true, bne_iff_ne, bne_iff_ne]
    constructor
    all_goals
      intro heq
      have hlength := congrArg List.length heq
      simp only [List.length_append, List.length_nil, List.length_cons] at hlength
      omega
  refine ⟨(others.filter isName).map String.ofList, String.ofList last, ?_⟩
  change namesOf (s ++ t).toList = _
  rw [namesOf, String.toList_append, Text.splitOnChar, hsplit, List.filter_append, List.map_append,
    List.filter_cons_of_pos hname, List.filter_nil, List.map_singleton, String.ofList_append,
    String.ofList_toList]

/-- A relative path continues another component by component. -/
theorem parts_join (p : Path) {q : Path} (hq : q.anchor = "") :
    (p.join q).parts = p.parts ++ q.names := by
  rw [Path.join, hq]
  change Path.parts ⟨p.anchor, p.names ++ q.names⟩ = _
  rw [parts, parts]
  split <;> rfl

/-- A path that is continued by another ends like it. -/
theorem parts_join_concat (p : Path) {q : Path} {others : List String} {name : String}
    (hq : q.names = others ++ [name]) : ∃ front, (p.join q).parts = front ++ [name] := by
  rw [Path.join]
  split
  · rw [parts, hq, ← List.append_assoc]
    split
    · exact ⟨_, rfl⟩
    · exact ⟨_, List.cons_append.symm⟩
  · rw [parts, hq]
    split
    · exact ⟨_, rfl⟩
    · exact ⟨_, List.cons_append.symm⟩

theorem Plain.join {p q : Path} (hp : p.Plain) (hq : q.Plain) : (p.join q).Plain := by
  rw [Path.join]
  split
  · intro name hname
    exact (List.mem_append.mp hname).elim (hp name) (hq name)
  · exact hq

/-- A resolved path is continued by components that name something. -/
theorem Resolved.join {p : Path} (h : p.Resolved) {names : List String}
    (hnames : ∀ name ∈ names, IsPart name) : (p.join (ofNames names)).Resolved where
  absolute := h.absolute
  parts := by
    intro name hname
    rcases List.mem_append.mp hname with hname | hname
    · exact h.parts name hname
    · exact hnames name hname

theorem Plain.parent {p : Path} (hp : p.Plain) : Plain ⟨p.anchor, p.names.dropLast⟩ :=
  fun name hname ↦ hp name (List.dropLast_subset _ hname)

theorem Plain.noSlash_name {p : Path} (hp : p.Plain) : '/' ∉ p.name.toList := by
  rw [name, List.getLastD_eq_getLast?]
  cases hlast : p.names.getLast? with
  | none => decide
  | some last =>
    rcases hp last (List.mem_of_getLast? hlast) with rfl | hpart
    · decide
    · exact hpart.noSlash

/-- A text without slashes is read as one component at most. -/
theorem ofString_of_noSlash {s : String} (h : '/' ∉ s.toList) :
    (ofString s).anchor = "" ∧ (ofString s).names.length ≤ 1 := by
  have hsep : ∀ c ∈ s.toList, (c == '/') = false := by
    intro c hc
    rw [beq_eq_false_iff_ne]
    rintro rfl
    exact h hc
  constructor
  · rw [ofString, anchorOf.eq_def]
    split
    all_goals first | rfl | (next heq => rw [heq] at h; simp at h)
  · change (namesOf s.toList).length ≤ 1
    rw [namesOf, Text.splitOnChar, Text.splitBy_of_forall hsep, List.length_map]
    exact List.length_filter_le _ _

/-- A text without slashes is read as one component, unless it is the dot, which names nothing. -/
theorem ofString_eq_of_noSlash {s : String} (h : '/' ∉ s.toList) (hne : s ≠ "") :
    ofString s = ofNames (if s = "." then [] else [s]) := by
  have hsep : ∀ c ∈ s.toList, (c == '/') = false := by
    intro c hc
    rw [beq_eq_false_iff_ne]
    rintro rfl
    exact h hc
  have hnames : namesOf s.toList = if s = "." then [] else [s] := by
    rw [namesOf, Text.splitOnChar, Text.splitBy_of_forall hsep, List.filter_singleton]
    by_cases hdot : s = "."
    · simp [hdot, isName]
    · have hempty : s.toList ≠ [] := fun heq ↦ hne (String.toList_eq_nil_iff.mp heq)
      have hname : isName s.toList = true := by
        rw [isName, Bool.and_eq_true, bne_iff_ne, bne_iff_ne]
        exact ⟨hempty, fun heq ↦ hdot (String.toList_inj.mp heq)⟩
      simp [hdot, hname]
  have hanchor := (ofString_of_noSlash h).1
  rw [ofString] at hanchor ⊢
  rw [ofNames, ← hnames]
  exact congrArg (Path.mk · _) hanchor

/-- The place that a path leads to once every `..` is carried out. -/
def place (p : Path) : List String := normalizeNames [] p.parts

/-- A resolved path leads to its own components. -/
theorem Resolved.place_eq {p : Path} (h : p.Resolved) : p.place = p.parts :=
  normalizeNames_eq h.not_up []

/-- Components without `..` lead on from the place of a path. -/
theorem place_join (p : Path) {q : Path} (hq : q.anchor = "") (hup : ".." ∉ q.names) :
    (p.join q).place = p.place ++ q.names := by
  rw [place, place, parts_join p hq, normalizeNames_append_eq hup]

/-- The nearest of the paths at and above a path is the path. -/
theorem ancestors_eq_cons (p : Path) : ∃ above, p.ancestors = p :: above := by
  rw [ancestors, List.range_succ_eq_map, List.map_cons, Nat.sub_zero, List.take_length]
  exact ⟨_, rfl⟩

/-- Above a path of one more component lie the path and what is above it. -/
theorem ancestors_concat (anchor : String) (names : List String) (name : String) :
    ancestors ⟨anchor, names ++ [name]⟩ =
      ⟨anchor, names ++ [name]⟩ :: ancestors ⟨anchor, names⟩ := by
  rw [ancestors, ancestors, List.length_append, List.length_singleton, List.range_succ_eq_map,
    List.map_cons, List.map_map, Nat.sub_zero, List.take_of_length_le (by simp)]
  refine congrArg (List.cons _) (List.map_congr_left fun n _ ↦ ?_)
  rw [Function.comp_apply, Nat.succ_eq_add_one, Nat.add_sub_add_right,
    List.take_append_of_le_length (Nat.sub_le _ _)]

/-- The nearest of a kind, at or above a path, is the one below which there is none. -/
theorem find?_ancestors (kind : Path → Bool) {p : Path} (hhere : kind p = true)
    {names : List String} (hbelow : ∀ front, front <+: names → front ≠ [] →
      kind (p.join (ofNames front)) = false) :
    (p.join (ofNames names)).ancestors.find? kind = some p := by
  induction names using List.reverseRecOn with
  | nil =>
    obtain ⟨above, habove⟩ := ancestors_eq_cons p
    have hself : p.join (ofNames []) = p := by simp [join, ofNames]
    rw [hself, habove, List.find?_cons_of_pos hhere]
  | append_singleton names name ih =>
    have hother := hbelow (names ++ [name]) List.prefix_rfl (by simp)
    have hlast : p.join (ofNames (names ++ [name])) = ⟨p.anchor, p.names ++ names ++ [name]⟩ := by
      simp [join, ofNames]
    rw [hlast] at hother
    rw [hlast, ancestors_concat, List.find?_cons_of_neg (by rw [hother]; decide)]
    exact ih fun front hfront ↦ hbelow front (hfront.trans (List.prefix_append _ _))

/-- Components that name something make a path as paths are written. -/
theorem plain_ofNames {names : List String} (h : ∀ name ∈ names, IsPart name) :
    (ofNames names).Plain :=
  fun name hname ↦ .inr (h name hname)

end Path

namespace Page

/-- The code of a page is not empty. -/
theorem slug_ne_empty {path pagesDir extension : String}
    (h : isPagePath path pagesDir extension = true) : slug path extension ≠ "" := by
  rw [isPagePath, Bool.and_eq_true, Bool.and_eq_true, bne_iff_ne] at h
  intro hslug
  have hname := Text.removeEnding_append h.1.2
  have hfront := String.toList_eq_nil_iff.mpr hslug
  rw [slug, String.toList_ofList] at hfront
  rw [hfront, List.nil_append] at hname
  exact h.2 (String.toList_inj.mp hname.symm)

/-- The code of a page has no slash in it. -/
theorem slash_not_mem_slug (path extension : String) : '/' ∉ (slug path extension).toList := by
  rw [slug, String.toList_ofList]
  intro hslash
  exact (Path.plain_ofString path).noSlash_name (Text.mem_of_mem_removeEnding hslash)

/-- The only page among paths is one of them. -/
theorem mem_of_filter_eq_singleton {paths : List String} {path pagesDir extension : String}
    (h : (paths.filter fun path ↦ isPagePath path pagesDir extension) = [path]) :
    path ∈ paths ∧ isPagePath path pagesDir extension = true :=
  List.mem_filter.mp (h ▸ List.mem_singleton_self path)

/-- A page has the code of its path, which has to be free. -/
theorem code_eq_ok_iff {path extension c : String} :
    code path extension = .ok c ↔ isReserved c = false ∧ c = slug path extension := by
  rw [code]
  split
  · next hreserved =>
    refine iff_of_false (by rintro ⟨⟩) ?_
    rintro ⟨hfree, rfl⟩
    rw [hfree] at hreserved
    cases hreserved
  · next hfree =>
    rw [Except.ok.injEq, eq_comm]
    exact ⟨fun heq ↦ ⟨heq ▸ by simpa using hfree, heq⟩, fun h ↦ h.2⟩

/-- A code that a page may have. -/
structure IsCode (code : String) : Prop where
  notEmpty : code ≠ ""
  noSlash : '/' ∉ code.toList
  notReserved : isReserved code = false

instance (code : String) : Decidable (IsCode code) :=
  decidable_of_iff (code ≠ "" ∧ '/' ∉ code.toList ∧ isReserved code = false)
    ⟨fun h ↦ ⟨h.1, h.2.1, h.2.2⟩, fun h ↦ ⟨h.1, h.2, h.3⟩⟩

/-- A code is read as one component, unless it is the dot. -/
theorem IsCode.ofString_eq {code : String} (h : IsCode code) :
    Path.ofString code = Path.ofNames (if code = "." then [] else [code]) :=
  Path.ofString_eq_of_noSlash h.noSlash h.notEmpty

end Page

end Guidebook
