import Guidebook.Git.WorkTree
import Guidebook.Page
import Guidebook.Proofs.Files
import Guidebook.Proofs.Git.Snapshot
import Guidebook.Proofs.Result

/-!
# Sound work trees

The files of a work tree have different paths, none of them below another. What is staged of them
is then known leaf by leaf, and paths of git are their components written with slashes.

Whether a file is untracked is decided for the file alone, by what is staged and by the ignore files
in the directories above it. So two work trees that have a file and these ignore files in common say
the same of it, whatever else there is in them.
-/

namespace Guidebook.Git

open Snapshot

/-! ## Paths of git -/

/-- The components of what lies below a directory start with those of the directory. -/
theorem components_prefix_of_isBelow {path dir : String}
    (h : isBelow path.toList dir.toList = true) : components dir <+: components path := by
  obtain ⟨rest, hrest⟩ := isBelow_iff.mp h
  have hsplit : Text.splitOnChar '/' path.toList =
      Text.splitOnChar '/' dir.toList ++ Text.splitOnChar '/' rest := by
    rw [← hrest, List.append_assoc]
    exact Text.splitBy_append_cons _ _ rfl
  rw [components, components, hsplit, List.map_append]
  exact List.prefix_append _ _

namespace WorkTree

/-- Components that a file can have. -/
def Named (names : List String) : Prop := names ≠ [] ∧ ∀ name ∈ names, Path.IsPart name

instance (names : List String) : Decidable (Named names) :=
  inferInstanceAs (Decidable (names ≠ [] ∧ ∀ name ∈ names, Path.IsPart name))

/-- Components that a path can be written with: those that a file can have, and ways up. -/
def Written (names : List String) : Prop :=
  names ≠ [] ∧ ∀ name ∈ names, name = ".." ∨ Path.IsPart name

theorem Named.written {names : List String} (h : Named names) : Written names :=
  ⟨h.1, fun name hname ↦ .inr (h.2 name hname)⟩

private theorem Written.noSlash {names : List String} (h : Written names) {name : String}
    (hname : name ∈ names) : '/' ∉ name.toList := by
  rcases h.2 name hname with rfl | hpart
  · decide
  · exact hpart.noSlash

private theorem Written.isName {names : List String} (h : Written names) {name : String}
    (hname : name ∈ names) : name ≠ "" ∧ name ≠ "." := by
  rcases h.2 name hname with rfl | hpart
  · decide
  · exact ⟨hpart.notEmpty, hpart.notHere⟩

private theorem splitOnChar_gitPath {names : List String} (h : Written names) :
    Text.splitOnChar '/' (gitPath names).toList = names.map String.toList := by
  rw [gitPath, Text.joinStrings, String.toList_ofList]
  apply Text.splitOnChar_joinWith
  · simpa using h.1
  · intro piece hpiece
    obtain ⟨name, hname, rfl⟩ := List.mem_map.mp hpiece
    exact h.noSlash hname

/-- A path has the components it is made of. -/
@[simp] theorem components_gitPath {names : List String} (h : Named names) :
    components (gitPath names) = names := by
  rw [components, splitOnChar_gitPath h.written, List.map_map]
  simp

/-- Different components make different paths. -/
theorem gitPath_inj {a b : List String} (ha : Named a) (hb : Named b)
    (h : gitPath a = gitPath b) : a = b := by
  rw [← components_gitPath ha, h, components_gitPath hb]

/-- A path is read as the components it is written with. -/
theorem Written.ofString_gitPath {names : List String} (h : Written names) :
    Path.ofString (gitPath names) = Path.ofNames names := by
  have hnames : Path.namesOf (gitPath names).toList = names := by
    rw [Path.namesOf, splitOnChar_gitPath h, List.filter_eq_self.mpr]
    · simp
    · intro piece hpiece
      obtain ⟨name, hname, rfl⟩ := List.mem_map.mp hpiece
      obtain ⟨hne, hdot⟩ := h.isName hname
      have hempty : name.toList ≠ [] := fun heq ↦ hne (String.toList_eq_nil_iff.mp heq)
      have hhere : name.toList ≠ ['.'] := fun heq ↦ hdot (String.toList_inj.mp heq)
      simp [Path.isName, hempty, hhere]
  have hanchor : Path.anchorOf (gitPath names).toList = "" := by
    obtain ⟨first, rest, rfl⟩ := List.exists_cons_of_ne_nil h.1
    have hfirst : first.toList ≠ [] := fun heq ↦
      (h.isName List.mem_cons_self).1 (String.toList_eq_nil_iff.mp heq)
    obtain ⟨c, cs, hc⟩ := List.exists_cons_of_ne_nil hfirst
    have hslash : c ≠ '/' := by
      have := h.noSlash (List.mem_cons_self (a := first) (l := rest))
      rw [hc, List.mem_cons, not_or] at this
      exact fun heq ↦ this.1 heq.symm
    obtain ⟨tail, htail⟩ : ∃ tail, (gitPath (first :: rest)).toList = c :: tail := by
      rw [gitPath, Text.joinStrings, String.toList_ofList, List.map_cons, hc]
      cases rest.map String.toList <;> exact ⟨_, rfl⟩
    rw [htail, Path.anchorOf.eq_def]
    split <;> simp_all
  rw [Path.ofString, hnames, hanchor]
  rfl

/-- A path is read as the components it is made of. -/
theorem ofString_gitPath {names : List String} (h : Named names) :
    Path.ofString (gitPath names) = Path.ofNames names :=
  h.written.ofString_gitPath

/-- The components of a path make the path. -/
theorem gitPath_components (path : String) : gitPath (components path) = path := by
  have hjoin : ∀ cs : List Char, Text.joinWith ['/'] (Text.splitOnChar '/' cs) = cs := by
    intro cs
    induction cs with
    | nil => rfl
    | cons c cs ih =>
      obtain ⟨piece, rest, hsplit⟩ :=
        List.exists_cons_of_ne_nil (Text.splitBy_ne_nil (p := (· == '/')) cs)
      rw [Text.splitOnChar, hsplit] at ih
      rw [Text.splitOnChar, Text.splitBy, hsplit]
      by_cases hc : c = '/'
      · subst hc
        simp [Text.joinWith, ih]
      · rw [if_neg (by simpa using hc)]
        cases rest with
        | nil => simpa [Text.joinWith] using ih
        | cons next rest => simpa [Text.joinWith] using ih
  rw [components, gitPath, Text.joinStrings, List.map_map]
  have hid : String.toList ∘ String.ofList = id := by
    funext cs
    simp
  rw [hid, List.map_id]
  exact (congrArg String.ofList (hjoin path.toList)).trans String.ofList_toList

/-- The path of components in two parts has a slash between the parts. -/
theorem toList_gitPath_append {front back : List String} (hfront : front ≠ []) (hback : back ≠ []) :
    (gitPath (front ++ back)).toList = (gitPath front).toList ++ '/' :: (gitPath back).toList := by
  have hfront : front.map String.toList ≠ [] := by simpa using hfront
  have hback : back.map String.toList ≠ [] := by simpa using hback
  have hjoin := Text.joinWith_append ['/'] hfront hback
  simp only [gitPath, Text.joinStrings, String.toList_ofList, List.map_append]
  simpa using hjoin

/-- A path lies below another exactly if it continues its components. -/
theorem isBelow_gitPath {names dir : List String} (hnames : Named names) (hdir : Named dir) :
    isBelow (gitPath names).toList (gitPath dir).toList = true ↔
      dir.length < names.length ∧ dir <+: names := by
  constructor
  · intro h
    have hfront := components_prefix_of_isBelow h
    rw [components_gitPath hnames, components_gitPath hdir] at hfront
    refine ⟨lt_of_le_of_ne hfront.length_le fun hlength ↦ ?_, hfront⟩
    rw [hfront.eq_of_length hlength, isBelow_self] at h
    cases h
  · rintro ⟨hlength, rest, rfl⟩
    have hrest : rest ≠ [] := by
      rintro rfl
      simp at hlength
    rw [isBelow_iff, toList_gitPath_append hdir.1 hrest]
    exact ⟨(gitPath rest).toList, by simp⟩

/-- A character other than a slash is in a path exactly if it is in a component. -/
theorem mem_gitPath {names : List String} {c : Char} (h : c ∈ (gitPath names).toList)
    (hc : c ≠ '/') : ∃ name ∈ names, c ∈ name.toList := by
  rw [gitPath, Text.joinStrings, String.toList_ofList] at h
  rcases Text.mem_joinWith h with h | ⟨piece, hpiece, h⟩
  · exact absurd (List.mem_singleton.mp h) hc
  · obtain ⟨name, hname, rfl⟩ := List.mem_map.mp hpiece
    exact ⟨name, hname, h⟩

/-- Components are written as their path. -/
theorem toString_ofNames {names : List String} (h : names ≠ []) :
    (Path.ofNames names).toString = gitPath names := by
  have hempty : names.isEmpty = false := List.isEmpty_eq_false_iff.mpr h
  change (if ("" == "" && names.isEmpty) = true then "." else "" ++ Text.joinStrings "/" names) = _
  rw [hempty, Bool.and_false, if_neg Bool.false_ne_true, String.empty_append]
  rfl

/-- What remains of a written path below a directory. -/
theorem Written.namesBelow_eq_ok_iff {names rest : List String} (h : Written names)
    {dir : String} :
    Path.namesBelow (gitPath names) dir = .ok rest ↔
      (Path.ofString dir).parts <+: names ∧ names.drop (Path.ofString dir).parts.length = rest := by
  have hrelative : (Path.ofNames names).relativeTo? (Path.ofString dir) =
      if Path.hasPrefix (Path.ofString dir).parts names = true then
        some (names.drop (Path.ofString dir).parts.length) else none := by
    have hanchor : ((Path.ofNames names).anchor != "") = false := rfl
    rw [Path.relativeTo?, hanchor, Bool.and_false, if_neg Bool.false_ne_true]
    rfl
  rw [Path.namesBelow, h.ofString_gitPath, hrelative, ← Path.hasPrefix_iff]
  by_cases hfront : Path.hasPrefix (Path.ofString dir).parts names = true
  · simp only [if_pos hfront, Except.ok.injEq, and_iff_right hfront]
  · simp only [hfront, Bool.false_eq_true, if_false, reduceCtorEq, false_and]

/-- What remains of a path below a directory. -/
theorem namesBelow_gitPath_eq_ok_iff {names rest : List String} (h : Named names) {dir : String} :
    Path.namesBelow (gitPath names) dir = .ok rest ↔
      (Path.ofString dir).parts <+: names ∧ names.drop (Path.ofString dir).parts.length = rest :=
  h.written.namesBelow_eq_ok_iff

/-- Paths none of which continues the other are clear of each other. -/
theorem clear_gitPath {a b : List String} (ha : Named a) (hb : Named b) (hab : ¬ a <+: b)
    (hba : ¬ b <+: a) : Clear (gitPath a) (gitPath b) := by
  refine ⟨?_, ?_, ?_⟩
  · rintro heq
    exact hab (gitPath_inj ha hb heq ▸ List.prefix_rfl)
  · rw [← Bool.not_eq_true]
    intro hbelow
    have hprefix := components_prefix_of_isBelow hbelow
    rw [components_gitPath ha, components_gitPath hb] at hprefix
    exact hba hprefix
  · rw [← Bool.not_eq_true]
    intro hbelow
    have hprefix := components_prefix_of_isBelow hbelow
    rw [components_gitPath ha, components_gitPath hb] at hprefix
    exact hab hprefix

/-! ## Paths of pages -/

/-- Components without `..` are followed as they stand. -/
theorem followNames_eq {names : List String} (h : ".." ∉ names) (place : List String) :
    followNames place names = some (place ++ names) := by
  induction names generalizing place with
  | nil => rw [followNames, List.append_nil]
  | cons name names ih =>
    rw [List.mem_cons, not_or] at h
    have hname : (name == "..") = false := by simpa using Ne.symm h.1
    rw [followNames, hname, if_neg Bool.false_ne_true, ih h.2, List.append_assoc,
      List.singleton_append]

/-- A path that commands are given is read as its components, step by step. -/
theorem pathspec_eq_ok {place names : List String} {path : String}
    (h : pathspec place path = .ok names) :
    Path.ofString path = Path.ofNames (Path.ofString path).parts ∧
      followNames place (Path.ofString path).parts = some names := by
  rw [pathspec] at h
  split at h
  · cases h
  · simp only at h
    split at h
    · cases h
    · next hanchor =>
      have hanchor : (Path.ofString path).anchor = "" := by simpa using hanchor
      have hparts : (Path.ofString path).parts = (Path.ofString path).names := by
        rw [Path.parts, hanchor]
        rfl
      rw [hparts]
      refine ⟨?_, ?_⟩
      · rw [Path.ofNames, ← hanchor]
      · split at h
        · next found hfound => rw [hfound, Except.ok.inj h]
        · cases h

/-- A path without `..` is taken as it is written. -/
theorem pathspec_eq_parts {path : String} {place : List String}
    (h : pathspec [] path = .ok place) (hup : ".." ∉ (Path.ofString path).parts) :
    place = (Path.ofString path).parts := by
  have hfollow := (pathspec_eq_ok h).2
  rw [followNames_eq hup] at hfollow
  exact (Option.some.inj hfollow).symm

/-- A page lies where commands look for it that are given the pages directory. -/
theorem prefix_of_isPagePath {names place : List String} (hnames : Named names)
    {pagesDir extension : String} (hplace : pathspec [] pagesDir = .ok place)
    (h : Page.isPagePath (gitPath names) pagesDir extension = true) : place <+: names := by
  rw [Page.isPagePath, Bool.and_eq_true, Bool.and_eq_true, Path.isUnder, ofString_gitPath hnames,
    Bool.and_eq_true, Path.hasPrefix_iff] at h
  have hfront : (Path.ofString pagesDir).parts <+: names := h.1.1.2
  rw [pathspec_eq_parts hplace fun hup ↦ (hnames.2 _ (hfront.mem hup)).notUp rfl]
  exact hfront

/-- Giving a command the pages directory covers every page. -/
theorem covers_page {names : List String} (hnames : Named names) {pagesDir extension : String}
    {places : List (List String)} (hplaces : ∃ place ∈ places, pathspec [] pagesDir = .ok place)
    (h : Page.isPagePath (gitPath names) pagesDir extension = true) :
    covers places (gitPath names) = true := by
  obtain ⟨place, hmem, hplace⟩ := hplaces
  refine List.any_eq_true.mpr ⟨place, hmem, ?_⟩
  rw [components_gitPath hnames, Path.hasPrefix_iff]
  exact prefix_of_isPagePath hnames hplace h

/-! ## Lists of paths -/

private theorem mem_insertPath {path x : String} {paths : List String} :
    x ∈ insertPath path paths ↔ x = path ∨ x ∈ paths := by
  induction paths with
  | nil => simp [insertPath]
  | cons head rest ih =>
    rw [insertPath]
    split
    · next heq =>
      rw [beq_iff_eq] at heq
      simp [heq]
    · split
      · rw [List.mem_cons]
      · rw [List.mem_cons, ih, List.mem_cons, or_left_comm]

theorem mem_foldr_insertPath {paths : List String} {x : String} :
    x ∈ paths.foldr insertPath [] ↔ x ∈ paths := by
  induction paths with
  | nil => rfl
  | cons path paths ih => rw [List.foldr_cons, mem_insertPath, ih, List.mem_cons]

private theorem sorted_insertPath {path : String} {paths : List String}
    (h : paths.Pairwise fun a b ↦ a.toList < b.toList) :
    (insertPath path paths).Pairwise fun a b ↦ a.toList < b.toList := by
  induction paths with
  | nil => exact List.pairwise_singleton _ _
  | cons head rest ih =>
    obtain ⟨hhead, hrest⟩ := List.pairwise_cons.mp h
    rw [insertPath]
    split
    · exact h
    · next hne =>
      split
      · next hlt =>
        have hlt := Text.lessThan_iff.mp hlt
        refine List.pairwise_cons.mpr ⟨?_, h⟩
        intro a ha
        rcases List.mem_cons.mp ha with rfl | ha
        · exact hlt
        · exact hlt.trans (hhead a ha)
      · next hge =>
        rw [Text.lessThan_iff, not_lt] at hge
        refine List.pairwise_cons.mpr ⟨?_, ih hrest⟩
        intro a ha
        rcases mem_insertPath.mp ha with rfl | ha
        · exact lt_of_le_of_ne hge fun heq ↦ hne (beq_iff_eq.mpr (String.toList_inj.mp heq).symm)
        · exact hhead a ha

/-! ## What is staged -/

/-- A work tree that can exist. -/
structure Sound (w : WorkTree) : Prop where
  named : ∀ file ∈ w.files, Named file.1
  unique : ∀ a ∈ w.files, ∀ b ∈ w.files, a.1 = b.1 → a = b
  apart : ∀ a ∈ w.files, ∀ b ∈ w.files, a.1 <+: b.1 → a.1 = b.1

/-- Whether a file is taken when places are staged. -/
def takes (w : WorkTree) (places : List (List String)) (names : List String) : Bool :=
  covers places (gitPath names) && (w.isTracked names || !ignores w.ignoreFiles names)

/-- A file is staged as a file. -/
theorem isSubmodule_leafOf (w : WorkTree) (names : List String) (bytes : List UInt8) :
    (w.leafOf names bytes).isSubmodule = false := by
  rw [leafOf]
  split <;> rfl

/-- The leaves that are taken when places are staged. -/
def taken (w : WorkTree) (places : List (List String)) : List Leaf :=
  (w.files.filter (w.takes places ·.1)).map fun file ↦ w.leafOf file.1 file.2

private theorem stage_eq (w : WorkTree) (places : List (List String)) :
    w.stage places = (w.taken places).foldl Snapshot.put
      (w.store.staged.filter fun leaf ↦ !covers places leaf.path || leaf.isSubmodule) := by
  rw [taken, List.foldl_map]
  rfl

theorem mem_taken {w : WorkTree} {places : List (List String)} {leaf : Leaf} :
    leaf ∈ w.taken places ↔
      ∃ file ∈ w.files, w.takes places file.1 = true ∧ w.leafOf file.1 file.2 = leaf := by
  rw [taken, List.mem_map]
  simp only [List.mem_filter, and_assoc]

/-- What staging one place takes: what lies there, unless it is ignored and not tracked. -/
theorem takes_singleton {w : WorkTree} {place names : List String} (hnames : Named names) :
    w.takes [place] names = true ↔
      place <+: names ∧ (w.isTracked names = true ∨ ignores w.ignoreFiles names = false) := by
  rw [takes, covers, List.any_cons, List.any_nil, Bool.or_false, components_gitPath hnames,
    Bool.and_eq_true, Path.hasPrefix_iff, Bool.or_eq_true, Bool.not_eq_true']

/-- Staging keeps a staging area sound. -/
theorem sound_stage {w : WorkTree} (h : w.store.staged.Sound) (places : List (List String)) :
    (w.stage places).Sound := by
  rw [stage_eq]
  exact (h.filter _).foldl_put _

/-- Staging adds nothing outside of what it is asked to stage. -/
theorem mem_staged_of_mem_stage {w : WorkTree} {places : List (List String)} {leaf : Leaf}
    (h : leaf ∈ w.stage places) (hleaf : covers places leaf.path = false) :
    leaf ∈ w.store.staged := by
  rw [stage_eq] at h
  rcases mem_of_mem_foldl_put h with hmem | hmem
  · obtain ⟨file, -, htakes, rfl⟩ := mem_taken.mp hmem
    rw [takes, Bool.and_eq_true] at htakes
    rw [leafOf, htakes.1] at hleaf
    cases hleaf
  · exact (List.mem_filter.mp hmem).1

private theorem Sound.clear_taken {w : WorkTree} (h : w.Sound) {places : List (List String)} :
    ∀ a ∈ w.taken places, ∀ b ∈ w.taken places, a ≠ b → Clear a.path b.path := by
  intro a ha b hb hne
  obtain ⟨file, hfile, -, rfl⟩ := mem_taken.mp ha
  obtain ⟨other, ho, -, rfl⟩ := mem_taken.mp hb
  have hnames : file.1 ≠ other.1 := fun heq ↦ hne (by rw [h.unique file hfile other ho heq])
  exact clear_gitPath (h.named file hfile) (h.named other ho)
    (fun hprefix ↦ hnames (h.apart file hfile other ho hprefix))
    fun hprefix ↦ hnames (h.apart other ho file hfile hprefix).symm

/-- What is staged: the leaves taken, and those in nobody's way that were staged outside of what is
asked for or as submodules. -/
theorem Sound.mem_stage {w : WorkTree} (h : w.Sound) {places : List (List String)} {leaf : Leaf} :
    leaf ∈ w.stage places ↔ leaf ∈ w.taken places ∨
      (leaf ∈ w.store.staged ∧ (covers places leaf.path = false ∨ leaf.isSubmodule = true)) ∧
        ∀ other ∈ w.taken places, Clear leaf.path other.path := by
  rw [stage_eq, mem_foldl_put h.clear_taken, List.mem_filter, Bool.or_eq_true, Bool.not_eq_true']

/-- Git does not complain if none of the places it is to stage is ignored. -/
private theorem add_eq_ok_none {w : WorkTree} {paths : List String} {store : Store}
    (h : w.add paths = .ok (store, none)) {places : List (List String)}
    (hplaces : w.places paths = .ok places) : ∀ place ∈ places, w.ignoredFront? place = none := by
  intro place hplace
  rw [add, hplaces] at h
  simp only [bind, Except.bind] at h
  split at h
  · cases h
  · have hcomplaint := (Prod.mk.inj (Except.ok.inj h)).2
    rw [ite_eq_left_iff] at hcomplaint
    by_contra hfront
    obtain ⟨front, hfront⟩ := Option.ne_none_iff_exists'.mp hfront
    have hmem : gitPath front ∈
        ((places.filterMap w.ignoredFront?).map gitPath).foldr insertPath [] :=
      mem_foldr_insertPath.mpr
        (List.mem_map_of_mem (List.mem_filterMap.mpr ⟨place, hplace, hfront⟩))
    refine Option.some_ne_none _ (hcomplaint fun hnone ↦ ?_)
    rw [List.isEmpty_iff.mp hnone] at hmem
    cases hmem

/-- A file that git stages by its name without complaining is taken. -/
theorem Sound.takes_of_add {w : WorkTree} (hw : w.Sound) {paths : List String} {store : Store}
    (h : w.add paths = .ok (store, none)) {places : List (List String)}
    (hplaces : w.places paths = .ok places) {file : List String × List UInt8}
    (hfile : file ∈ w.files) (hplace : file.1 ∈ places) : w.takes places file.1 = true := by
  have hnamed := hw.named file hfile
  have hcovers : covers places (gitPath file.1) = true := by
    refine List.any_eq_true.mpr ⟨file.1, hplace, ?_⟩
    rw [components_gitPath hnamed, Path.hasPrefix_iff]
  rw [takes, hcovers, Bool.true_and]
  cases htracked : w.isTracked file.1 with
  | true => rfl
  | false =>
    have hnone := List.find?_eq_none.mp (add_eq_ok_none h hplaces file.1 hplace)
    have hfront : ∀ level < file.1.length, _ := fun level hlevel ↦
      hnone _ (List.mem_map_of_mem (List.mem_range.mpr hlevel))
    have hlong : 0 < file.1.length := List.length_pos_iff.mpr hnamed.1
    rw [Bool.false_or, Bool.not_eq_true', ignores, Bool.or_eq_false_iff, List.any_eq_false]
    constructor
    · -- the directories above the file are not ignored
      intro level hlevel
      have hlevel := List.mem_range.mp hlevel
      have hhere := hfront level (by omega)
      rw [if_pos] at hhere
      · exact hhere
      · refine List.any_eq_true.mpr ⟨file.1, List.mem_map_of_mem hfile, ?_⟩
        rw [Bool.and_eq_true, decide_eq_true_eq, Path.hasPrefix_iff, List.length_take]
        exact ⟨by omega, List.take_prefix _ _⟩
    · -- neither is the file, below which there is nothing
      have hhere := hfront (file.1.length - 1) (by omega)
      rw [Nat.sub_add_cancel hlong, List.take_length, if_neg] at hhere
      · rw [htracked, Bool.not_false, Bool.and_true, Bool.and_eq_true, not_and,
          Bool.not_eq_true] at hhere
        exact hhere (List.contains_iff_mem.mpr (List.mem_map_of_mem hfile))
      · rw [Bool.not_eq_true, List.any_eq_false]
        intro names hnames
        obtain ⟨other, hother, rfl⟩ := List.mem_map.mp hnames
        rw [Bool.and_eq_true, decide_eq_true_eq, Path.hasPrefix_iff]
        rintro ⟨hlength, hprefix⟩
        rw [hw.apart file hfile other hother hprefix] at hlength
        exact lt_irrefl _ hlength

/-! ## What is listed -/

/-- From the top a place is seen as it is. -/
@[simp] theorem seenFrom_nil (names : List String) : seenFrom [] names = names := by
  cases names <;> rfl

/-- From a place another is seen by the way up to where the two part, and down from there. -/
theorem seenFrom_eq (place names : List String) :
    ∃ common up down, place = common ++ up ∧ names = common ++ down ∧
      seenFrom place names = up.map (fun _ ↦ "..") ++ down ∧
      ∀ front, front <+: place → front <+: names → front <+: common := by
  induction place generalizing names with
  | nil => exact ⟨[], [], names, rfl, rfl, by simp, fun front h _ ↦ h⟩
  | cons dir place ih =>
    cases names with
    | nil => exact ⟨[], dir :: place, [], rfl, rfl, rfl, fun front _ h ↦ h⟩
    | cons name names =>
      by_cases heq : dir = name
      · obtain rfl := heq
        obtain ⟨common, up, down, rfl, rfl, hseen, hcommon⟩ := ih names
        refine ⟨dir :: common, up, down, rfl, rfl, ?_, fun front hplace hnames ↦ ?_⟩
        · rw [seenFrom, if_pos (beq_self_eq_true dir), hseen]
        · cases front with
          | nil => exact List.nil_prefix
          | cons first front =>
            rw [List.cons_prefix_cons] at hplace hnames ⊢
            exact ⟨hplace.1, hcommon front hplace.2 hnames.2⟩
      · refine ⟨[], dir :: place, name :: names, rfl, rfl, ?_, fun front hplace hnames ↦ ?_⟩
        · rw [seenFrom, if_neg (by simpa using heq)]
        · cases front with
          | nil => exact List.nil_prefix
          | cons first front =>
            exact absurd ((List.cons_prefix_cons.mp hplace).1.symm.trans
              (List.cons_prefix_cons.mp hnames).1) heq

/-- Following nothing but ways up leads to a place above. -/
theorem followNames_up {place found : List String} {count : Nat}
    (h : followNames place (List.replicate count "..") = some found) :
    found = place.take (place.length - count) := by
  induction count generalizing place with
  | zero => simpa [followNames, eq_comm] using h
  | succ count ih =>
    rw [List.replicate_succ, followNames, if_pos (beq_self_eq_true "..")] at h
    split at h
    · cases h
    · rw [ih h, List.length_dropLast, List.dropLast_eq_take, List.take_take]
      congr 1
      omega

/-- Nothing remains of an empty path. -/
private theorem namesBelow_empty {dir : String} {rest : List String}
    (h : Path.namesBelow (gitPath []) dir = .ok rest) : rest = [] := by
  have hread : Path.ofString (gitPath []) = Path.ofNames [] := by decide
  rw [Path.namesBelow, hread, Path.relativeTo?] at h
  repeat' split at h
  all_goals simp_all [Path.ofNames, Path.parts]

/-- What is listed below a directory lies below it as it is seen: no way up remains. -/
theorem suffix_of_namesBelow_shown {w : WorkTree} {names : List String} (hnames : Named names)
    {dir : String} {place rest : List String} (hplace : pathspec w.place dir = .ok place)
    (hbelow : place <+: names) (h : Path.namesBelow (w.shown names) dir = .ok rest) :
    rest <:+ names := by
  obtain ⟨common, up, down, hup, rfl, hseen, hcommon⟩ := seenFrom_eq w.place names
  rw [shown, hseen] at h
  by_cases hempty : up.map (fun _ ↦ "..") ++ down = []
  · rw [hempty] at h
    exact namesBelow_empty h ▸ List.nil_suffix
  have hdown : ∀ name ∈ down, Path.IsPart name := fun name hname ↦
    hnames.2 name (List.mem_append_right _ hname)
  have hwritten : Written (up.map (fun _ ↦ "..") ++ down) := by
    refine ⟨hempty, fun name hname ↦ ?_⟩
    rcases List.mem_append.mp hname with hname | hname
    · exact .inl (List.mem_map.mp hname).choose_spec.2.symm
    · exact .inr (hdown name hname)
  obtain ⟨hfront, rfl⟩ := hwritten.namesBelow_eq_ok_iff.mp h
  obtain ⟨-, hfollow⟩ := pathspec_eq_ok hplace
  generalize (Path.ofString dir).parts = parts at hfront hfollow
  have hmap : up.map (fun _ ↦ "..") = List.replicate up.length ".." := by simp
  rw [hmap] at hfront ⊢
  -- a directory that leads up less far does not have the file below it
  have hlong : up.length ≤ parts.length := by
    by_contra hshort
    rw [not_le] at hshort
    have hparts : parts = List.replicate parts.length ".." := by
      have htake := List.prefix_iff_eq_take.mp hfront
      rw [List.take_append_of_le_length (by simpa using hshort.le), List.take_replicate,
        min_eq_left hshort.le] at htake
      exact htake
    rw [hparts] at hfollow
    obtain rfl := followNames_up hfollow
    have hlength := (hcommon _ (List.take_prefix _ _) hbelow).length_le
    rw [List.length_take, hup, List.length_append] at hlength
    omega
  have hrest : (List.replicate up.length ".." ++ down).drop parts.length =
      down.drop (parts.length - up.length) := by
    rw [List.drop_append, List.drop_eq_nil_of_le (by simpa using hlong), List.nil_append,
      List.length_replicate]
  rw [hrest]
  exact (List.drop_suffix _ _).trans (List.suffix_append _ _)


/-- Paths are listed in order. -/
theorem sorted_listing (w : WorkTree) (places : List (List String)) :
    (w.listing places).Pairwise fun a b ↦ a.toList < b.toList := by
  rw [listing]
  generalize places.map w.shown = paths
  induction paths with
  | nil => exact List.Pairwise.nil
  | cons path paths ih => exact sorted_insertPath ih

/-- The files that are neither tracked nor ignored. -/
theorem mem_others {w : WorkTree} {place names : List String} :
    names ∈ w.others place ↔ (∃ file ∈ w.files, file.1 = names) ∧ place <+: names ∧
      w.isTracked names = false ∧ ignores w.ignoreFiles names = false := by
  rw [others, List.mem_filter, List.mem_map, Bool.and_eq_true, Bool.and_eq_true,
    Path.hasPrefix_iff, Bool.not_eq_true', Bool.not_eq_true', and_assoc]

/-- The tracked files. -/
theorem mem_tracked {w : WorkTree} {place names : List String} :
    names ∈ w.tracked place ↔
      (∃ leaf ∈ w.store.staged, components leaf.path = names) ∧ place <+: names := by
  rw [tracked, List.mem_filter, List.mem_map, Path.hasPrefix_iff]

theorem mem_listing {w : WorkTree} (htop : w.place = []) {places : List (List String)}
    {path : String} : path ∈ w.listing places ↔ ∃ names ∈ places, gitPath names = path := by
  have hshown : w.shown = gitPath := by
    funext names
    rw [shown, htop, seenFrom_nil]
  rw [listing, mem_foldr_insertPath, List.mem_map, hshown]

/-- What is listed as untracked at the top of a repository. -/
theorem mem_untracked {w : WorkTree} (htop : w.place = []) {dir : String} {paths : List String}
    (h : w.untracked dir = .ok paths) {path : String} :
    path ∈ paths ↔ ∃ place, pathspec [] dir = .ok place ∧ ∃ names ∈ w.others place,
      path = gitPath names := by
  rw [untracked, htop] at h
  obtain ⟨place, hplace, rfl⟩ := map_eq_ok h
  simp only [mem_listing htop, hplace, Except.ok.injEq, exists_eq_left', eq_comm]

/-- What is listed at the top of a repository. -/
theorem listed_eq_ok {w : WorkTree} (htop : w.place = []) {dir : String} {paths : List String}
    (h : w.listed dir = .ok paths) :
    ∃ place, pathspec [] dir = .ok place ∧ paths = w.listing (w.tracked place ++ w.others place) ∧
      ∀ path, path ∈ paths ↔ ∃ names ∈ w.tracked place ++ w.others place, gitPath names = path := by
  rw [listed, htop] at h
  obtain ⟨place, hplace, rfl⟩ := map_eq_ok h
  exact ⟨place, hplace, rfl, fun path ↦ mem_listing htop⟩

/-- A file that is listed is one that staging its place takes. -/
theorem Sound.mem_listed {w : WorkTree} (hw : w.Sound) {place names : List String} :
    (names ∈ w.tracked place ++ w.others place ∧ ∃ file ∈ w.files, file.1 = names) ↔
      ∃ file ∈ w.files, file.1 = names ∧ w.takes [place] file.1 = true := by
  have htakes : ∀ file ∈ w.files, w.takes [place] file.1 = true ↔
      file.1 ∈ w.tracked place ++ w.others place := by
    intro file hfile
    have hnamed := hw.named file hfile
    have htracked : (∃ leaf ∈ w.store.staged, components leaf.path = file.1) ↔
        w.isTracked file.1 = true := by
      rw [isTracked, List.any_eq_true]
      refine exists_congr fun leaf ↦ and_congr_right fun _ ↦ ?_
      rw [beq_iff_eq]
      exact ⟨fun h ↦ by rw [← h, gitPath_components], fun h ↦ by rw [h, components_gitPath hnamed]⟩
    rw [takes_singleton hnamed, List.mem_append, mem_tracked, mem_others, htracked]
    cases htrack : w.isTracked file.1 with
    | true => simp
    | false => simp only [Bool.false_eq_true, false_and, false_or, true_and,
        and_iff_right (⟨file, hfile, rfl⟩ : ∃ other ∈ w.files, other.1 = file.1)]
  constructor
  · rintro ⟨hlisted, file, hfile, rfl⟩
    exact ⟨file, hfile, rfl, (htakes file hfile).mpr hlisted⟩
  · rintro ⟨file, hfile, rfl, h⟩
    exact ⟨(htakes file hfile).mp h, file, hfile, rfl⟩

/-- What a staging area has at or below a place is what is taken there, if the place is staged or
nothing is listed there, and no submodule is. -/
theorem Sound.mem_stage_below {w : WorkTree} (hw : w.Sound) {place : List String}
    {places : List (List String)}
    (hplaces : place ∈ places ∨ w.tracked place ++ w.others place = [])
    (hmodules : ∀ leaf ∈ w.store.staged, leaf.isSubmodule = true → ¬ place <+: components leaf.path)
    {leaf : Leaf} :
    leaf ∈ w.stage places ∧ place <+: components leaf.path ↔ leaf ∈ w.taken [place] := by
  have hcovers {path : String} (hmem : place ∈ places) (hbelow : place <+: components path) :
      covers places path = true :=
    List.any_eq_true.mpr ⟨place, hmem, Path.hasPrefix_iff.mpr hbelow⟩
  constructor
  · rintro ⟨hleaf, hbelow⟩
    rcases hw.mem_stage.mp hleaf with htaken | ⟨⟨hold, houtside⟩, -⟩
    · obtain ⟨file, hfile, htakes, rfl⟩ := mem_taken.mp htaken
      have hnamed := hw.named file hfile
      rw [leafOf, components_gitPath hnamed] at hbelow
      rw [takes, Bool.and_eq_true, Bool.or_eq_true, Bool.not_eq_true'] at htakes
      exact mem_taken.mpr ⟨file, hfile, (takes_singleton hnamed).mpr ⟨hbelow, htakes.2⟩, rfl⟩
    · -- what stays as it was staged lies elsewhere
      have houtside := houtside.resolve_right fun hmodule ↦ hmodules leaf hold hmodule hbelow
      rcases hplaces with hmem | hnone
      · rw [hcovers hmem hbelow] at houtside
        cases houtside
      · have htracked := mem_tracked.mpr ⟨⟨leaf, hold, rfl⟩, hbelow⟩
        rw [(List.append_eq_nil_iff.mp hnone).1] at htracked
        cases htracked
  · intro htaken
    obtain ⟨file, hfile, htakes, rfl⟩ := mem_taken.mp htaken
    have hnamed := hw.named file hfile
    obtain ⟨hbelow, hkept⟩ := (takes_singleton hnamed).mp htakes
    refine ⟨?_, by rwa [leafOf, components_gitPath hnamed]⟩
    rcases hplaces with hmem | hnone
    · refine hw.mem_stage.mpr (.inl (mem_taken.mpr ⟨file, hfile, ?_, rfl⟩))
      rw [takes, hcovers hmem (by rwa [components_gitPath hnamed]), Bool.true_and, Bool.or_eq_true,
        Bool.not_eq_true']
      exact hkept
    · have hlisted := (hw.mem_listed.mpr ⟨file, hfile, rfl, htakes⟩).1
      rw [hnone] at hlisted
      cases hlisted

/-- Work trees in which git lists the same files: they may differ in what the files hold. -/
structure Alike (v w : WorkTree) : Prop where
  names : v.files.map (·.1) = w.files.map (·.1)
  rules : v.ignoreFiles = w.ignoreFiles
  place : v.place = w.place
  store : v.store = w.store

theorem Alike.untracked {v w : WorkTree} (h : v.Alike w) (path : String) :
    v.untracked path = w.untracked path := by
  have hothers : v.others = w.others := by
    funext place
    simp only [others, isTracked, h.names, h.rules, h.store]
  have hshown : v.shown = w.shown := by
    funext names
    simp only [shown, h.place]
  rw [WorkTree.untracked, WorkTree.untracked, hothers, h.place]
  simp only [listing, hshown]

end WorkTree

/-! ## Ignore files -/

section Rules

variable {files other : IgnoreFiles} {names : List String}

theorem verdictFrom_congr {above : List String}
    (h : ∀ dir, dir <+: above.reverse → files.lookup dir = other.lookup dir) (isDirectory : Bool)
    (names : List String) :
    verdictFrom files isDirectory names above = verdictFrom other isDirectory names above := by
  induction above generalizing names with
  | nil => rw [verdictFrom, verdictFrom, h [] List.prefix_rfl]
  | cons dir above ih =>
    have hself := h (dir :: above).reverse List.prefix_rfl
    have hrest := ih (fun front hfront ↦ h front ?_) (dir :: names)
    · rw [verdictFrom, verdictFrom, hself, hrest]
    · rw [List.reverse_cons]
      exact hfront.trans (List.prefix_append _ _)

theorem ignoresPlace_congr
    (h : ∀ dir, dir <+: names.dropLast → files.lookup dir = other.lookup dir)
    (isDirectory : Bool) : ignoresPlace files names isDirectory =
      ignoresPlace other names isDirectory := by
  rw [ignoresPlace, ignoresPlace, verdictFrom_congr]
  rwa [List.reverse_reverse]

/-- What is ignored goes by the ignore files in the directories above. -/
theorem ignores_congr (h : ∀ dir, dir <+: names.dropLast → files.lookup dir = other.lookup dir) :
    ignores files names = ignores other names := by
  rw [ignores, ignores, ignoresPlace_congr h]
  congr 2
  funext level
  refine ignoresPlace_congr (fun dir hdir ↦ h dir (hdir.trans ?_)) true
  rw [List.dropLast_eq_take, List.dropLast_eq_take, List.take_take, List.length_take]
  exact List.take_prefix_take_left (by omega)

end Rules

namespace WorkTree

variable {v w : WorkTree} {names : List String}

/-- A directory's rules are read from the ignore file that lies in it. -/
theorem Sound.lookup_ignoreFiles (hw : w.Sound) {dir : List String} {rules : List IgnoreRule} :
    w.ignoreFiles.lookup dir = some rules ↔ ∃ bytes, (dir ++ [".gitignore"], bytes) ∈ w.files ∧
      readIgnore (Utf8.decodeLenient bytes) = rules := by
  have hmem : ∀ found, (dir, found) ∈ w.ignoreFiles ↔
      ∃ bytes, (dir ++ [".gitignore"], bytes) ∈ w.files ∧
        readIgnore (Utf8.decodeLenient bytes) = found := by
    intro found
    rw [ignoreFiles, List.mem_filterMap]
    constructor
    · rintro ⟨⟨names, bytes⟩, hfile, hsome⟩
      simp only [beq_iff_eq] at hsome
      split at hsome
      · next hlast =>
        obtain ⟨rfl, rfl⟩ := Prod.mk.inj (Option.some.inj hsome)
        refine ⟨bytes, ?_, rfl⟩
        rwa [List.dropLast_append_getLast? _ hlast]
      · cases hsome
    · rintro ⟨bytes, hfile, rfl⟩
      exact ⟨_, hfile, by simp⟩
  rw [← hmem]
  refine ⟨mem_of_lookup, fun hlisted ↦ ?_⟩
  cases hfound : w.ignoreFiles.lookup dir with
  | none => simpa using List.lookup_eq_none_iff.mp hfound _ hlisted
  | some found =>
    obtain ⟨bytes, hfile, rfl⟩ := (hmem found).mp (mem_of_lookup hfound)
    obtain ⟨other, hother, rfl⟩ := (hmem rules).mp hlisted
    obtain ⟨-, rfl⟩ := Prod.mk.inj (hw.unique _ hfile _ hother rfl)
    rfl

/-- A file is untracked in two work trees at once if both have it and the ignore files above it. -/
theorem Sound.mem_others_congr (hv : v.Sound) (hw : w.Sound) (hstore : v.store = w.store)
    (hfile : ∀ bytes, (names, bytes) ∈ v.files ↔ (names, bytes) ∈ w.files)
    (hrules : ∀ dir, dir <+: names.dropLast → ∀ bytes,
      (dir ++ [".gitignore"], bytes) ∈ v.files ↔ (dir ++ [".gitignore"], bytes) ∈ w.files)
    (place : List String) : names ∈ v.others place ↔ names ∈ w.others place := by
  have hignored : ignores v.ignoreFiles names = ignores w.ignoreFiles names := by
    refine ignores_congr fun dir hdir ↦ Option.ext fun rules ↦ ?_
    rw [hv.lookup_ignoreFiles, hw.lookup_ignoreFiles]
    simp only [hrules dir hdir]
  have hthere : (∃ file ∈ v.files, file.1 = names) ↔ ∃ file ∈ w.files, file.1 = names := by
    constructor
    · rintro ⟨⟨names, bytes⟩, hmem, rfl⟩
      exact ⟨_, (hfile bytes).mp hmem, rfl⟩
    · rintro ⟨⟨names, bytes⟩, hmem, rfl⟩
      exact ⟨_, (hfile bytes).mpr hmem, rfl⟩
  rw [mem_others, mem_others, hthere, hignored, isTracked, isTracked, hstore]

/-- What is picked of the untracked files depends on the picked files alone. -/
theorem filter_untracked_congr (hplace : v.place = w.place) {dir : String} {p : String → Bool}
    (h : ∀ place, pathspec w.place dir = .ok place → ∀ names, p (w.shown names) = true →
      (names ∈ v.others place ↔ names ∈ w.others place)) :
    (v.untracked dir).map (·.filter p) = (w.untracked dir).map (·.filter p) := by
  have hshown : v.shown = w.shown := by
    funext names
    rw [shown, shown, hplace]
  rw [untracked, untracked, hplace]
  cases hspec : pathspec w.place dir with
  | error complaint => rfl
  | ok place =>
    have hsorted : ∀ x : WorkTree, ((x.listing (x.others place)).filter p).Pairwise fun a b ↦
        a.toList < b.toList := fun x ↦ (x.sorted_listing _).filter _
    have hmem : ∀ path, path ∈ (v.listing (v.others place)).filter p ↔
        path ∈ (w.listing (w.others place)).filter p := by
      intro path
      rw [List.mem_filter, List.mem_filter, listing, listing, mem_foldr_insertPath,
        mem_foldr_insertPath, List.mem_map, List.mem_map, hshown]
      refine and_congr_left fun hpath ↦ exists_congr fun names ↦ and_congr_left ?_
      rintro rfl
      exact h place hspec names hpath
    exact congrArg Except.ok (Text.eq_of_sorted (hsorted v) (hsorted w) hmem)

end WorkTree

end Guidebook.Git
