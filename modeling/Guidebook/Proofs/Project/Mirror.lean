import Guidebook.Proofs.Code.Companion
import Guidebook.Proofs.Project.Frame

/-!
# Mirrored workspaces

A mirror holds every file of a workspace under its own name and its companion beside it. Both
share one space of names, so a workspace may hold a file that is called like the companion of
another, or a directory of that name. It is mirrored faithfully exactly if no companion comes upon
anything but a file of the same bytes, in whatever order the files are written.
-/

namespace Guidebook.Workflow

open Git

/-! ## Names in a mirror -/

/-- A file that a mirror is to hold, by its components, with its bytes. -/
abbrev MirrorFile := List String × List UInt8

/-- The text of a companion: a placeholder for a binary file, otherwise the file's own text. -/
def companionHtml (bytes : List UInt8) (name : String) : List Char :=
  if Code.isBinary bytes then Code.binaryPlaceholder.toList
  else Code.companionText ((Utf8.decode bytes).toOption.getD []) (Path.extension name)

/-- The companion of a file. -/
def companionFile (file : MirrorFile) : MirrorFile :=
  (companionNames file.1, Utf8.encode (companionHtml file.2 (file.1.getLastD "")))

/-- A file that has a companion: its bytes are binary or text. -/
def Readable (bytes : List UInt8) : Prop :=
  Code.isBinary bytes = true ∨ ∃ text, Utf8.decode bytes = .ok text

instance (bytes : List UInt8) : Decidable (Readable bytes) :=
  decidable_of_iff (Code.isBinary bytes = true ∨ (Utf8.decode bytes).toOption.isSome = true) <| by
    rw [Readable]
    cases Utf8.decode bytes <;> simp [Except.toOption]

theorem companionOf_eq_ok {bytes : List UInt8} (h : Readable bytes) (name : String)
    (revision : Option String) (path : String) :
    companionOf bytes name revision path = .ok (companionHtml bytes name) := by
  rw [companionOf, companionHtml]
  split
  · rfl
  · next hbinary =>
    obtain ⟨text, htext⟩ := h.resolve_left hbinary
    rw [htext]
    rfl

/-- Only a file that has a companion is given one. -/
theorem readable_of_companionOf {bytes : List UInt8} {name : String} {revision : Option String}
    {path : String} {text : List Char} (h : companionOf bytes name revision path = .ok text) :
    Readable bytes := by
  rw [companionOf] at h
  split at h
  · next hbinary => exact .inl hbinary
  · split at h
    · next found hfound => exact .inr ⟨found, hfound⟩
    · cases h

/-- Files that can lie beside each other: none lies at or below another. -/
structure Coherent (files : List MirrorFile) : Prop where
  named : ∀ file ∈ files, WorkTree.Named file.1
  apart : ∀ a ∈ files, ∀ b ∈ files, a.1 <+: b.1 → a = b

/-- The companion of a file is called like no other's. -/
theorem companionNames_inj {names other : List String} (hnames : names ≠ []) (hother : other ≠ [])
    (h : companionNames names = companionNames other) : names = other := by
  obtain ⟨hfront, hlast⟩ := List.append_inj' h rfl
  have hname : names.getLastD "" = other.getLastD "" := by
    have heq := congrArg String.toList (List.cons.inj hlast).1
    rw [String.toList_append, String.toList_append, List.append_cancel_right_eq] at heq
    exact String.toList_inj.mp heq
  rw [← List.dropLast_append_getLast hnames, ← List.dropLast_append_getLast hother, hfront]
  rw [List.getLastD_eq_getLast?, List.getLastD_eq_getLast?, List.getLast?_eq_some_getLast hnames,
    List.getLast?_eq_some_getLast hother] at hname
  exact congrArg (_ ++ [·]) hname

private theorem not_prefix_dropLast {names : List String} (hnames : names ≠ []) :
    ¬ names <+: names.dropLast := by
  intro h
  have hlength := h.length_le
  have hpos := List.length_pos_iff.mpr hnames
  rw [List.length_dropLast] at hlength
  omega

/-- What lies at or above a companion is called like it or lies above the file. -/
private theorem prefix_companionNames {front names : List String}
    (h : front <+: companionNames names) :
    front = companionNames names ∨ front <+: names.dropLast := by
  rw [companionNames] at h ⊢
  exact List.prefix_concat_iff.mp h

/-- A file is not in the way of its own companion. -/
theorem companionNames_not_above {names : List String} (hnames : names ≠ []) :
    ¬ companionNames names <+: names := by
  intro h
  have hpos := List.length_pos_iff.mpr hnames
  have heq : companionNames names = names := h.eq_of_length <| by
    rw [companionNames, List.length_append, List.length_dropLast, List.length_singleton]
    omega
  have hlast : names.getLastD "" = names.getLastD "" ++ Code.companionSuffix := by
    conv_lhs => rw [← heq, companionNames, List.getLastD_concat]
  have hsuffix := congrArg String.toList hlast
  rw [String.toList_append, List.self_eq_append_right] at hsuffix
  exact absurd hsuffix (by decide)

variable {files : List MirrorFile}

/-- The files of a workspace with their companions. -/
def withCompanions (files : List MirrorFile) : List MirrorFile :=
  files.flatMap fun file ↦ [file, companionFile file]

theorem mem_withCompanions {file : MirrorFile} :
    file ∈ withCompanions files ↔ file ∈ files ∨ ∃ source ∈ files, file = companionFile source := by
  simp only [withCompanions, List.mem_flatMap, List.mem_cons, List.not_mem_nil, or_false]
  constructor
  · rintro ⟨source, hsource, rfl | rfl⟩
    · exact .inl hsource
    · exact .inr ⟨source, hsource, rfl⟩
  · rintro (hfile | ⟨source, hsource, rfl⟩)
    · exact ⟨file, hfile, .inl rfl⟩
    · exact ⟨source, hsource, .inr rfl⟩

/-- Files can lie beside their companions if every companion that comes upon a file is that file. -/
theorem Coherent.withCompanions (h : Coherent files)
    (hcompanions : ∀ a ∈ files, ∀ b ∈ files, (companionFile a).1 <+: b.1 → companionFile a = b) :
    Coherent (withCompanions files) where
  named := by
    intro file hfile
    rcases mem_withCompanions.mp hfile with hfile | ⟨source, hsource, rfl⟩
    · exact h.named file hfile
    · refine ⟨?_, isPart_companionNames (h.named source hsource)⟩
      simp [companionFile, companionNames]
  apart := by
    intro a ha b hb hprefix
    rcases mem_withCompanions.mp ha with ha | ⟨source, hsource, rfl⟩
    all_goals rcases mem_withCompanions.mp hb with hb | ⟨target, htarget, rfl⟩
    · exact h.apart a ha b hb hprefix
    · have hne := (h.named target htarget).1
      rcases prefix_companionNames hprefix with heq | habove
      · exact (hcompanions target htarget a ha (heq ▸ List.prefix_rfl)).symm
      · obtain rfl := h.apart a ha target htarget (habove.trans (List.dropLast_prefix _))
        exact absurd habove (not_prefix_dropLast hne)
    · exact hcompanions source hsource b hb hprefix
    · have hne := (h.named target htarget).1
      rcases prefix_companionNames hprefix with heq | habove
      · have hnames := companionNames_inj (h.named source hsource).1 hne heq
        rw [h.apart source hsource target htarget (hnames ▸ List.prefix_rfl)]
      · have heq := hcompanions source hsource target htarget
          (habove.trans (List.dropLast_prefix _))
        rw [heq] at habove
        exact absurd habove (not_prefix_dropLast hne)

/-! ## Trees with a mirror -/

variable {out : Path} {held : List MirrorFile} {t : FileTree} {file : MirrorFile}

/-- A file lies in a mirror. -/
def Mirrors (out : Path) (t : FileTree) (file : MirrorFile) : Prop :=
  t.find? (out.parts ++ file.1) = some (.file file.2)

/-- Nothing lies in a directory, which may have to be made, and nothing is in its way. -/
structure Fresh (out : Path) (t : FileTree) : Prop where
  way : ∀ front, front <+: out.parts → ∀ bytes, t.find? front ≠ some (.file bytes)
  nothing : ∀ names, names ≠ [] → t.find? (out.parts ++ names) = none

/-- A directory in which a sound tree lists nothing is fresh. -/
theorem Fresh.of_directory (ht : t.Sound) (hout : t.find? out.parts = some .directory)
    (hnothing : ∀ node ∈ t.nodes, out.parts <+: node.1 → node.1 = out.parts) : Fresh out t where
  way front hfront bytes hfound := by
    rw [ht.find?_front hout hfront] at hfound
    cases hfound
  nothing names hnames := by
    cases hfound : t.find? (out.parts ++ names) with
    | none => rfl
    | some node =>
      have hne : out.parts ++ names ≠ [] := fun heq ↦ hnames (List.append_eq_nil_iff.mp heq).2
      have hself := hnothing _ ((ht.find?_eq_some hne).mp hfound) (List.prefix_append _ _)
      exact absurd (List.append_right_eq_self.mp hself) hnames

/-- A tree while a mirror is made: so far it holds nothing but files of a list, in the directories
that they lie in. -/
structure Mirroring (out : Path) (held : List MirrorFile) (t : FileTree) : Prop where
  sound : t.Sound
  way : ∀ front, front <+: out.parts → ∀ bytes, t.find? front ≠ some (.file bytes)
  files : ∀ names bytes, names ≠ [] → t.find? (out.parts ++ names) = some (.file bytes) →
    (names, bytes) ∈ held
  directories : ∀ names, names ≠ [] → t.find? (out.parts ++ names) = some .directory →
    ∃ file ∈ held, names <+: file.1 ∧ names ≠ file.1

theorem Fresh.mirroring (h : Fresh out t) (ht : t.Sound) : Mirroring out held t where
  sound := ht
  way := h.way
  files names bytes hnames hfound := by
    rw [h.nothing names hnames] at hfound
    cases hfound
  directories names hnames hfound := by
    rw [h.nothing names hnames] at hfound
    cases hfound

namespace Mirroring

variable (h : Mirroring out held t) (hheld : Coherent held)

include h hheld

private theorem find?_put (hfile : file ∈ held) (place : List String) :
    (t.put (out.parts ++ file.1) (.file file.2)).find? place =
      if place = out.parts ++ file.1 then some (.file file.2) else t.find? place :=
  h.sound.find?_put (fun heq ↦ (hheld.named file hfile).1 (List.append_eq_nil_iff.mp heq).2) _ _

/-- A file of the list may be put where it is to lie. -/
private theorem put (hfile : file ∈ held)
    (hsound : (t.put (out.parts ++ file.1) (.file file.2)).Sound) :
    Mirroring out held (t.put (out.parts ++ file.1) (.file file.2)) where
  sound := hsound
  way := by
    intro front hfront bytes
    rw [h.find?_put hheld hfile, if_neg]
    · exact h.way front hfront bytes
    · rintro rfl
      have hlength := hfront.length_le
      rw [List.length_append] at hlength
      have hpos := List.length_pos_iff.mpr (hheld.named file hfile).1
      omega
  files := by
    intro names bytes hnames hfound
    rw [h.find?_put hheld hfile] at hfound
    split at hfound
    · next heq =>
      obtain rfl := List.append_cancel_left heq
      obtain rfl := Node.file.inj (Option.some.inj hfound)
      exact hfile
    · exact h.files names bytes hnames hfound
  directories := by
    intro names hnames hfound
    rw [h.find?_put hheld hfile] at hfound
    split at hfound
    · cases hfound
    · exact h.directories names hnames hfound

variable (hout : out.Resolved)

include hout

/-- The directories that a file is to lie in can be made, which removes nothing. -/
theorem makeDirectories (hfile : file ∈ held) :
    ∃ t', t.makeDirectories (out.join (Path.ofNames file.1.dropLast)) = .ok t' ∧
      Mirroring out held t' ∧ t'.find? (out.parts ++ file.1.dropLast) = some .directory ∧
      ∀ other, Mirrors out t other → Mirrors out t' other := by
  have hnamed := hheld.named file hfile
  have hbelow : file.1.dropLast <+: file.1 := List.dropLast_prefix _
  have hinside : ∀ inner, inner <+: file.1.dropLast → inner <+: file.1 ∧ inner ≠ file.1 := by
    intro inner hinner
    refine ⟨hinner.trans hbelow, ?_⟩
    rintro rfl
    exact not_prefix_dropLast hnamed.1 hinner
  have hpath := hout.join fun name hname ↦ hnamed.2 name (List.dropLast_subset _ hname)
  have hparts : (out.join (Path.ofNames file.1.dropLast)).parts = out.parts ++ file.1.dropLast :=
    Path.parts_join out rfl
  have hfree : ∀ front, front <+: (out.join (Path.ofNames file.1.dropLast)).parts →
      ∀ bytes, t.find? front ≠ some (.file bytes) := by
    intro front hfront bytes hfound
    rw [hparts] at hfront
    rcases Path.prefix_append_cases hfront with habove | ⟨inner, hne, hinner, rfl⟩
    · exact h.way front habove bytes hfound
    · obtain ⟨hwithin, hother⟩ := hinside inner hinner
      have heq := hheld.apart _ (h.files inner bytes hne hfound) file hfile hwithin
      exact hother (congrArg Prod.fst heq)
  obtain ⟨t', hmake, hthere⟩ := h.sound.makeDirectories_eq_ok hpath hfree
  rw [hparts] at hthere
  have hsame : ∀ {q}, ¬ q <+: out.parts ++ file.1.dropLast → t'.find? q = t.find? q :=
    fun hq ↦ h.sound.find?_makeDirectories_of_not_prefix hpath hmake (hparts ▸ hq)
  refine ⟨t', hmake, ?_, hthere _ List.prefix_rfl, fun other hother ↦
    h.sound.find?_makeDirectories hpath.plain hmake hother⟩
  exact {
    sound := h.sound.makeDirectories hpath.plain hmake
    way := by
      intro front hfront bytes hfound
      rw [hthere front (hfront.trans (List.prefix_append _ _))] at hfound
      cases hfound
    files := by
      intro names bytes hnames hfound
      by_cases hq : out.parts ++ names <+: out.parts ++ file.1.dropLast
      · rw [hthere _ hq] at hfound
        cases hfound
      · rw [hsame hq] at hfound
        exact h.files names bytes hnames hfound
    directories := by
      intro names hnames hfound
      by_cases hq : out.parts ++ names <+: out.parts ++ file.1.dropLast
      · exact ⟨file, hfile, hinside names ((List.prefix_append_right_inj _).mp hq)⟩
      · rw [hsame hq] at hfound
        exact h.directories names hnames hfound }

/-- A file can be written into its directory, which overwrites at most the same file. -/
theorem write (hfile : file ∈ held)
    (hparent : t.find? (out.parts ++ file.1.dropLast) = some .directory) :
    ∃ t', t.write (out.join (Path.ofNames file.1)) file.2 = .ok t' ∧ Mirroring out held t' ∧
      t'.find? (out.parts ++ file.1.dropLast) = some .directory ∧ Mirrors out t' file ∧
      ∀ other ∈ held, Mirrors out t other → Mirrors out t' other := by
  have hnamed := hheld.named file hfile
  have hpath := hout.join hnamed.2
  have hparts : (out.join (Path.ofNames file.1)).parts = out.parts ++ file.1 :=
    Path.parts_join out rfl
  have hsplit : out.parts ++ file.1 =
      out.parts ++ file.1.dropLast ++ [file.1.getLast hnamed.1] := by
    rw [List.append_assoc, List.dropLast_append_getLast]
  have hfree : t.find? (out.parts ++ file.1) ≠ some .directory := by
    intro hfound
    obtain ⟨other, hother, hprefix, hdiffers⟩ := h.directories file.1 hnamed.1 hfound
    exact hdiffers (congrArg Prod.fst (hheld.apart file hfile other hother hprefix))
  have hresolve : t.resolve (out.join (Path.ofNames file.1)) = .ok (out.parts ++ file.1) := by
    rw [← hparts]
    apply FileTree.resolve_eq_parts hpath
    intro front hfront hdiffers
    rw [hparts, hsplit] at hfront hdiffers
    exact h.sound.find?_front hparent ((List.prefix_concat_iff.mp hfront).resolve_left hdiffers)
  have hwrite : t.write (out.join (Path.ofNames file.1)) file.2 =
      .ok (t.put (out.parts ++ file.1) (.file file.2)) :=
    FileTree.write_eq_ok_iff.mpr ⟨_, hresolve, hfree, rfl⟩
  refine ⟨_, hwrite, h.put hheld hfile (h.sound.write hpath.plain hwrite), ?_, ?_, ?_⟩
  · rw [h.find?_put hheld hfile, if_neg, hparent]
    intro heq
    apply not_prefix_dropLast hnamed.1
    rw [List.append_cancel_left heq]
  · rw [Mirrors, h.find?_put hheld hfile, if_pos rfl]
  · intro other hother hthere
    rw [Mirrors, h.find?_put hheld hfile]
    split
    · next heq =>
      have hnames := List.append_cancel_left heq
      rw [hheld.apart other hother file hfile (hnames ▸ List.prefix_rfl)]
    · exact hthere

end Mirroring

/-! ## Mirroring -/

theorem dropLast_companionNames (names : List String) :
    (companionNames names).dropLast = names.dropLast :=
  List.dropLast_concat

/-- A file is mirrored with its companion, which removes nothing from the mirror. -/
theorem on_writeMirrored {s : State} (h : Mirroring out held s.files) (hout : out.Resolved)
    (hheld : Coherent held) (hfile : file ∈ held) (hcompanion : companionFile file ∈ held)
    (hreadable : Readable file.2) (revision : Option String) (shown : String) :
    ∃ t, (writeMirrored file.2 (out.join (Path.ofNames file.1)) revision shown).on s =
        (.ok [out.join (Path.ofNames file.1), out.join (Path.ofNames (companionFile file).1)],
          { s with files := t }) ∧
      Mirroring out held t ∧ Mirrors out t file ∧ Mirrors out t (companionFile file) ∧
      ∀ other ∈ held, Mirrors out s.files other → Mirrors out t other := by
  have hnames := (hheld.named file hfile).1
  have hparent : parent (out.join (Path.ofNames file.1)) =
      out.join (Path.ofNames file.1.dropLast) := by
    simp [parent, Path.join, Path.ofNames, List.dropLast_append_of_ne_nil hnames]
  have hname : (out.join (Path.ofNames file.1)).name = file.1.getLastD "" := by
    simp [Path.name, Path.join, Path.ofNames, List.getLastD_eq_getLast?, List.getLast?_append,
      List.getLast?_eq_some_getLast hnames]
  obtain ⟨made, hmake, hmade, hdir, hkept⟩ := h.makeDirectories hheld hout hfile
  obtain ⟨placed, hwrite, hplaced, hbeside, hself, hkept'⟩ := hmade.write hheld hout hfile hdir
  obtain ⟨done, hwrite', hdone, -, hcompanion', hkept''⟩ :=
    hplaced.write hheld hout hcompanion (by rwa [companionFile, dropLast_companionNames])
  refine ⟨done, ?_, hdone, hkept'' file hfile hself, hcompanion', fun other hother hthere ↦
    hkept'' other hother (hkept' other hother (hkept other hthere))⟩
  have hfirst : (Workflow.makeDirectories (out.join (Path.ofNames file.1.dropLast))).on s =
      (.ok (), { s with files := made }) := by
    rw [on_makeDirectories, hmake]
  have hsecond : (Workflow.write (out.join (Path.ofNames file.1)) file.2).on
      { s with files := made } = (.ok (), { s with files := placed }) := by
    rw [on_write]
    simp only [hwrite]
  have hthird : (writeText (out.join (Path.ofNames (companionNames file.1)))
      (companionHtml file.2 (file.1.getLastD ""))).on { s with files := placed } =
        (.ok (), { s with files := done }) := by
    rw [writeText, on_write]
    simp only [companionFile] at hwrite'
    simp only [hwrite']
  rw [writeMirrored, hparent, on_bind_ok hfirst, on_bind_ok hsecond, hname,
    companionOf_eq_ok hreadable, on_bind_ok (on_ofResult _ _), companionPath_join out hnames,
    on_bind_ok hthird, on_pure, companionFile]

variable {Tree Blob : Type} {p : Projection Tree Blob} {tree : Tree}

/-- A tree has files with these bytes where a projection asks for them. -/
def Recorded (p : Projection Tree Blob) (tree : Tree) (files : List MirrorFile) : Prop :=
  ∀ file ∈ files, p.repository.blobAt tree
    (workspacePath p.layout.workspaceDir (WorkTree.gitPath file.1)) = .ok file.2

/-- Files are mirrored one after another, each with its companion. -/
theorem on_exportFiles (hout : out.Resolved) (hheld : Coherent held) (step : Step)
    (hfiles : ∀ file ∈ files, file ∈ held ∧ companionFile file ∈ held)
    (hreadable : ∀ file ∈ files, Readable file.2) (hrecorded : Recorded p tree files) {s : State}
    (h : Mirroring out held s.files) :
    ∃ t, (exportFiles p step tree out (files.map (WorkTree.gitPath ·.1))).on s =
        (.ok ((withCompanions files).map (out.join <| Path.ofNames ·.1)), { s with files := t }) ∧
      Mirroring out held t ∧
      (∀ file ∈ files, Mirrors out t file ∧ Mirrors out t (companionFile file)) ∧
      ∀ other ∈ held, Mirrors out s.files other → Mirrors out t other := by
  -- what the mirror is to hold in the end stays fixed, so earlier files are kept by later ones
  induction files generalizing s with
  | nil => exact ⟨s.files, rfl, h, by simp, fun _ _ hother ↦ hother⟩
  | cons file rest ih =>
    obtain ⟨hfile, hcompanion⟩ := hfiles file List.mem_cons_self
    obtain ⟨made, hfirst, hmade, hself, hbeside, hkept⟩ := on_writeMirrored h hout hheld hfile
      hcompanion (hreadable file List.mem_cons_self) (some step.revision.oid)
      (workspacePath p.layout.workspaceDir (WorkTree.gitPath file.1))
    obtain ⟨t, hrest, hdone, hothers, hkept'⟩ := ih
      (fun other ho ↦ hfiles other (List.mem_cons_of_mem _ ho))
      (fun other ho ↦ hreadable other (List.mem_cons_of_mem _ ho))
      (fun other ho ↦ hrecorded other (List.mem_cons_of_mem _ ho))
      (s := { s with files := made }) hmade
    refine ⟨t, ?_, hdone, ?_, fun other ho hthere ↦ hkept' other ho (hkept other ho hthere)⟩
    · rw [List.map_cons, exportFiles, on_bind_ok (by rw [hrecorded file List.mem_cons_self]; rfl),
        WorkTree.ofString_gitPath (hheld.named file hfile), on_bind_ok hfirst, on_bind_ok hrest]
      rfl
    · exact List.forall_mem_cons.mpr
        ⟨⟨hkept' file hfile hself, hkept' _ hcompanion hbeside⟩, hothers⟩

/-- Where files lie in a sound tree with their companions, no companion comes upon another file. -/
theorem companionFile_eq_of_mirrors (ht : t.Sound)
    (hmirrors : ∀ file ∈ files, Mirrors out t file ∧ Mirrors out t (companionFile file)) :
    ∀ a ∈ files, ∀ b ∈ files, (companionFile a).1 <+: b.1 → companionFile a = b := by
  intro a ha b hb hprefix
  have hcompanion := (hmirrors a ha).2
  have hfile := (hmirrors b hb).1
  rw [Mirrors] at hcompanion hfile
  by_cases heq : (companionFile a).1 = b.1
  · rw [heq, hfile] at hcompanion
    exact Prod.ext heq (Node.file.inj (Option.some.inj hcompanion)).symm
  · have hfront : out.parts ++ (companionFile a).1 <+: out.parts ++ b.1 :=
      (List.prefix_append_right_inj _).mpr hprefix
    have hdirectory := ht.find?_parent hfile hfront fun h ↦ heq (List.append_cancel_left h)
    rw [hcompanion] at hdirectory
    cases hdirectory

/-- A workspace of a binary file and a text. -/
def mixedFiles : List MirrorFile := [(["a"], [0]), (["b", "c"], [104])]

/-- A workspace in which a file is called like the companion of another. -/
def clashingFiles : List MirrorFile := [(["a"], [120]), (["a.html"], [121])]

/-- A tree with files in its workspace. -/
def workspaceTree (files : List MirrorFile) : TreeHandle :=
  ⟨"7ee5", files.map fun file ↦ ⟨WorkTree.gitPath ("workspace" :: file.1), .regular, file.2⟩⟩

/-- A projection to a guide of no steps yet. -/
def emptyProjection : Projection TreeHandle (List UInt8) :=
  ⟨(Store.empty 0).repository "/guide", ⟨⟨"/", ["guide"]⟩, "pages", "workspace"⟩,
    Settings.ofTitle "T", PageIndex.empty, .packaged⟩

/-- A step that shows nothing. -/
def emptyStep : Step :=
  ⟨0, ⟨"c0de01", "Add a"⟩, ⟨"pages/a.md", "a", "A", []⟩, ⟨"", 0, [], []⟩, none, none⟩

/-- A world with a directory to mirror to. -/
def emptyDirectory : State := ⟨⟨[(["/"], .directory), (["/", "o"], .directory)]⟩, [], []⟩

/-- A file that has been written has its companion beside it. -/
theorem on_writeMirrored_eq_ok {bytes : List UInt8} {target : Path} {revision : Option String}
    {path : String} {s after : State} {written : List Path}
    (h : (writeMirrored bytes target revision path).on s = (.ok written, after)) :
    ∃ companion, companionOf bytes target.name revision path = .ok companion ∧
      written = [target, companionPath target] ∧
      after.files.read (companionPath target) = .ok (Utf8.encode companion) := by
  rw [writeMirrored] at h
  obtain ⟨_, made, -, h⟩ := on_bind_eq_ok h
  obtain ⟨_, placed, -, h⟩ := on_bind_eq_ok h
  obtain ⟨companion, same, hresult, h⟩ := on_bind_eq_ok h
  obtain ⟨_, done, hwrite, h⟩ := on_bind_eq_ok h
  obtain ⟨hwritten, rfl⟩ := Prod.mk.inj h
  obtain ⟨t, htree, rfl⟩ := on_write_eq_ok hwrite
  exact ⟨companion, (on_ofResult_eq_ok hresult).1, (Except.ok.inj hwritten).symm,
    FileTree.read_write htree⟩

/-- A script with a byte order mark, a bracket and the other line end. -/
def markedScript : List UInt8 := [0xef, 0xbb, 0xbf, 0x78, 0x3c, 0x0d, 0x0a]

end Guidebook.Workflow
