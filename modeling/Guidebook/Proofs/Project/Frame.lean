import Guidebook.Project.Build
import Guidebook.Project.Preview
import Guidebook.Proofs.Git.Store
import Guidebook.Proofs.Outline.Paths
import Guidebook.Proofs.Project.Outage
import Guidebook.Proofs.Sequence

/-!
# What exports touch

An export makes directories and writes files, whatever it comes to. Everything is left alone that
none of its paths leads to. Paths are taken for where they lead, since a style or a code may climb;
directories on the way to them are made only where nothing is.
-/

namespace Guidebook.Workflow

open Git

variable {α : Type} {P : State → Prop} {touched : List String → Prop}
  {look : List String → Option Node} {repositories : List (Path × Store)}

/-! ## Properties of files -/

/-- A property of sound files beside given repositories, whatever was reported. -/
structure AboutFiles (P : State → Prop) (repositories : List (Path × Store)) : Prop where
  sound : ∀ s, P s → s.files.Sound
  repositories : ∀ s, P s → s.repositories = repositories
  same : ∀ s t, Same t s → P s → P t

namespace AboutFiles

variable (hP : AboutFiles P repositories)

include hP

/-- What changes nothing but the reports keeps it. -/
theorem keeps {w : Workflow α} {Q : State → α → Prop} (h : ∀ s, Keeps (Same · s) w (Q s)) :
    Keeps P w fun a ↦ ∃ s, P s ∧ Q s a := by
  intro s hs
  obtain ⟨hsame, hanswer⟩ := h s s (Same.refl s)
  exact ⟨hP.same _ _ hsame hs, fun a ha ↦ ⟨s, hs, hanswer a ha⟩⟩

theorem keeps_log (level : LogLevel) (logger message : String) :
    Keeps P (log level logger message) fun _ ↦ True :=
  Keeps.log (fun s _ hs ↦ hP.same s _ ⟨rfl, rfl⟩ hs) _ _ _

end AboutFiles

/-- Worlds in which, wherever nothing is touched, there lies what a look showed. -/
structure Within (touched : List String → Prop) (look : List String → Option Node)
    (repositories : List (Path × Store)) (s : State) : Prop where
  files : s.files.Sound
  elsewhere : ∀ place, ¬ touched place → s.files.find? place = look place
  repositories : s.repositories = repositories

/-- Nothing is touched yet. -/
theorem Within.refl {s : State} (h : s.files.Sound) :
    Within touched s.files.find? s.repositories s :=
  ⟨h, fun _ _ ↦ rfl, rfl⟩

theorem Within.of_same {s t : State} (h : Same t s) (hs : Within touched look repositories s) :
    Within touched look repositories t := by
  refine ⟨?_, ?_, h.2.trans hs.repositories⟩
  · rw [h.1]
    exact hs.files
  · rw [h.1]
    exact hs.elsewhere

theorem Within.aboutFiles : AboutFiles (Within touched look repositories) repositories :=
  ⟨fun _ hs ↦ hs.files, fun _ hs ↦ hs.repositories, fun _ _ hsame hs ↦ hs.of_same hsame⟩

/-- What changes nothing but the reports touches nothing. -/
theorem keeps_of_same {w : Workflow α} {Q : State → α → Prop}
    (h : ∀ s, Keeps (Same · s) w (Q s)) :
    Keeps (Within touched look repositories) w fun a ↦
      ∃ s, Within touched look repositories s ∧ Q s a :=
  Within.aboutFiles.keeps h

theorem keeps_log (level : LogLevel) (logger message : String) :
    Keeps (Within touched look repositories) (log level logger message) fun _ ↦ True :=
  Within.aboutFiles.keeps_log _ _ _

/-! ## Where files are admitted -/

/-- Writing a file to a path keeps a property, and so does making the directories for it. -/
structure Admits (P : State → Prop) (path : Path) : Prop where
  makes : Keeps P (makeDirectories (parent path)) fun _ ↦ True
  writes : ∀ content, Keeps P (write path content) fun _ ↦ True

/-- A file is written with the directories on the way to it, before anything else. -/
theorem Admits.keeps_write {path : Path} (h : Admits P path) (content : List UInt8)
    {w : Workflow α} {Q : α → Prop} (hw : Keeps P w Q) :
    Keeps P (do makeDirectories (parent path); write path content; w) Q :=
  h.makes.bind fun _ _ ↦ (h.writes content).bind fun _ _ ↦ hw

/-- Writing files below a directory keeps a property. -/
def AdmitsBelow (P : State → Prop) (dir : Path) : Prop :=
  ∀ names, (∀ name ∈ names, Path.IsPart name) → Admits P (dir.join (Path.ofNames names))

/-- What lies below a child lies below the directory. -/
theorem join_child (dir : Path) (name : String) (names : List String) :
    (Layout.child dir name).join (Path.ofNames names) =
      dir.join (Path.ofNames (name :: names)) := by
  simp [Layout.child, Path.join, Path.ofNames]

theorem AdmitsBelow.child {dir : Path} (h : AdmitsBelow P dir) {name : String}
    (hname : Path.IsPart name) : AdmitsBelow P (Layout.child dir name) := by
  intro names hnames
  rw [join_child]
  exact h _ (List.forall_mem_cons.mpr ⟨hname, hnames⟩)

theorem AdmitsBelow.file {dir : Path} (h : AdmitsBelow P dir) {name : String}
    (hname : Path.IsPart name) : Admits P (Layout.child dir name) :=
  h [name] (by simpa using hname)

/-! ## Making and writing -/

/-- On the way along components everything may be touched or is there. -/
def Grounded (touched : List String → Prop) (look : List String → Option Node)
    (parts : List String) : Prop :=
  ∀ front, front <+: parts → touched (Path.normalizeNames [] front) ∨
    (look (Path.normalizeNames [] front)).isSome = true

theorem Grounded.of_prefix {front parts : List String} (h : Grounded touched look parts)
    (hfront : front <+: parts) : Grounded touched look front :=
  fun other hother ↦ h other (hother.trans hfront)

/-- Directories are made where they may be: they are made where nothing is. -/
theorem keeps_makeDirectories {path : Path} (hpath : path.Plain)
    (hgrounded : Grounded touched look path.parts) :
    Keeps (Within touched look repositories) (makeDirectories path) fun _ ↦ True := by
  intro s hs
  refine ⟨?_, fun _ _ ↦ trivial⟩
  rw [on_makeDirectories]
  cases hmake : s.files.makeDirectories path with
  | error problem => exact hs
  | ok t =>
    have hboth : t.Sound ∧ ∀ place, ¬ touched place → t.find? place = look place := by
      apply FileTree.makeSteps_induct (P := fun u ↦
        u.Sound ∧ ∀ place, ¬ touched place → u.find? place = look place) ?_
        ⟨hs.files, hs.elsewhere⟩ hmake
      rintro u place front ⟨hu, helsewhere⟩ hfront hr hnone
      have hplace := FileTree.follow_eq_normalizeNames hr
      obtain ⟨hne, hput⟩ := hu.put_step hpath hfront hr hnone
      refine ⟨hput, fun other hother ↦ ?_⟩
      rw [hu.find?_put hne, if_neg, helsewhere other hother]
      rintro rfl
      rcases hgrounded front hfront with htouched | hthere
      · exact hother (hplace ▸ htouched)
      · rw [← hplace, ← helsewhere _ hother, hnone] at hthere
        cases hthere
    exact ⟨hboth.1, hboth.2, hs.repositories⟩

/-- A file is written where it may be. -/
theorem keeps_write {path : Path} (hpath : path.Plain) (htouched : touched path.place)
    (content : List UInt8) :
    Keeps (Within touched look repositories) (write path content) fun _ ↦ True := by
  intro s hs
  refine ⟨?_, fun _ _ ↦ trivial⟩
  rw [on_write]
  cases hwrite : s.files.write path content with
  | error problem => exact hs
  | ok t =>
    refine ⟨hs.files.write hpath hwrite, fun place hplace ↦ ?_, hs.repositories⟩
    refine (hs.files.find?_write hwrite fun heq ↦ ?_).trans (hs.elsewhere place hplace)
    exact hplace (heq ▸ htouched)

/-- A directory is cleared that may be. -/
theorem keeps_clearDirectory {path : Path} (hpath : path.Resolved)
    (htouched : ∀ place, path.parts <+: place → touched place) :
    Keeps (Within touched look repositories) (clearDirectory path) fun _ ↦ True := by
  refine Keeps.files.bind fun t _ ↦ ?_
  split
  · exact Keeps.pure trivial
  · intro s hs
    refine ⟨?_, fun _ _ ↦ trivial⟩
    rw [on_removeTree]
    refine ⟨hs.files.remove path, fun place hplace ↦ ?_, hs.repositories⟩
    change (s.files.remove path).find? place = _
    rw [s.files.find?_remove hpath fun hprefix ↦ hplace (htouched place hprefix),
      hs.elsewhere place hplace]
  · exact Keeps.throw _

/-! ## Places to write to -/

/-- A path to which, and below which, files may be written, with directories made for them. -/
structure Writable (touched : List String → Prop) (look : List String → Option Node)
    (path : Path) : Prop where
  plain : path.Plain
  grounded : Grounded touched look path.parts
  below : ∀ names, (∀ name ∈ names, Path.IsPart name) → touched (path.place ++ names)

/-- The components below a path are named, so they lead nowhere else. -/
theorem not_up {names : List String} (hnames : ∀ name ∈ names, Path.IsPart name) : ".." ∉ names :=
  fun hmem ↦ (hnames _ hmem).notUp rfl

theorem prefix_parts_parent (path : Path) : (parent path).parts <+: path.parts := by
  rw [parent, Path.parts, Path.parts]
  split
  · exact List.dropLast_prefix _
  · rw [List.cons_prefix_cons]
    exact ⟨rfl, List.dropLast_prefix _⟩

namespace Writable

variable {path : Path} (h : Writable touched look path)

include h

theorem place : touched path.place := by
  have hself := h.below [] (by simp)
  rwa [List.append_nil] at hself

/-- What lies below may be written to as well. -/
theorem join {names : List String} (hnames : ∀ name ∈ names, Path.IsPart name) :
    Writable touched look (path.join (Path.ofNames names)) where
  plain := h.plain.join (Path.plain_ofNames hnames)
  grounded := by
    intro front hfront
    rw [Path.parts_join path rfl] at hfront
    rcases Path.prefix_append_cases hfront with hout | ⟨inner, -, hinner, rfl⟩
    · exact h.grounded front hout
    · have hparts : ∀ name ∈ inner, Path.IsPart name := fun name hname ↦
        hnames name (hinner.mem hname)
      left
      rw [Path.normalizeNames_append_eq (not_up hparts)]
      exact h.below inner hparts
  below := by
    intro more hmore
    rw [Path.place_join path rfl (not_up hnames), List.append_assoc]
    apply h.below
    intro name hname
    rcases List.mem_append.mp hname with hname | hname
    · exact hnames name hname
    · exact hmore name hname

theorem child {name : String} (hname : Path.IsPart name) :
    Writable touched look (Layout.child path name) :=
  h.join (by simpa using hname)

theorem parent : Grounded touched look (Workflow.parent path).parts :=
  h.grounded.of_prefix (prefix_parts_parent path)

end Writable

/-- A resolved path may be written to if everything below it may be touched and everything above it
is there. -/
theorem Writable.of_resolved {path : Path} (hpath : path.Resolved)
    (htouched : ∀ place, path.parts <+: place → touched place)
    (habove : ∀ front, front <+: path.parts → front ≠ path.parts →
      touched front ∨ (look front).isSome = true) :
    Writable touched look path where
  plain := hpath.plain
  grounded := by
    intro front hfront
    have hup : ".." ∉ front := fun hmem ↦ hpath.not_up (hfront.mem hmem)
    rw [Path.normalizeNames_eq hup, List.nil_append]
    by_cases heq : front = path.parts
    · exact .inl (htouched front (heq ▸ List.prefix_rfl))
    · exact habove front hfront heq
  below := by
    intro names _
    rw [hpath.place_eq]
    exact htouched _ (List.prefix_append _ _)

/-- A path to which a file may be written, with directories made for it. -/
structure FileWritable (touched : List String → Prop) (look : List String → Option Node)
    (path : Path) : Prop where
  plain : path.Plain
  grounded : Grounded touched look (parent path).parts
  place : touched path.place

theorem FileWritable.admits {path : Path} (h : FileWritable touched look path) :
    Admits (Within touched look repositories) path :=
  ⟨keeps_makeDirectories h.plain.parent h.grounded, keeps_write h.plain h.place⟩

theorem Writable.file {path : Path} (h : Writable touched look path) :
    FileWritable touched look path :=
  ⟨h.plain, h.parent, h.place⟩

theorem Writable.admitsBelow {dir : Path} (h : Writable touched look dir) :
    AdmitsBelow (Within touched look repositories) dir :=
  fun _ hnames ↦ (h.join hnames).file.admits

/-- Where everything may be touched, every plain path may be written to. -/
theorem Writable.of_plain {path : Path} (h : path.Plain) :
    Writable (fun _ ↦ True) look path :=
  ⟨h, fun _ _ ↦ .inl trivial, fun _ _ ↦ trivial⟩

/-! ## Shared files -/

/-- A path that components name below a directory, or the directory itself. -/
def Below (dir path : Path) : Prop :=
  ∃ names, (∀ name ∈ names, Path.IsPart name) ∧ path = dir.join (Path.ofNames names)

/-- What lies below a child lies below the directory. -/
theorem Below.of_child {dir path : Path} {name : String} (h : Below (Layout.child dir name) path)
    (hname : Path.IsPart name) : Below dir path := by
  obtain ⟨names, hnames, rfl⟩ := h
  exact ⟨name :: names, List.forall_mem_cons.mpr ⟨hname, hnames⟩, join_child _ _ _⟩

/-- Files are copied to a place that admits them. -/
theorem keeps_copyFiles {dest : Path} (hdest : AdmitsBelow P dest)
    {found : List (List String × List UInt8)}
    (hfound : ∀ file ∈ found, ∀ name ∈ file.1, Path.IsPart name) :
    Keeps P (copyFiles dest found) fun written ↦ ∀ path ∈ written, Below dest path := by
  induction found with
  | nil => exact Keeps.pure (by simp)
  | cons file rest ih =>
    obtain ⟨names, content⟩ := file
    have hnames := hfound _ List.mem_cons_self
    refine (hdest names hnames).keeps_write content ?_
    refine (ih fun other ho ↦ hfound other (List.mem_cons_of_mem _ ho)).bind fun written hrest ↦ ?_
    exact Keeps.pure (List.forall_mem_cons.mpr ⟨⟨names, hnames, rfl⟩, hrest⟩)

/-- A directory is copied to a place that admits its files. -/
theorem keeps_copyDirectory (hP : AboutFiles P repositories) {source dest : Path}
    (hsource : source.Resolved) (hdest : AdmitsBelow P dest) :
    Keeps P (copyDirectory source dest) fun written ↦ ∀ path ∈ written, Below dest path := by
  refine Keeps.files.bind fun t ht ↦ ?_
  obtain ⟨s, hs, rfl⟩ := ht
  split
  · exact keeps_copyFiles hdest fun file hfile ↦
      (hP.sound s hs).named_filesBelow hsource hfile
  · exact Keeps.pure (by simp)

variable {l : Layout}

/-- A project's theme is the packaged one or its own. -/
theorem keeps_themeOf {P : State → Prop} :
    Keeps P (themeOf l) fun theme ↦ theme = .packaged ∨ theme = .own l.ownTheme := by
  refine Keeps.files.bind fun t _ ↦ Keeps.pure ?_
  split
  · exact .inr rfl
  · exact .inl rfl

/-- The sheet of a style is written as paths are written. -/
theorem plain_sheetPath (hroot : l.root.Resolved) (style : String) : (sheetPath l style).Plain := by
  have hpublic : l.exportPublic.Plain :=
    ((((hroot.plain.join (Path.plain_ofNames (by decide))).join
      (Path.plain_ofNames (by decide))).join (Path.plain_ofNames (by decide))))
  exact (hpublic.join (Path.plain_ofNames (by decide))).join (Path.plain_ofString _)

/-- The shared files are written to the public directory and to the place of the sheet. -/
theorem keeps_writePublic (hP : AboutFiles P repositories) (hroot : l.root.Resolved)
    {settings : Settings} (hpublic : AdmitsBelow P l.exportPublic)
    (hsheet : Admits P (sheetPath l settings.style)) :
    Keeps P (writePublic l settings) fun written ↦
      ∃ copied, written = copied ++ [sheetPath l settings.style] ∧
        ∀ path ∈ copied, Below l.exportPublic path := by
  have huser : l.userStatic.Resolved := Layout.resolved_child hroot (by decide)
  have htheme : l.ownTheme.Resolved :=
    Layout.resolved_child (resolved_metadata hroot) (by decide)
  have hdest : AdmitsBelow P (Layout.child l.exportPublic "theme") := hpublic.child (by decide)
  refine (keeps_copyDirectory hP huser (hpublic.child (by decide))).bind fun user hcopied ↦ ?_
  refine keeps_themeOf.bind fun theme hchoice ↦ ?_
  have hstatic : Keeps P (copyStatic theme (Layout.child l.exportPublic "theme")) fun written ↦
      ∀ path ∈ written, Below (Layout.child l.exportPublic "theme") path := by
    rcases hchoice with rfl | rfl
    · exact keeps_copyFiles hdest (by decide)
    · exact keeps_copyDirectory hP (Layout.resolved_child htheme (by decide)) hdest
  refine hstatic.bind fun shared hshared ↦ hsheet.keeps_write _ (Keeps.pure ⟨_, rfl, ?_⟩)
  intro path hpath
  rcases List.mem_append.mp hpath with hpath | hpath
  · exact (hcopied path hpath).of_child (by decide)
  · exact (hshared path hpath).of_child (by decide)

/-! ## Mirrored files -/

/-- The components of a file's companion. -/
def companionNames (names : List String) : List String :=
  names.dropLast ++ [names.getLastD "" ++ Code.companionSuffix]

/-- A companion lies beside its file. -/
theorem companionPath_join (out : Path) {names : List String} (hnames : names ≠ []) :
    companionPath (out.join (Path.ofNames names)) =
      out.join (Path.ofNames (companionNames names)) := by
  have hname : (out.join (Path.ofNames names)).name = names.getLastD "" := by
    obtain ⟨others, last, rfl⟩ : ∃ others last, names = others ++ [last] :=
      ⟨_, _, (List.dropLast_append_getLast hnames).symm⟩
    simp [Path.name, Path.join, Path.ofNames, ← List.append_assoc]
  rw [companionPath, hname, companionNames]
  simp [Path.join, Path.ofNames, List.dropLast_append_of_ne_nil hnames]

/-- With the ending of companions every text without slashes names something. -/
theorem isPart_companion {name : String} (h : '/' ∉ name.toList) :
    Path.IsPart (name ++ Code.companionSuffix) := by
  refine ⟨Text.append_ne (by decide), Text.append_ne (by decide), Text.append_ne (by decide), ?_⟩
  rw [String.toList_append, List.mem_append, not_or]
  exact ⟨h, by decide⟩

/-- The companion of a file at a plain path has a plain path. -/
theorem plain_companionPath {target : Path} (h : target.Plain) : (companionPath target).Plain := by
  intro name hname
  rcases List.mem_append.mp hname with hname | hname
  · exact h name (List.dropLast_subset _ hname)
  · obtain rfl := List.mem_singleton.mp hname
    exact .inr (isPart_companion h.noSlash_name)

/-- The components of a companion name something if those of its file do. -/
theorem isPart_companionNames {names : List String} (hnames : WorkTree.Named names) :
    ∀ name ∈ companionNames names, Path.IsPart name := by
  intro name hname
  rcases List.mem_append.mp hname with hname | hname
  · exact hnames.2 name (List.dropLast_subset _ hname)
  · obtain rfl := List.mem_singleton.mp hname
    have hlast : names.getLastD "" ∈ names := by
      rw [List.getLastD_eq_getLast?, List.getLast?_eq_some_getLast hnames.1]
      exact List.getLast_mem hnames.1
    exact isPart_companion (hnames.2 _ hlast).noSlash

/-- A path of a file in a tree or a work tree. -/
def IsFilePath (path : String) : Prop :=
  ∃ names, WorkTree.Named names ∧ path = WorkTree.gitPath names

/-- The files of an outline are those of its walk. -/
theorem outlineFiles_eq (workspace : Outline.Directory) :
    outlineFiles workspace = workspace.paths :=
  workspace.filePaths_walk

/-- A place that admits files admits a mirrored file and its companion. -/
theorem AdmitsBelow.mirrored {out : Path} (hout : AdmitsBelow P out) {path : String}
    (hpath : IsFilePath path) :
    Admits P (out.join (Path.ofString path)) ∧
      Admits P (companionPath (out.join (Path.ofString path))) := by
  obtain ⟨names, hnames, rfl⟩ := hpath
  rw [WorkTree.ofString_gitPath hnames, companionPath_join out hnames.1]
  exact ⟨hout _ hnames.2, hout _ (isPart_companionNames hnames)⟩

/-- A file is mirrored to a path that admits it, if that of the companion does. -/
theorem keeps_writeMirrored {target : Path}
    (htarget : Admits P target ∧ Admits P (companionPath target)) (content : List UInt8)
    (revision : Option String) (shown : String) :
    Keeps P (writeMirrored content target revision shown) fun _ ↦ True := by
  refine htarget.1.keeps_write content ?_
  refine (Keeps.ofResult fun _ _ ↦ trivial).bind fun companion _ ↦ ?_
  exact (htarget.2.writes _).bind fun _ _ ↦ Keeps.pure trivial

/-! ## Steps -/

variable {Tree Blob : Type} {p : Projection Tree Blob}

/-- Files are mirrored to a place that admits them. -/
theorem keeps_exportFiles (step : Step) (tree : Tree) {out : Path} (hout : AdmitsBelow P out)
    {paths : List String} (hpaths : ∀ path ∈ paths, IsFilePath path) :
    Keeps P (exportFiles p step tree out paths) fun _ ↦ True := by
  induction paths with
  | nil => exact Keeps.pure trivial
  | cons path rest ih =>
    refine (Keeps.ofResult fun _ _ ↦ trivial).bind fun content _ ↦ ?_
    have htarget := hout.mirrored (hpaths path List.mem_cons_self)
    refine (keeps_writeMirrored htarget _ _ _).bind fun _ _ ↦ ?_
    refine (ih fun other ho ↦ hpaths other (List.mem_cons_of_mem _ ho)).bind fun _ _ ↦ ?_
    exact Keeps.pure trivial

/-- Where the step of a code may be written. -/
structure StepWritable (touched : List String → Prop) (look : List String → Option Node)
    (l : Layout) (code : String) : Prop where
  grounded : Grounded touched look (stepDirectory l code).parts
  page : touched (Layout.child (stepDirectory l code) "index.html").place
  workspace : Writable touched look (Layout.child (stepDirectory l code) "workspace")

/-- The directory of a code is written as paths are written. -/
theorem plain_stepDirectory (hroot : l.root.Resolved) (code : String) :
    (stepDirectory l code).Plain :=
  ((hroot.plain.join (Path.plain_ofNames (by decide))).join
    (Path.plain_ofNames (by decide))).join (Path.plain_ofString _)

/-- The place that the directory of a code leads to. -/
def stepPlace (l : Layout) (code : String) : List String :=
  if code = "." then l.exportRoot.parts
  else if code = ".." then l.metadata.parts
  else l.exportRoot.parts ++ [code]

/-- Only the code `..` leads out of the export. -/
theorem exportRoot_prefix_stepPlace {code : String} (hup : code ≠ "..") :
    l.exportRoot.parts <+: stepPlace l code := by
  rw [stepPlace, if_neg hup]
  split
  · exact List.prefix_rfl
  · exact List.prefix_append _ _

/-- The export lies in the metadata directory. -/
theorem append_exportRoot (l : Layout) (names : List String) :
    l.exportRoot.parts ++ names = l.metadata.parts ++ "export" :: names := by
  rw [Layout.exportRoot, Layout.parts_child, List.append_assoc]
  rfl

/-- The export of a project is a resolved path. -/
theorem resolved_exportRoot (hroot : l.root.Resolved) : l.exportRoot.Resolved :=
  Layout.resolved_child (resolved_metadata hroot) (by decide)

theorem place_stepDirectory (hroot : l.root.Resolved) {code : String} (hcode : Page.IsCode code) :
    (stepDirectory l code).place = stepPlace l code := by
  have hexport := resolved_exportRoot hroot
  have hself : Path.normalizeNames [] l.exportRoot.parts = l.exportRoot.parts := hexport.place_eq
  rw [stepDirectory, hcode.ofString_eq, Path.place, Path.parts_join _ rfl, Path.ofNames, stepPlace]
  by_cases hdot : code = "."
  · rw [if_pos hdot, if_pos hdot, List.append_nil, hself]
  rw [if_neg hdot, if_neg hdot, Path.normalizeNames_append hexport.not_up, List.nil_append,
    Path.normalizeNames, Path.normalizeNames, Path.normalizeNames]
  by_cases hup : code = ".."
  · rw [if_pos hup, if_pos (by simpa using hup), Layout.exportRoot, Layout.parts_child,
      List.dropLast_concat]
  · rw [if_neg hup, if_neg (by simpa using hup)]

/-- The place of something in the directory of a code. -/
theorem place_child_stepDirectory (hroot : l.root.Resolved) {code name : String}
    (hcode : Page.IsCode code) (hname : name ≠ "..") :
    (Layout.child (stepDirectory l code) name).place = stepPlace l code ++ [name] := by
  rw [Layout.place_child _ hname, place_stepDirectory hroot hcode]

/-- Directories on the way to that of a code are made if they may be made on the way to the export
and at the place that the code leads to. -/
theorem grounded_stepDirectory (hroot : l.root.Resolved) {code : String} (hcode : Page.IsCode code)
    (hexport : Grounded touched look l.exportRoot.parts)
    (hplace : touched (stepPlace l code) ∨ (look (stepPlace l code)).isSome = true) :
    Grounded touched look (stepDirectory l code).parts := by
  intro front hfront
  have hwhole : Path.normalizeNames [] (stepDirectory l code).parts = stepPlace l code :=
    place_stepDirectory hroot hcode
  by_cases heq : front = (stepDirectory l code).parts
  · rwa [heq, hwhole]
  · have hparts : (stepDirectory l code).parts =
        l.exportRoot.parts ++ (if code = "." then [] else [code]) := by
      rw [stepDirectory, hcode.ofString_eq]
      exact Path.parts_join _ rfl
    apply hexport front
    rw [hparts] at hfront heq
    by_cases hdot : code = "."
    · rwa [if_pos hdot, List.append_nil] at hfront
    · rw [if_neg hdot] at hfront heq
      exact (List.prefix_concat_iff.mp hfront).resolve_left heq

/-- The workspace of a step may be written to if everything below its place may be touched. -/
theorem writable_workspace (hroot : l.root.Resolved) {code : String} (hcode : Page.IsCode code)
    (hgrounded : Grounded touched look (stepDirectory l code).parts)
    (hworkspace : ∀ names, (∀ name ∈ names, Path.IsPart name) →
      touched (stepPlace l code ++ "workspace" :: names)) :
    Writable touched look (Layout.child (stepDirectory l code) "workspace") := by
  have hplace : (Layout.child (stepDirectory l code) "workspace").place =
      stepPlace l code ++ ["workspace"] := place_child_stepDirectory hroot hcode (by decide)
  refine ⟨(plain_stepDirectory hroot code).join (Path.plain_ofNames (by decide)), ?_, ?_⟩
  · intro front hfront
    rw [Layout.parts_child] at hfront
    rcases List.prefix_concat_iff.mp hfront with rfl | hfront
    · rw [← Layout.parts_child]
      change touched (Layout.child _ _).place ∨ _
      rw [hplace]
      exact .inl (hworkspace [] (by simp))
    · exact hgrounded front hfront
  · intro names hnames
    rw [hplace, List.append_assoc]
    exact hworkspace names hnames

/-- A step may be written where its page and its workspace may be. -/
theorem stepWritable_of_place (hroot : l.root.Resolved) {code : String} (hcode : Page.IsCode code)
    (hgrounded : Grounded touched look (stepDirectory l code).parts)
    (hpage : touched (stepPlace l code ++ ["index.html"]))
    (hworkspace : ∀ names, (∀ name ∈ names, Path.IsPart name) →
      touched (stepPlace l code ++ "workspace" :: names)) :
    StepWritable touched look l code where
  grounded := hgrounded
  page := by
    rw [place_child_stepDirectory hroot hcode (by decide)]
    exact hpage
  workspace := writable_workspace hroot hcode hgrounded hworkspace

/-- A step is written to its page and below its workspace. -/
theorem keeps_exportStep (hroot : l.root.Resolved) (hlayout : p.layout = l) {step : Step}
    (hcode : StepWritable touched look l step.page.code)
    (hworkspace : ∀ path ∈ step.workspace.paths, IsFilePath path) :
    Keeps (Within touched look repositories) (exportStep p step) fun _ ↦ True := by
  have hplain := plain_stepDirectory hroot step.page.code
  have hpage : (Layout.child (stepDirectory l step.page.code) "index.html").Plain :=
    hplain.join (Path.plain_ofNames (by decide))
  rw [exportStep, hlayout]
  refine (keeps_makeDirectories hplain hcode.grounded).bind fun _ _ ↦ ?_
  refine (keeps_log _ _ _).bind fun _ _ ↦ Keeps.files.bind fun t _ ↦ ?_
  refine (Keeps.ofResult fun _ _ ↦ trivial).bind fun html _ ↦ ?_
  refine (keeps_write hpage hcode.page _).bind fun _ _ ↦ ?_
  refine (Keeps.ofResult fun _ _ ↦ trivial).bind fun tree _ ↦ ?_
  rw [outlineFiles_eq]
  refine (keeps_exportFiles step tree hcode.workspace.admitsBelow hworkspace).bind fun _ _ ↦ ?_
  exact Keeps.pure trivial

/-- A step that is projected has the page's code, and shows an outline. -/
theorem project_eq_ok {page : SequencedPage} {step : Step} (h : p.project page = .ok step) :
    step.page = page.page ∧ p.outline page.revision = .ok step.workspace := by
  rw [Projection.project] at h
  obtain ⟨d, hd, rfl⟩ := map_eq_ok h
  exact ⟨rfl, hd⟩

/-- Reports that a page is not where the index has it. -/
def reportPosition (p : Projection Tree Blob) (page : SequencedPage) : Workflow Unit :=
  match positionWarning p.index page.page.code page.number with
  | some warning => log .warning "codasai.projector" warning
  | none => pure ()

/-- The first step is written after a report on its page, and before the others. -/
theorem exportSteps_cons (page : SequencedPage) (rest : List SequencedPage) :
    exportSteps p (page :: rest) = do
      reportPosition p page
      let step ← ofResult (p.project page)
      let written ← exportStep p step
      let others ← exportSteps p rest
      return written ++ others := by
  rw [exportSteps, reportPosition]
  cases positionWarning p.index page.page.code page.number <;> rfl

theorem keeps_reportPosition (page : SequencedPage) :
    Keeps (Within touched look repositories) (reportPosition p page) fun _ ↦ True := by
  rw [reportPosition]
  split
  · exact keeps_log _ _ _
  · exact Keeps.pure trivial

/-- Steps are written where they may be. -/
theorem keeps_exportSteps (hroot : l.root.Resolved) (hlayout : p.layout = l)
    (houtline : ∀ revision d, p.outline revision = .ok d → ∀ path ∈ d.paths, IsFilePath path)
    {pages : List SequencedPage}
    (hpages : ∀ page ∈ pages, StepWritable touched look l page.page.code) :
    Keeps (Within touched look repositories) (exportSteps p pages) fun _ ↦ True := by
  induction pages with
  | nil => exact Keeps.pure trivial
  | cons page rest ih =>
    rw [exportSteps_cons]
    refine (keeps_reportPosition page).bind fun _ _ ↦ ?_
    refine (Keeps.ofResult fun step hstep ↦ hstep).bind fun step hstep ↦ ?_
    obtain ⟨hpage, hd⟩ := project_eq_ok hstep
    have hcode := hpages page List.mem_cons_self
    rw [← hpage] at hcode
    refine (keeps_exportStep hroot hlayout hcode (houtline _ _ hd)).bind fun written _ ↦ ?_
    refine (ih fun other ho ↦ hpages other (List.mem_cons_of_mem _ ho)).bind fun _ _ ↦ ?_
    exact Keeps.pure trivial

/-- The outlines of a repository that lists files by their paths hold such paths. -/
theorem isFilePath_outline
    (hwalk : ∀ revision tree walk, p.repository.treeOf revision = .ok tree →
      p.repository.walkTree tree p.layout.workspaceDir = .ok walk →
        ∀ e ∈ walk, e.kind = .file → IsFilePath e.path) {revision : Revision}
    {d : Outline.Directory} (hd : p.outline revision = .ok d) :
    ∀ path ∈ d.paths, IsFilePath path := by
  rw [Projection.outline] at hd
  obtain ⟨tree, htree, hd⟩ := bind_eq_ok hd
  obtain ⟨walk, hlisted, hd⟩ := bind_eq_ok hd
  exact Outline.forall_mem_paths_build (mapError_eq_ok hd)
    (hwalk revision tree walk htree hlisted)

/-! ## Histories -/

/-- The history of a directory as a world has it. -/
def historyIn (s : State) (dir : Path) :
    Repository (Except Failure) TreeHandle (List UInt8) :=
  match s.enclosing? dir with
  | some (_, store) => store.repository dir.toString
  | none => noHistory dir.toString

theorem on_history (dir : Path) (s : State) : (history dir).on s = (.ok (historyIn s dir), s) := by
  rw [history, on_bind_ok (on_get s), historyIn]
  cases s.enclosing? dir <;> rfl

/-- The history of a directory that has a repository is that repository's. -/
theorem historyIn_of_lookup {s : State} {dir : Path} {store : Store}
    (h : s.repositories.lookup dir = some store) :
    historyIn s dir = store.repository dir.toString := by
  rw [historyIn, State.enclosing?_self h]

/-- A build goes by the history of the project's directory. -/
theorem on_build (l : Layout) (settings : Settings) (s : State) :
    (build l settings).on s = (buildFrom (historyIn s l.root) l settings).on s :=
  on_bind_ok (on_history l.root s) _

/-- The history of a world whose stores are tidy lists files by their paths. -/
theorem isFilePath_historyIn {s : State}
    (htidy : ∀ repository ∈ s.repositories, repository.2.Tidy) (dir : Path)
    (workspaceDir : String) :
    ∀ revision tree walk, (historyIn s dir).treeOf revision = .ok tree →
      (historyIn s dir).walkTree tree workspaceDir = .ok walk →
        ∀ e ∈ walk, e.kind = .file → IsFilePath e.path := by
  intro revision tree walk htree hwalk
  rw [historyIn] at htree hwalk
  cases henclosing : s.enclosing? dir with
  | none =>
    rw [henclosing] at htree hwalk
    -- where there is no repository, trees are asked for as in an empty one
    have hempty : ((Store.empty 0).repository dir.toString).treeOf revision = .ok tree := htree
    exact (Store.tidy_empty 0).walkTree hempty hwalk
  | some found =>
    rw [henclosing] at htree hwalk
    have hlookup := (State.enclosing?_eq_some henclosing).2
    exact (htidy _ (mem_of_lookup hlookup)).walkTree htree hwalk

/-! ## Builds and previews -/

theorem keeps_reportPages (l : Layout) (index : PageIndex) (count : Nat) :
    Keeps (Within touched look repositories) (reportPages l index count) fun _ ↦ True := by
  refine (keeps_log _ _ _).bind fun _ _ ↦ ?_
  split
  · exact keeps_log _ _ _
  · exact Keeps.pure trivial

/-- The landing page is written to the export. -/
theorem keeps_writeLanding
    (htarget : FileWritable touched look (Layout.child l.exportRoot "index.html")) (theme : Theme)
    (guide : GuideContext) :
    Keeps (Within touched look repositories) (writeLanding l theme guide) fun _ ↦ True := by
  refine Keeps.files.bind fun t _ ↦ (Keeps.ofResult fun _ _ ↦ trivial).bind fun html _ ↦ ?_
  exact htarget.admits.keeps_write _ (Keeps.pure trivial)

/-- A build writes to the export, to the place of the sheet and where the codes of pages lead. -/
theorem keeps_buildFrom (hroot : l.root.Resolved) {settings : Settings}
    {repository : Repository (Except Failure) Tree Blob}
    (hwalk : ∀ revision tree walk, repository.treeOf revision = .ok tree →
      repository.walkTree tree l.workspaceDir = .ok walk →
        ∀ e ∈ walk, e.kind = .file → IsFilePath e.path)
    (hexport : Writable touched look l.exportRoot)
    (hcleared : ∀ place, l.exportRoot.parts <+: place → touched place)
    (hsheet : FileWritable touched look (sheetPath l settings.style))
    (hcodes : ∀ pages, Sequence.pages repository l.pagesDir settings.extension = .ok pages →
      ∀ page ∈ pages, StepWritable touched look l page.page.code) :
    Keeps (Within touched look repositories) (buildFrom repository l settings) fun _ ↦ True := by
  refine keeps_themeOf.bind fun theme _ ↦ ?_
  refine (keeps_of_same fun s ↦ keeps_loadIndex s l.index).bind fun index _ ↦ ?_
  refine (keeps_clearDirectory (resolved_exportRoot hroot) hcleared).bind fun _ _ ↦ ?_
  have hpublic : Writable touched look l.exportPublic := hexport.child (by decide)
  refine (keeps_writePublic Within.aboutFiles hroot hpublic.admitsBelow hsheet.admits).bind
    fun shared _ ↦ ?_
  refine (Keeps.ofResult fun pages hpages ↦ hpages).bind fun pages hpages ↦ ?_
  refine (keeps_reportPages l index pages.length).bind fun _ _ ↦ ?_
  refine (keeps_exportSteps hroot rfl (fun revision d ↦ isFilePath_outline hwalk)
    (hcodes pages hpages)).bind fun steps _ ↦ ?_
  refine (keeps_writeLanding (hexport.child (by decide)).file theme _).bind fun landing _ ↦ ?_
  exact Keeps.pure trivial

end Guidebook.Workflow
