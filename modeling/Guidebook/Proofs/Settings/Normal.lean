import Guidebook.Proofs.Index.Blocks
import Guidebook.Proofs.Project.SettingsFile

/-!
# Settings loaded again

Settings are stripped and completed when they are loaded. From a file of their own values most of
them are loaded again as they are. The names of the two directories need not be: they are stripped
of white space first and of slashes then, so that white space which stood behind a slash is left at
an end, and nothing is left of slashes alone. Such a name is shortened again, or refused.
-/

namespace Guidebook.Settings

open Toml Text

/-! ## Ends of a text -/

/-- What holds of the first and the last character of a text, if it has any. -/
def AtEnds (P : Char → Prop) (s : String) : Prop :=
  (∀ c ∈ s.toList.head?, P c) ∧ ∀ c ∈ s.toList.getLast?, P c

/-- Text without the characters of a class at its ends. -/
def strippedBy (p : Char → Bool) (s : String) : String := String.ofList (stripBy p s.toList)

section Ends

variable {p q : Char → Bool} {s : String}

theorem strippedBy_eq_self_iff : strippedBy p s = s ↔ AtEnds (p · = false) s := by
  rw [AtEnds, ← stripBy_eq_self_iff, strippedBy, ← String.toList_inj, String.toList_ofList]

theorem strippedBy_of_imp (h : ∀ c, p c = true → q c = true) (s : String) :
    strippedBy q (strippedBy p s) = strippedBy q s := by
  rw [strippedBy, strippedBy, String.toList_ofList, stripBy_stripBy_of_imp h, ← strippedBy]

theorem atEnds_strippedBy (p : Char → Bool) (s : String) :
    AtEnds (p · = false) (strippedBy p s) :=
  strippedBy_eq_self_iff.mp (strippedBy_of_imp (fun _ ↦ id) s)

theorem hasInk_stripped (s : String) : hasInk (stripped s).toList = hasInk s.toList := by
  have hstrip : strip (strip s.toList) = strip s.toList := stripBy_stripBy s.toList
  rw [stripped, String.toList_ofList, Bool.eq_iff_iff, ← Bool.not_eq_false, ← Bool.not_eq_false,
    ← strip_eq_nil_iff, ← strip_eq_nil_iff, hstrip]

end Ends

/-! ## Normal forms -/

/-- Text that is not blank and has no white space around it. -/
structure IsTrimmed (s : String) : Prop where
  ink : hasInk s.toList = true
  ends : AtEnds (isBlank · = false) s

/-- The name of a directory in its normal form: there is one, with neither white space nor a slash
at its ends. -/
structure IsDirName (s : String) : Prop where
  ne_empty : s ≠ ""
  ends : AtEnds (fun c ↦ isBlank c = false ∧ c ≠ '/') s

/-- Text without white space and slashes at its ends. -/
def bare (s : String) : String := strippedBy (fun c ↦ isBlank c || c == '/') s

section Forms

variable {s : String}

theorem IsTrimmed.stripped_eq (h : IsTrimmed s) : stripped s = s :=
  strippedBy_eq_self_iff.mpr h.ends

theorem isTrimmed_stripped (h : hasInk s.toList = true) : IsTrimmed (stripped s) :=
  ⟨(hasInk_stripped s).trans h, atEnds_strippedBy isBlank s⟩

private theorem hasInk_of_mem {cs : List Char} {c : Char} (hmem : c ∈ cs) (h : isBlank c = false) :
    hasInk cs = true := List.any_eq_true.mpr ⟨c, hmem, by simp [h]⟩

theorem withFinalSlash_eq_self (h : s.toList.getLast? = some '/') : withFinalSlash s = s := by
  rw [withFinalSlash, if_pos (endsWith_singleton.mpr h)]

theorem withDot_eq_self (h : s.toList.head? = some '.') : withDot s = s := by
  rw [withDot, if_pos (startsWith_singleton.mpr h)]

theorem getLast?_withFinalSlash (s : String) :
    (withFinalSlash s).toList.getLast? = some '/' := by
  rw [withFinalSlash]
  split
  · next h => exact endsWith_singleton.mp h
  · simp

theorem head?_withDot (s : String) : (withDot s).toList.head? = some '.' := by
  rw [withDot]
  split
  · next h => exact startsWith_singleton.mp h
  · simp

/-- A slash behind what is trimmed leaves it trimmed. -/
theorem IsTrimmed.withFinalSlash (h : IsTrimmed s) : IsTrimmed (withFinalSlash s) := by
  have hlast := getLast?_withFinalSlash s
  refine ⟨hasInk_of_mem (List.mem_of_getLast? hlast) (by decide), ?_, ?_⟩
  · rw [Settings.withFinalSlash]
    split
    · exact h.ends.1
    · cases hs : s.toList with
      | nil => exact absurd h.ink (by simp [hs, hasInk])
      | cons c cs => simpa [hs] using h.ends.1
  · rw [hlast]
    rintro c ⟨⟩
    decide

/-- So does a dot in front of it. -/
theorem IsTrimmed.withDot (h : IsTrimmed s) : IsTrimmed (withDot s) := by
  have hfirst := head?_withDot s
  refine ⟨hasInk_of_mem (List.mem_of_mem_head? hfirst) (by decide), ?_, ?_⟩
  · rw [hfirst]
    rintro c ⟨⟩
    decide
  · rw [Settings.withDot]
    split
    · exact h.ends.2
    · cases hs : s.toList with
      | nil => exact absurd h.ink (by simp [hs, hasInk])
      | cons c cs => simpa [hs] using h.ends.2

/-- A name without slashes at its ends is in normal form exactly if it is trimmed. -/
theorem isDirName_iff_isTrimmed (h : AtEnds (· ≠ '/') s) : IsDirName s ↔ IsTrimmed s := by
  constructor
  · rintro ⟨hne, hstart, hlast⟩
    refine ⟨?_, fun c hc ↦ (hstart c hc).1, fun c hc ↦ (hlast c hc).1⟩
    cases hs : s.toList with
    | nil => exact absurd (String.toList_eq_nil_iff.mp hs) hne
    | cons c cs => exact hasInk_of_mem List.mem_cons_self (hstart c (by simp [hs])).1
  · rintro ⟨hink, hstart, hlast⟩
    refine ⟨?_, fun c hc ↦ ⟨hstart c hc, h.1 c hc⟩, fun c hc ↦ ⟨hlast c hc, h.2 c hc⟩⟩
    rintro rfl
    cases hink

/-- Without slashes a name is in normal form exactly if it is what is left without slashes and white
space, and something is. -/
theorem isDirName_withoutSlashes (s : String) :
    IsDirName (withoutSlashes (stripped s)) ↔
      withoutSlashes (stripped s) ≠ "" ∧ withoutSlashes (stripped s) = bare s := by
  have hbare : bare (withoutSlashes (stripped s)) = bare s :=
    (strippedBy_of_imp (fun c hc ↦ by simp_all) (stripped s)).trans
      (strippedBy_of_imp (fun c hc ↦ by simp_all) s)
  have hends : ∀ c, (isBlank c || c == '/') = false ↔ isBlank c = false ∧ c ≠ '/' := by simp
  rw [← hbare, eq_comm, bare, strippedBy_eq_self_iff]
  simp only [hends]
  exact ⟨fun h ↦ ⟨h.ne_empty, h.ends⟩, fun h ↦ ⟨h.1, h.2⟩⟩

end Forms

/-! ## Settings -/

/-- Settings as they are loaded: trimmed and completed, and the names of the directories without
slashes at their ends. -/
structure Normal (settings : Settings) : Prop where
  title : IsTrimmed settings.title
  baseUrl : IsTrimmed settings.baseUrl ∧ settings.baseUrl.toList.getLast? = some '/'
  style : IsTrimmed settings.style
  pagesDir : AtEnds (· ≠ '/') settings.pagesDir
  workspaceDir : AtEnds (· ≠ '/') settings.workspaceDir
  extension : IsTrimmed settings.extension ∧ settings.extension.toList.head? = some '.'

/-- A table that has the values of settings under their keys. -/
structure Gives (table : Value) (settings : Settings) : Prop where
  title : table.get? "title" = some (.text settings.title)
  baseUrl : table.get? "base_url" = some (.text settings.baseUrl)
  style : table.get? "pygments_style" = some (.text settings.style)
  pagesDir : table.get? "pages_dir" = some (.text settings.pagesDir)
  workspaceDir : table.get? "workspace_dir" = some (.text settings.workspaceDir)
  extension : table.get? "page_extension" = some (.text settings.extension)

/-- What becomes of settings in normal form that are loaded again: a blank name of a directory is
refused, and the others are stripped once more. -/
def reloaded (settings : Settings) : Except SettingsProblem Settings :=
  if hasInk settings.pagesDir.toList then
    if hasInk settings.workspaceDir.toList then
      .ok { settings with
        pagesDir := withoutSlashes (stripped settings.pagesDir)
        workspaceDir := withoutSlashes (stripped settings.workspaceDir) }
    else .error (.badOption "workspace_dir")
  else .error (.badOption "pages_dir")

/-- The text that a table has under a key, or else a default, as it is written. -/
def written (table : Value) (key fallback : String) : String :=
  ((table.get? key).bind Value.text?).getD fallback

section Tables

variable {table again : Value} {settings : Settings} {key fallback value : String}

private theorem atEnds_withoutSlashes (s : String) : AtEnds (· ≠ '/') (withoutSlashes s) := by
  have h : AtEnds (fun c ↦ (c == '/') = false) (withoutSlashes s) := atEnds_strippedBy _ s
  simpa using h

/-- A setting that is accepted is trimmed. -/
private theorem isTrimmed_setting (hink : hasInk fallback.toList = true)
    (h : accepts table key = true) : IsTrimmed (setting table key fallback) := by
  refine isTrimmed_stripped ?_
  rw [accepts] at h
  split at h
  · next hnone =>
    rw [hnone]
    exact hink
  · next s hsome =>
    rw [hsome]
    exact h
  · cases h

/-- With a table that has nothing wrong every setting is accepted. -/
private theorem accepts_of_problem? (h : problem? table = none) :
    titled table = true ∧ ∀ key ∈ optionKeys, accepts table key = true := by
  rw [problem?] at h
  split at h
  · next htitled =>
    rw [Option.map_eq_none_iff, List.find?_eq_none] at h
    exact ⟨htitled, by simpa using h⟩
  · cases h

theorem normal_given (h : problem? table = none) : (given table).Normal := by
  obtain ⟨htitled, haccepts⟩ := accepts_of_problem? h
  have hurl : IsTrimmed (setting table "base_url" "/") :=
    isTrimmed_setting (by decide) (haccepts _ (by decide))
  have hstyle : IsTrimmed (setting table "pygments_style" "monokai") :=
    isTrimmed_setting (by decide) (haccepts _ (by decide))
  have hextension : IsTrimmed (setting table "page_extension" Page.defaultExtension) :=
    isTrimmed_setting (by decide) (haccepts _ (by decide))
  have htitle : IsTrimmed (setting table "title" "") := by
    refine isTrimmed_stripped ?_
    rw [titled] at htitled
    split at htitled
    · next s hsome =>
      rw [hsome]
      exact htitled
    · cases htitled
  rw [given]
  refine ⟨htitle, ?_, hstyle, atEnds_withoutSlashes _, atEnds_withoutSlashes _, ?_⟩
  · dsimp only
    exact ⟨hurl.withFinalSlash, getLast?_withFinalSlash _⟩
  · dsimp only
    exact ⟨hextension.withDot, head?_withDot _⟩

private theorem accepts_of_text (h : table.get? key = some (.text value)) :
    accepts table key = hasInk value.toList := by rw [accepts, h]

private theorem setting_of_text (h : table.get? key = some (.text value)) (fallback : String) :
    setting table key fallback = stripped value := by
  rw [setting, h]
  rfl

/-- What is wrong with the values of settings in normal form: a blank name of a directory. -/
theorem problem?_of_gives (h : settings.Normal) (hgives : Gives again settings) :
    problem? again =
      if hasInk settings.pagesDir.toList then
        if hasInk settings.workspaceDir.toList then none else some (.badOption "workspace_dir")
      else some (.badOption "pages_dir") := by
  have htitled : titled again = true := by
    rw [titled, hgives.title]
    exact h.title.ink
  have hurl := (accepts_of_text hgives.baseUrl).trans h.baseUrl.1.ink
  have hextension := (accepts_of_text hgives.extension).trans h.extension.1.ink
  have hstyle := (accepts_of_text hgives.style).trans h.style.ink
  rw [problem?, if_pos htitled, optionKeys, List.find?_cons_of_neg (by simp [hurl]),
    List.find?_cons_of_neg (by simp [hextension]), List.find?_cons_of_neg (by simp [hstyle])]
  simp only [List.find?_cons, List.find?_nil, accepts_of_text hgives.pagesDir,
    accepts_of_text hgives.workspaceDir]
  cases hasInk settings.pagesDir.toList with
  | false => rfl
  | true => cases hasInk settings.workspaceDir.toList <;> rfl

/-- What is read of the values of settings in normal form: the names of the directories are stripped
again. -/
theorem given_of_gives (h : settings.Normal) (hgives : Gives again settings) :
    given again = { settings with
      pagesDir := withoutSlashes (stripped settings.pagesDir)
      workspaceDir := withoutSlashes (stripped settings.workspaceDir) } := by
  rw [given, setting_of_text hgives.title, setting_of_text hgives.baseUrl,
    setting_of_text hgives.style, setting_of_text hgives.pagesDir,
    setting_of_text hgives.workspaceDir, setting_of_text hgives.extension, h.title.stripped_eq,
    h.baseUrl.1.stripped_eq, h.style.stripped_eq, h.extension.1.stripped_eq,
    withFinalSlash_eq_self h.baseUrl.2, withDot_eq_self h.extension.2]

/-- What is read of the values of settings in normal form. -/
theorem ofTable_of_gives (h : settings.Normal) (hgives : Gives again settings) :
    ofTable again = settings.reloaded := by
  rw [ofTable_eq, problem?_of_gives h hgives, given_of_gives h hgives, reloaded]
  cases hasInk settings.pagesDir.toList with
  | false => rfl
  | true => cases hasInk settings.workspaceDir.toList <;> rfl

/-- A name without slashes at its ends is accepted and left as it is exactly if it is in normal
form. -/
private theorem isDirName_iff {s : String} (h : AtEnds (· ≠ '/') s) :
    IsDirName s ↔ hasInk s.toList = true ∧ withoutSlashes (stripped s) = s := by
  have hslashes : withoutSlashes s = s := strippedBy_eq_self_iff.mpr (by simpa using h)
  rw [isDirName_iff_isTrimmed h]
  constructor
  · intro htrimmed
    exact ⟨htrimmed.ink, by rw [htrimmed.stripped_eq, hslashes]⟩
  · rintro ⟨hink, heq⟩
    -- nothing goes but at the ends, so what is left whole lost nothing in either step
    have hless : (strip s.toList).Sublist s.toList := stripBy_sublist _ _
    have hwhole : s.toList.Sublist (strip s.toList) := by
      have hslash := stripBy_sublist (· == '/') (stripped s).toList
      have hlist : stripBy (· == '/') (stripped s).toList = s.toList := by
        rw [← String.toList_inj, withoutSlashes, String.toList_ofList] at heq
        exact heq
      rwa [hlist, stripped, String.toList_ofList] at hslash
    refine ⟨hink, strippedBy_eq_self_iff.mp ?_⟩
    rw [← String.toList_inj, strippedBy, String.toList_ofList]
    exact hless.antisymm hwhole

/-- Settings in normal form are loaded again as they are exactly if both directories have names in
normal form. -/
theorem reloaded_eq_ok_iff (h : settings.Normal) :
    settings.reloaded = .ok settings ↔
      IsDirName settings.pagesDir ∧ IsDirName settings.workspaceDir := by
  rw [reloaded, isDirName_iff h.pagesDir, isDirName_iff h.workspaceDir]
  cases hpages : hasInk settings.pagesDir.toList with
  | false => simp
  | true =>
    cases hworkspace : hasInk settings.workspaceDir.toList with
    | false => simp
    | true =>
      rw [if_pos rfl, if_pos rfl, Except.ok.injEq, and_iff_right rfl, and_iff_right rfl]
      obtain ⟨title, baseUrl, style, pagesDir, workspaceDir, extension⟩ := settings
      simp only [Settings.mk.injEq, true_and, and_true]

/-- A table whose settings are loaded has nothing wrong. -/
private theorem given_of_ofTable (h : ofTable table = .ok settings) :
    problem? table = none ∧ given table = settings := by
  rw [ofTable_eq] at h
  split at h
  · cases h
  · next hnone => exact ⟨hnone, Except.ok.inj h⟩

theorem normal_of_ofTable (h : ofTable table = .ok settings) : settings.Normal := by
  obtain ⟨hnone, rfl⟩ := given_of_ofTable h
  exact normal_given hnone

/-- The names of the directories are in normal form exactly if they are the written ones without
white space and slashes, and something is left of these. -/
theorem isDirName_of_ofTable (h : ofTable table = .ok settings) :
    (IsDirName settings.pagesDir ↔ settings.pagesDir ≠ "" ∧
      settings.pagesDir = bare (written table "pages_dir" Layout.defaultPagesDir)) ∧
    (IsDirName settings.workspaceDir ↔ settings.workspaceDir ≠ "" ∧
      settings.workspaceDir =
        bare (written table "workspace_dir" Layout.defaultWorkspaceDir)) := by
  obtain ⟨-, rfl⟩ := given_of_ofTable h
  rw [given]
  dsimp only
  exact ⟨isDirName_withoutSlashes _, isDirName_withoutSlashes _⟩

end Tables

/-! ## Written settings -/

/-- The lines of a file with the values of settings. -/
def rows (settings : Settings) : PageIndex.Row :=
  [("title", settings.title), ("base_url", settings.baseUrl),
    ("pygments_style", settings.style), ("pages_dir", settings.pagesDir),
    ("workspace_dir", settings.workspaceDir), ("page_extension", settings.extension)]

/-- Whatever settings hold, a file of lines with their values holds them. -/
theorem holds_rows (settings : Settings) :
    Holds (Utf8.encode settings.rows.lines) settings.rows.value ∧
      Gives settings.rows.value settings := by
  have hbare : settings.rows.Bare := by
    simp only [PageIndex.Row.Bare, rows, List.forall_mem_cons]
    exact ⟨⟨by decide, rfl⟩, ⟨by decide, rfl⟩, ⟨by decide, rfl⟩, ⟨by decide, rfl⟩,
      ⟨by decide, rfl⟩, ⟨by decide, rfl⟩, List.forall_mem_nil _⟩
  have hnodup : settings.rows.names.Nodup := by
    have hnames : settings.rows.names = ["title", "base_url", "pygments_style", "pages_dir",
        "workspace_dir", "page_extension"] := rfl
    rw [hnames]
    decide
  refine ⟨reads_encode ?_ (PageIndex.Row.read_lines hbare hnodup), ⟨rfl, rfl, rfl, rfl, rfl, rfl⟩⟩
  exact PageIndex.Row.return_not_mem_lines hbare

end Guidebook.Settings

namespace Guidebook.Workflow

open Toml Settings

/-- For all tables whose settings are loaded: the settings are trimmed and completed. The name of a
directory has no slash at its ends, and it is in normal form exactly if it is the written one
without white space and slashes, and something is left of that. From a file that holds exactly their
values the settings are loaded again as they are if both names are in normal form, and only then. A
blank name is refused, and all others are stripped once more. There is such a file for all
settings. -/
theorem loadSettings_again {table : Value} {settings : Settings}
    (h : ofTable table = .ok settings) :
    settings.Normal ∧
    (IsDirName settings.pagesDir ↔ settings.pagesDir ≠ "" ∧
      settings.pagesDir = bare (written table "pages_dir" Layout.defaultPagesDir)) ∧
    (IsDirName settings.workspaceDir ↔ settings.workspaceDir ≠ "" ∧
      settings.workspaceDir = bare (written table "workspace_dir" Layout.defaultWorkspaceDir)) ∧
    (∀ (s : State) path bytes again, s.files.read path = .ok bytes → Toml.Holds bytes again →
      Gives again settings →
        (loadSettings path).on s =
          (settings.reloaded.mapError (.settings · path.toString), s) ∧
        (((loadSettings path).on s).1 = .ok settings ↔
          IsDirName settings.pagesDir ∧ IsDirName settings.workspaceDir)) ∧
    Toml.Holds (Utf8.encode settings.rows.lines) settings.rows.value ∧
    Gives settings.rows.value settings := by
  have hnormal := normal_of_ofTable h
  obtain ⟨hpages, hworkspace⟩ := isDirName_of_ofTable h
  refine ⟨hnormal, hpages, hworkspace, fun s path bytes again hread hholds hgives ↦ ?_,
    holds_rows settings⟩
  obtain ⟨text, hdecode, htable⟩ := hholds
  have hbytes : Settings.ofBytes path.toString bytes =
      settings.reloaded.mapError (.settings · path.toString) := by
    simp only [Settings.ofBytes, hdecode, htable, ofTable_of_gives hnormal hgives]
  have hload := (on_loadSettings_of_read hread).trans (by rw [hbytes])
  refine ⟨hload, ?_⟩
  rw [hload, ← reloaded_eq_ok_iff hnormal]
  cases settings.reloaded with
  | ok loaded => simp [Except.mapError]
  | error problem => simp [Except.mapError]

/-- Settings whose pages directory was written as a slash. -/
def slashSettings : Settings := { Settings.ofTitle "T" with pagesDir := "" }

/-- A guide whose settings file holds these settings. -/
def slashGuide : State where
  files := ⟨[(["/"], .directory), (["/", "guide"], .directory),
    (["/", "guide", ".codasai"], .directory),
    (["/", "guide", ".codasai", "guide.toml"],
      .file (Utf8.encode slashSettings.rows.lines))]⟩
  repositories := []
  logs := []

/-- A slash is accepted as the name of a directory. Nothing is left of it, and the settings are
refused when they are loaded again. -/
theorem loadSettings_again_slash :
    ofTable (.table [("title", .text "T"), ("pages_dir", .text "/")]) = .ok slashSettings ∧
    ¬ IsDirName slashSettings.pagesDir ∧
    (loadSettings (Layout.ofRoot ⟨"/", ["guide"]⟩).settings).on slashGuide =
      (.error (.settings (.badOption "pages_dir") "/guide/.codasai/guide.toml"), slashGuide) := by
  have hloaded : ofTable (.table [("title", .text "T"), ("pages_dir", .text "/")]) =
      .ok slashSettings := rfl
  have hread : slashGuide.files.read (Layout.ofRoot ⟨"/", ["guide"]⟩).settings =
      .ok (Utf8.encode slashSettings.rows.lines) := rfl
  obtain ⟨-, hpages, -, hagain, hholds, hgives⟩ := loadSettings_again hloaded
  exact ⟨hloaded, fun h ↦ (hpages.mp h).1 rfl, (hagain _ _ _ _ hread hholds hgives).1⟩

end Guidebook.Workflow
