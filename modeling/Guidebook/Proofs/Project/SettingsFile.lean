import Guidebook.Cli
import Guidebook.Proofs.Files
import Guidebook.Proofs.Project.Workflow
import Guidebook.Proofs.Settings

/-!
# Any bytes as the settings file

Loading settings changes nothing, whatever bytes the file holds. Settings are loaded exactly from a
table with which nothing is wrong. What is wrong with a table is reported, in one line if a command
meets it, and so is text that is malformed. Bytes that are no text, and definitions that clash, are
failures of other kinds, which end a command without a report.
-/

namespace Guidebook

namespace Settings

open Toml

variable {path : String} {bytes : List UInt8} {table : Value} {problem : SettingsProblem}

/-- Bytes hold settings exactly if they hold a table with which nothing is wrong. -/
theorem ofBytes_eq_ok_iff {settings : Settings} :
    ofBytes path bytes = .ok settings ↔
      ∃ table, Holds bytes table ∧ problem? table = none ∧ settings = given table := by
  rw [ofBytes_eq_iff]
  constructor
  · rintro ⟨h, hsound⟩
    exact ⟨_, h, hsound, rfl⟩
  · rintro ⟨table, h, hsound, rfl⟩
    exact .settings h hsound

/-- Bytes are wrong settings if they are malformed, or if something is wrong with their table. -/
theorem ofBytes_eq_settings_iff :
    ofBytes path bytes = .error (.settings problem path) ↔
      (problem = .notToml ∧ Malformed bytes) ∨
        ∃ table, Holds bytes table ∧ problem? table = some problem := by
  rw [ofBytes_eq_iff]
  constructor
  · rintro (_ | h | ⟨h, hproblem⟩ | _ | _)
    · exact .inl ⟨rfl, h⟩
    · exact .inr ⟨_, h, hproblem⟩
  · rintro (⟨rfl, h⟩ | ⟨table, h, hproblem⟩)
    · exact .malformed h
    · exact .wrong h hproblem

theorem ofBytes_eq_notText_iff {fault : Utf8.Fault} :
    ofBytes path bytes = .error (.notText fault) ↔ Utf8.decode bytes = .error fault := by
  rw [ofBytes_eq_iff]
  constructor
  · rintro (_ | _ | _ | h | _)
    exact h
  · exact .notText

theorem ofBytes_eq_toml_iff {fault : Fault} :
    ofBytes path bytes = .error (.toml fault) ↔ Clashes bytes fault := by
  rw [ofBytes_eq_iff]
  constructor
  · rintro (_ | _ | _ | _ | h)
    exact h
  · exact .clash

/-! ## Messages -/

theorem key_mem_of_problem? {key : String} (h : problem? table = some (.badOption key)) :
    key ∈ optionKeys := by
  rw [problem?] at h
  split at h
  · obtain ⟨found, hfound, heq⟩ := Option.map_eq_some_iff.mp h
    cases heq
    exact List.mem_of_find?_eq_some hfound
  · cases h

/-- What is wrong with a file of settings is said in one line, unless its path has several. -/
theorem newline_not_mem_message (h : ofBytes path bytes = .error (.settings problem path))
    (hpath : '\n' ∉ path.toList) : '\n' ∉ (problem.message path).toList := by
  have hkey : ∀ key, problem = .badOption key → '\n' ∉ key.toList := by
    rintro key rfl
    rcases ofBytes_eq_settings_iff.mp h with ⟨hproblem, -⟩ | ⟨table, -, hproblem⟩
    · cases hproblem
    · exact (by decide : ∀ key ∈ optionKeys, '\n' ∉ key.toList) key (key_mem_of_problem? hproblem)
  cases problem with
  | notToml =>
    dsimp only [SettingsProblem.message]
    simp [hpath]
  | noTitle =>
    dsimp only [SettingsProblem.message]
    simp [hpath]
  | badOption key =>
    dsimp only [SettingsProblem.message]
    simp [hpath, hkey key rfl]

end Settings

namespace Workflow

open Toml Settings

variable {s : State} {path : Path} {bytes : List UInt8}

/-- A file that can be read is loaded from its bytes. -/
theorem on_loadSettings_of_read (h : s.files.read path = .ok bytes) :
    (loadSettings path).on s = (Settings.ofBytes path.toString bytes, s) := by
  rw [loadSettings, on_bind_ok (on_files s), if_pos (FileTree.present_of_read h), on_bind, on_read,
    h]
  exact on_ofResult _ s

/-- A project is found without a trace. -/
theorem on_findProject (start : Path) (s : State) :
    (findProject start).on s = (((findProject start).on s).1, s) := by
  rw [findProject, on_bind_ok (on_files s)]
  dsimp only
  split <;> rfl

/-- Where the settings are not loaded, the project is not. -/
theorem on_loadProject_of_error {start root : Path} {failure : Failure}
    (hfind : ((findProject start).on s).1 = .ok root)
    (hsettings : (loadSettings (Layout.ofRoot root).settings).on s = (.error failure, s)) :
    (loadProject start).on s = (.error failure, s) := by
  have hfound : (findProject start).on s = (.ok root, s) := hfind ▸ on_findProject start s
  rw [loadProject, on_bind_ok hfound, loadRoot, on_bind_error hsettings]

end Workflow

namespace Cli

open Toml Settings Workflow

variable {cwd root : Path} {invocation : Invocation} {s : State} {project : String}
  {threshold : Nat} {failure : Failure}

/-- The directory from which on a command looks for its project. -/
def Action.project? : Action → Option String
  | .init .. => none
  | .build project | .save project | .preview project => some project

/-- A command whose settings are not loaded ends there, with a report or without one. -/
theorem run_of_error (hproject : invocation.action.project? = some project)
    (hlevel : logThreshold invocation.level = .ok threshold)
    (hfind : ((findProject (cwd.join (Path.ofString project))).on s).1 = .ok root)
    (hsettings : (loadSettings (Layout.ofRoot root).settings).on s = (.error failure, s)) :
    run cwd invocation s =
      if isReported failure then (.ok ⟨1, [], ["error: " ++ failure.message]⟩, s)
      else (.error failure, s) := by
  have hload := on_loadProject_of_error hfind hsettings
  obtain ⟨action, level⟩ := invocation
  have hperform : (perform cwd action).on s = (.error failure, s) := by
    cases action with
    | init title path => cases hproject
    | build other | save other | preview other =>
      obtain rfl := Option.some.inj hproject
      rw [perform, on_bind_error hload]
  have hreports : reportLines threshold (s.logs.drop s.logs.length) = [] := by
    rw [List.drop_length]
    rfl
  rw [on] at hperform
  rw [run, hlevel]
  simp only [hperform, hreports, List.nil_append]

end Cli

namespace Workflow

open Toml Settings

variable {s : State} {path : Path} {bytes : List UInt8}

/-- For all bytes of a settings file: loading changes nothing. Settings are loaded exactly if the
bytes hold a table with which nothing is wrong; what is wrong with a table, or that the text is
malformed, is reported as settings that are wrong. The only other failures are bytes that are no
text and definitions that clash. Every command that finds the project reports wrong settings in one
line and leaves with status 1; by the other failures it is ended without a report. -/
theorem loadSettings_of_bytes (h : s.files.read path = .ok bytes) :
    ((loadSettings path).on s).2 = s ∧
    (∀ settings, ((loadSettings path).on s).1 = .ok settings ↔
      ∃ table, Toml.Holds bytes table ∧ problem? table = none ∧ settings = given table) ∧
    (∀ problem, ((loadSettings path).on s).1 = .error (.settings problem path.toString) ↔
      (problem = .notToml ∧ Malformed bytes) ∨
        ∃ table, Toml.Holds bytes table ∧ problem? table = some problem) ∧
    (∀ fault, ((loadSettings path).on s).1 = .error (.notText fault) ↔
      Utf8.decode bytes = .error fault) ∧
    (∀ fault, ((loadSettings path).on s).1 = .error (.toml fault) ↔ Clashes bytes fault) ∧
    (∀ failure, ((loadSettings path).on s).1 = .error failure →
      (∃ problem, failure = .settings problem path.toString) ∨
        (∃ fault, failure = .notText fault) ∨ ∃ fault, failure = .toml fault) ∧
    ∀ cwd invocation project threshold root, invocation.action.project? = some project →
      logThreshold invocation.level = .ok threshold →
      ((findProject (cwd.join (Path.ofString project))).on s).1 = .ok root →
      path = (Layout.ofRoot root).settings →
        (∀ problem, ((loadSettings path).on s).1 = .error (.settings problem path.toString) →
          Cli.run cwd invocation s =
            (.ok ⟨1, [], ["error: " ++ problem.message path.toString]⟩, s) ∧
          ('\n' ∉ path.toString.toList → '\n' ∉ (problem.message path.toString).toList)) ∧
        (∀ fault, Utf8.decode bytes = .error fault →
          Cli.run cwd invocation s = (.error (.notText fault), s)) ∧
        ∀ fault, Clashes bytes fault → Cli.run cwd invocation s = (.error (.toml fault), s) := by
  have hload := on_loadSettings_of_read h
  rw [hload]
  refine ⟨rfl, fun _ ↦ ofBytes_eq_ok_iff, fun _ ↦ ofBytes_eq_settings_iff,
    fun _ ↦ ofBytes_eq_notText_iff, fun _ ↦ ofBytes_eq_toml_iff, fun failure hfailure ↦ ?_, ?_⟩
  · rcases ofBytes_eq_iff.mp hfailure with _ | _ | _ | _ | _
    · exact .inl ⟨_, rfl⟩
    · exact .inl ⟨_, rfl⟩
    · exact .inr (.inl ⟨_, rfl⟩)
    · exact .inr (.inr ⟨_, rfl⟩)
  · rintro cwd invocation project threshold root hproject hlevel hfind rfl
    have hrun : ∀ failure,
        Settings.ofBytes (Layout.ofRoot root).settings.toString bytes = .error failure →
          Cli.run cwd invocation s =
            if Cli.isReported failure then (.ok ⟨1, [], ["error: " ++ failure.message]⟩, s)
            else (.error failure, s) := fun failure hfailure ↦
      Cli.run_of_error hproject hlevel hfind (hload.trans (by rw [hfailure]))
    exact ⟨fun problem hproblem ↦ ⟨hrun _ hproblem, newline_not_mem_message hproblem⟩,
      fun fault hfault ↦ hrun _ (ofBytes_eq_notText_iff.mpr hfault),
      fun fault hfault ↦ hrun _ (ofBytes_eq_toml_iff.mpr hfault)⟩

/-- A guide whose settings file is the one byte `ff`. -/
def strayByteGuide : State where
  files := ⟨[(["/"], .directory), (["/", "guide"], .directory),
    (["/", "guide", ".codasai"], .directory),
    (["/", "guide", ".codasai", "guide.toml"], .file [0xff])]⟩
  repositories := []
  logs := []

/-- A build from the directory of the guide is ended by the byte, without a report. -/
theorem loadSettings_of_bytes_stray :
    ∃ fault, Cli.run ⟨"/", ["guide"]⟩ ⟨.build ".", "INFO"⟩ strayByteGuide =
      (.error (.notText fault), strayByteGuide) := by
  have hread : strayByteGuide.files.read (Layout.ofRoot ⟨"/", ["guide"]⟩).settings = .ok [0xff] :=
    eq_ok_of_toOption (by decide +kernel)
  obtain ⟨-, -, -, -, -, -, hcommands⟩ := loadSettings_of_bytes hread
  obtain ⟨-, hnotText, -⟩ := hcommands ⟨"/", ["guide"]⟩ ⟨.build ".", "INFO"⟩ "." 20
    ⟨"/", ["guide"]⟩ rfl (eq_ok_of_toOption (by decide +kernel))
    (eq_ok_of_toOption (by decide +kernel)) rfl
  exact ⟨_, hnotText _ rfl⟩

end Workflow

end Guidebook
