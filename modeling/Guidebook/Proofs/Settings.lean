import Guidebook.Proofs.Toml
import Guidebook.Settings

/-!
# The settings that a file holds

A table holds settings if it has a title that is not blank and every other setting that it has is a
text that is not blank either. Otherwise the complaint is about the title or else about the first
setting that is wrong. A fresh settings file gives the title that it was written with, whatever
characters that holds, and leaves everything else at its default; a blank title is written like any
other, but is none when it is read back.
-/

namespace Guidebook.Settings

open Toml

/-! ## Tables -/

variable {table : Value}

/-- The settings that have a default, in the order in which they are looked at. -/
def optionKeys : List String :=
  ["base_url", "page_extension", "pygments_style", "pages_dir", "workspace_dir"]

/-- Whether a table has a title that is not blank. -/
def titled (table : Value) : Bool :=
  match table.get? "title" with
  | some (.text s) => Text.hasInk s.toList
  | _ => false

/-- Whether a table leaves a setting out or has a text for it that is not blank. -/
def accepts (table : Value) (key : String) : Bool :=
  match table.get? key with
  | none => true
  | some (.text s) => Text.hasInk s.toList
  | some _ => false

/-- What is wrong with a table that holds no settings. -/
def problem? (table : Value) : Option SettingsProblem :=
  if titled table then (optionKeys.find? (!accepts table ·)).map .badOption else some .noTitle

/-- A setting as a table has it, or its default, without surrounding white space. -/
def setting (table : Value) (key fallback : String) : String :=
  stripped (((table.get? key).bind Value.text?).getD fallback)

/-- The settings of a table with which nothing is wrong. -/
def given (table : Value) : Settings where
  title := setting table "title" ""
  baseUrl := withFinalSlash (setting table "base_url" "/")
  style := setting table "pygments_style" "monokai"
  pagesDir := withoutSlashes (setting table "pages_dir" Layout.defaultPagesDir)
  workspaceDir := withoutSlashes (setting table "workspace_dir" Layout.defaultWorkspaceDir)
  extension := withDot (setting table "page_extension" Page.defaultExtension)

theorem option_eq (table : Value) (key : String) {fallback : String}
    (hink : Text.hasInk fallback.toList = true) :
    option table key fallback =
      if accepts table key then .ok (setting table key fallback) else .error (.badOption key) := by
  rw [option, accepts, setting]
  rcases table.get? key with _ | ⟨s⟩ | _ | _ | _
  · simp [hink]
  all_goals rfl

/-- A table is read as its settings, unless something is wrong with it. -/
theorem ofTable_eq (table : Value) :
    ofTable table = match problem? table with
      | some problem => .error problem
      | none => .ok (given table) := by
  have hurl := option_eq table "base_url" (by decide : Text.hasInk "/".toList = true)
  have hextension := option_eq table "page_extension"
    (by decide : Text.hasInk Page.defaultExtension.toList = true)
  have hstyle := option_eq table "pygments_style" (by decide : Text.hasInk "monokai".toList = true)
  have hpages := option_eq table "pages_dir"
    (by decide : Text.hasInk Layout.defaultPagesDir.toList = true)
  have hworkspace := option_eq table "workspace_dir"
    (by decide : Text.hasInk Layout.defaultWorkspaceDir.toList = true)
  rw [ofTable, problem?, titled]
  cases htitle : table.get? "title" with
  | none => rfl
  | some value =>
    cases value with
    | text s =>
      cases hink : Text.hasInk s.toList with
      | false => simp only [hink, bind, Except.bind, Bool.false_eq_true, if_false]
      | true =>
        have hset : stripped s = setting table "title" "" := by
          rw [setting, htitle]
          rfl
        simp only [hink, if_true, bind, Except.bind, ofTitle, hurl, hextension, hstyle, hpages,
          hworkspace, hset, optionKeys, List.find?_cons]
        -- The settings are looked at one after another, up to the first that is not accepted.
        cases accepts table "base_url" with
        | false => rfl
        | true =>
          cases accepts table "page_extension" with
          | false => rfl
          | true =>
            cases accepts table "pygments_style" with
            | false => rfl
            | true =>
              cases accepts table "pages_dir" with
              | false => rfl
              | true =>
                cases accepts table "workspace_dir" <;> rfl
    | scalar written => rfl
    | array values => rfl
    | table entries => rfl

/-! ## Bytes -/

/-- What bytes are as the settings at a path. -/
inductive Outcome (path : String) (bytes : List UInt8) : Except Failure Settings → Prop
  | settings {table : Value} (h : Holds bytes table) (hsound : problem? table = none) :
      Outcome path bytes (.ok (given table))
  | malformed (h : Malformed bytes) : Outcome path bytes (.error (.settings .notToml path))
  | wrong {table : Value} {problem : SettingsProblem} (h : Holds bytes table)
      (hproblem : problem? table = some problem) :
      Outcome path bytes (.error (.settings problem path))
  | notText {fault : Utf8.Fault} (h : Utf8.decode bytes = .error fault) :
      Outcome path bytes (.error (.notText fault))
  | clash {fault : Fault} (h : Clashes bytes fault) : Outcome path bytes (.error (.toml fault))

section Bytes

variable {path : String} {bytes : List UInt8} {result : Except Failure Settings}

theorem Outcome.ofBytes_eq (h : Outcome path bytes result) : ofBytes path bytes = result := by
  cases h with
  | settings h hsound =>
    obtain ⟨text, hdecode, hread⟩ := h
    simp only [ofBytes, hdecode, hread, ofTable_eq, hsound]
    rfl
  | malformed h =>
    obtain ⟨text, hdecode, hread⟩ := h
    simp only [ofBytes, hdecode, hread]
  | wrong h hproblem =>
    obtain ⟨text, hdecode, hread⟩ := h
    simp only [ofBytes, hdecode, hread, ofTable_eq, hproblem]
    rfl
  | notText h => rw [ofBytes, h]
  | @clash fault h =>
    obtain ⟨⟨text, hdecode, hread⟩, hfault⟩ := h
    simp only [ofBytes, hdecode, hread]
    cases fault with
    | malformed => exact absurd rfl hfault
    | duplicateKey name => rfl
    | redefined => rfl

theorem exists_outcome (path : String) (bytes : List UInt8) :
    ∃ result, Outcome path bytes result := by
  cases contents bytes with
  | notText fault h => exact ⟨_, .notText h⟩
  | malformed h => exact ⟨_, .malformed h⟩
  | clash fault h => exact ⟨_, .clash h⟩
  | table table h =>
    cases hproblem : problem? table with
    | none => exact ⟨_, .settings h hproblem⟩
    | some problem => exact ⟨_, .wrong h hproblem⟩

theorem ofBytes_eq_iff : ofBytes path bytes = result ↔ Outcome path bytes result := by
  refine ⟨?_, Outcome.ofBytes_eq⟩
  rintro rfl
  obtain ⟨result, h⟩ := exists_outcome path bytes
  exact h.ofBytes_eq.symm ▸ h

end Bytes

/-! ## A fresh file -/

/-- Where only the title is set, every other setting has its default. -/
private theorem given_title (title : String) :
    given (.table [("title", .text title)]) = ofTitle (stripped title) := by
  have hurl : withFinalSlash (stripped "/") = "/" := by decide
  have hstyle : stripped "monokai" = "monokai" := by decide
  have hpages : withoutSlashes (stripped Layout.defaultPagesDir) = Layout.defaultPagesDir := by
    decide
  have hworkspace :
      withoutSlashes (stripped Layout.defaultWorkspaceDir) = Layout.defaultWorkspaceDir := by decide
  have hextension : withDot (stripped Page.defaultExtension) = Page.defaultExtension := by decide
  rw [ofTitle, ← hurl, ← hstyle, ← hpages, ← hworkspace, ← hextension]
  rfl

/-- A fresh settings file is read back: a title that is not blank is kept without surrounding white
space, with every other setting at its default. -/
theorem ofBytes_writeTitle (path title : String) :
    ofBytes path (Utf8.encode (writeTitle title)) =
      if Text.hasInk title.toList then .ok (ofTitle (stripped title))
      else .error (.settings .noTitle path) := by
  have hreturn : '\r' ∉ writeTitle title := return_not_mem_writeEntry (by decide) _
  have hread : Toml.read (writeTitle title) = .ok (.table [("title", .text title)]) := by
    rw [writeTitle, read_writeEntry ⟨by decide, rfl⟩, String.ofList_toList, String.ofList_toList]
  have hholds : Holds (Utf8.encode (writeTitle title)) _ := reads_encode hreturn hread
  -- Nothing can be wrong but a blank title.
  have htitled : titled (.table [("title", .text title)]) = Text.hasInk title.toList := rfl
  have haccepted : optionKeys.find? (!accepts (.table [("title", .text title)]) ·) = none := rfl
  have hproblem : problem? (.table [("title", .text title)]) =
      if Text.hasInk title.toList then none else some .noTitle := by
    rw [problem?, htitled, haccepted]
    rfl
  rw [ofBytes_eq_iff]
  cases hink : Text.hasInk title.toList with
  | true =>
    rw [hink] at hproblem
    exact given_title title ▸ .settings hholds hproblem
  | false =>
    rw [hink] at hproblem
    exact .wrong hholds hproblem

end Guidebook.Settings
