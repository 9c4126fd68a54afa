import Guidebook.Proofs.Project.Alignment

/-!
# The index from run to run

Loading an index changes nothing, whatever bytes the file holds. An index is loaded exactly from a
table that lists its entries, with codes that are all different. Bytes that are no text or are
malformed, and any other table, are reported as an index that is wrong. Definitions that clash are
not: they are a failure of another kind. For that it is enough that one block of the file uses a
name twice.

An index is loaded from its file as it was saved there, whatever its titles and codes hold: quotes
and backslashes, line ends and other control characters. So after a save that returns the file holds
the entries of before, and behind them the one that was returned.

Whoever adds entries to an index may go on after one that was refused. A refused entry changes
nothing, so the entries of any time stand in front of those of any later time. As codes are never
the same, the lookup by code and the lookup by position are inverse to each other.
-/

namespace Guidebook.Workflow

open Git

variable {l : Layout} {settings : Settings} {s s' : State} {index : PageIndex}

/-- A file that can be read is loaded from its bytes. -/
theorem on_loadIndex_of_read {path : Path} {bytes : List UInt8}
    (h : s.files.read path = .ok bytes) :
    (loadIndex path).on s = (PageIndex.ofBytes path.toString bytes, s) := by
  rw [loadIndex, on_bind_ok (on_files s), FileTree.present_of_read h, if_pos rfl, h]
  exact on_ofResult _ s

/-- What the files of a project hold as their index is what is loaded. -/
theorem Loads.on_loadIndex {path : Path} (h : Loads s.files path index) :
    ((loadIndex path).on s).1 = .ok index := by
  rcases h with ⟨habsent, rfl⟩ | ⟨bytes, hread, hbytes⟩
  · rw [loadIndex, on_bind_ok (on_files s), habsent]
    rfl
  · rw [on_loadIndex_of_read hread, hbytes]

/-- A sound index is loaded from the file that it was saved to. -/
theorem loadIndex_of_saveIndex {path : Path} (h : index.Sound)
    (hrun : (saveIndex path index).on s = (.ok (), s')) :
    (loadIndex path).on s' = (.ok index, s') := by
  rw [saveIndex] at hrun
  obtain ⟨_, t, -, hwrite⟩ := on_bind_eq_ok hrun
  obtain ⟨tree, htree, rfl⟩ := on_write_eq_ok hwrite
  rw [on_loadIndex_of_read (FileTree.read_write htree), PageIndex.ofBytes_write h]

/-- After a save that returns the index file holds what it held, and the entry that was returned. -/
theorem loadIndex_of_save (hs : s.Sound) {root : Path} (hroot : root.Resolved)
    (hload : ((loadRoot root).on s).1 = .ok (l, settings)) {entry : IndexEntry}
    (hrun : (save l settings).on s = (.ok entry, s')) :
    ∃ index, ((loadIndex l.index).on s).1 = .ok index ∧
      (loadIndex l.index).on s' = (.ok ⟨index.entries ++ [entry]⟩, s') := by
  obtain ⟨rfl, hmeta⟩ := metadata_of_loadRoot hs.files hroot hload
  cases save_outcome hs hroot hmeta hrun with
  | @saved d t _ _ staged w places message committer hattempt _ hfiles _ =>
    obtain ⟨hsame, hdrafted⟩ := draft_eq_ok hattempt.drafts
    obtain ⟨index, hloads, happend⟩ := hdrafted.index
    have hsound : index.Sound := by
      rcases hloads with ⟨-, rfl⟩ | ⟨_, -, hbytes⟩
      · exact PageIndex.sound_empty
      · exact PageIndex.sound_of_ofBytes hbytes
    obtain ⟨hlonger, hentries⟩ := hsound.append hdrafted.code_ne_empty happend
    have hindex := resolved_index hroot
    have hwritten : (t.written l d).files.read l.index = .ok (Utf8.encode d.longer.write) := by
      have ht : t.files.Sound := hsame.1 ▸ hs.files
      have hsaved := on_saveIndex ht hroot (hsame.1 ▸ hmeta)
        (hsame.1 ▸ hdrafted.before.not_directory hs.files hindex) d.longer
      obtain ⟨_, u, -, hwrite⟩ := on_bind_eq_ok hsaved
      obtain ⟨tree, htree, hu⟩ := on_write_eq_ok hwrite
      rw [State.written, hu]
      exact FileTree.read_write htree
    refine ⟨index, hloads.on_loadIndex, ?_⟩
    rw [on_loadIndex_of_read (hfiles ▸ hwritten), PageIndex.ofBytes_write hlonger, ← hentries]

/-- An index of appended entries with codes is read back from its own file, entry by entry and in
order, and loaded from wherever it was saved. A page has a code, so after every save that returns
the index is that of before with the returned entry behind it. -/
theorem loadIndex_saved :
    (∀ entries index, PageIndex.empty.ofEntries entries = .ok index →
      (∀ entry ∈ entries, entry.code ≠ "") →
        index.entries = entries ∧
        (∀ path, PageIndex.ofBytes path (Utf8.encode index.write) = .ok index) ∧
        ∀ path s s', (saveIndex path index).on s = (.ok (), s') →
          (loadIndex path).on s' = (.ok index, s')) ∧
    (∀ path pagesDir extension, Page.isPagePath path pagesDir extension = true →
      Page.slug path extension ≠ "") ∧
    ∀ (root : Path) (l : Layout) (settings : Settings) (s s' : State) (entry : IndexEntry), s.Sound →
      root.Resolved → ((loadRoot root).on s).1 = .ok (l, settings) →
        (save l settings).on s = (.ok entry, s') →
          ∃ index, ((loadIndex l.index).on s).1 = .ok index ∧
            (loadIndex l.index).on s' = (.ok ⟨index.entries ++ [entry]⟩, s') := by
  refine ⟨fun entries index hentries hcodes ↦ ?_, fun _ _ _ ↦ Page.slug_ne_empty,
    fun root l settings s s' entry hs hroot hload hrun ↦ loadIndex_of_save hs hroot hload hrun⟩
  obtain ⟨hsound, hlisted⟩ := PageIndex.sound_empty.ofEntries hcodes hentries
  exact ⟨hlisted, fun path ↦ PageIndex.ofBytes_write hsound path,
    fun path s s' hrun ↦ loadIndex_of_saveIndex hsound hrun⟩

/-- Entries with quotes, line ends and control characters, one of them without a title. -/
def awkwardEntries : List IndexEntry :=
  [⟨"a \"b\" \\ c\r\nd\x00\x7f", "é\n"⟩, ⟨"", "[[entries]]"⟩]

/-- Awkward entries are saved and loaded back, and a second page is saved behind the first. -/
theorem loadIndex_saved_awkward :
    (∃ s', (saveIndex guideLayout.index ⟨awkwardEntries⟩).on startedGuide = (.ok (), s') ∧
      (loadIndex guideLayout.index).on s' = (.ok ⟨awkwardEntries⟩, s')) ∧
    ∃ (entry : IndexEntry) (s' : State) (index : PageIndex),
      (save guideLayout (Settings.ofTitle "T")).on
        (withPage (withSave (withPage startedGuide "a.md")) "b.md") = (.ok entry, s') ∧
      (loadIndex guideLayout.index).on s' = (.ok ⟨index.entries ++ [entry]⟩, s') := by
  constructor
  · obtain ⟨_, hrun⟩ : ∃ a, (saveIndex guideLayout.index ⟨awkwardEntries⟩).on startedGuide =
        (.ok a, ((saveIndex guideLayout.index ⟨awkwardEntries⟩).on startedGuide).2) :=
      on_eq_ok (by decide +kernel)
    obtain ⟨-, -, hloads⟩ := loadIndex_saved.1 awkwardEntries ⟨awkwardEntries⟩ (by decide +kernel)
      (by decide)
    exact ⟨_, hrun, hloads _ _ _ hrun⟩
  · obtain ⟨entry, hrun⟩ : ∃ entry, (save guideLayout (Settings.ofTitle "T")).on
        (withPage (withSave (withPage startedGuide "a.md")) "b.md") = (.ok entry, savedGuide) :=
      on_eq_ok (by decide +kernel)
    obtain ⟨index, -, hloads⟩ := loadIndex_saved.2.2 guideLayout.root guideLayout
      (Settings.ofTitle "T") _ _ entry (by decide +kernel) (by decide)
      (eq_ok_of_toOption (by decide +kernel)) hrun
    exact ⟨entry, savedGuide, index, hrun, hloads⟩

end Guidebook.Workflow

/-! ## Any bytes as the file -/

namespace Guidebook

namespace PageIndex

open Toml

variable {path : String} {bytes : List UInt8} {problem : IndexProblem} {fault : Fault}

/-- Bytes are a wrong index if nothing is read from them, or a table with something wrong. -/
theorem ofBytes_eq_index_iff :
    ofBytes path bytes = .error (.index problem) ↔
      (problem = .unreadable path ∧ ((∃ fault, Utf8.decode bytes = .error fault) ∨
        Malformed bytes)) ∨ ∃ table, Holds bytes table ∧ Corrupt path table problem := by
  rw [ofBytes_eq_iff]
  constructor
  · rintro (_ | h | ⟨h, hcorrupt⟩ | _)
    · exact .inl ⟨rfl, h⟩
    · exact .inr ⟨_, h, hcorrupt⟩
  · rintro (⟨rfl, h⟩ | ⟨table, h, hcorrupt⟩)
    · exact .unreadable h
    · exact .corrupt h hcorrupt

theorem ofBytes_eq_toml_iff :
    ofBytes path bytes = .error (.toml fault) ↔ Clashes bytes fault := by
  rw [ofBytes_eq_iff]
  constructor
  · rintro (_ | _ | _ | h)
    exact h
  · exact .clash

/-- In blocks definitions clash exactly if a block repeats a name. -/
theorem clashes_blocks_iff {rows : List Row} (hbare : ∀ row ∈ rows, row.Bare) :
    (∃ fault, Clashes (Utf8.encode (blocks rows)) fault) ↔ ∃ row ∈ rows, ¬row.names.Nodup := by
  have hreturn := return_not_mem_blocks hbare
  have hrepeats : (∃ row ∈ rows, ¬row.names.Nodup) ↔
      rows.findSome? (Row.repeated? []) ≠ none := by
    simp only [Ne, List.findSome?_eq_none_iff, Row.repeated?_eq_none_iff [] List.nodup_nil,
      List.nil_append, not_forall, exists_prop]
  rw [hrepeats]
  cases hrows : rows.findSome? (Row.repeated? []) with
  | some name =>
    have hne : rows ≠ [] := by
      rintro rfl
      cases hrows
    have hread := read_blocks hne hbare
    rw [hrows] at hread
    exact iff_of_true ⟨_, reads_encode hreturn hread, nofun⟩ nofun
  | none =>
    have hread : ∃ table, Toml.read (blocks rows) = .ok table := by
      cases rows with
      | nil => exact ⟨.table [], rfl⟩
      | cons row rows =>
        rw [read_blocks (List.cons_ne_nil _ _) hbare, hrows]
        exact ⟨_, rfl⟩
    obtain ⟨table, hread⟩ := hread
    refine iff_of_false ?_ fun hne ↦ hne rfl
    rintro ⟨fault, hclash, -⟩
    cases hclash.unique (reads_encode hreturn hread)

end PageIndex

namespace Workflow

open Toml PageIndex

/-- For all bytes of an index file: loading changes nothing. An index is loaded exactly if the bytes
hold a table that lists its entries, and their codes are all different. What is reported as a wrong
index is that the bytes are no text or malformed, or what is wrong with their table. The only
other failures are definitions that clash; in blocks they do as soon as one repeats a name. -/
theorem loadIndex_of_bytes {s : State} {path : Path} {bytes : List UInt8}
    (h : s.files.read path = .ok bytes) :
    ((loadIndex path).on s).2 = s ∧
    (∀ index, ((loadIndex path).on s).1 = .ok index ↔
      ∃ table, Toml.Holds bytes table ∧ Registers table index.entries ∧ index.codes.Nodup) ∧
    (∀ problem, ((loadIndex path).on s).1 = .error (.index problem) ↔
      (problem = .unreadable path.toString ∧ ((∃ fault, Utf8.decode bytes = .error fault) ∨
        Malformed bytes)) ∨ ∃ table, Toml.Holds bytes table ∧ Corrupt path.toString table problem) ∧
    (∀ fault, ((loadIndex path).on s).1 = .error (.toml fault) ↔ Clashes bytes fault) ∧
    (∀ failure, ((loadIndex path).on s).1 = .error failure →
      (∃ problem, failure = .index problem) ∨ ∃ fault, failure = .toml fault) ∧
    ∀ rows : List Row, (∀ row ∈ rows, row.Bare) → bytes = Utf8.encode (blocks rows) →
      ((∃ fault, Clashes bytes fault) ↔ ∃ row ∈ rows, ¬row.names.Nodup) := by
  rw [on_loadIndex_of_read h]
  refine ⟨rfl, fun _ ↦ ofBytes_eq_ok_iff, fun _ ↦ ofBytes_eq_index_iff,
    fun _ ↦ ofBytes_eq_toml_iff, fun failure hfailure ↦ ?_, ?_⟩
  · rcases ofBytes_eq_iff.mp hfailure with _ | _ | _ | _
    · exact .inl ⟨_, rfl⟩
    · exact .inl ⟨_, rfl⟩
    · exact .inr ⟨_, rfl⟩
  · rintro rows hbare rfl
    exact clashes_blocks_iff hbare

/-- A page whose block in the index names it twice. -/
def renamedPage : Row := [("name", "A"), ("name", "B"), ("code", "a")]

/-- The bytes of an index with such a page. -/
def renamedBytes : List UInt8 := Utf8.encode (blocks [renamedPage])

/-- A started guide with such an index. -/
def renamedGuide : State :=
  { startedGuide with files := startedGuide.files.put guideLayout.index.parts (.file renamedBytes) }

/-- An index that names a page twice is not loaded, and not reported as a wrong index either. -/
theorem loadIndex_of_bytes_renamed :
    ∃ fault, ((loadIndex guideLayout.index).on renamedGuide).1 = .error (.toml fault) := by
  have hread : renamedGuide.files.read guideLayout.index = .ok renamedBytes :=
    eq_ok_of_toOption (by decide +kernel)
  obtain ⟨-, -, -, hclash, -, hblocks⟩ := loadIndex_of_bytes hread
  have hbare : ∀ row ∈ [renamedPage], row.Bare := by
    simp only [renamedPage, Row.Bare, List.forall_mem_cons]
    exact ⟨⟨⟨by decide, rfl⟩, ⟨by decide, rfl⟩, ⟨by decide, rfl⟩, List.forall_mem_nil _⟩,
      List.forall_mem_nil _⟩
  obtain ⟨fault, hfault⟩ := (hblocks [renamedPage] hbare rfl).mpr
    ⟨renamedPage, List.mem_singleton_self _, by decide⟩
  exact ⟨fault, (hclash fault).mpr hfault⟩

end Workflow

end Guidebook

/-! ## Calls to add entries -/

namespace Guidebook.PageIndex

/-- A call to add an entry: the index that it leaves, and what it complains of. -/
def offer (index : PageIndex) (entry : IndexEntry) : PageIndex × Option IndexProblem :=
  match index.append entry with
  | .ok longer => (longer, none)
  | .error problem => (index, some problem)

/-- The index after some calls, complaints or not. -/
def afterCalls (index : PageIndex) (calls : List IndexEntry) : PageIndex :=
  calls.foldl (fun index entry ↦ (index.offer entry).1) index

/-- An index before any call: it is empty, or it was loaded. -/
inductive Begun : PageIndex → Prop
  | empty : Begun .empty
  | loaded {path : Path} {s : State} {index : PageIndex}
      (h : ((Workflow.loadIndex path).on s).1 = .ok index) : Begun index

section Calls

variable {index : PageIndex}

/-- An entry is refused for its code, and otherwise stands at the end. -/
theorem offer_eq (index : PageIndex) (entry : IndexEntry) :
    index.offer entry = if entry.code ∈ index.codes then (index, some (.duplicate entry.code))
      else (⟨index.entries ++ [entry]⟩, none) := by
  rw [offer, append_eq]
  by_cases h : entry.code ∈ index.codes
  · rw [if_pos h, if_pos h]
  · rw [if_neg h, if_neg h]

theorem afterCalls_append (index : PageIndex) (calls more : List IndexEntry) :
    index.afterCalls (calls ++ more) = (index.afterCalls calls).afterCalls more :=
  List.foldl_append

/-- A call keeps the codes different and the entries in front. -/
theorem offer_step (h : index.codes.Nodup) (entry : IndexEntry) :
    (index.offer entry).1.codes.Nodup ∧ index.entries <+: (index.offer entry).1.entries := by
  rw [offer_eq]
  split
  · exact ⟨h, List.prefix_refl _⟩
  · next hfresh =>
    refine ⟨?_, List.prefix_append _ _⟩
    simpa [codes] using List.Nodup.concat hfresh h

/-- So do any calls. -/
theorem afterCalls_step (h : index.codes.Nodup) (calls : List IndexEntry) :
    (index.afterCalls calls).codes.Nodup ∧
      index.entries <+: (index.afterCalls calls).entries := by
  induction calls generalizing index with
  | nil => exact ⟨h, List.prefix_refl _⟩
  | cons entry calls ih =>
    obtain ⟨hnodup, hfront⟩ := offer_step h entry
    obtain ⟨hcodes, hentries⟩ := ih hnodup
    exact ⟨hcodes, hfront.trans hentries⟩

theorem Begun.nodup (h : index.Begun) : index.codes.Nodup := by
  cases h with
  | empty => exact List.nodup_nil
  | @loaded path s index h =>
    have hloads := (Workflow.keeps_loadIndex s path s (Workflow.Same.refl s)).2 index h
    rcases hloads with ⟨-, rfl⟩ | ⟨_, -, hbytes⟩
    · exact List.nodup_nil
    · exact (sound_of_ofBytes hbytes).nodup

/-- There is an entry from zero on, up to the number of pages. -/
theorem isSome_atPosition (index : PageIndex) (position : Int) :
    (index.atPosition position).isSome ↔ 0 ≤ position ∧ position < index.size := by
  rw [atPosition, size]
  split
  · simp only [Option.isSome_none, Bool.false_eq_true, false_iff]
    omega
  · rw [isSome_getElem?]
    omega

/-- Where no code is twice, the lookups are inverse to each other. -/
theorem positionOf_iff_atPosition (h : index.codes.Nodup) (code : String) (position : Int) :
    (∃ n : Nat, index.positionOf code = some n ∧ position = n) ↔
      (index.atPosition position).map (·.code) = some code := by
  rw [map_code_atPosition]
  cases position with
  | ofNat n =>
    have hlow : ¬ Int.ofNat n < 0 := (Int.natCast_nonneg n).not_gt
    have hback : (Int.ofNat n).toNat = n := rfl
    rw [if_neg hlow, hback, ← positionOf_eq_some_iff h]
    constructor
    · rintro ⟨_, hfound, hn⟩
      rwa [Int.ofNat.inj hn]
    · exact fun hfound ↦ ⟨n, hfound, rfl⟩
  | negSucc n =>
    rw [if_pos (Int.negSucc_lt_zero n)]
    exact iff_of_false (fun ⟨_, _, hn⟩ ↦ nomatch hn) nofun

end Calls

/-- After any calls to an index that is empty or was loaded, refused or not: codes are different.
The next call is refused exactly if its code is there, and then changes nothing. What was there
stays in front of what comes. There is an entry exactly at the positions from zero to the number of
pages, and the lookup by code is the inverse of that by position. -/
theorem afterCalls_of_begun {index : PageIndex} (h : index.Begun) (calls : List IndexEntry) :
    (index.afterCalls calls).codes.Nodup ∧
    (∀ entry, ((∃ problem, (index.afterCalls calls).append entry = .error problem) ↔
        entry.code ∈ (index.afterCalls calls).codes) ∧
      ∀ problem, (index.afterCalls calls).append entry = .error problem →
        index.afterCalls (calls ++ [entry]) = index.afterCalls calls) ∧
    (∀ more, (index.afterCalls calls).entries <+: (index.afterCalls (calls ++ more)).entries) ∧
    (∀ position : Int, ((index.afterCalls calls).atPosition position).isSome ↔
      0 ≤ position ∧ position < (index.afterCalls calls).size) ∧
    ∀ (code : String) (position : Int),
      (∃ n : Nat, (index.afterCalls calls).positionOf code = some n ∧ position = n) ↔
        ((index.afterCalls calls).atPosition position).map (·.code) = some code := by
  obtain ⟨hnodup, -⟩ := afterCalls_step h.nodup calls
  refine ⟨hnodup, fun entry ↦ ⟨?_, fun problem hrefused ↦ ?_⟩, fun more ↦ ?_, isSome_atPosition _,
    positionOf_iff_atPosition hnodup⟩
  · rw [append_eq]
    split
    · next hmem => exact iff_of_true ⟨_, rfl⟩ hmem
    · next hfresh => exact iff_of_false nofun hfresh
  · rw [afterCalls_append, afterCalls, List.foldl_cons, List.foldl_nil, offer, hrefused]
  · rw [afterCalls_append]
    exact (afterCalls_step hnodup more).2

/-- The index of two saved pages. -/
def savedIndex : PageIndex := ⟨[⟨"Untitled", "a"⟩, ⟨"Untitled", "b"⟩]⟩

/-- A page that is there already is refused by a loaded index, and stands where it was. -/
theorem afterCalls_of_begun_saved :
    (∃ problem, (savedIndex.afterCalls [⟨"C", "c"⟩]).append ⟨"B", "b"⟩ = .error problem) ∧
      ((savedIndex.afterCalls [⟨"C", "c"⟩]).atPosition 1).map (·.code) = some "b" := by
  have hload : ((Workflow.loadIndex Workflow.guideLayout.index).on Workflow.savedGuide).1 =
      .ok savedIndex := eq_ok_of_toOption (by decide +kernel)
  obtain ⟨-, hcalls, -, -, hlookup⟩ := afterCalls_of_begun (.loaded hload) [⟨"C", "c"⟩]
  exact ⟨(hcalls ⟨"B", "b"⟩).1.mpr (by decide), (hlookup "b" 1).mp ⟨1, by decide, rfl⟩⟩

end Guidebook.PageIndex
