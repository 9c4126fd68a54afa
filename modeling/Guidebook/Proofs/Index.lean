import Mathlib.Data.List.Forall2
import Mathlib.Data.List.Induction
import Mathlib.Data.List.Nodup
import Guidebook.Index
import Guidebook.Proofs.Index.Blocks

/-!
# The index that a file holds

A table holds an index if its `entries`, where it has any, are tables with names and with codes that
are not empty and all different. What is wrong with any other table is said of the first entry that
is not as it has to be, and of codes only if every entry is.

An index whose codes are distinct and not empty is read back from its own file as it was, whatever
its titles and codes hold. Every index that a file holds is of this kind.
-/

namespace Guidebook.PageIndex

open Toml

section Tables

variable {path : String} {table value : Value} {entry : IndexEntry} {entries : List IndexEntry}
  {index longer : PageIndex} {problem : IndexProblem}

/-! ## Entries -/

/-- A value that stands for an entry: its name is a string, and so is its code, which is not
empty. -/
structure IsEntry (value : Value) (entry : IndexEntry) : Prop where
  name : value.get? "name" = some (.text entry.name)
  code : value.get? "code" = some (.text entry.code)
  nonempty : entry.code ≠ ""

theorem entryOf?_eq_some_iff : entryOf? value = some entry ↔ IsEntry value entry := by
  constructor
  · intro h
    rw [entryOf?] at h
    split at h
    · next name code hname hcode =>
      split at h
      · cases h
      · next hne =>
        obtain rfl := Option.some.inj h
        exact ⟨hname, hcode, by simpa using hne⟩
    · cases h
  · intro h
    have hcode : (entry.code == "") = false := by simpa using h.nonempty
    simp [entryOf?, h.name, h.code, hcode]

theorem entryOf?_eq_none_iff : entryOf? value = none ↔ ∀ entry, ¬IsEntry value entry := by
  simp only [Option.eq_none_iff_forall_ne_some, ne_eq, entryOf?_eq_some_iff]

/-- Values are read as entries if each stands for its own. -/
theorem entriesOf_eq_ok_iff {position : Nat} {values : List Value} :
    entriesOf path position values = .ok entries ↔ List.Forall₂ IsEntry values entries := by
  induction values generalizing position entries with
  | nil =>
    rw [entriesOf, List.forall₂_nil_left_iff, Except.ok.injEq, eq_comm]
  | cons value values ih =>
    rw [entriesOf, List.forall₂_cons_left_iff]
    constructor
    · intro h
      split at h
      · cases h
      · next first hfirst =>
        cases hrest : entriesOf path (position + 1) values with
        | error problem =>
          rw [hrest] at h
          cases h
        | ok rest =>
          rw [hrest] at h
          exact ⟨first, rest, entryOf?_eq_some_iff.mp hfirst, ih.mp hrest, (Except.ok.inj h).symm⟩
    · rintro ⟨first, rest, hfirst, hrest, rfl⟩
      rw [entryOf?_eq_some_iff.mpr hfirst]
      simp only [ih.mpr hrest]
      rfl

/-- The first value that stands for no entry is complained of, by its position. -/
theorem entriesOf_of_not_isEntry {front back : List Value}
    (hfront : ∀ value ∈ front, ∃ entry, IsEntry value entry)
    (hvalue : ∀ entry, ¬IsEntry value entry) (position : Nat) :
    entriesOf path position (front ++ value :: back) =
      .error (.badEntry path (position + front.length)) := by
  induction front generalizing position with
  | nil =>
    rw [List.nil_append, entriesOf, entryOf?_eq_none_iff.mpr hvalue]
    rfl
  | cons first front ih =>
    obtain ⟨⟨entry, hentry⟩, hfront⟩ := List.forall_mem_cons.mp hfront
    rw [List.cons_append, entriesOf, entryOf?_eq_some_iff.mpr hentry]
    simp only [ih hfront]
    rw [List.length_cons, Nat.add_right_comm, Nat.add_assoc]
    rfl

/-- Either every value stands for an entry or there is a first one that does not. -/
private theorem entries_or_first (values : List Value) :
    (∃ entries, List.Forall₂ IsEntry values entries) ∨
      ∃ front value back, values = front ++ value :: back ∧
        (∀ value ∈ front, ∃ entry, IsEntry value entry) ∧ ∀ entry, ¬IsEntry value entry := by
  induction values with
  | nil => exact .inl ⟨[], .nil⟩
  | cons value values ih =>
    cases hvalue : entryOf? value with
    | none =>
      exact .inr ⟨[], value, values, rfl, List.forall_mem_nil _, entryOf?_eq_none_iff.mp hvalue⟩
    | some entry =>
      have hentry := entryOf?_eq_some_iff.mp hvalue
      rcases ih with ⟨entries, hentries⟩ | ⟨front, bad, back, rfl, hfront, hbad⟩
      · exact .inl ⟨entry :: entries, .cons hentry hentries⟩
      · exact .inr ⟨value :: front, bad, back, rfl,
          List.forall_mem_cons.mpr ⟨⟨entry, hentry⟩, hfront⟩, hbad⟩

/-! ## Codes -/

/-- An entry is added unless its code is registered. -/
theorem append_eq (index : PageIndex) (entry : IndexEntry) :
    index.append entry = if entry.code ∈ index.codes then .error (.duplicate entry.code)
      else .ok ⟨index.entries ++ [entry]⟩ := by
  have hcode : (index.entries.any (·.code == entry.code)) = true ↔ entry.code ∈ index.codes := by
    simp only [List.any_eq_true, codes, List.mem_map, beq_iff_eq]
  rw [append]
  simp only [hcode]

/-- Entries of new and different codes are added one after another. -/
theorem ofEntries_of_nodup (h : (index.codes ++ entries.map (·.code)).Nodup) :
    index.ofEntries entries = .ok ⟨index.entries ++ entries⟩ := by
  induction entries generalizing index with
  | nil => rw [ofEntries, List.append_nil]
  | cons entry entries ih =>
    have happend : index.append entry = .ok ⟨index.entries ++ [entry]⟩ := by
      rw [append_eq, if_neg]
      exact fun hmem ↦ (List.nodup_append.mp h).2.2 _ hmem entry.code (by simp) rfl
    have hcodes : (codes ⟨index.entries ++ [entry]⟩ ++ entries.map (·.code)).Nodup := by
      simpa [codes] using h
    have hrest := ih hcodes
    rw [ofEntries, happend]
    simp only [bind, Except.bind, hrest, List.append_assoc, List.singleton_append]

theorem ofEntries_append (index : PageIndex) (front back : List IndexEntry) :
    index.ofEntries (front ++ back) =
      (index.ofEntries front).bind fun longer ↦ longer.ofEntries back := by
  induction front generalizing index with
  | nil => rfl
  | cons entry front ih =>
    rw [List.cons_append, ofEntries, ofEntries]
    cases index.append entry with
    | error problem => rfl
    | ok longer => exact ih longer

/-- The first entry whose code is there already is complained of. -/
theorem ofEntries_of_mem {front back : List IndexEntry}
    (hfront : (index.codes ++ front.map (·.code)).Nodup)
    (hmem : entry.code ∈ index.codes ++ front.map (·.code)) :
    index.ofEntries (front ++ entry :: back) = .error (.duplicate entry.code) := by
  have hregistered : entry.code ∈ codes ⟨index.entries ++ front⟩ := by simpa [codes] using hmem
  rw [ofEntries_append, ofEntries_of_nodup hfront, Except.bind, ofEntries, append_eq,
    if_pos hregistered]
  rfl

/-- Either all codes are new and different or there is a first one that was there before. -/
private theorem nodup_or_first {seen : List String} (hseen : seen.Nodup)
    (entries : List IndexEntry) :
    (seen ++ entries.map (·.code)).Nodup ∨ ∃ front entry back, entries = front ++ entry :: back ∧
      (seen ++ front.map (·.code)).Nodup ∧ entry.code ∈ seen ++ front.map (·.code) := by
  induction entries using List.reverseRecOn with
  | nil => exact .inl (by simpa using hseen)
  | append_singleton entries entry ih =>
    rcases ih with hnodup | ⟨front, other, back, rfl, hfront, hmem⟩
    · by_cases hmem : entry.code ∈ seen ++ entries.map (·.code)
      · exact .inr ⟨entries, entry, [], rfl, hnodup, hmem⟩
      · refine .inl ?_
        rw [List.map_append, List.map_singleton, ← List.append_assoc]
        simpa using List.Nodup.concat hmem hnodup
    · exact .inr ⟨front, other, back ++ [entry], by simp, hfront, hmem⟩

/-- Entries are added to an index exactly if their codes are new and different. -/
theorem ofEntries_eq_ok_iff (h : index.codes.Nodup) :
    index.ofEntries entries = .ok longer ↔
      (index.codes ++ entries.map (·.code)).Nodup ∧ longer = ⟨index.entries ++ entries⟩ := by
  constructor
  · intro hentries
    rcases nodup_or_first h entries with hnodup | ⟨front, entry, back, rfl, hfront, hmem⟩
    · exact ⟨hnodup, Except.ok.inj (hentries.symm.trans (ofEntries_of_nodup hnodup))⟩
    · cases hentries.symm.trans (ofEntries_of_mem hfront hmem)
  · rintro ⟨hnodup, rfl⟩
    exact ofEntries_of_nodup hnodup

/-! ## Tables -/

/-- A table that lists entries: there is a value for each of them, or no `entries` at all. -/
inductive Registers (table : Value) : List IndexEntry → Prop
  | absent (h : table.get? "entries" = none) : Registers table []
  | listed {values : List Value} {entries : List IndexEntry}
      (h : table.get? "entries" = some (.array values))
      (hvalues : List.Forall₂ IsEntry values entries) : Registers table entries

/-- Listed entries have codes. -/
theorem Registers.nonempty (h : Registers table entries) : ∀ entry ∈ entries, entry.code ≠ "" := by
  cases h with
  | absent => exact List.forall_mem_nil _
  | listed h hvalues =>
    clear h
    induction hvalues with
    | nil => exact List.forall_mem_nil _
    | cons hvalue _ ih => exact List.forall_mem_cons.mpr ⟨hvalue.nonempty, ih⟩

/-- What is wrong with a table that holds no index. -/
inductive Corrupt (path : String) (table : Value) : IndexProblem → Prop
  /-- The entries are no array. -/
  | notTables {value : Value} (h : table.get? "entries" = some value)
      (harray : ∀ values, value ≠ .array values) : Corrupt path table (.notTables path)
  /-- A value stands for no entry, and all in front of it do. -/
  | badEntry {front back : List Value} {value : Value}
      (h : table.get? "entries" = some (.array (front ++ value :: back)))
      (hfront : ∀ value ∈ front, ∃ entry, IsEntry value entry)
      (hvalue : ∀ entry, ¬IsEntry value entry) : Corrupt path table (.badEntry path front.length)
  /-- An entry has the code of one in front of it, all of which are different. -/
  | duplicate {front back : List IndexEntry} {entry : IndexEntry}
      (h : Registers table (front ++ entry :: back)) (hfront : (front.map (·.code)).Nodup)
      (hmem : entry.code ∈ front.map (·.code)) : Corrupt path table (.corrupt path entry.code)

/-- Listed entries are added to an empty index. -/
private theorem ofTable_of_registers (path : String) (h : Registers table entries) :
    ofTable path table = match empty.ofEntries entries with
      | .error (.duplicate code) => .error (.corrupt path code)
      | result => result := by
  cases h with
  | absent h =>
    rw [ofTable, h]
    rfl
  | listed h hvalues =>
    rw [ofTable, h, Option.getD_some]
    simp only [entriesOf_eq_ok_iff.mpr hvalues]
    rfl

theorem ofTable_of_nodup (h : Registers table entries) (hnodup : (entries.map (·.code)).Nodup) :
    ofTable path table = .ok ⟨entries⟩ := by
  rw [ofTable_of_registers path h, ofEntries_of_nodup (by simpa [empty, codes] using hnodup)]
  rfl

theorem ofTable_of_corrupt (h : Corrupt path table problem) :
    ofTable path table = .error problem := by
  cases h with
  | @notTables value h harray =>
    rw [ofTable, h, Option.getD_some]
    split
    · next values => exact absurd rfl (harray values)
    · rfl
  | @badEntry front back value h hfront hvalue =>
    rw [ofTable, h, Option.getD_some]
    simp only [entriesOf_of_not_isEntry hfront hvalue, Nat.zero_add]
    rfl
  | duplicate h hfront hmem =>
    rw [ofTable_of_registers path h, ofEntries_of_mem (by simpa [empty, codes] using hfront)
      (by simpa [empty, codes] using hmem)]

/-- A table holds an index, or something is wrong with it. -/
theorem registers_or_corrupt (path : String) (table : Value) :
    (∃ entries, Registers table entries ∧ (entries.map (·.code)).Nodup) ∨
      ∃ problem, Corrupt path table problem := by
  cases hentries : table.get? "entries" with
  | none => exact .inl ⟨[], .absent hentries, List.nodup_nil⟩
  | some value =>
    by_cases harray : ∃ values, value = .array values
    · obtain ⟨values, rfl⟩ := harray
      rcases entries_or_first values with ⟨entries, hvalues⟩ | ⟨front, bad, back, rfl, hfront, hbad⟩
      · have hlisted : Registers table entries := .listed hentries hvalues
        rcases nodup_or_first List.nodup_nil entries with
          hnodup | ⟨front, entry, back, rfl, hfront, hmem⟩
        · exact .inl ⟨entries, hlisted, hnodup⟩
        · exact .inr ⟨_, .duplicate hlisted hfront hmem⟩
      · exact .inr ⟨_, .badEntry hentries hfront hbad⟩
    · exact .inr ⟨_, .notTables hentries fun values hvalue ↦ harray ⟨values, hvalue⟩⟩

/-- A table holds an index exactly if it lists its entries and their codes are all different. -/
theorem ofTable_eq_ok_iff :
    ofTable path table = .ok index ↔ Registers table index.entries ∧ index.codes.Nodup := by
  constructor
  · intro h
    rcases registers_or_corrupt path table with ⟨entries, hlisted, hnodup⟩ | ⟨problem, hcorrupt⟩
    · obtain rfl := Except.ok.inj ((ofTable_of_nodup hlisted hnodup).symm.trans h)
      exact ⟨hlisted, hnodup⟩
    · cases (ofTable_of_corrupt hcorrupt).symm.trans h
  · rintro ⟨hlisted, hnodup⟩
    exact ofTable_of_nodup hlisted hnodup

/-- A table is rejected for what is wrong with it. -/
theorem ofTable_eq_error_iff :
    ofTable path table = .error problem ↔ Corrupt path table problem := by
  constructor
  · intro h
    rcases registers_or_corrupt path table with ⟨entries, hlisted, hnodup⟩ | ⟨other, hcorrupt⟩
    · cases (ofTable_of_nodup hlisted hnodup).symm.trans h
    · obtain rfl := Except.error.inj ((ofTable_of_corrupt hcorrupt).symm.trans h)
      exact hcorrupt
  · exact ofTable_of_corrupt

end Tables

/-- An index that a file can hold: no code is empty and no two are the same. -/
structure Sound (index : PageIndex) : Prop where
  nonempty : ∀ entry ∈ index.entries, entry.code ≠ ""
  nodup : index.codes.Nodup

theorem sound_empty : empty.Sound := ⟨by simp [empty], List.nodup_nil⟩

/-! ## Entries as blocks -/

/-- The block of an entry. -/
private def rowOf (entry : IndexEntry) : Row := [("name", entry.name), ("code", entry.code)]

private theorem bare_rowOf (entry : IndexEntry) : (rowOf entry).Bare := by
  simp only [Row.Bare, rowOf, List.forall_mem_cons]
  exact ⟨⟨by decide, rfl⟩, ⟨by decide, rfl⟩, List.forall_mem_nil _⟩

private theorem bare_rows (entries : List IndexEntry) : ∀ row ∈ entries.map rowOf, row.Bare :=
  List.forall_mem_map.mpr fun entry _ ↦ bare_rowOf entry

/-- The values of written entries. -/
private def valueFor (entry : IndexEntry) : Value := (rowOf entry).value

private theorem write_eq {entries : List IndexEntry} (h : entries ≠ []) :
    PageIndex.write ⟨entries⟩ = blocks (entries.map rowOf) := by
  have hne : entries.isEmpty = false := List.isEmpty_eq_false_iff.mpr h
  have hrow : ∀ entry : IndexEntry,
      PageIndex.writeEntry entry = "[[entries]]\n".toList ++ (rowOf entry).lines := fun entry ↦ by
    unfold PageIndex.writeEntry
    generalize "[[entries]]\n".toList = header
    simp [rowOf, Row.lines]
  rw [PageIndex.write, hne, if_neg Bool.false_ne_true, blocks, List.map_map]
  exact congrArg _ (List.map_congr_left fun entry _ ↦ hrow entry)

private theorem read_rows {entries : List IndexEntry} (h : entries ≠ []) :
    Toml.read (blocks (entries.map rowOf)) =
      .ok (.table [("entries", .array (entries.map valueFor))]) := by
  have hfresh : (entries.map rowOf).findSome? (Row.repeated? []) = none := by
    rw [List.findSome?_eq_none_iff]
    exact List.forall_mem_map.mpr fun entry _ ↦ rfl
  rw [read_blocks (by simpa using h) (bare_rows entries), hfresh, List.map_map]
  rfl

/-! ## The file -/

/-- The blocks of entries with codes stand for these entries. -/
private theorem forall₂_valueFor {entries : List IndexEntry}
    (h : ∀ entry ∈ entries, entry.code ≠ "") :
    List.Forall₂ IsEntry (entries.map valueFor) entries := by
  rw [List.forall₂_map_left_iff, List.forall₂_same]
  exact fun entry hentry ↦ ⟨rfl, rfl, h entry hentry⟩

private theorem isBare_entries : IsBare "entries".toList := ⟨by decide, rfl⟩

private theorem readValue_brackets (fuel depth : Nat) (rest : List Char) :
    readValue (fuel + 2) (depth + 1) ('[' :: ']' :: rest) = .ok (.array [], rest) := by
  rw [readValue, readArray.eq_def]
  rfl

private theorem readEntry_empty :
    readEntry "entries = []\n".toList = .ok ((["entries"], .array []), []) := by
  have hassign := readAssignment_bare isBare_entries "]\n".toList (c := '[') rfl
  have htext : "entries".toList ++ " = ".toList ++ '[' :: "]\n".toList =
      "entries = []\n".toList := rfl
  have hvalue := readValue_brackets 10 99 ['\n']
  rw [htext] at hassign
  rw [readEntry, hassign]
  simp only [bind, Except.bind]
  have hfuel : valueFuel ('[' :: "]\n".toList) = 10 + 2 := rfl
  have hrest : '[' :: "]\n".toList = ['[', ']', '\n'] := rfl
  have hnesting : maxNesting = 99 + 1 := rfl
  rw [hfuel, hrest, hnesting, hvalue]
  rfl

private theorem read_empty :
    Toml.read "entries = []\n".toList = .ok (.table [("entries", .array [])]) :=
  read_of_readEntry (by decide) (by decide) readEntry_empty fun _ ↦ by
    rw [valueOf]
    rfl

/-- What bytes are as the index at a path. -/
inductive Outcome (path : String) (bytes : List UInt8) : Except Failure PageIndex → Prop
  | index {table : Value} {index : PageIndex} (h : Holds bytes table)
      (hlisted : Registers table index.entries) (hnodup : index.codes.Nodup) :
      Outcome path bytes (.ok index)
  | unreadable (h : (∃ fault, Utf8.decode bytes = .error fault) ∨ Malformed bytes) :
      Outcome path bytes (.error (.index (.unreadable path)))
  | corrupt {table : Value} {problem : IndexProblem} (h : Holds bytes table)
      (hcorrupt : Corrupt path table problem) : Outcome path bytes (.error (.index problem))
  | clash {fault : Fault} (h : Clashes bytes fault) : Outcome path bytes (.error (.toml fault))

section Bytes

variable {path : String} {bytes : List UInt8} {result : Except Failure PageIndex}

theorem Outcome.ofBytes_eq (h : Outcome path bytes result) : ofBytes path bytes = result := by
  cases h with
  | index h hlisted hnodup =>
    obtain ⟨text, hdecode, hread⟩ := h
    simp only [ofBytes, hdecode, hread, ofTable_eq_ok_iff.mpr ⟨hlisted, hnodup⟩]
    rfl
  | unreadable h =>
    rcases h with ⟨fault, hdecode⟩ | ⟨text, hdecode, hread⟩
    · rw [ofBytes, hdecode]
    · simp only [ofBytes, hdecode, hread]
  | corrupt h hcorrupt =>
    obtain ⟨text, hdecode, hread⟩ := h
    simp only [ofBytes, hdecode, hread, ofTable_of_corrupt hcorrupt]
    rfl
  | @clash fault h =>
    obtain ⟨⟨text, hdecode, hread⟩, hfault⟩ := h
    simp only [ofBytes, hdecode, hread]
    cases fault with
    | malformed => exact absurd rfl hfault
    | duplicateKey name => rfl
    | redefined => rfl

theorem exists_outcome (path : String) (bytes : List UInt8) :
    ∃ result, Outcome path bytes result := by
  cases contents bytes with
  | notText fault h => exact ⟨_, .unreadable (.inl ⟨fault, h⟩)⟩
  | malformed h => exact ⟨_, .unreadable (.inr h)⟩
  | clash fault h => exact ⟨_, .clash h⟩
  | table table h =>
    cases htable : ofTable path table with
    | ok index =>
      obtain ⟨hlisted, hnodup⟩ := ofTable_eq_ok_iff.mp htable
      exact ⟨_, .index h hlisted hnodup⟩
    | error problem => exact ⟨_, .corrupt h (ofTable_eq_error_iff.mp htable)⟩

theorem ofBytes_eq_iff : ofBytes path bytes = result ↔ Outcome path bytes result := by
  refine ⟨?_, Outcome.ofBytes_eq⟩
  rintro rfl
  obtain ⟨result, h⟩ := exists_outcome path bytes
  exact h.ofBytes_eq.symm ▸ h

/-- Bytes hold an index exactly if they hold a table that does. -/
theorem ofBytes_eq_ok_iff {index : PageIndex} :
    ofBytes path bytes = .ok index ↔
      ∃ table, Holds bytes table ∧ Registers table index.entries ∧ index.codes.Nodup := by
  rw [ofBytes_eq_iff]
  constructor
  · rintro (⟨h, hlisted, hnodup⟩ | _ | _ | _)
    exact ⟨_, h, hlisted, hnodup⟩
  · rintro ⟨table, h, hlisted, hnodup⟩
    exact .index h hlisted hnodup

end Bytes

/-- A sound index is read back from its file. -/
theorem ofBytes_write {index : PageIndex} (h : index.Sound) (path : String) :
    PageIndex.ofBytes path (Utf8.encode index.write) = .ok index := by
  obtain ⟨entries⟩ := index
  refine ofBytes_eq_ok_iff.mpr ?_
  cases entries with
  | nil =>
    have hwrite : PageIndex.write ⟨[]⟩ = "entries = []\n".toList := rfl
    have hholds : Holds (Utf8.encode (PageIndex.write ⟨[]⟩)) _ :=
      hwrite ▸ reads_encode (by decide) read_empty
    exact ⟨_, hholds, .listed rfl .nil, h.nodup⟩
  | cons entry entries =>
    have hne : entry :: entries ≠ [] := List.cons_ne_nil _ _
    have hholds : Holds (Utf8.encode (PageIndex.write ⟨entry :: entries⟩)) _ :=
      write_eq hne ▸ reads_encode (return_not_mem_blocks (bare_rows _)) (read_rows hne)
    exact ⟨_, hholds, .listed rfl (forall₂_valueFor h.nonempty), h.nodup⟩

/-! ## Sound indices -/

/-- A new code keeps an index sound. -/
theorem Sound.append {index longer : PageIndex} {entry : IndexEntry} (h : index.Sound)
    (hcode : entry.code ≠ "") (happend : index.append entry = .ok longer) :
    longer.Sound ∧ longer.entries = index.entries ++ [entry] := by
  rw [append_eq] at happend
  split at happend
  · cases happend
  · next hfresh =>
    obtain rfl := Except.ok.inj happend
    refine ⟨⟨?_, ?_⟩, rfl⟩
    · intro other ho
      rcases List.mem_append.mp ho with ho | ho
      · exact h.nonempty other ho
      · rwa [List.mem_singleton.mp ho]
    · rw [codes, List.map_append, List.map_singleton]
      exact List.nodup_append.mpr ⟨h.nodup, by simp, by
        intro a ha b hb
        rw [List.mem_singleton.mp hb]
        exact ne_of_mem_of_not_mem ha hfresh⟩

/-- Entries with codes that are added one after another keep an index sound, and stand behind it. -/
theorem Sound.ofEntries {index longer : PageIndex} {entries : List IndexEntry} (h : index.Sound)
    (hcodes : ∀ entry ∈ entries, entry.code ≠ "") (heq : index.ofEntries entries = .ok longer) :
    longer.Sound ∧ longer.entries = index.entries ++ entries := by
  obtain ⟨hnodup, rfl⟩ := (ofEntries_eq_ok_iff h.nodup).mp heq
  refine ⟨⟨fun entry hentry ↦ ?_, by simpa [codes] using hnodup⟩, rfl⟩
  rcases List.mem_append.mp hentry with hold | hnew
  · exact h.nonempty entry hold
  · exact hcodes entry hnew

/-- An index that a file holds is sound. -/
theorem sound_of_ofBytes {path : String} {bytes : List UInt8} {index : PageIndex}
    (h : PageIndex.ofBytes path bytes = .ok index) : index.Sound := by
  obtain ⟨table, -, hlisted, hnodup⟩ := ofBytes_eq_ok_iff.mp h
  exact ⟨hlisted.nonempty, hnodup⟩

/-! ## Positions -/

/-- What an index has at a position, by its code. -/
theorem map_code_atPosition (index : PageIndex) (position : Int) :
    (index.atPosition position).map (·.code) =
      if position < 0 then none else index.codes[position.toNat]? := by
  rw [atPosition, codes]
  split
  · rfl
  · rw [List.getElem?_map]

variable {index : PageIndex}

/-- Where no code is twice, a code is looked up where it is. -/
theorem positionOf_eq_some_iff (h : index.codes.Nodup) {code : String} {position : Nat} :
    index.positionOf code = some position ↔ index.codes[position]? = some code := by
  rw [positionOf, List.findIdx?_eq_some_iff_getElem, codes, List.getElem?_map,
    Option.map_eq_some_iff]
  constructor
  · rintro ⟨hlt, hcode, -⟩
    exact ⟨_, List.getElem?_eq_getElem hlt, by simpa using hcode⟩
  · rintro ⟨entry, hentry, rfl⟩
    obtain ⟨hlt, rfl⟩ := List.getElem?_eq_some_iff.mp hentry
    refine ⟨hlt, by simp, fun before hbefore hcode ↦ ?_⟩
    have hfront : before < index.entries.length := hbefore.trans hlt
    have hsame : index.codes[before]? = index.codes[position]? := by
      rw [codes, List.getElem?_map, List.getElem?_map, List.getElem?_eq_getElem hfront,
        List.getElem?_eq_getElem hlt]
      simpa using hcode
    refine hbefore.ne ((List.getElem?_inj ?_ h).mp hsame)
    rwa [codes, List.length_map]

/-- Codes are those of an index if there are as many and each is looked up where it stands. -/
theorem eq_codes_iff (h : index.codes.Nodup) {codes : List String} :
    (codes.length = index.size ∧ ∀ position code, codes[position]? = some code →
      index.positionOf code = some position) ↔ codes = index.codes := by
  have hsize : index.codes.length = index.size := List.length_map _
  constructor
  · rintro ⟨hlength, hpositions⟩
    apply List.ext_getElem (hlength.trans hsize.symm)
    intro position hleft hright
    have hfound := hpositions position _ (List.getElem?_eq_getElem hleft)
    rw [positionOf_eq_some_iff h, List.getElem?_eq_getElem hright] at hfound
    exact (Option.some.inj hfound).symm
  · rintro rfl
    exact ⟨hsize, fun position code hcode ↦ (positionOf_eq_some_iff h).mpr hcode⟩

end Guidebook.PageIndex
