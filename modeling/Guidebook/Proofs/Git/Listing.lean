import Mathlib.Data.List.TakeWhile
import Guidebook.Git.Recorded
import Guidebook.Proofs.Text.Split

/-!
# Listings read back

Rows of a tree listing and of a comparison come back as they were written: every row ends in a NUL,
which no path holds. The log ends its records in a character that a summary may hold as well, so a
summary can add records of its own: what is read back is every commit followed by these strays.
-/

namespace Guidebook.Git

open Text

/-- A word that can stand in a row: it holds none of the characters that separate words. -/
def IsWord (word : String) : Prop := ∀ c ∈ word.toList, c ≠ ' ' ∧ c ≠ '\t' ∧ c ≠ '\x00'

instance (word : String) : Decidable (IsWord word) := List.decidableBAll _ _

/-- A row of a tree listing whose fields can be told apart. -/
structure TreeRow.Plain (row : TreeRow) : Prop where
  mode : IsWord row.mode
  kind : IsWord row.kind
  oid : IsWord row.oid
  path : '\x00' ∉ row.path.toList

/-- A row of a comparison whose fields can be told apart. -/
structure AddedRow.Plain (row : AddedRow) : Prop where
  oldMode : IsWord row.oldMode
  newMode : IsWord row.newMode
  oldOid : IsWord row.oldOid
  newOid : IsWord row.newOid
  path : '\x00' ∉ row.path.toList

instance (row : TreeRow) : Decidable row.Plain :=
  decidable_of_iff
    (IsWord row.mode ∧ IsWord row.kind ∧ IsWord row.oid ∧ '\x00' ∉ row.path.toList)
    ⟨fun ⟨hmode, hkind, hoid, hpath⟩ ↦ ⟨hmode, hkind, hoid, hpath⟩,
      fun h ↦ ⟨h.mode, h.kind, h.oid, h.path⟩⟩

instance (row : AddedRow) : Decidable row.Plain :=
  decidable_of_iff
    (IsWord row.oldMode ∧ IsWord row.newMode ∧ IsWord row.oldOid ∧ IsWord row.newOid ∧
      '\x00' ∉ row.path.toList)
    ⟨fun ⟨hold, hnew, hoid, hnewOid, hpath⟩ ↦ ⟨hold, hnew, hoid, hnewOid, hpath⟩,
      fun h ↦ ⟨h.oldMode, h.newMode, h.oldOid, h.newOid, h.path⟩⟩

private theorem IsWord.not_mem {word : String} (h : IsWord word) :
    ' ' ∉ word.toList ∧ '\t' ∉ word.toList ∧ '\x00' ∉ word.toList :=
  ⟨fun hc ↦ (h _ hc).1 rfl, fun hc ↦ (h _ hc).2.1 rfl, fun hc ↦ (h _ hc).2.2 rfl⟩

private theorem splitOnChar_of_not_mem {sep : Char} {cs : List Char} (h : sep ∉ cs) :
    splitOnChar sep cs = [cs] :=
  splitBy_of_forall fun c hc ↦ by simpa using ne_of_mem_of_not_mem hc h

private theorem splitOnChar_append_cons (sep : Char) (front rest : List Char) :
    splitOnChar sep (front ++ sep :: rest) = splitOnChar sep front ++ splitOnChar sep rest :=
  splitBy_append_cons front rest (by simp)

/-! ## Tree listings -/

/-- A row of a tree listing without the NUL behind it. -/
def TreeRow.record (row : TreeRow) : List Char :=
  row.mode.toList ++ ' ' :: row.kind.toList ++ ' ' :: row.oid.toList ++ '\t' :: row.path.toList

private theorem TreeRow.ofRecord_record {row : TreeRow} (h : row.Plain) :
    TreeRow.ofRecord row.record = .ok row := by
  have hmode := h.mode.not_mem
  have hkind := h.kind.not_mem
  have hoid := h.oid.not_mem
  have htab : '\t' ∉ row.mode.toList ++ ' ' :: row.kind.toList ++ ' ' :: row.oid.toList := by
    simp [hmode.2.1, hkind.2.1, hoid.2.1]
  have hwords : splitOnChar ' ' (row.mode.toList ++ ' ' :: row.kind.toList ++
      ' ' :: row.oid.toList) = [row.mode.toList, row.kind.toList, row.oid.toList] := by
    rw [splitOnChar_append_cons, splitOnChar_append_cons, splitOnChar_of_not_mem hmode.1,
      splitOnChar_of_not_mem hkind.1, splitOnChar_of_not_mem hoid.1]
    rfl
  rw [ofRecord, record, partitionAt_append _ htab]
  simp only [hwords, String.ofList_toList]

private theorem TreeRow.not_mem_record {row : TreeRow} (h : row.Plain) :
    '\x00' ∉ row.record := by
  simp [record, h.mode.not_mem.2.2, h.kind.not_mem.2.2, h.oid.not_mem.2.2, h.path]

private theorem mapM_ofRecord {rows : List TreeRow} (h : ∀ row ∈ rows, row.Plain) :
    (rows.map TreeRow.record).mapM TreeRow.ofRecord = .ok rows := by
  induction rows with
  | nil => rfl
  | cons row rows ih =>
    have hrow := TreeRow.ofRecord_record (h row (by simp))
    have hrest := ih fun other ho ↦ h other (by simp [ho])
    rw [List.map_cons, List.mapM_cons, hrow, hrest]
    rfl

/-- A tree listing is read back row by row. -/
theorem readTreeRows_write {rows : List TreeRow} (h : ∀ row ∈ rows, row.Plain) :
    readTreeRows (rows.flatMap TreeRow.write) = .ok rows := by
  have hwrite : rows.flatMap TreeRow.write = (rows.map TreeRow.record).flatMap (· ++ ['\x00']) := by
    rw [List.flatMap_map]
    rfl
  have hnul : ∀ record ∈ rows.map TreeRow.record, '\x00' ∉ record := by
    intro record hrecord
    obtain ⟨row, hrow, rfl⟩ := List.mem_map.mp hrecord
    exact TreeRow.not_mem_record (h row hrow)
  have hne : ∀ record ∈ rows.map TreeRow.record, (record != []) = true := by
    intro record hrecord
    obtain ⟨row, -, rfl⟩ := List.mem_map.mp hrecord
    simp [TreeRow.record]
  rw [readTreeRows, hwrite, splitOnChar_flatMap _ hnul, List.filter_append,
    List.filter_eq_self.mpr hne]
  simpa using mapM_ofRecord h

/-! ## Comparisons -/

private theorem splitOnChar_addedRow {row : AddedRow} (h : row.Plain) (rest : List Char) :
    splitOnChar '\x00' (row.write ++ rest) =
      (':' :: row.oldMode.toList ++ ' ' :: row.newMode.toList ++ ' ' :: row.oldOid.toList ++
        ' ' :: row.newOid.toList ++ [' ', 'A']) :: row.path.toList ::
        splitOnChar '\x00' rest := by
  have hmeta : '\x00' ∉ ':' :: row.oldMode.toList ++ ' ' :: row.newMode.toList ++
      ' ' :: row.oldOid.toList ++ ' ' :: row.newOid.toList ++ [' ', 'A'] := by
    simp [h.oldMode.not_mem.2.2, h.newMode.not_mem.2.2, h.oldOid.not_mem.2.2,
      h.newOid.not_mem.2.2]
  have hwrite : row.write ++ rest =
      (':' :: row.oldMode.toList ++ ' ' :: row.newMode.toList ++ ' ' :: row.oldOid.toList ++
        ' ' :: row.newOid.toList ++ [' ', 'A']) ++ '\x00' :: (row.path.toList ++ '\x00' :: rest) := by
    simp [AddedRow.write]
  rw [hwrite, splitOnChar_append_cons, splitOnChar_append_cons, splitOnChar_of_not_mem hmeta,
    splitOnChar_of_not_mem h.path]
  rfl

private theorem splitOnChar_addedWords {row : AddedRow} (h : row.Plain) :
    splitOnChar ' ' (row.oldMode.toList ++ ' ' :: row.newMode.toList ++
      ' ' :: row.oldOid.toList ++ ' ' :: row.newOid.toList ++ [' ', 'A']) =
      [row.oldMode.toList, row.newMode.toList, row.oldOid.toList, row.newOid.toList, ['A']] := by
  rw [splitOnChar_append_cons, splitOnChar_append_cons, splitOnChar_append_cons,
    splitOnChar_append_cons, splitOnChar_of_not_mem h.oldMode.not_mem.1,
    splitOnChar_of_not_mem h.newMode.not_mem.1, splitOnChar_of_not_mem h.oldOid.not_mem.1,
    splitOnChar_of_not_mem h.newOid.not_mem.1]
  rfl

/-- A comparison is read back row by row, submodules left out. -/
theorem readAdded_write {rows : List AddedRow} (h : ∀ row ∈ rows, row.Plain) :
    readAdded (rows.flatMap AddedRow.write) =
      .ok ((rows.filter (·.newMode != submoduleMode)).map fun row ↦ ⟨row.path, row.newOid⟩) := by
  induction rows with
  | nil => rfl
  | cons row rows ih =>
    have hrow := h row (by simp)
    have hrest : addedOfFields (splitOnChar '\x00' (rows.flatMap AddedRow.write)) = _ :=
      ih fun other ho ↦ h other (by simp [ho])
    rw [readAdded, List.flatMap_cons, splitOnChar_addedRow hrow, List.cons_append,
      List.cons_append, List.cons_append, List.cons_append, addedOfFields,
      splitOnChar_addedWords hrow]
    simp only [hrest, String.ofList_toList, List.filter_cons, bne]
    by_cases hmode : row.newMode == submoduleMode
    · simp [hmode]
      rfl
    · simp [hmode]
      rfl

/-! ## The log -/

/-- The records of a log: its pieces without line feeds around them, unless they are empty. -/
def records (text : List Char) : List (List Char) :=
  ((splitOnChar recordSeparator text).map (stripBy (· == '\n'))).filter (· != [])

private theorem records_append_cons (front rest : List Char) :
    records (front ++ recordSeparator :: rest) = records front ++ records rest := by
  rw [records, splitOnChar_append_cons, List.map_append, List.filter_append]
  rfl

private theorem records_newline (rest : List Char) : records ('\n' :: rest) = records rest := by
  rw [records, records, splitOnChar]
  cases hs : splitBy (· == recordSeparator) rest with
  | nil => exact absurd hs (splitBy_ne_nil rest)
  | cons first others =>
    have hfront : ∀ c ∈ ['\n'], (c == recordSeparator) = false :=
      List.forall_mem_singleton.mpr rfl
    have hcons := splitBy_append hfront hs
    rw [List.singleton_append] at hcons
    simp [hcons, splitOnChar, hs, stripBy]

private theorem stripBy_newline {cs : List Char} (h : '\n' ∉ cs) :
    stripBy (· == '\n') cs = cs := by
  have hcs : ∀ c ∈ cs, (c == '\n') = false := fun c hc ↦ by
    simpa using ne_of_mem_of_not_mem hc h
  have hstrip : stripBy (· == '\n') ([] ++ cs ++ []) = cs :=
    stripBy_append hcs (by simp) (by simp)
  simpa using hstrip

/-- A text without line feeds is read piece by piece. -/
private theorem records_of_not_mem {text : List Char} (h : '\n' ∉ text) :
    records text = (splitOnChar recordSeparator text).filter (· != []) := by
  have hmap : (splitOnChar recordSeparator text).map (stripBy (· == '\n')) =
      splitOnChar recordSeparator text := by
    rw [List.map_congr_left (g := id), List.map_id]
    intro piece hpiece
    exact stripBy_newline fun hn ↦ h (of_mem_splitBy hpiece hn).2
  rw [records, hmap]

namespace Revision

/-- A revision as it is read from the log: its summary ends with the record. -/
def listed (r : Revision) : Revision :=
  ⟨r.oid, String.ofList ((splitOnChar recordSeparator r.summary.toList).headD [])⟩

/-- The records that the summary of a revision adds to the log: whatever stands behind its first
record separator is taken for further revisions. -/
def strays (r : Revision) : List Revision :=
  ((splitOnChar recordSeparator r.summary.toList).tail.filter (· != [])).map ofRecord

/-- A revision that can stand in the log: its id holds nothing that ends a field, a record or a
line, and its summary is one line. -/
structure Loggable (r : Revision) : Prop where
  oid : ∀ c ∈ r.oid.toList, c ≠ fieldSeparator ∧ c ≠ recordSeparator ∧ c ≠ '\n'
  line : '\n' ∉ r.summary.toList

variable {r : Revision}

private theorem records_record (h : r.Loggable) :
    (records (r.oid.toList ++ fieldSeparator :: r.summary.toList)).map ofRecord =
      r.listed :: r.strays := by
  have hfield : fieldSeparator ∉ r.oid.toList := fun hc ↦ (h.oid _ hc).1 rfl
  have hrecord : ∀ c ∈ r.oid.toList ++ [fieldSeparator], (c == recordSeparator) = false := by
    intro c hc
    rcases List.mem_append.mp hc with hc | hc
    · simpa using (h.oid c hc).2.1
    · obtain rfl := List.mem_singleton.mp hc
      decide
  have hline : '\n' ∉ r.oid.toList ++ fieldSeparator :: r.summary.toList := by
    intro hn
    rcases List.mem_append.mp hn with hn | hn
    · exact (h.oid _ hn).2.2 rfl
    · rcases List.mem_cons.mp hn with hn | hn
      · exact absurd hn (by decide)
      · exact h.line hn
  cases hs : splitBy (· == recordSeparator) r.summary.toList with
  | nil => exact absurd hs (splitBy_ne_nil _)
  | cons first others =>
    have hsplit := splitBy_append hrecord hs
    rw [List.append_assoc, List.append_assoc, List.singleton_append, List.singleton_append]
      at hsplit
    rw [records_of_not_mem hline, splitOnChar, hsplit, listed, strays, splitOnChar, hs]
    simp [ofRecord, partitionAt_append first hfield]

/-- A summary without record separators adds no record and is read as it is. -/
theorem listed_eq_self_iff :
    r.listed = r ∧ r.strays = [] ↔ recordSeparator ∉ r.summary.toList := by
  constructor
  · rintro ⟨hlisted, -⟩ hmem
    have hsubject : String.ofList ((splitOnChar recordSeparator r.summary.toList).headD []) =
        r.summary := congrArg Revision.summary hlisted
    rw [← hsubject, String.toList_ofList] at hmem
    cases hs : splitOnChar recordSeparator r.summary.toList with
    | nil => simp [hs] at hmem
    | cons first others =>
      rw [hs] at hmem
      have hfirst := (of_mem_splitBy (hs ▸ List.mem_cons_self) hmem).1
      simp at hfirst
  · intro h
    rw [listed, strays, splitOnChar_of_not_mem h]
    simp

end Revision

/-- The log is read as every revision with the strays of its summary behind it. -/
theorem readLog_flatMap {revisions : List Revision} (h : ∀ r ∈ revisions, r.Loggable) :
    readLog (revisions.flatMap Revision.write) = revisions.flatMap fun r ↦ r.listed :: r.strays := by
  have hread : ∀ text, readLog text = (records text).map Revision.ofRecord := fun _ ↦ rfl
  induction revisions with
  | nil => rfl
  | cons r revisions ih =>
    have hfirst := Revision.records_record (h r (by simp))
    have hrest := ih fun other ho ↦ h other (by simp [ho])
    have hwrite : r.write ++ revisions.flatMap Revision.write =
        (r.oid.toList ++ fieldSeparator :: r.summary.toList) ++
          recordSeparator :: '\n' :: revisions.flatMap Revision.write := by
      simp [Revision.write]
    rw [List.flatMap_cons, hread, hwrite, records_append_cons, records_newline, List.map_append,
      hfirst, ← hread, hrest, List.flatMap_cons]

/-- Every item is followed by others of its own; they are as many as the items alone exactly if
none has others. -/
theorem length_flatMap_cons_eq_iff {α β : Type} (f : α → β) (g : α → List β) (items : List α) :
    (items.flatMap fun a ↦ f a :: g a).length = items.length ↔ ∀ a ∈ items, g a = [] := by
  have hlength : (items.flatMap fun a ↦ f a :: g a).length =
      items.length + (items.flatMap g).length := by
    induction items with
    | nil => rfl
    | cons a items ih =>
      simp only [List.flatMap_cons, List.length_append, List.length_cons, ih]
      omega
  rw [hlength, Nat.add_eq_left, List.length_eq_zero_iff, List.flatMap_eq_nil_iff]

/-- The log is read as it was written exactly if no summary holds a record separator. -/
theorem readLog_eq_iff {revisions : List Revision} (h : ∀ r ∈ revisions, r.Loggable) :
    readLog (revisions.flatMap Revision.write) = revisions ↔
      ∀ r ∈ revisions, recordSeparator ∉ r.summary.toList := by
  rw [readLog_flatMap h]
  constructor
  · intro heq r hr
    have hstrays := (length_flatMap_cons_eq_iff Revision.listed Revision.strays revisions).mp
      (congrArg List.length heq)
    have hlisted : revisions.map Revision.listed = revisions.map id := by
      rw [List.map_id]
      conv => rhs; rw [← heq]
      rw [List.map_eq_flatMap, List.flatMap_def, List.flatMap_def]
      exact congrArg List.flatten (List.map_congr_left fun other ho ↦ by rw [hstrays other ho])
    exact Revision.listed_eq_self_iff.mp ⟨List.map_inj_left.mp hlisted r hr, hstrays r hr⟩
  · intro hall
    have hself : ∀ r ∈ revisions, (r.listed :: r.strays) = [r] := by
      intro r hr
      obtain ⟨hlisted, hstrays⟩ := Revision.listed_eq_self_iff.mpr (hall r hr)
      rw [hlisted, hstrays]
    rw [List.flatMap_def, List.map_congr_left hself, ← List.flatMap_def, List.flatMap_singleton']

/-- The summary of a commit up to the first character that ends a record. -/
def Commit.subject (commit : Commit) : String :=
  String.ofList ((splitOnChar recordSeparator (summary commit.message).toList).headD [])

/-- A commit as it is read from the log. -/
def Commit.listed (commit : Commit) : Revision := ⟨commit.oid, commit.subject⟩

/-- The records that the summary of a commit adds to the log: whatever stands behind its first
record separator is taken for further commits. -/
def Commit.strays (commit : Commit) : List Revision :=
  ((splitOnChar recordSeparator (summary commit.message).toList).tail.filter (· != [])).map
    Revision.ofRecord

/-- The id of a commit can stand in the log. -/
def Commit.Loggable (commit : Commit) : Prop :=
  ∀ c ∈ commit.oid.toList, c ≠ fieldSeparator ∧ c ≠ recordSeparator ∧ c ≠ '\n'

/-- A summary is one line. -/
theorem newline_not_mem_summary (message : String) : '\n' ∉ (summary message).toList := by
  have hline : ∀ line ∈ messageLines message, '\n' ∉ line := by
    intro line hline hn
    obtain ⟨piece, hpiece, rfl⟩ := List.mem_map.mp hline
    have hmem : '\n' ∈ piece := by
      have hr := List.mem_reverse.mp hn
      exact List.mem_reverse.mp ((List.dropWhile_suffix _).mem hr)
    have hsep := (of_mem_splitBy hpiece hmem).1
    simp at hsep
  have hjoin : ∀ pieces : List (List Char), (∀ piece ∈ pieces, '\n' ∉ piece) →
      '\n' ∉ joinWith [' '] pieces := by
    intro pieces
    induction pieces with
    | nil => simp [joinWith]
    | cons piece pieces ih =>
      intro h
      have hpiece := h piece (by simp)
      cases pieces with
      | nil => simpa [joinWith] using hpiece
      | cons next rest =>
        have hrest := ih fun other ho ↦ h other (by simp [ho])
        simp [joinWith, hpiece, hrest]
  rw [summary, String.toList_ofList]
  apply hjoin
  intro piece hpiece
  exact hline piece ((List.dropWhile_suffix _).mem ((List.takeWhile_prefix _).mem hpiece))

/-- The log is read as every commit with the strays of its summary behind it. -/
theorem readLog_write {history : List Commit} (h : ∀ commit ∈ history, commit.Loggable) :
    readLog (history.flatMap (·.revision.write)) =
      history.flatMap fun commit ↦ commit.listed :: commit.strays := by
  have hloggable : ∀ r ∈ history.map Commit.revision, r.Loggable := by
    intro r hr
    obtain ⟨commit, hcommit, rfl⟩ := List.mem_map.mp hr
    exact ⟨h commit hcommit, newline_not_mem_summary commit.message⟩
  have hread := readLog_flatMap hloggable
  rw [List.flatMap_map, List.flatMap_map] at hread
  exact hread

end Guidebook.Git
