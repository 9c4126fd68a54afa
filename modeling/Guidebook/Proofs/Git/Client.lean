import Guidebook.Git.Client
import Guidebook.Git.Stream
import Guidebook.Proofs.Git.Listing
import Guidebook.Proofs.Text.Utf8

/-!
# Recorded histories

A repository records a history when it answers the questions about trees and blobs from the
snapshots of the history's commits. A client that prints what git prints for a history records it.

Rows of listings and comparisons end in a NUL, and a client reads them one for one as they were
printed. What it reads of the log that git prints for a list of revisions is every revision,
followed by whatever its summary adds to the log. A summary is free text, and the log does not mark
where it ends but by a character that it may hold itself.
-/

namespace Guidebook.Git

/-- A repository that answers from the snapshots of a history, with its handles for trees and
blobs. -/
structure Repository.Records {Tree Blob : Type} (repository : Repository (Except Failure) Tree Blob)
    (tree : Commit → Tree) (blob : Leaf → Blob) (history : List Commit) : Prop where
  /-- The tree of a commit is found by the commit's id. -/
  treeOf : ∀ commit ∈ history, ∀ revision : Revision, revision.oid = commit.oid →
    repository.treeOf revision = .ok (tree commit)
  /-- Trees are compared leaf by leaf, in tree order. -/
  added : ∀ old : Option Commit, (∀ commit ∈ old, commit ∈ history) → ∀ new ∈ history,
    repository.added (old.map tree) (tree new) =
      .ok ((Snapshot.added ((old.map (·.snapshot)).getD []) new.snapshot).map fun leaf ↦
        ⟨leaf.path, blob leaf⟩)
  /-- A blob holds the bytes of its leaf. -/
  bytes : ∀ commit ∈ history, ∀ leaf ∈ commit.snapshot, leaf.isSubmodule = false →
    repository.blob (blob leaf) = .ok leaf.bytes

/-- A name of git: hexadecimal digits. -/
def IsName (name : String) : Prop := ∀ c ∈ name.toList, Text.isHexDigit c = true

instance (name : String) : Decidable (IsName name) := List.decidableBAll _ _

/-- The name that stands for no object. -/
def noObject : String := "0000000000000000000000000000000000000000"

/-- The names that git gives to the trees and blobs of a history. -/
structure ObjectNames where
  tree : Commit → String
  blob : Leaf → String

namespace ObjectNames

/-- The row of a leaf in the listing of a tree. -/
def treeRow (names : ObjectNames) (leaf : Leaf) : TreeRow :=
  ⟨Stream.modeNumber leaf.mode, if leaf.isSubmodule then "commit" else "blob", names.blob leaf,
    leaf.path⟩

/-- The row of a leaf in a comparison of trees. -/
def addedRow (names : ObjectNames) (leaf : Leaf) : AddedRow :=
  ⟨"000000", Stream.modeNumber leaf.mode, noObject, names.blob leaf, leaf.path⟩

/-- Commits, trees and blobs are named by hexadecimal digits, and no path holds a NUL. -/
def Named (names : ObjectNames) (history : List Commit) : Prop :=
  ∀ commit ∈ history, IsName commit.oid ∧ IsName (names.tree commit) ∧
    ∀ leaf ∈ commit.snapshot, IsName (names.blob leaf) ∧ '\x00' ∉ leaf.path.toList

instance (names : ObjectNames) (history : List Commit) : Decidable (names.Named history) :=
  inferInstanceAs (Decidable (∀ commit ∈ history, IsName commit.oid ∧ IsName (names.tree commit) ∧
    ∀ leaf ∈ commit.snapshot, IsName (names.blob leaf) ∧ '\x00' ∉ leaf.path.toList))

/-- Different things have different names: commits, trees and blobs are found by theirs. -/
def Distinct (names : ObjectNames) (history : List Commit) : Prop :=
  (∀ a ∈ history, ∀ b ∈ history, (a.oid = b.oid → names.tree a = names.tree b) ∧
    (names.tree a = names.tree b → a.snapshot = b.snapshot)) ∧
  ∀ a ∈ history.flatMap (·.snapshot), ∀ b ∈ history.flatMap (·.snapshot),
    names.blob a = names.blob b → a.bytes = b.bytes

instance (names : ObjectNames) (history : List Commit) : Decidable (names.Distinct history) :=
  inferInstanceAs (Decidable ((∀ a ∈ history, ∀ b ∈ history,
    (a.oid = b.oid → names.tree a = names.tree b) ∧
      (names.tree a = names.tree b → a.snapshot = b.snapshot)) ∧
    ∀ a ∈ history.flatMap (·.snapshot), ∀ b ∈ history.flatMap (·.snapshot),
      names.blob a = names.blob b → a.bytes = b.bytes))

end ObjectNames

/-- A client that prints for a linear history what git prints for it. -/
structure Client.Serves (client : Client (Except Failure)) (root : String) (names : ObjectNames)
    (history : List Commit) : Prop where
  /-- There is a current commit. -/
  head : ∃ bytes, client.run (.head root) = .ok bytes
  /-- The log lists the commits, oldest first. -/
  log : client.run .ancestry = .ok (Utf8.encode (history.flatMap (·.revision.write)))
  /-- The tree of a commit is printed on a line. -/
  tree : ∀ commit ∈ history,
    client.run (.treeOf commit.oid) = .ok (Utf8.encode ((names.tree commit).toList ++ ['\n']))
  /-- A tree is listed leaf by leaf. -/
  leaves : ∀ commit ∈ history, client.run (.leaves (names.tree commit)) =
    .ok (Utf8.encode (commit.snapshot.flatMap fun leaf ↦ (names.treeRow leaf).write))
  /-- A comparison lists the leaves whose paths are no leaf paths of the older tree. -/
  added : ∀ old ∈ history, ∀ new ∈ history,
    client.run (.added (names.tree old) (names.tree new)) =
      .ok (Utf8.encode ((new.snapshot.filter fun leaf ↦
        !old.snapshot.any (·.path == leaf.path)).flatMap fun leaf ↦ (names.addedRow leaf).write))
  /-- A blob is printed as it is. -/
  blob : ∀ commit ∈ history, ∀ leaf ∈ commit.snapshot, leaf.isSubmodule = false →
    client.run (.blob (names.blob leaf)) = .ok leaf.bytes
  /-- Names are hexadecimal digits, and no path holds a NUL. -/
  named : names.Named history

/-- The client that prints for a history what git prints for it, and knows nothing else. -/
def Client.printing (names : ObjectNames) (history : List Commit) : Client (Except Failure) where
  run command :=
    let refused := Except.error (Failure.git command (.exited "fatal: Not a valid object name"))
    match command with
    | .head _ => if history.isEmpty then refused else .ok []
    | .ancestry => .ok (Utf8.encode (history.flatMap (·.revision.write)))
    | .treeOf oid =>
      match history.find? (·.oid == oid) with
      | some commit => .ok (Utf8.encode ((names.tree commit).toList ++ ['\n']))
      | none => refused
    | .leaves tree =>
      match history.find? (names.tree · == tree) with
      | some commit =>
        .ok (Utf8.encode (commit.snapshot.flatMap fun leaf ↦ (names.treeRow leaf).write))
      | none => refused
    | .added old new =>
      match history.find? (names.tree · == old), history.find? (names.tree · == new) with
      | some old, some new =>
        .ok (Utf8.encode ((new.snapshot.filter fun leaf ↦
          !old.snapshot.any (·.path == leaf.path)).flatMap fun leaf ↦ (names.addedRow leaf).write))
      | _, _ => refused
    | .blob name =>
      match (history.flatMap (·.snapshot)).find? (names.blob · == name) with
      | some leaf => .ok leaf.bytes
      | none => refused
    | _ => refused

private theorem find?_of_mem {α : Type} {p : α → Bool} {items : List α} {item : α}
    (hmem : item ∈ items) (hp : p item = true) :
    ∃ found ∈ items, items.find? p = some found ∧ p found = true := by
  cases hf : items.find? p with
  | none => exact absurd hp (List.find?_eq_none.mp hf item hmem)
  | some found => exact ⟨found, List.mem_of_find?_eq_some hf, rfl, List.find?_some hf⟩

/-- Every history that is not empty is served by the client that prints for it, provided that names
are names and tell different things apart. -/
theorem Client.serves_printing (root : String) {names : ObjectNames} {history : List Commit}
    (hne : history ≠ []) (hnamed : names.Named history) (hdistinct : names.Distinct history) :
    (Client.printing names history).Serves root names history where
  head := by
    refine ⟨[], ?_⟩
    simp [printing, hne]
  log := rfl
  tree := by
    intro commit hcommit
    obtain ⟨found, hfound, hfind, hoid⟩ :=
      find?_of_mem (p := (·.oid == commit.oid)) hcommit (by simp)
    have htree := (hdistinct.1 found hfound commit hcommit).1 (by simpa using hoid)
    simp only [printing, hfind, htree]
  leaves := by
    intro commit hcommit
    obtain ⟨found, hfound, hfind, hname⟩ :=
      find?_of_mem (p := (names.tree · == names.tree commit)) hcommit (by simp)
    have hsnapshot := (hdistinct.1 found hfound commit hcommit).2 (by simpa using hname)
    simp only [printing, hfind, hsnapshot]
  added := by
    intro old hold new hnew
    obtain ⟨before, hbefore, hfindBefore, hnameBefore⟩ :=
      find?_of_mem (p := (names.tree · == names.tree old)) hold (by simp)
    obtain ⟨after, hafter, hfindAfter, hnameAfter⟩ :=
      find?_of_mem (p := (names.tree · == names.tree new)) hnew (by simp)
    have hold := (hdistinct.1 before hbefore old hold).2 (by simpa using hnameBefore)
    have hnew := (hdistinct.1 after hafter new hnew).2 (by simpa using hnameAfter)
    simp only [printing, hfindBefore, hfindAfter, hold, hnew]
  blob := by
    intro commit hcommit leaf hleaf _
    have hmem : leaf ∈ history.flatMap (·.snapshot) :=
      List.mem_flatMap.mpr ⟨commit, hcommit, hleaf⟩
    obtain ⟨found, hfound, hfind, hname⟩ :=
      find?_of_mem (p := (names.blob · == names.blob leaf)) hmem (by simp)
    have hbytes := hdistinct.2 found hfound leaf hmem (by simpa using hname)
    simp only [printing, hfind, hbytes]
  named := hnamed

private theorem not_hexDigit {name : String} (h : IsName name) {c : Char}
    (hc : Text.isHexDigit c = false) : c ∉ name.toList := fun hmem ↦ by
  have := h c hmem
  rw [hc] at this
  contradiction

/-- A name can stand in a row. -/
theorem IsName.isWord {name : String} (h : IsName name) : IsWord name := by
  intro c hc
  refine ⟨?_, ?_, ?_⟩ <;> rintro rfl
  · exact not_hexDigit h (by decide) hc
  · exact not_hexDigit h (by decide) hc
  · exact not_hexDigit h (by decide) hc

/-- A name can stand in the log: it ends neither a field nor a record nor a line. -/
theorem IsName.loggable {name : String} (h : IsName name) :
    ∀ c ∈ name.toList, c ≠ fieldSeparator ∧ c ≠ recordSeparator ∧ c ≠ '\n' := by
  intro c hc
  refine ⟨?_, ?_, ?_⟩ <;> rintro rfl
  · exact not_hexDigit h (by decide) hc
  · exact not_hexDigit h (by decide) hc
  · exact not_hexDigit h (by decide) hc

private theorem isBlank_of_isHexDigit {c : Char} (h : Text.isHexDigit c = true) :
    Text.isBlank c = false := by
  simp only [Text.isHexDigit, Text.isDigit, Bool.or_eq_true, Bool.and_eq_true, decide_eq_true_eq,
    Char.le_def, UInt32.le_iff_toNat_le] at h
  simp only [Text.isBlank, Char.toNat]
  rcases h with (h | h) | h <;> obtain ⟨h₁, h₂⟩ := h <;> simp at h₁ h₂ <;> split <;>
    simp <;> omega

private theorem isWord_modeNumber (mode : Mode) : IsWord (Stream.modeNumber mode) := by
  cases mode <;> decide

/-- The mode of a row tells submodules from everything else. -/
theorem modeNumber_eq_submoduleMode (leaf : Leaf) :
    (Stream.modeNumber leaf.mode == submoduleMode) = leaf.isSubmodule := by
  rw [Leaf.isSubmodule]
  cases leaf.mode <;> decide

/-- The row of a leaf can be read. -/
theorem treeRow_plain {names : ObjectNames} {leaf : Leaf} (hname : IsName (names.blob leaf))
    (hpath : '\x00' ∉ leaf.path.toList) : (names.treeRow leaf).Plain where
  mode := isWord_modeNumber leaf.mode
  kind := by
    rw [ObjectNames.treeRow]
    cases leaf.isSubmodule
    · exact (by decide : IsWord "blob")
    · exact (by decide : IsWord "commit")
  oid := hname.isWord
  path := hpath

private theorem addedRow_plain {names : ObjectNames} {leaf : Leaf}
    (hname : IsName (names.blob leaf)) (hpath : '\x00' ∉ leaf.path.toList) :
    (names.addedRow leaf).Plain where
  oldMode := (by decide : IsWord "000000")
  newMode := isWord_modeNumber leaf.mode
  oldOid := (by decide : IsWord noObject)
  newOid := hname.isWord
  path := hpath

private theorem isFile_treeRow (names : ObjectNames) (leaf : Leaf) :
    (names.treeRow leaf).isFile = !leaf.isSubmodule := by
  rw [TreeRow.isFile, ObjectNames.treeRow, bne, modeNumber_eq_submoduleMode]
  cases leaf.isSubmodule <;> rfl

namespace Client

variable {client : Client (Except Failure)} {root : String} {names : ObjectNames}
  {history : List Commit}

/-- What is printed as text is read as this text. -/
theorem runText_eq {command : Command} {text : List Char}
    (h : client.run command = .ok (Utf8.encode text)) : client.runText command = .ok text := by
  simp only [runText, h, bind, Except.bind]
  rw [Utf8.decode_encode]
  rfl

/-- A listing of a tree as a client reads it. -/
def treeRows (client : Client (Except Failure)) (command : Command) :
    Except Failure (List TreeRow) := do
  ofResult (readTreeRows (← client.runText command))

/-- Without an older tree all files of a listing are added. -/
theorem added_none_eq (client : Client (Except Failure)) (new : String) :
    client.added none new = (do
      let rows ← client.treeRows (.leaves new)
      return (rows.filter TreeRow.isFile).map fun row ↦ ⟨row.path, row.oid⟩) := by
  rw [added, treeRows, bind_assoc]

/-- A walk has the entries of a listing. -/
theorem walkTree_eq (client : Client (Except Failure)) (tree dir : String) :
    client.walkTree tree dir = (do
      let rows ← client.treeRows (.subtree tree dir)
      return (← ofResult (rows.mapM (TreeRow.entry? dir))).filterMap id) := by
  rw [walkTree, treeRows, bind_assoc]

/-- Printed rows of a tree listing are read as they are. -/
theorem treeRows_printed {command : Command} {rows : List TreeRow} (h : ∀ row ∈ rows, row.Plain)
    (hrun : client.run command = .ok (Utf8.encode (rows.flatMap TreeRow.write))) :
    client.treeRows command = .ok rows := by
  simp only [treeRows, runText_eq hrun, bind, Except.bind, readTreeRows_write h, ofResult, pure,
    Except.pure]

/-- Printed rows of a comparison are read as they are, submodules left out. -/
theorem added_printed {old new : String} {rows : List AddedRow} (h : ∀ row ∈ rows, row.Plain)
    (hrun : client.run (.added old new) = .ok (Utf8.encode (rows.flatMap AddedRow.write))) :
    client.added (some old) new =
      .ok ((rows.filter (·.newMode != submoduleMode)).map fun row ↦ ⟨row.path, row.newOid⟩) := by
  rw [added]
  simp only [runText_eq hrun, bind, Except.bind, readAdded_write h, ofResult, pure, Except.pure]

private theorem added_none (h : client.Serves root names history) {new : Commit}
    (hnew : new ∈ history) :
    client.added none (names.tree new) = .ok ((Snapshot.added [] new.snapshot).map fun leaf ↦
      ⟨leaf.path, names.blob leaf⟩) := by
  have hplain : ∀ row ∈ new.snapshot.map names.treeRow, row.Plain := by
    intro row hrow
    obtain ⟨leaf, hleaf, rfl⟩ := List.mem_map.mp hrow
    exact treeRow_plain ((h.named new hnew).2.2 leaf hleaf).1 ((h.named new hnew).2.2 leaf hleaf).2
  have hprinted := h.leaves new hnew
  rw [← List.flatMap_map] at hprinted
  have hfiles : ((new.snapshot.map names.treeRow).filter TreeRow.isFile).map
      (fun row ↦ (⟨row.path, row.oid⟩ : AddedFile String)) =
      (Snapshot.added [] new.snapshot).map fun leaf ↦ ⟨leaf.path, names.blob leaf⟩ := by
    rw [List.filter_map, List.map_map, Snapshot.added]
    have hfilter : (TreeRow.isFile ∘ names.treeRow) = fun leaf ↦
        !leaf.isSubmodule && !([] : Snapshot).any (·.path == leaf.path) := by
      funext leaf
      simp [isFile_treeRow]
    rw [hfilter]
    rfl
  rw [added_none_eq, treeRows_printed hplain hprinted]
  exact congrArg Except.ok hfiles

private theorem added_some (h : client.Serves root names history) {old new : Commit}
    (hold : old ∈ history) (hnew : new ∈ history) :
    client.added (some (names.tree old)) (names.tree new) =
      .ok ((Snapshot.added old.snapshot new.snapshot).map fun leaf ↦
        ⟨leaf.path, names.blob leaf⟩) := by
  have hplain : ∀ row ∈ (new.snapshot.filter fun leaf ↦
      !old.snapshot.any (·.path == leaf.path)).map names.addedRow, row.Plain := by
    intro row hrow
    obtain ⟨leaf, hleaf, rfl⟩ := List.mem_map.mp hrow
    have hleaf := (List.mem_filter.mp hleaf).1
    exact addedRow_plain ((h.named new hnew).2.2 leaf hleaf).1 ((h.named new hnew).2.2 leaf hleaf).2
  have hprinted := h.added old hold new hnew
  rw [← List.flatMap_map] at hprinted
  have hfilter : ∀ leaf : Leaf, (((fun row : AddedRow ↦ row.newMode != submoduleMode) ∘
      names.addedRow) leaf && !old.snapshot.any (·.path == leaf.path)) =
      (!leaf.isSubmodule && !old.snapshot.any (·.path == leaf.path)) := by
    intro leaf
    rw [← modeNumber_eq_submoduleMode]
    rfl
  rw [added_printed hplain hprinted, List.filter_map, List.map_map, List.filter_filter]
  simp only [hfilter]
  rfl

/-- A client that prints what git prints for a history records it. -/
theorem Serves.records (h : client.Serves root names history) :
    (client.repository root).Records names.tree names.blob history where
  treeOf := by
    intro commit hcommit revision hoid
    have htext := runText_eq (h.tree commit hcommit)
    have hname : ∀ c ∈ (names.tree commit).toList, Text.isBlank c = false := fun c hc ↦
      isBlank_of_isHexDigit ((h.named commit hcommit).2.1 c hc)
    have hstrip : Text.strip ([] ++ (names.tree commit).toList ++ ['\n']) =
        (names.tree commit).toList := Text.stripBy_append hname (by simp)
        (List.forall_mem_singleton.mpr rfl)
    change client.treeOf revision = .ok (names.tree commit)
    rw [treeOf, hoid]
    simp only [htext, bind, Except.bind, pure, Except.pure]
    rw [List.nil_append] at hstrip
    rw [hstrip, String.ofList_toList]
  added := by
    intro old hold new hnew
    cases old with
    | none => exact added_none h hnew
    | some old => exact added_some h (hold old rfl) hnew
  bytes := h.blob

/-- The ancestry is read as every commit with the strays of its summary behind it. -/
theorem Serves.ancestry (h : client.Serves root names history) :
    client.ancestry root =
      .ok (history.flatMap fun commit ↦ commit.listed :: commit.strays) := by
  obtain ⟨bytes, hhead⟩ := h.head
  have htext := runText_eq h.log
  have hlog := readLog_write fun commit hcommit ↦ IsName.loggable (h.named commit hcommit).1
  rw [Client.ancestry]
  simp only [hhead, htext, bind, Except.bind, pure, Except.pure, hlog]

end Client

end Guidebook.Git

/-! ## The ancestry -/

namespace Guidebook.Git.Client

variable {client : Client (Except Failure)} {root : String} {revisions : List Revision}

/-- The ancestry is read of a log that git prints. It is that of the revisions, one for one and in
order, each with its id and its summary, exactly if no summary holds a record separator. -/
theorem ancestry_eq_ok_iff (hids : ∀ r ∈ revisions, IsName r.oid)
    (hlines : ∀ r ∈ revisions, '\n' ∉ r.summary.toList)
    (hhead : ∃ bytes, client.run (.head root) = .ok bytes)
    (hlog : client.run .ancestry = .ok (Utf8.encode (revisions.flatMap Revision.write))) :
    client.ancestry root = .ok (revisions.flatMap fun r ↦ r.listed :: r.strays) ∧
    (client.ancestry root = .ok revisions ↔
      ∀ r ∈ revisions, recordSeparator ∉ r.summary.toList) := by
  have hloggable : ∀ r ∈ revisions, r.Loggable := fun r hr ↦ ⟨(hids r hr).loggable, hlines r hr⟩
  have hread : client.ancestry root = .ok (readLog (revisions.flatMap Revision.write)) := by
    obtain ⟨bytes, hhead⟩ := hhead
    rw [Client.ancestry]
    simp only [hhead, runText_eq hlog, bind, Except.bind, pure, Except.pure]
  constructor
  · rw [hread, readLog_flatMap hloggable]
  · rw [hread, Except.ok.injEq, readLog_eq_iff hloggable]

/-- A client that prints the log of a list of revisions, and nothing else. -/
def logging (revisions : List Revision) : Client (Except Failure) where
  run command :=
    match command with
    | .ancestry => .ok (Utf8.encode (revisions.flatMap Revision.write))
    | _ => .ok []

/-- Two revisions, the first without a summary, the second with a field separator in it. -/
def plainRevisions : List Revision :=
  [⟨"c0de000000000000000000000000000000000001", ""⟩,
    ⟨"c0de000000000000000000000000000000000002", "Add \x1f a"⟩]

/-- A revision whose summary ends in a record separator. -/
def endedRevisions : List Revision :=
  [⟨"c0de000000000000000000000000000000000001", "Add a\x1e"⟩]

/-- Field separators and missing summaries are read as they are, a record separator is not, even if
nothing stands behind it. -/
theorem ancestry_eq_ok_iff_separators :
    (logging plainRevisions).ancestry "/guide" = .ok plainRevisions ∧
      (logging endedRevisions).ancestry "/guide" ≠ .ok endedRevisions := by
  constructor
  · exact (ancestry_eq_ok_iff (by decide) (by decide) ⟨[], rfl⟩ rfl).2.mpr (by decide)
  · intro heq
    have hnone := (ancestry_eq_ok_iff (by decide) (by decide) ⟨[], rfl⟩ rfl).2.mp heq
    exact absurd hnone (by decide)

/-! ## Rows -/

/-- Rows that are printed with a NUL behind each are read as they were printed, in the same order,
whatever their paths hold besides. A listing gives all its rows, to a walk and to what is added to
no tree as well; a comparison gives the leaves that are no submodules. -/
theorem rows_of_printed (client : Client (Except Failure)) :
    (∀ (command : Command) (rows : List TreeRow), (∀ row ∈ rows, row.Plain) →
      client.run command = .ok (Utf8.encode (rows.flatMap TreeRow.write)) →
      client.treeRows command = .ok rows) ∧
    (∀ (tree : String) (rows : List TreeRow), (∀ row ∈ rows, row.Plain) →
      client.run (.leaves tree) = .ok (Utf8.encode (rows.flatMap TreeRow.write)) →
      client.added none tree =
        .ok ((rows.filter TreeRow.isFile).map fun row ↦ ⟨row.path, row.oid⟩)) ∧
    (∀ (tree dir : String) (rows : List TreeRow), (∀ row ∈ rows, row.Plain) →
      client.run (.subtree tree dir) = .ok (Utf8.encode (rows.flatMap TreeRow.write)) →
      client.walkTree tree dir = (rows.mapM (TreeRow.entry? dir)).map (List.filterMap id)) ∧
    ∀ (old new : String) (rows : List AddedRow), (∀ row ∈ rows, row.Plain) →
      client.run (.added old new) = .ok (Utf8.encode (rows.flatMap AddedRow.write)) →
      client.added (some old) new =
        .ok ((rows.filter (·.newMode != submoduleMode)).map fun row ↦ ⟨row.path, row.newOid⟩) := by
  refine ⟨fun command rows h hrun ↦ treeRows_printed h hrun, fun tree rows h hrun ↦ ?_,
    fun tree dir rows h hrun ↦ ?_, fun old new rows h hrun ↦ added_printed h hrun⟩
  · rw [added_none_eq, treeRows_printed h hrun]
    rfl
  · rw [walkTree_eq, treeRows_printed h hrun]
    cases hentries : rows.mapM (TreeRow.entry? dir) with
    | error failure =>
      simp only [bind, Except.bind, hentries, ofResult, Except.map]
      rfl
    | ok entries =>
      simp only [bind, Except.bind, hentries, ofResult, pure, Except.pure, Except.map]

/-- A client that prints rows, those of a comparison where trees are compared. -/
def printingRows (rows : List TreeRow) (changes : List AddedRow) : Client (Except Failure) where
  run command :=
    match command with
    | .added _ _ => .ok (Utf8.encode (changes.flatMap AddedRow.write))
    | _ => .ok (Utf8.encode (rows.flatMap TreeRow.write))

/-- Rows of a listing with tabulators, line feeds, quotes and colons in their paths. -/
def awkwardRows : List TreeRow :=
  [⟨"100644", "blob", "ab01", ":\ta\t b\n"⟩, ⟨"160000", "commit", "ab02", "lib"⟩,
    ⟨"120000", "blob", "ab03", "\"\t100644 blob\tab04"⟩]

/-- Rows of a comparison whose paths look like the rows themselves. -/
def awkwardChanges : List AddedRow :=
  [⟨"000000", "160000", "0000", "ab02", ":lib"⟩,
    ⟨"000000", "100644", "0000", "ab01", ":000000 100644 0000 ab01 A"⟩]

theorem rows_of_printed_awkward :
    (∀ row ∈ awkwardRows, row.Plain) ∧ (∀ row ∈ awkwardChanges, row.Plain) ∧
    (printingRows awkwardRows awkwardChanges).treeRows (.leaves "7ee5") = .ok awkwardRows ∧
    (printingRows awkwardRows awkwardChanges).added none "7ee5" =
      .ok [⟨":\ta\t b\n", "ab01"⟩, ⟨"\"\t100644 blob\tab04", "ab03"⟩] ∧
    (printingRows awkwardRows awkwardChanges).added (some "7ee4") "7ee5" =
      .ok [⟨":000000 100644 0000 ab01 A", "ab01"⟩] := by
  have hrows : ∀ row ∈ awkwardRows, row.Plain := by decide
  have hchanges : ∀ row ∈ awkwardChanges, row.Plain := by decide
  obtain ⟨hread, hfiles, -, hadded⟩ := rows_of_printed (printingRows awkwardRows awkwardChanges)
  exact ⟨hrows, hchanges, hread _ _ hrows rfl, hfiles _ _ hrows rfl, hadded _ _ _ hchanges rfl⟩

end Guidebook.Git.Client
