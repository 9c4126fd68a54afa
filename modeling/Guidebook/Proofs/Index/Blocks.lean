import Mathlib.Data.List.Nodup
import Guidebook.Proofs.Result
import Guidebook.Proofs.Toml

/-!
# Files of blocks

The file of an index is made of blocks: a header, and lines that give names strings. It is read as
a list of tables, one for each block. A block that uses a name twice is no table, and the clash is
what reading ends with.
-/

namespace Guidebook.PageIndex

open Toml

/-- The lines of a block: names and their strings. -/
abbrev Row := List (String × String)

namespace Row

variable {row seen : Row}

/-- The names in the lines of a block. -/
def names (row : Row) : List String := row.map (·.1)

/-- A block whose names are written without quotes. -/
def Bare (row : Row) : Prop := ∀ pair ∈ row, IsBare pair.1.toList

/-- Lines as they are written. -/
def lines (row : Row) : List Char :=
  row.flatMap fun pair ↦ Toml.writeEntry pair.1.toList pair.2.toList

/-- The first name in a block that was seen before. -/
def repeated? (seen : List String) : Row → Option String
  | [] => none
  | (name, _) :: rest => if name ∈ seen then some name else repeated? (seen ++ [name]) rest

/-- The value of a block. -/
def value (row : Row) : Value := .table (row.map fun pair ↦ (pair.1, .text pair.2))

/-- The entries of a block while it is read. -/
def items (row : Row) : Entries := row.map fun pair ↦ (⟨pair.1, false⟩, .text pair.2)

/-- The table of a block while it is read. -/
def element (row : Row) : Item := tableOf .element row.items

/-- No name is repeated exactly if all are different. -/
theorem repeated?_eq_none_iff (seen : List String) (hseen : seen.Nodup) (row : Row) :
    repeated? seen row = none ↔ (seen ++ row.names).Nodup := by
  induction row generalizing seen with
  | nil => simpa [repeated?, names] using hseen
  | cons pair rest ih =>
    rw [repeated?]
    split
    · next hmem =>
      refine iff_of_false nofun fun hnodup ↦ ?_
      exact (List.nodup_append.mp hnodup).2.2 _ hmem pair.1 List.mem_cons_self rfl
    · next hmem =>
      rw [ih (seen ++ [pair.1]) (by simpa using List.Nodup.concat hmem hseen)]
      simp [names]

/-- What a table has under a name: no more than one item if no name is repeated. -/
theorem itemsOf_items (row : Row) (name : String) :
    itemsOf row.items name = (row.filter (·.1 == name)).map fun pair ↦ .text pair.2 := by
  simp only [itemsOf, items, List.filter_map, List.map_map]
  rfl

theorem length_itemsOf (h : row.names.Nodup) (name : String) :
    (itemsOf row.items name).length ≤ 1 := by
  have hcount := List.nodup_iff_count_le_one.mp h name
  rw [itemsOf_items, List.length_map, ← List.countP_eq_length_filter]
  rwa [names, List.count, List.countP_map] at hcount

theorem itemsOf_of_mem (h : row.names.Nodup) {pair : String × String} (hpair : pair ∈ row) :
    itemsOf row.items pair.1 = [.text pair.2] := by
  have hmem : Item.text pair.2 ∈ itemsOf row.items pair.1 := by
    rw [itemsOf_items]
    exact List.mem_map.mpr ⟨pair, List.mem_filter.mpr ⟨hpair, beq_self_eq_true _⟩, rfl⟩
  have hlength := length_itemsOf h pair.1
  generalize itemsOf row.items pair.1 = found at hmem hlength
  match found, hmem, hlength with
  | [item], hmem, _ => rw [List.mem_singleton.mp hmem]

private theorem checkName_items (h : row.names.Nodup) (name : String) :
    checkName row.items name = .ok () := by
  have hlength := length_itemsOf h name
  rw [checkName]
  split
  · next first second rest heq => simp [heq] at hlength
  · rfl

private theorem checkTable_items (h : row.names.Nodup) (limit : Nat) (name : String) :
    checkTable (limit + 1) row.items name = .ok () := by
  have hlength := length_itemsOf h name
  rw [checkTable]
  split
  · next first second rest heq => simp [heq] at hlength
  · rfl

/-- Lines have nothing under another name. -/
private theorem lastOf_items {name : String} (h : name ∉ seen.names) :
    lastOf seen.items name = none := by
  rw [lastOf, List.getLast?_eq_none_iff, List.filter_eq_nil_iff]
  intro entry hentry hname
  obtain ⟨held, hheld, rfl⟩ := List.mem_map.mp hentry
  exact h (List.mem_map.mpr ⟨held, hheld, beq_iff_eq.mp hname⟩)

private theorem items_concat (seen : Row) (pair : String × String) :
    seen.items ++ [(⟨pair.1, false⟩, .text pair.2)] = (seen ++ [pair]).items := by
  simp [items]

/-- A line is added to a block unless its name is there already. -/
theorem addInner_items (h : seen.names.Nodup) (limit : Nat) (pair : String × String) :
    addInner (limit + 1) seen.items [pair.1] (.text pair.2) =
      if pair.1 ∈ seen.names then .error (.duplicateKey pair.1)
      else .ok (seen ++ [pair]).items := by
  by_cases hmem : pair.1 ∈ seen.names
  · rw [if_pos hmem, addInner, insertPath, Toml.insert.eq_def]
    have hlast : lastOf seen.items pair.1 = ((seen.filter (·.1 == pair.1)).getLast?).map
        fun held ↦ (⟨held.1, false⟩, .text held.2) := by
      simp only [lastOf, items, List.filter_map, List.getLast?_map]
      rfl
    obtain ⟨held, hheld, hname⟩ := List.mem_map.mp hmem
    have hne : seen.filter (·.1 == pair.1) ≠ [] :=
      List.ne_nil_of_mem (List.mem_filter.mpr ⟨hheld, beq_iff_eq.mpr hname⟩)
    rw [List.getLast?_eq_some_getLast hne] at hlast
    simp only [hlast, Option.map_some, checkName_items h]
    rfl
  · rw [if_neg hmem, addInner, insertPath, Toml.insert.eq_def]
    have hcheck : checkName (seen ++ [pair]).items pair.1 = .ok () := by
      have hnil : seen.filter (·.1 == pair.1) = [] :=
        List.filter_eq_nil_iff.mpr fun held hheld hname ↦
          hmem (List.mem_map.mpr ⟨held, hheld, beq_iff_eq.mp hname⟩)
      have hitems : itemsOf (seen ++ [pair]).items pair.1 = [.text pair.2] := by
        rw [itemsOf_items, List.filter_append, hnil]
        simp
      rw [checkName, hitems]
    simp only [lastOf_items hmem, bind, Except.bind, items_concat, List.headD_cons, hcheck]

/-- The lines of a block are read one after another, up to one that repeats a name. -/
theorem readEntries_lines (hbare : row.Bare) (fuel limit : Nat) (hseen : seen.names.Nodup)
    (rest : List Char) :
    readEntries (fuel + row.length) (addInner (limit + 1)) seen.items (row.lines ++ rest) =
      match repeated? seen.names row with
      | some name => .error (.duplicateKey name)
      | none => readEntries fuel (addInner (limit + 1)) (seen ++ row).items rest := by
  induction row generalizing seen with
  | nil => simp [repeated?, lines]
  | cons pair row ih =>
    have hlines : lines (pair :: row) ++ rest =
        Toml.writeEntry pair.1.toList pair.2.toList ++ (lines row ++ rest) := by
      simp [lines]
    have hpair := hbare pair List.mem_cons_self
    rw [hlines, List.length_cons, ← Nat.add_assoc, readEntries_writeEntry hpair,
      String.ofList_toList, String.ofList_toList, addInner_items hseen, repeated?]
    split
    · rfl
    · next hfresh =>
      have hnext : (names (seen ++ [pair])).Nodup := by
        simpa [names] using List.Nodup.concat hfresh hseen
      have hrest := ih (fun other ho ↦ hbare other (List.mem_cons_of_mem _ ho)) hnext
      rw [List.append_assoc, List.singleton_append] at hrest
      simpa [Except.bind, names] using hrest

/-- The names of a block, each once. -/
theorem namesOf_items (h : row.names.Nodup) : namesOf row.items = row.names := by
  suffices hfold : ∀ seen : Row, (seen ++ row).names.Nodup →
      row.items.foldl (fun names e ↦
        if names.contains e.1.name then names else names ++ [e.1.name]) seen.names =
          (seen ++ row).names from hfold [] h
  clear h
  induction row with
  | nil => intro seen _; simp [items]
  | cons pair row ih =>
    intro seen hnodup
    have hfresh : pair.1 ∉ seen.names := fun hmem ↦ by
      rw [names, List.map_append] at hnodup
      exact (List.nodup_append.mp hnodup).2.2 _ hmem pair.1 List.mem_cons_self rfl
    have hrest := ih (seen ++ [pair]) (by simpa using hnodup)
    rw [List.append_assoc, List.singleton_append] at hrest
    have hnames : names (seen ++ [pair]) = seen.names ++ [pair.1] := by simp [names]
    have hcontains : seen.names.contains pair.1 = false := by simpa using hfresh
    rw [← hrest, hnames, items, List.map_cons, List.foldl_cons, hcontains]
    rfl

private theorem checkTables_items (h : row.names.Nodup) (limit : Nat) :
    (namesOf row.items).forM (checkTable (limit + 1) row.items) = .ok () := by
  generalize namesOf row.items = names
  induction names with
  | nil => rfl
  | cons name names ih =>
    rw [List.forM, checkTable_items h]
    exact ih

/-- The value of lines whose names are all different. -/
theorem valueOfEntries_items (h : row.names.Nodup) (limit : Nat) :
    valueOfEntries (limit + 2) row.items = .ok row.value := by
  rw [valueOfEntries, namesOf_items h, names, List.mapM_map]
  refine congrArg (Except.map Value.table) (mapM_eq_map fun pair hpair ↦ ?_)
  simp only [Function.comp_apply, itemsOf_of_mem h hpair]
  rfl

/-- The value of a block whose names are all different. -/
theorem valueOf_element (h : row.names.Nodup) (limit : Nat) :
    valueOf (limit + 3) row.element = .ok row.value := by
  have hzip : (row.items.map (·.1)).zip (row.items.map (·.2)) = row.items :=
    (List.zip_of_prod rfl rfl).symm
  rw [element, tableOf, valueOf, hzip, valueOfEntries_items h]

/-! ### Lines without a header -/

/-- A line of a new name is added at the top of a file. -/
private theorem addTop_items (limit : Nat) {pair : String × String} (h : pair.1 ∉ seen.names) :
    addTop (limit + 1) seen.items [pair.1] (.text pair.2) = .ok (seen ++ [pair]).items := by
  rw [addTop, insertPath, Toml.insert.eq_def]
  simp only [lastOf_items h, items_concat]
  rfl

/-- Lines of different names at the top of a file are read one after another. -/
private theorem readEntries_top (hbare : row.Bare) (fuel limit : Nat)
    (h : (seen ++ row).names.Nodup) (rest : List Char) :
    readEntries (fuel + row.length) (addTop (limit + 1)) seen.items (row.lines ++ rest) =
      readEntries fuel (addTop (limit + 1)) (seen ++ row).items rest := by
  induction row generalizing seen with
  | nil => simp [lines]
  | cons pair row ih =>
    obtain ⟨hpair, hrow⟩ := List.forall_mem_cons.mp hbare
    have hlines : lines (pair :: row) ++ rest =
        Toml.writeEntry pair.1.toList pair.2.toList ++ (lines row ++ rest) := by
      simp [lines]
    have hfresh : pair.1 ∉ seen.names := fun hmem ↦ by
      rw [names, List.map_append] at h
      exact (List.nodup_append.mp h).2.2 _ hmem pair.1 List.mem_cons_self rfl
    have hseen : seen ++ pair :: row = seen ++ [pair] ++ row := by simp
    rw [hlines, List.length_cons, ← Nat.add_assoc, readEntries_writeEntry hpair,
      String.ofList_toList, String.ofList_toList, addTop_items limit hfresh, hseen]
    exact ih hrow (hseen ▸ h)

/-- Lines hold no carriage return. -/
theorem return_not_mem_lines (hbare : row.Bare) : '\r' ∉ row.lines := fun hmem ↦ by
  obtain ⟨pair, hpair, hmem⟩ := List.mem_flatMap.mp hmem
  have hname : '\r' ∉ pair.1.toList := fun hc ↦
    absurd (List.all_eq_true.mp (hbare pair hpair).all _ hc) (by decide)
  exact return_not_mem_writeEntry hname _ hmem

private theorem length_le_lines (row : Row) : row.length ≤ row.lines.length := by
  induction row with
  | nil => exact Nat.le_refl 0
  | cons pair row ih =>
    rw [Row.lines, List.flatMap_cons, List.length_append, List.length_cons, Toml.writeEntry]
    simp only [List.length_append, List.length_cons]
    rw [Row.lines] at ih
    omega

/-- A file of lines of different names is read as their table. -/
theorem read_lines (hbare : row.Bare) (h : row.names.Nodup) :
    Toml.read row.lines = .ok row.value := by
  obtain ⟨more, hmore⟩ : ∃ more, row.lines.length + 1 = more + 1 + row.length :=
    ⟨row.lines.length - row.length, by have := length_le_lines row; omega⟩
  have hnodup : (names ([] ++ row)).Nodup := h
  have hentries := readEntries_top hbare (more + 1) (4 * row.lines.length + 7) hnodup []
  rw [List.append_nil, ← hmore] at hentries
  have hread : readEntries (row.lines.length + 1) (addTop (depthLimit row.lines)) [] row.lines =
      .ok (row.items, []) := hentries
  have hblocks : readBlocks (row.lines.length + 1) (depthLimit row.lines) row.items [] =
      .ok row.items := by rw [readBlocks.eq_def]
  rw [Toml.read]
  simp only [bind, Except.bind, hread, hblocks]
  exact valueOfEntries_items h _

end Row

/-! ## Blocks -/

/-- Blocks as they are written, from the first header on. -/
def blocks (rows : List Row) : List Char :=
  Text.joinWith ['\n'] (rows.map fun row ↦ "[[entries]]\n".toList ++ row.lines)

/-- What stands behind a block. -/
private def behind (rows : List Row) : List Char := if rows.isEmpty then [] else '\n' :: blocks rows

private theorem blocks_cons (row : Row) (rows : List Row) :
    blocks (row :: rows) = "[[entries]]\n".toList ++ (row.lines ++ behind rows) := by
  cases rows with
  | nil => simp [blocks, behind, Text.joinWith]
  | cons next rest => simp [blocks, behind, Text.joinWith]

private theorem readHeader_block (rest : List Char) :
    readHeader ("[[entries]]\n".toList ++ rest) = .ok ((["entries"], true), rest) := rfl

private theorem readHeaderName_block (rest : List Char) :
    ∃ r, readHeaderName ("[[entries]]\n".toList ++ rest) = .ok ((["entries"], true), r) :=
  ⟨_, rfl⟩

private theorem dropWhile_behind (rows : List Row) :
    (behind rows).dropWhile isSpaceOrNewline = blocks rows := by
  cases rows with
  | nil => rfl
  | cons row rows =>
    rw [behind, List.isEmpty_cons, if_neg (by simp), List.dropWhile_cons_of_pos (by rfl),
      blocks_cons]
    rfl

private theorem readEntries_behind (fuel : Nat)
    (add : Entries → List String → Item → Except Fault Entries) (held : Entries) (rows : List Row) :
    readEntries (fuel + 1) add held (behind rows) = .ok (held, blocks rows) := by
  rw [readEntries, dropWhile_behind]
  cases rows with
  | nil => rfl
  | cons row rows =>
    rw [blocks_cons]
    rfl

/-- What stands behind the header of a block is read with the entries of the block. -/
private theorem readEntries_body {row : Row} (hbare : row.Bare) {fuel : Nat}
    (hfuel : row.length + 1 ≤ fuel) (limit : Nat) (rows : List Row) :
    readEntries fuel (addInner (limit + 1)) [] (row.lines ++ behind rows) =
      match Row.repeated? [] row with
      | some name => .error (.duplicateKey name)
      | none => .ok (row.items, blocks rows) := by
  obtain ⟨more, rfl⟩ : ∃ more, fuel = more + 1 + row.length := ⟨fuel - row.length - 1, by omega⟩
  have hseen : (Row.names []).Nodup := List.nodup_nil
  have hlines := Row.readEntries_lines hbare (more + 1) limit hseen (behind rows)
  rw [readEntries_behind] at hlines
  exact hlines

private theorem readBelow_blocks (fuel limit : Nat) (opened : List (List String)) (held : Entries)
    (rows : List Row) :
    readBelow (fuel + 1) limit opened ["entries"] held (blocks rows) = .ok (held, blocks rows) := by
  cases rows with
  | nil => rfl
  | cons row rows =>
    rw [blocks_cons]
    rfl

/-- Reads on behind a block whose names are all different; otherwise a name that is repeated is what
reading ends with. -/
private def unlessRepeated {α : Type} (row : Row) (next : Except Fault α) : Except Fault α :=
  match row.repeated? [] with
  | some name => .error (.duplicateKey name)
  | none => next

private theorem readEntries_first {row : Row} (hbare : row.Bare) (limit : Nat) (rows : List Row) :
    readEntries ((row.lines ++ behind rows).length + 1) (addInner (limit + 1)) []
      (row.lines ++ behind rows) = unlessRepeated row (.ok (row.items, blocks rows)) := by
  have hlength := row.length_le_lines
  refine readEntries_body hbare ?_ limit rows
  rw [List.length_append]
  omega

/-- The first block opens the array of tables that the others belong to. -/
private theorem readBlockAt_first {row : Row} (hbare : row.Bare) (fuel limit : Nat)
    (rows : List Row) :
    readBlockAt (fuel + 2) (limit + 1) [] [] (blocks (row :: rows)) = unlessRepeated row
      ((readElements (fuel + 1) (limit + 1) [["entries"]] ["entries"] [row.element]
        (blocks rows)).map fun (elements, rest) ↦
          ((⟨"entries", false⟩, .tables elements), rest)) := by
  rw [blocks_cons, readBlockAt, readHeader_block]
  simp only [bind, Except.bind, readEntries_first hbare]
  rw [unlessRepeated, unlessRepeated]
  cases hrepeated : row.repeated? [] with
  | some name => rfl
  | none =>
    have hnodup := (row.repeated?_eq_none_iff [] List.nodup_nil).mp hrepeated
    rw [List.nil_append] at hnodup
    simp only [readBelow_blocks, Row.checkTables_items hnodup]
    rfl

/-- A further block is one more element. -/
private theorem readBlockAt_next {row : Row} (hbare : row.Bare) (fuel limit : Nat)
    (rows : List Row) :
    readBlockAt (fuel + 2) (limit + 1) [["entries"]] ["entries"] (blocks (row :: rows)) =
      unlessRepeated row (.ok ((⟨"entries", false⟩, row.element), blocks rows)) := by
  rw [blocks_cons, readBlockAt, readHeader_block]
  simp only [bind, Except.bind, readEntries_first hbare]
  rw [unlessRepeated, unlessRepeated]
  cases hrepeated : row.repeated? [] with
  | some name => rfl
  | none =>
    have hnodup := (row.repeated?_eq_none_iff [] List.nodup_nil).mp hrepeated
    rw [List.nil_append] at hnodup
    simp only [readBelow_blocks, Row.checkTables_items hnodup]
    rfl

private theorem readElements_cons {row : Row} (hbare : row.Bare) (fuel limit : Nat)
    (held : List Item) (rows : List Row) :
    readElements (fuel + 3) (limit + 1) [["entries"]] ["entries"] held (blocks (row :: rows)) =
      unlessRepeated row (readElements (fuel + 2) (limit + 1) [["entries"]] ["entries"]
        (held ++ [row.element]) (blocks rows)) := by
  have hnext := readBlockAt_next hbare fuel limit rows
  obtain ⟨r, hr⟩ := readHeaderName_block (row.lines ++ behind rows)
  rw [blocks_cons] at hnext ⊢
  rw [readElements.eq_def]
  have hne : "[[entries]]\n".toList ++ (row.lines ++ behind rows) =
      '[' :: ("[entries]]\n".toList ++ (row.lines ++ behind rows)) := rfl
  simp only [hne] at hnext hr ⊢
  simp only [bind, Except.bind, hr, hnext]
  rw [unlessRepeated, unlessRepeated]
  cases row.repeated? [] <;> rfl

private theorem readElements_blocks {rows : List Row} (hbare : ∀ row ∈ rows, row.Bare) {fuel : Nat}
    (limit : Nat) (h : rows.length + 2 ≤ fuel) (held : List Item) :
    readElements fuel (limit + 1) [["entries"]] ["entries"] held (blocks rows) =
      match rows.findSome? (Row.repeated? []) with
      | some name => .error (.duplicateKey name)
      | none => .ok (held ++ rows.map Row.element, []) := by
  induction rows generalizing fuel held with
  | nil =>
    rw [readElements.eq_def]
    simp [blocks, Text.joinWith]
  | cons row rows ih =>
    rw [List.length_cons] at h
    obtain ⟨fuel, rfl⟩ : ∃ k, fuel = k + 3 := ⟨fuel - 3, by omega⟩
    obtain ⟨hrow, hrows⟩ := List.forall_mem_cons.mp hbare
    rw [readElements_cons hrow, ih hrows (by omega), List.findSome?_cons, unlessRepeated]
    cases row.repeated? [] with
    | some name => rfl
    | none => simp

private theorem length_blocks (rows : List Row) : 4 * rows.length ≤ (blocks rows).length := by
  induction rows with
  | nil => simp
  | cons row rows ih =>
    have hbehind : (blocks rows).length ≤ (behind rows).length := by
      rw [behind]
      split
      · next h =>
        obtain rfl := List.isEmpty_iff.mp h
        exact Nat.le_refl 0
      · simp
    have hheader : "[[entries]]\n".toList.length = 12 := rfl
    rw [blocks_cons]
    simp only [List.length_append, List.length_cons, hheader]
    omega

private theorem readBlocks_blocks {row : Row} {rows : List Row} (hbare : ∀ r ∈ row :: rows, r.Bare)
    {fuel : Nat} (limit : Nat) (h : rows.length + 3 ≤ fuel) :
    readBlocks (fuel + 1) (limit + 1) [] (blocks (row :: rows)) =
      match (row :: rows).findSome? (Row.repeated? []) with
      | some name => .error (.duplicateKey name)
      | none => .ok [(⟨"entries", false⟩, .tables ((row :: rows).map Row.element))] := by
  obtain ⟨fuel, rfl⟩ : ∃ k, fuel = k + 2 := ⟨fuel - 2, by omega⟩
  obtain ⟨hrow, hrows⟩ := List.forall_mem_cons.mp hbare
  have hfirst := readBlockAt_first hrow fuel limit rows
  rw [readElements_blocks hrows limit (by omega)] at hfirst
  rw [blocks_cons] at hfirst ⊢
  rw [readBlocks.eq_def]
  have hne : "[[entries]]\n".toList ++ (row.lines ++ behind rows) =
      '[' :: ("[entries]]\n".toList ++ (row.lines ++ behind rows)) := rfl
  simp only [hne] at hfirst ⊢
  simp only [bind, Except.bind, hfirst, List.findSome?_cons]
  rw [unlessRepeated]
  cases row.repeated? [] with
  | some name => rfl
  | none => cases rows.findSome? (Row.repeated? []) <;> rfl

private theorem mapM_valueOf (limit : Nat) {rows : List Row} (h : ∀ row ∈ rows, row.names.Nodup) :
    (rows.map Row.element).mapM (valueOf (limit + 3)) = .ok (rows.map Row.value) := by
  induction rows with
  | nil => rfl
  | cons row rows ih =>
    obtain ⟨hrow, hrows⟩ := List.forall_mem_cons.mp h
    rw [List.map_cons, List.mapM_cons, Row.valueOf_element hrow, ih hrows]
    rfl

/-- A file of blocks is read as the list of its tables, unless a block repeats a name. -/
theorem read_blocks {rows : List Row} (hne : rows ≠ []) (hbare : ∀ row ∈ rows, row.Bare) :
    Toml.read (blocks rows) = match rows.findSome? (Row.repeated? []) with
      | some name => .error (.duplicateKey name)
      | none => .ok (.table [("entries", .array (rows.map Row.value))]) := by
  obtain ⟨row, rest, rfl⟩ := List.exists_cons_of_ne_nil hne
  have hlength := length_blocks (row :: rest)
  rw [List.length_cons] at hlength
  have htop : ∀ fuel add held, readEntries (fuel + 1) add held (blocks (row :: rest)) =
      .ok (held, blocks (row :: rest)) := by
    intro fuel add held
    rw [blocks_cons, readEntries]
    rfl
  rw [Toml.read, htop]
  simp only [bind, Except.bind, depthLimit]
  rw [readBlocks_blocks hbare _ (by omega)]
  cases hrepeated : (row :: rest).findSome? (Row.repeated? []) with
  | some name => rfl
  | none =>
    have hnodup : ∀ r ∈ row :: rest, r.names.Nodup := fun r hr ↦ by
      have hnone := List.findSome?_eq_none_iff.mp hrepeated r hr
      simpa using (r.repeated?_eq_none_iff [] List.nodup_nil).mp hnone
    have hvalues := mapM_valueOf (4 * (blocks (row :: rest)).length + 3) hnodup
    generalize (row :: rest).map Row.value = values at hvalues ⊢
    generalize (row :: rest).map Row.element = elements at hvalues ⊢
    have hitem : valueOf (4 * (blocks (row :: rest)).length + 7) (.tables elements) =
        .ok (.array values) := by
      rw [valueOf, hvalues]
      rfl
    have hnames : namesOf [((⟨"entries", false⟩ : Key), Item.tables elements)] = ["entries"] := rfl
    have hitems : itemsOf [((⟨"entries", false⟩ : Key), Item.tables elements)] "entries" =
        [.tables elements] := rfl
    simp only [valueOfEntries, hnames, List.mapM_cons, List.mapM_nil, hitems, hitem]
    rfl

/-- Blocks hold no carriage return. -/
theorem return_not_mem_blocks {rows : List Row} (hbare : ∀ row ∈ rows, row.Bare) :
    '\r' ∉ blocks rows := by
  induction rows with
  | nil => simp [blocks, Text.joinWith]
  | cons row rows ih =>
    obtain ⟨hrow, hrows⟩ := List.forall_mem_cons.mp hbare
    have hbehind : '\r' ∉ behind rows := by
      rw [behind]
      split
      · simp
      · simp [ih hrows]
    rw [blocks_cons, List.mem_append, List.mem_append, not_or, not_or]
    exact ⟨by decide, Row.return_not_mem_lines hrow, hbehind⟩

end Guidebook.PageIndex
