import Guidebook.Proofs.Text.Split
import Guidebook.Proofs.Text.Utf8
import Guidebook.Toml.Reader
import Guidebook.Toml.Writer

/-!
# Files of settings read back

A line that gives a plain name a string is read as that name and that string, whatever characters
the string holds: what may not stand in a string is written as an escape.

Bytes are no text, or text that is read as a table or not. A text that is not read is malformed,
or its definitions clash: some clashes count as malformed, the others are faults of their own.
-/

namespace Guidebook.Toml

open Text

/-! ## Strings -/

/-- Control characters have two zeros in front of their two digits. -/
private theorem hexDigits_control {n : Nat} (h : n < 0x20 ∨ n = 0x7f) :
    hexDigits 4 n = ['0', '0', (n / 16).digitChar, (n % 16).digitChar] ∧
      hexChar? ['0', '0', (n / 16).digitChar, (n % 16).digitChar] = some (Char.ofNat n) := by
  have hall : ∀ k ∈ 0x7f :: List.range 0x20,
      hexDigits 4 k = ['0', '0', (k / 16).digitChar, (k % 16).digitChar] ∧
        hexChar? ['0', '0', (k / 16).digitChar, (k % 16).digitChar] = some (Char.ofNat k) := by
    decide
  apply hall
  rcases h with h | rfl
  · exact List.mem_cons_of_mem _ (List.mem_range.mpr h)
  · exact List.mem_cons_self

private theorem readLine_simple {e c : Char} (hlong : e ≠ 'x' ∧ e ≠ 'u' ∧ e ≠ 'U')
    (he : simpleEscape? e = some c) (rest : List Char) :
    readLine true '"' ('\\' :: e :: rest) =
      (readLine true '"' rest).map fun (s, r) ↦ (c :: s, r) := by
  have hback : isForbidden '\\' = false := rfl
  rw [readLine.eq_def]
  simp [hback, hlong, he]

/-- One written character is read back. -/
theorem readLine_escapeChar (c : Char) (rest : List Char) :
    readLine true '"' (escapeChar c ++ rest) =
      (readLine true '"' rest).map fun (s, r) ↦ (c :: s, r) := by
  unfold escapeChar
  split
  · next h =>
    obtain rfl := beq_iff_eq.mp h
    exact readLine_simple (by decide) rfl rest
  split
  · next h =>
    obtain rfl := beq_iff_eq.mp h
    exact readLine_simple (by decide) rfl rest
  split
  · next h =>
    obtain rfl := beq_iff_eq.mp h
    exact readLine_simple (by decide) rfl rest
  split
  · next h =>
    obtain rfl := beq_iff_eq.mp h
    exact readLine_simple (by decide) rfl rest
  split
  · next h =>
    obtain rfl := beq_iff_eq.mp h
    exact readLine_simple (by decide) rfl rest
  split
  · next h =>
    obtain rfl := beq_iff_eq.mp h
    exact readLine_simple (by decide) rfl rest
  split
  · next h =>
    obtain rfl := beq_iff_eq.mp h
    exact readLine_simple (by decide) rfl rest
  split
  · next h =>
    have hcontrol : c.toNat < 0x20 ∨ c.toNat = 0x7f := by simpa using h
    obtain ⟨hdigits, hchar⟩ := hexDigits_control hcontrol
    have hback : isForbidden '\\' = false := rfl
    rw [hdigits]
    simp [readLine, hback, hchar]
  · next hquote hslash _ _ hline _ hreturn hcontrol =>
    have hallowed : isForbidden c = false := by
      simp only [isForbidden, Bool.or_eq_true, not_or] at hcontrol ⊢
      simp_all
    have hquote : (c == '"') = false := by simpa using hquote
    have hslash : (c == '\\') = false := by simpa using hslash
    rw [List.singleton_append, readLine.eq_def]
    simp [hallowed, hquote, hslash]

/-- A written string is read up to its closing quote. -/
theorem readLine_escaped (s rest : List Char) :
    readLine true '"' (s.flatMap escapeChar ++ '"' :: rest) = .ok (s, rest) := by
  induction s with
  | nil =>
    rw [List.flatMap_nil, List.nil_append, readLine.eq_def]
    rfl
  | cons c s ih =>
    rw [List.flatMap_cons, List.append_assoc, readLine_escapeChar, ih]
    rfl

private theorem escapeChar_ne_quote (c : Char) :
    ∃ first more, escapeChar c = first :: more ∧ first ≠ '"' := by
  unfold escapeChar
  split
  · exact ⟨_, _, rfl, by decide⟩
  · next h =>
    have hc : c ≠ '"' := by simpa using h
    repeat' split
    all_goals first | exact ⟨_, _, rfl, by decide⟩ | exact ⟨_, _, rfl, hc⟩

/-- A written string is read back, and it is one line. -/
theorem readString_writeString (s : List Char) (rest : List Char) :
    readString '"' (writeString s ++ '\n' :: rest) = .ok ((s, true), '\n' :: rest) := by
  have hline : readLine true '"' (s.flatMap escapeChar ++ '"' :: '\n' :: rest) =
      .ok (s, '\n' :: rest) := readLine_escaped s _
  cases s with
  | nil =>
    rw [List.flatMap_nil, List.nil_append] at hline
    change readString '"' ('"' :: '"' :: '\n' :: rest) = _
    rw [readString.eq_def]
    simp only [beq_self_eq_true, hline]
    rfl
  | cons c s =>
    obtain ⟨first, more, hfirst, hne⟩ := escapeChar_ne_quote c
    have hwrite : writeString (c :: s) ++ '\n' :: rest =
        '"' :: first :: (more ++ s.flatMap escapeChar ++ '"' :: '\n' :: rest) := by
      simp [writeString, hfirst]
    have hbody : (c :: s).flatMap escapeChar ++ '"' :: '\n' :: rest =
        first :: (more ++ s.flatMap escapeChar ++ '"' :: '\n' :: rest) := by
      simp [hfirst]
    have hquote : (first == '"') = false := by simpa using hne
    rw [hbody] at hline
    rw [hwrite]
    cases hmore : more ++ s.flatMap escapeChar ++ '"' :: '\n' :: rest with
    | nil => simp at hmore
    | cons second others =>
      rw [hmore] at hline
      rw [readString.eq_def]
      simp only [hquote, beq_self_eq_true, Bool.and_false, Bool.false_and, Bool.false_eq_true,
        if_false, hline]
      rfl

/-! ## Entries -/

/-- A name that is written without quotes. -/
structure IsBare (name : List Char) : Prop where
  ne_nil : name ≠ []
  all : name.all isBareChar = true

private theorem IsBare.bare {name : List Char} (h : IsBare name) :
    ∀ c ∈ name, isBareChar c = true := List.all_eq_true.mp h.all

private theorem isBareChar_bounds {c : Char} (h : isBareChar c = true) :
    0x2d ≤ c.toNat ∧ c.toNat < 0x7b := by
  simp only [isBareChar, isLetter, isDigit, Bool.or_eq_true, Bool.and_eq_true, decide_eq_true_eq,
    Char.le_def, UInt32.le_iff_toNat_le, beq_iff_eq] at h
  rcases h with (((⟨h₁, h₂⟩ | ⟨h₁, h₂⟩) | ⟨h₁, h₂⟩) | rfl) | rfl
  · change 97 ≤ c.toNat at h₁
    change c.toNat ≤ 122 at h₂
    omega
  · change 65 ≤ c.toNat at h₁
    change c.toNat ≤ 90 at h₂
    omega
  · change 48 ≤ c.toNat at h₁
    change c.toNat ≤ 57 at h₂
    omega
  · decide
  · decide

private theorem isBareChar_plain {c : Char} (h : isBareChar c = true) :
    isSpace c = false ∧ isSpaceOrNewline c = false ∧ isBlank c = false := by
  have hbounds := isBareChar_bounds h
  have hne : ∀ d : Char, d.toNat < 0x2d → c ≠ d := by
    rintro d hd rfl
    omega
  have hspace : isSpace c = false := by
    simp [isSpace, hne ' ' (by decide), hne '\t' (by decide)]
  refine ⟨hspace, ?_, ?_⟩
  · simp [isSpaceOrNewline, hspace, hne '\n' (by decide), hne '\r' (by decide)]
  · have hascii : c.toNat < 0x80 := by omega
    simp only [isBlank, hascii, if_true]
    simp
    omega

/-- What stands in a line behind its name. -/
private theorem takeWhile_name {name : List Char} (h : IsBare name) (rest : List Char) :
    (name ++ ' ' :: '=' :: rest).takeWhile (fun c ↦ isBareChar c || isSpace c) = name ++ [' '] ∧
      (name ++ ' ' :: '=' :: rest).dropWhile (fun c ↦ isBareChar c || isSpace c) =
        '=' :: rest := by
  have hname : ∀ c ∈ name, (isBareChar c || isSpace c) = true := fun c hc ↦ by
    simp [h.bare c hc]
  constructor
  · rw [List.takeWhile_append_of_pos hname]
    rfl
  · rw [List.dropWhile_append_of_pos hname]
    rfl

/-- A plain name is read up to the equals sign. -/
theorem readName_bare {name : List Char} (h : IsBare name) (most : Nat) (rest : List Char) :
    readName (most + 1) (name ++ ' ' :: '=' :: rest) =
      .ok ([String.ofList name], '=' :: rest) := by
  obtain ⟨htake, hdrop⟩ := takeWhile_name h rest
  cases hn : name with
  | nil => exact absurd hn h.ne_nil
  | cons c cs =>
    have hc : isBareChar c = true := h.bare c (by simp [hn])
    have hplain := isBareChar_plain hc
    have hquote : (c == '"' || c == '\'') = false := by
      have hne : c ≠ '"' ∧ c ≠ '\'' := by
        constructor <;> (rintro rfl; exact absurd hc (by decide))
      simp [hne]
    have hblank : ∀ d ∈ name, isBlank d = false := fun d hd ↦
      (isBareChar_plain (h.bare d hd)).2.2
    have hback : ∀ d ∈ [' '], isBlank d = true := List.forall_mem_singleton.mpr rfl
    have hstrip : strip ([] ++ name ++ [' ']) = name := stripBy_append hblank (by simp) hback
    rw [List.nil_append] at hstrip
    have hspaces : name.any isSpace = false :=
      List.any_eq_false.mpr fun d hd ↦ by simp [(isBareChar_plain (h.bare d hd)).1]
    have hempty : name.isEmpty = false := List.isEmpty_eq_false_iff.mpr h.ne_nil
    rw [← hn, readName.eq_def]
    have hfront : (name ++ ' ' :: '=' :: rest).dropWhile isSpace = name ++ ' ' :: '=' :: rest := by
      rw [hn, List.cons_append, List.dropWhile_cons_of_neg (by simp [hplain.1])]
    simp only [hfront]
    rw [hn, List.cons_append]
    simp only [hquote]
    rw [← List.cons_append, ← hn, htake, hdrop, hstrip]
    simp [hspaces, hempty]

/-- A name and its equals sign are read up to the value. -/
theorem readAssignment_bare {name : List Char} (h : IsBare name) {c : Char} (rest : List Char)
    (hc : (isSpace c || c == '=') = false) :
    readAssignment (name ++ " = ".toList ++ c :: rest) =
      .ok ([String.ofList name], c :: rest) := by
  have hname := readName_bare h 99 (' ' :: c :: rest)
  have htext : name ++ " = ".toList ++ c :: rest = name ++ ' ' :: '=' :: ' ' :: c :: rest := by
    rw [List.append_assoc]
    rfl
  rw [htext, readAssignment, maxNesting, hname]
  simp only [bind, Except.bind]
  rw [List.takeWhile_cons_of_pos (by rfl), List.takeWhile_cons_of_pos (by rfl),
    List.takeWhile_cons_of_neg (by simp [hc]), List.dropWhile_cons_of_pos (by rfl),
    List.dropWhile_cons_of_pos (by rfl), List.dropWhile_cons_of_neg (by simp [hc])]
  rfl

/-- A written line is read as its name and its string, up to the next line. -/
theorem readEntry_writeEntry {name : List Char} (h : IsBare name) (s rest : List Char) :
    readEntry (writeEntry name s ++ rest) =
      .ok (([String.ofList name], .text (String.ofList s)), rest) := by
  have htext : writeEntry name s ++ rest =
      name ++ " = ".toList ++ '"' :: (s.flatMap escapeChar ++ '"' :: '\n' :: rest) := by
    simp [writeEntry, writeString]
  have hstring : readString '"' ('"' :: (s.flatMap escapeChar ++ '"' :: '\n' :: rest)) =
      .ok ((s, true), '\n' :: rest) := by
    have := readString_writeString s rest
    simpa [writeString] using this
  rw [htext, readEntry, readAssignment_bare h _ rfl]
  simp only [bind, Except.bind, valueFuel]
  rw [readValue.eq_def]
  simp only [hstring]
  rfl

/-- An entry that is read is one of those in front of the next header. -/
theorem readEntries_of_readEntry {c : Char} {cs rest : List Char} {names : List String}
    {item : Item} (hspace : isSpaceOrNewline c = false) (hother : c ≠ '[' ∧ c ≠ '#')
    (hread : readEntry (c :: cs) = .ok ((names, item), rest)) (fuel : Nat)
    (add : Entries → List String → Item → Except Fault Entries) (held : Entries) :
    readEntries (fuel + 1) add held (c :: cs) =
      (add held names item).bind fun held ↦ readEntries fuel add held rest := by
  have hdrop : (c :: cs).dropWhile isSpaceOrNewline = c :: cs :=
    List.dropWhile_cons_of_neg (by simp [hspace])
  rw [readEntries, hdrop]
  split
  · next heq => cases heq
  · next heq => exact absurd (List.cons.inj heq).1 hother.1
  · next heq => exact absurd (List.cons.inj heq).1 hother.2
  · rw [hread]
    rfl

private theorem IsBare.first {name : List Char} (h : IsBare name) :
    ∃ c cs, name = c :: cs ∧ isSpaceOrNewline c = false ∧ c ≠ '[' ∧ c ≠ '#' := by
  cases hn : name with
  | nil => exact absurd hn h.ne_nil
  | cons c cs =>
    have hc : isBareChar c = true := h.bare c (by simp [hn])
    refine ⟨c, cs, rfl, (isBareChar_plain hc).2.1, ?_⟩
    constructor <;> (rintro rfl; exact absurd hc (by decide))

/-- A written line is one of the entries in front of the next header. -/
theorem readEntries_writeEntry {name : List Char} (h : IsBare name) (fuel : Nat)
    (add : Entries → List String → Item → Except Fault Entries) (held : Entries)
    (s rest : List Char) :
    readEntries (fuel + 1) add held (writeEntry name s ++ rest) =
      (add held [String.ofList name] (.text (String.ofList s))).bind fun held ↦
        readEntries fuel add held rest := by
  have hread := readEntry_writeEntry h s rest
  obtain ⟨c, cs, hn, hspace, hother⟩ := h.first
  have htext : writeEntry name s ++ rest =
      c :: (cs ++ " = ".toList ++ writeString s ++ ['\n'] ++ rest) := by simp [hn, writeEntry]
  rw [htext] at hread ⊢
  exact readEntries_of_readEntry hspace hother hread fuel add held

/-! ## Files of one entry -/

/-- A file that is one entry holds its value under its name. -/
theorem read_of_readEntry {c : Char} {cs : List Char} {name : String} {item : Item} {value : Value}
    (hspace : isSpaceOrNewline c = false) (hother : c ≠ '[' ∧ c ≠ '#')
    (hread : readEntry (c :: cs) = .ok (([name], item), []))
    (hvalue : ∀ limit, valueOf (limit + 1) item = .ok value) :
    Toml.read (c :: cs) = .ok (.table [(name, value)]) := by
  have hadd : ∀ limit, addTop (limit + 1) [] [name] item = .ok [(⟨name, false⟩, item)] :=
    fun _ ↦ rfl
  have hblocks : ∀ fuel limit held, readBlocks fuel limit held [] = .ok held := by
    intro fuel limit held
    rw [readBlocks.eq_def]
  have hnames : namesOf [((⟨name, false⟩ : Key), item)] = [name] := rfl
  have hitems : itemsOf [((⟨name, false⟩ : Key), item)] name = [item] := by simp [itemsOf]
  have htable : ∀ limit,
      valueOfEntries (limit + 2) [(⟨name, false⟩, item)] = .ok (.table [(name, value)]) := by
    intro limit
    rw [valueOfEntries]
    simp only [hnames, List.mapM_cons, List.mapM_nil, hitems, hvalue]
    rfl
  have hentries : ∀ limit, readEntries ((c :: cs).length + 1) (addTop (limit + 1)) [] (c :: cs) =
      .ok ([(⟨name, false⟩, item)], []) := by
    intro limit
    rw [readEntries_of_readEntry hspace hother hread, hadd]
    rfl
  have hlimit : depthLimit (c :: cs) = 4 * cs.length + 10 + 2 := by
    simp only [depthLimit, List.length_cons]
    omega
  rw [Toml.read, hlimit, hentries]
  simp only [bind, Except.bind, hblocks, htable]

/-- A written line is read as a table of its name and its string. -/
theorem read_writeEntry {name : List Char} (h : IsBare name) (s : List Char) :
    Toml.read (writeEntry name s) =
      .ok (.table [(String.ofList name, .text (String.ofList s))]) := by
  have hread := readEntry_writeEntry h s []
  obtain ⟨c, cs, hn, hspace, hother⟩ := h.first
  have htext : writeEntry name s = c :: (cs ++ " = ".toList ++ writeString s ++ ['\n']) := by
    simp [hn, writeEntry]
  rw [List.append_nil, htext] at hread
  rw [htext]
  exact read_of_readEntry hspace hother hread fun _ ↦ rfl

/-! ## Line ends -/

/-- No character is written as a carriage return. -/
private theorem return_not_mem_escapeChar (c : Char) : '\r' ∉ escapeChar c := by
  unfold escapeChar
  split
  · decide
  split
  · decide
  split
  · decide
  split
  · decide
  split
  · decide
  split
  · decide
  split
  · decide
  split
  · next h =>
    have hcontrol : c.toNat < 0x20 ∨ c.toNat = 0x7f := by simpa using h
    have hall : ∀ n ∈ 0x7f :: List.range 0x20,
        '\r' ∉ ['\\', 'u'] ++ Text.hexDigits 4 n := by decide
    apply hall
    rcases hcontrol with h | h
    · exact List.mem_cons_of_mem _ (List.mem_range.mpr h)
    · exact h ▸ List.mem_cons_self
  · next hreturn _ =>
    intro hmem
    obtain rfl := List.mem_singleton.mp hmem
    exact hreturn rfl

/-- Whatever its string holds, a written line has no carriage return in it. -/
theorem return_not_mem_writeEntry {name : List Char} (hname : '\r' ∉ name) (s : List Char) :
    '\r' ∉ writeEntry name s := by
  have hescaped : '\r' ∉ s.flatMap escapeChar := by
    intro hmem
    obtain ⟨c, -, hc⟩ := List.mem_flatMap.mp hmem
    exact return_not_mem_escapeChar c hc
  simp [writeEntry, writeString, hname, hescaped]

/-! ## Bytes -/

section Bytes

variable {bytes : List UInt8} {table : Value} {fault : Fault}

/-- Bytes of a text that reads as a result. -/
def Reads (bytes : List UInt8) (result : Except Fault Value) : Prop :=
  ∃ text, Utf8.decode bytes = .ok text ∧ Toml.read (Text.universalNewlines text) = result

/-- Bytes that hold a table. -/
def Holds (bytes : List UInt8) (table : Value) : Prop := Reads bytes (.ok table)

/-- Bytes of a text that is not written as a file of settings. -/
def Malformed (bytes : List UInt8) : Prop := Reads bytes (.error .malformed)

/-- Bytes of a text in which definitions clash. -/
def Clashes (bytes : List UInt8) (fault : Fault) : Prop :=
  Reads bytes (.error fault) ∧ fault ≠ .malformed

/-- What bytes are to a reader of settings. -/
inductive Contents (bytes : List UInt8) : Prop
  | notText (fault : Utf8.Fault) (h : Utf8.decode bytes = .error fault)
  | malformed (h : Malformed bytes)
  | clash (fault : Fault) (h : Clashes bytes fault)
  | table (table : Value) (h : Holds bytes table)

theorem contents (bytes : List UInt8) : Contents bytes := by
  cases hdecode : Utf8.decode bytes with
  | error fault => exact .notText fault hdecode
  | ok text =>
    cases hread : Toml.read (Text.universalNewlines text) with
    | ok table => exact .table table ⟨text, hdecode, hread⟩
    | error fault =>
      by_cases hfault : fault = .malformed
      · exact .malformed ⟨text, hdecode, hfault ▸ hread⟩
      · exact .clash fault ⟨⟨text, hdecode, hread⟩, hfault⟩

/-- Text without carriage returns is read from its bytes as it stands. -/
theorem reads_encode {text : List Char} (h : '\r' ∉ text) {result : Except Fault Value}
    (hread : Toml.read text = result) : Reads (Utf8.encode text) result :=
  ⟨text, Utf8.decode_encode text, by rw [Text.universalNewlines_eq_self h, hread]⟩

/-- Bytes read as one result. -/
theorem Reads.unique {left right : Except Fault Value} (hleft : Reads bytes left)
    (hright : Reads bytes right) : left = right := by
  obtain ⟨text, hdecode, rfl⟩ := hleft
  obtain ⟨same, hsame, rfl⟩ := hright
  rw [Except.ok.inj (hdecode.symm.trans hsame)]

end Bytes

end Guidebook.Toml
