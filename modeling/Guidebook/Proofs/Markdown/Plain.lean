import Mathlib.Tactic.IntervalCases
import Guidebook.Proofs.Html.Leaf
import Guidebook.Proofs.Markdown.Source

/-!
# Plain blocks

Paragraphs and headings in which no character is markup, with an empty line between them. Lines of
such blocks at the start of a page are the first lines it is read by, in both dialects, whatever
lines follow.
-/

namespace Guidebook.Markdown

open Text

/-! ## Blocks -/

/-- A line of words that can be nothing else: nothing in it is markup, it begins no block of another
kind, and no white space stands around it. -/
structure IsPlainLine (line : List Char) : Prop where
  isPlain : ∀ c ∈ line, IsPlain c
  begins : ∃ c rest, line = c :: rest ∧ isBlank c = false ∧ c ∉ ['=', '-', '+', '~'] ∧
    digitValue? c = none
  ends : ∀ c, line.getLast? = some c → isBlank c = false

/-- A paragraph of plain lines, or a heading line of plain words. -/
inductive PlainBlock where
  | paragraph (lines : List (List Char)) (hasLines : lines ≠ [])
      (arePlain : ∀ line ∈ lines, IsPlainLine line)
  | heading (rank : Nat) (words : List Char) (isRank : 1 ≤ rank ∧ rank ≤ 6)
      (isPlain : ∀ c ∈ words, IsPlain c) (isWritten : hasInk words = true)

namespace PlainBlock

/-- The lines a block is written on. -/
def lines : PlainBlock → List (List Char)
  | paragraph lines _ _ => lines
  | heading rank words _ _ _ => [List.replicate rank '#' ++ words]

/-- The lines of blocks, with an empty one between any two. -/
def linesOf (blocks : List PlainBlock) : List (List Char) := joinWith [[]] (blocks.map lines)

/-- Whether a block is a heading. -/
def isHeading : PlainBlock → Bool
  | paragraph .. => false
  | heading .. => true

/-- What a reader sees of a block. -/
def leaf : PlainBlock → Html.Leaf
  | paragraph lines hasLines arePlain =>
    { tag := "p"
      words := joinWith ['\n'] lines
      isKnown := .head _
      hasWords := by
        obtain ⟨line, rest, rfl⟩ := List.exists_cons_of_ne_nil hasLines
        obtain ⟨c, words, rfl, -⟩ := (arePlain line (.head _)).begins
        cases rest <;> simp [joinWith]
      isPlain := fun c hc ↦ by
        rcases mem_joinWith hc with hfeed | ⟨line, hline, hc⟩
        · exact .inl (List.mem_singleton.mp hfeed)
        · exact .inr ((arePlain line hline).isPlain c hc) }
  | heading rank words isRank isPlain isWritten =>
    { tag := "h" ++ toString rank
      words := strip words
      isKnown := by
        obtain ⟨hlow, hhigh⟩ := isRank
        interval_cases rank <;> decide
      hasWords := fun hnil ↦ by simp [strip_eq_nil_iff.mp hnil] at isWritten
      isPlain := fun c hc ↦ .inr (isPlain c (mem_of_mem_stripBy hc)) }

end PlainBlock

/-! ## Lines that stay as they are -/

/-- A line that no rule for lines changes. -/
structure IsStill (line : List Char) : Prop where
  hasNo : ∀ c ∈ line, c ∉ ['\n', '\r', '\t', '\x02', '\x03', '<', '&']
  begins : ∀ c, line.head? = some c → c ≠ ' ' ∧ isFenceMark c = false

theorem isStill_nil : IsStill [] := ⟨nofun, nofun⟩

private theorem not_mem_of_isPlain {c : Char} (h : IsPlain c) :
    c ∉ ['\n', '\r', '\t', '\x02', '\x03', '<', '&'] := fun hmem ↦
  h ((by decide : ['\n', '\r', '\t', '\x02', '\x03', '<', '&'] ⊆ markup) hmem)

theorem IsPlainLine.isStill {line : List Char} (h : IsPlainLine line) : IsStill line where
  hasNo c hc := not_mem_of_isPlain (h.isPlain c hc)
  begins c hc := by
    obtain ⟨first, rest, rfl, hblank, hmark, -⟩ := h.begins
    obtain rfl := Option.some.inj hc
    have htick : first ≠ '\x60' := (h.isPlain first (.head _)).ne (by decide)
    refine ⟨?_, ?_⟩
    · rintro rfl
      cases hblank
    · simp only [isFenceMark, Bool.or_eq_false_iff, beq_eq_false_iff_ne]
      refine ⟨htick, ?_⟩
      rintro rfl
      exact hmark (by decide)

/-- Every line of plain blocks stays as it is. -/
theorem PlainBlock.isStill {blocks : List PlainBlock} {line : List Char}
    (h : line ∈ linesOf blocks) : IsStill line := by
  rcases mem_joinWith h with hempty | ⟨written, hwritten, hline⟩
  · rw [List.mem_singleton.mp hempty]
    exact isStill_nil
  · obtain ⟨block, -, rfl⟩ := List.mem_map.mp hwritten
    cases block with
    | paragraph lines hasLines arePlain => exact (arePlain line hline).isStill
    | heading rank words isRank isPlain isWritten =>
      rw [List.mem_singleton.mp hline]
      refine ⟨fun c hc ↦ ?_, fun c hc ↦ ?_⟩
      · rcases List.mem_append.mp hc with hc | hc
        · rw [List.eq_of_mem_replicate hc]
          decide
        · exact not_mem_of_isPlain (isPlain c hc)
      · obtain ⟨n, rfl⟩ := Nat.exists_eq_add_of_le' isRank.1
        obtain rfl := Option.some.inj hc
        decide

variable {line : List Char} {lines others : List (List Char)}

theorem IsStill.normalizeLine (h : IsStill line) : normalizeLine line = line := by
  cases line with
  | nil => rfl
  | cons c rest =>
    obtain ⟨hblank, hmark⟩ := h.begins c rfl
    have hindent : dropFenceIndent (c :: rest) = c :: rest := by
      simp [dropFenceIndent, hblank]
    have hlabel : dropFenceLabel (c :: rest) = c :: rest := by
      rw [dropFenceLabel]
      split
      · exact if_neg (by simp [hmark, fenceLength])
      · rfl
    rw [Markdown.normalizeLine, hindent, hlabel]

theorem IsStill.clearBlanks (h : IsStill line) : clearBlanks line = line := by
  cases line with
  | nil => rfl
  | cons c rest => exact if_neg (by simp [(h.begins c rfl).1])

theorem IsStill.expandTabs (h : IsStill line) (column : Nat) : expandTabs column line = line := by
  have hnone : ∀ c ∈ line, c ≠ '\t' ∧ c ≠ '\n' := fun c hc ↦ by
    have hno := h.hasNo c hc
    constructor <;> rintro rfl <;> exact hno (by decide)
  clear h
  induction line generalizing column with
  | nil => rfl
  | cons c rest ih =>
    obtain ⟨⟨htab, hfeed⟩, hrest⟩ := List.forall_mem_cons.mp hnone
    rw [expandTabs_cons htab hfeed, ih (column + 1) hrest]

theorem IsStill.kept (h : IsStill line) : kept line = line := by
  refine List.filter_eq_self.mpr fun c hc ↦ ?_
  have hno := h.hasNo c hc
  simp only [List.mem_cons, not_or] at hno
  simp [isKept, hno]

theorem IsStill.return_not_mem (h : IsStill line) : '\r' ∉ line := fun hc ↦
  h.hasNo _ hc (by decide)

private theorem map_of_still {f : List Char → List Char} (hf : ∀ line, IsStill line → f line = line)
    (hstill : ∀ line ∈ lines, IsStill line) : lines.map f = lines :=
  (List.map_congr_left fun line hline ↦ hf line (hstill line hline)).trans (List.map_id' lines)

/-- Lines that stay as they are at the start of a text are its first lines. -/
theorem sourceLines_of_still {text : List Char} (hne : lines ≠ [])
    (hstill : ∀ line ∈ lines, IsStill line) (htext : splitOnChar '\n' text = lines ++ others) :
    ∃ more, sourceLines text = lines ++ more ∧ more ≠ [] ∧ (others = [] → more = [[], []]) := by
  have hlines : Text.linesOf (lines ++ others.map kept) = lines ++ Text.linesOf (others.map kept) := by
    clear htext hne
    induction lines with
    | nil => rfl
    | cons line lines ih =>
      rw [List.cons_append, linesOf_cons (hstill line (.head _)).return_not_mem,
        ih fun other ho ↦ hstill other (.tail _ ho), List.cons_append]
  have hfinish : ∀ more : List (List Char), finishLines (lines ++ more) =
      lines ++ (more.map (Markdown.expandTabs 0) ++ [[], []]).map Markdown.clearBlanks := by
    intro more
    have hexpand := map_of_still (fun _ hline ↦ hline.expandTabs 0) hstill
    have hclear := map_of_still (fun _ ↦ IsStill.clearBlanks) hstill
    obtain ⟨first, rest, rfl⟩ := List.exists_cons_of_ne_nil hne
    rw [finishLines, List.map_append, hexpand, List.append_assoc, List.cons_append]
    dsimp only
    rw [List.map_append, (List.cons.inj hclear).2, List.cons_append]
  rw [sourceLines_eq, htext, List.map_append, map_of_still (fun _ ↦ IsStill.kept) hstill, hlines,
    hfinish]
  refine ⟨_, rfl, by simp, ?_⟩
  rintro rfl
  rfl

/-- If all lines stay as they are, the text is read with two empty ones behind it. -/
theorem sourceLines_of_forall {text : List Char}
    (hstill : ∀ line ∈ splitOnChar '\n' text, IsStill line) :
    sourceLines text = splitOnChar '\n' text ++ [[], []] := by
  have hne : splitOnChar '\n' text ≠ [] := splitBy_ne_nil text
  obtain ⟨more, hlines, -, hexact⟩ := sourceLines_of_still hne hstill (List.append_nil _).symm
  rw [hlines, hexact rfl]

theorem splitOnChar_normalizeFences_of_still {text : List Char}
    (hstill : ∀ line ∈ lines, IsStill line) (htext : splitOnChar '\n' text = lines ++ others) :
    splitOnChar '\n' (normalizeFences text) = lines ++ others.map Markdown.normalizeLine := by
  rw [splitOnChar_normalizeFences, htext, List.map_append,
    map_of_still (fun _ ↦ IsStill.normalizeLine) hstill]

theorem normalizeFences_of_forall {text : List Char}
    (hstill : ∀ line ∈ splitOnChar '\n' text, IsStill line) : normalizeFences text = text := by
  rw [normalizeFences, map_of_still (fun _ ↦ IsStill.normalizeLine) hstill, joinWith_splitOnChar]

/-- Lines that stay as they are open no fence. -/
theorem setFencesAside_of_still {style : String} {fuel : Nat}
    (hstill : ∀ line ∈ lines, IsStill line) :
    setFencesAside style (lines.length + fuel) (lines ++ others) =
      (setFencesAside style fuel others).map (lines.map Run.ofChars ++ ·) := by
  induction lines with
  | nil =>
    rw [List.length_nil, Nat.zero_add, List.nil_append]
    cases setFencesAside style fuel others <;> rfl
  | cons line lines ih =>
    have hopening : openingFence? line = none := by
      cases line with
      | nil => rfl
      | cons c rest =>
        have hmark := ((hstill _ (.head _)).begins c rfl).2
        simp [openingFence?, hmark]
    have hrest := ih fun other ho ↦ hstill other (.tail _ ho)
    rw [List.length_cons, Nat.add_right_comm, List.cons_append, setFencesAside, hopening]
    dsimp only
    rw [hrest]
    cases setFencesAside style fuel others <;> rfl

/-- Nothing is set aside on a page whose lines stay as they are. -/
theorem setFencesAside_of_forall (style : String) (hstill : ∀ line ∈ lines, IsStill line) :
    setFencesAside style lines.length lines = .ok (lines.map Run.ofChars) := by
  have hset : setFencesAside style (lines.length + 0) (lines ++ []) = _ :=
    setFencesAside_of_still hstill
  rw [Nat.add_zero, List.append_nil] at hset
  rw [hset]
  exact congrArg Except.ok (List.append_nil _)

end Guidebook.Markdown
