import Guidebook.Proofs.Markdown.Opening
import Guidebook.Proofs.Markdown.Plain
import Guidebook.Proofs.Markdown.Run
import Guidebook.Proofs.Text.Pattern

/-!
# Reading plain blocks

Both dialects cut a page that begins with plain blocks at the lines between them and read each as
what it is.
-/

namespace Guidebook.Markdown

open Text

/-! ## Cutting -/

namespace Block

/-- A line goes to the front of the first block of what follows it. -/
theorem chunks_line {line rest : Run} (hline : ∀ g ∈ line, g.isChar '\n' = false) {piece : Run}
    {pieces : List Run} (hrest : chunks rest = piece :: pieces) :
    chunks (line ++ rest) = (line ++ piece) :: pieces := by
  induction line with
  | nil => exact hrest
  | cons g line ih =>
    obtain ⟨hg, hline⟩ := List.forall_mem_cons.mp hline
    have hcut := ih hline
    rcases hbehind : line ++ rest with _ | ⟨h, behind⟩
    · rw [hbehind] at hcut
      obtain ⟨heq, rfl⟩ := List.cons.inj hcut
      rw [List.cons_append, hbehind, List.cons_append, ← heq]
      rfl
    · rw [hbehind] at hcut
      rw [List.cons_append, hbehind, chunks, hcut, if_neg (by simp [hg])]
      rfl

/-- A line feed before a line that is not empty belongs to the block. -/
theorem chunks_feed {g : Glyph} {rest piece : Run} {pieces : List Run} (hg : g.isChar '\n' = false)
    (hrest : chunks (g :: rest) = piece :: pieces) :
    chunks (.char '\n' :: g :: rest) = (.char '\n' :: piece) :: pieces := by
  rw [chunks, if_neg (by simp [hg]), hrest]

/-- Lines that are not empty stay in one block. -/
theorem chunks_lines {lines : List (List Char)} (hne : lines ≠ [])
    (hlines : ∀ line ∈ lines, line ≠ [] ∧ '\n' ∉ line) {rest piece : Run} {pieces : List Run}
    (hrest : chunks rest = piece :: pieces) :
    chunks (Run.ofChars (joinWith ['\n'] lines) ++ rest) =
      (Run.ofChars (joinWith ['\n'] lines) ++ piece) :: pieces := by
  have hfeed : ∀ line : List Char, '\n' ∉ line → ∀ g ∈ Run.ofChars line, g.isChar '\n' = false := by
    intro line hline g hg
    obtain ⟨c, hc, rfl⟩ := List.mem_map.mp hg
    simpa using ne_of_mem_of_not_mem hc hline
  induction lines with
  | nil => exact absurd rfl hne
  | cons line lines ih =>
    obtain ⟨⟨-, hline⟩, hlines⟩ := List.forall_mem_cons.mp hlines
    cases lines with
    | nil => exact chunks_line (hfeed line hline) hrest
    | cons next more =>
      obtain ⟨hnonempty, hnext⟩ := hlines next (.head _)
      obtain ⟨c, words, rfl⟩ := List.exists_cons_of_ne_nil hnonempty
      have hmore := ih (List.cons_ne_nil _ _) hlines
      obtain ⟨behind, hbehind⟩ : ∃ behind,
          Run.ofChars (joinWith ['\n'] ((c :: words) :: more)) ++ rest = .char c :: behind := by
        cases more <;> exact ⟨_, rfl⟩
      have hc : (Glyph.char c).isChar '\n' = false :=
        hfeed _ hnext _ (List.mem_map_of_mem (.head _))
      rw [hbehind] at hmore
      have hjoined := chunks_line (hfeed line hline) (chunks_feed hc hmore)
      rw [← hbehind] at hjoined
      simpa [joinWith_cons_cons] using hjoined

/-- What follows the last line feed of a block begins another one, or goes on the next line. -/
theorem chunks_behind (rest : Run) :
    ∃ piece pieces, chunks (.char '\n' :: rest) = piece :: pieces ∧
      (piece = [] ∨ ∃ more, piece = .char '\n' :: more) := by
  rcases rest with _ | ⟨g, rest⟩
  · exact ⟨_, _, rfl, .inr ⟨[], rfl⟩⟩
  · rw [chunks]
    split
    · exact ⟨_, _, rfl, .inl rfl⟩
    · cases chunks (g :: rest) with
      | nil => exact ⟨_, _, rfl, .inr ⟨[], rfl⟩⟩
      | cons piece pieces => exact ⟨_, _, rfl, .inr ⟨piece, rfl⟩⟩

theorem mem_of_mem_chunks {text piece : Run} (hpiece : piece ∈ chunks text) {g : Glyph}
    (hg : g ∈ piece) : g ∈ text := by
  induction text using chunks.induct generalizing piece with
  | case1 =>
    obtain rfl := List.mem_singleton.mp hpiece
    exact hg
  | case2 h =>
    obtain rfl := List.mem_singleton.mp hpiece
    exact hg
  | case3 h next rest hfeeds ih =>
    rw [chunks, if_pos hfeeds] at hpiece
    rcases List.mem_cons.mp hpiece with rfl | hpiece
    · cases hg
    · exact .tail _ (.tail _ (ih hpiece hg))
  | case4 h next rest hfeeds hnil ih =>
    rw [chunks, if_neg hfeeds, hnil] at hpiece
    obtain rfl := List.mem_singleton.mp hpiece
    obtain rfl := List.mem_singleton.mp hg
    exact .head _
  | case5 h next rest hfeeds first pieces hcut ih =>
    rw [chunks, if_neg hfeeds, hcut] at hpiece
    rw [hcut] at ih
    rcases List.mem_cons.mp hpiece with rfl | hpiece
    · rcases List.mem_cons.mp hg with rfl | hg
      · exact .head _
      · exact .tail _ (ih (.head _) hg)
    · exact .tail _ (ih (.tail _ hpiece) hg)

end Block

namespace PlainBlock

/-- A block as text. -/
def text (block : PlainBlock) : List Char := joinWith ['\n'] block.lines

/-- Blocks as text. -/
def textOf (blocks : List PlainBlock) : List Char := joinWith ['\n'] (linesOf blocks)

theorem lines_ne_nil (block : PlainBlock) : block.lines ≠ [] := by
  cases block with
  | paragraph lines hasLines arePlain => exact hasLines
  | heading rank words isRank isPlain isWritten => exact List.cons_ne_nil _ _

theorem forall_lines (block : PlainBlock) : ∀ line ∈ block.lines, line ≠ [] ∧ '\n' ∉ line := by
  intro line hline
  cases block with
  | paragraph lines hasLines arePlain =>
    obtain ⟨c, words, heq, -⟩ := (arePlain line hline).begins
    exact ⟨by simp [heq], fun hmem ↦ (arePlain line hline).isPlain _ hmem (by decide)⟩
  | heading rank words isRank isPlain isWritten =>
    obtain rfl := List.mem_singleton.mp hline
    refine ⟨fun hnil ↦ ?_, fun hmem ↦ ?_⟩
    · have hrank : rank = 0 := by simpa using (List.append_eq_nil_iff.mp hnil).1
      omega
    · rcases List.mem_append.mp hmem with hmem | hmem
      · exact absurd (List.eq_of_mem_replicate hmem) (by decide)
      · exact isPlain _ hmem (by decide)

theorem linesOf_cons (block next : PlainBlock) (rest : List PlainBlock) :
    linesOf (block :: next :: rest) = block.lines ++ [] :: linesOf (next :: rest) := by
  rw [linesOf, List.map_cons, List.map_cons, joinWith_cons_cons, ← List.map_cons, ← linesOf]
  simp

theorem linesOf_ne_nil {blocks : List PlainBlock} (h : blocks ≠ []) : linesOf blocks ≠ [] := by
  rcases blocks with _ | ⟨block, _ | ⟨next, rest⟩⟩
  · exact absurd rfl h
  · exact block.lines_ne_nil
  · rw [linesOf_cons]
    simp

theorem mem_linesOf {blocks : List PlainBlock} {block : PlainBlock} (hblock : block ∈ blocks)
    {line : List Char} (hline : line ∈ block.lines) : line ∈ linesOf blocks := by
  induction blocks with
  | nil => cases hblock
  | cons first blocks ih =>
    cases blocks with
    | nil =>
      obtain rfl := List.mem_singleton.mp hblock
      exact hline
    | cons next rest =>
      rw [linesOf_cons]
      rcases List.mem_cons.mp hblock with rfl | hblock
      · exact List.mem_append_left _ hline
      · exact List.mem_append_right _ (.tail _ (ih hblock))

theorem textOf_cons (block next : PlainBlock) (rest : List PlainBlock) :
    textOf (block :: next :: rest) = block.text ++ '\n' :: '\n' :: textOf (next :: rest) := by
  obtain ⟨line, lines, hlines⟩ :=
    List.exists_cons_of_ne_nil (linesOf_ne_nil (List.cons_ne_nil next rest))
  rw [textOf, linesOf_cons, joinWith_append _ block.lines_ne_nil (List.cons_ne_nil _ _), hlines,
    joinWith_cons_cons, ← hlines, textOf, text]
  simp

theorem chunks_text (block : PlainBlock) {rest piece : Run} {pieces : List Run}
    (hrest : Block.chunks rest = piece :: pieces) :
    Block.chunks (Run.ofChars block.text ++ rest) = (Run.ofChars block.text ++ piece) :: pieces :=
  Block.chunks_lines block.lines_ne_nil block.forall_lines hrest

/-- Plain blocks are cut at the empty lines between them. -/
theorem chunks_textOf (blocks : List PlainBlock) (last : PlainBlock) {rest piece : Run}
    {pieces : List Run} (hrest : Block.chunks rest = piece :: pieces) :
    Block.chunks (Run.ofChars (textOf (blocks ++ [last])) ++ rest) =
      blocks.map (fun block ↦ Run.ofChars block.text) ++
        (Run.ofChars last.text ++ piece) :: pieces := by
  induction blocks with
  | nil => exact last.chunks_text hrest
  | cons block blocks ih =>
    obtain ⟨next, more, hmore⟩ := List.exists_cons_of_ne_nil (l := blocks ++ [last]) (by simp)
    rw [List.cons_append, hmore, textOf_cons, ← hmore]
    have hfeeds : Block.chunks (.char '\n' :: .char '\n' ::
        (Run.ofChars (textOf (blocks ++ [last])) ++ rest)) = [] :: _ := if_pos rfl
    rw [ih] at hfeeds
    simpa using block.chunks_text hfeeds

end PlainBlock

/-! ## Reading -/

namespace Table

/-- A row without bars, backslashes and backticks has no marks. -/
theorem marks_eq_nil {row : Run} (hrow : ∀ g ∈ row, ∀ mark ∈ ['\\', '`', '|'], g.isChar mark = false)
    (fuel place : Nat) : marks fuel place row = [] := by
  induction fuel generalizing place row with
  | zero => rfl
  | succ fuel ih =>
    cases row with
    | nil => rfl
    | cons g rest =>
      obtain ⟨hg, hrest⟩ := List.forall_mem_cons.mp hrow
      rw [marks, hg '\\' (by decide), hg '`' (by decide), hg '|' (by decide)]
      exact ih hrest _

/-- A block whose first line has no bars is no table. -/
theorem shape?_eq_none {block header : Run} {rows : List Run} (hlines : block.lines = header :: rows)
    (hheader : ∀ g ∈ header, ∀ mark ∈ ['\\', '`', '|'], g.isChar mark = false) :
    shape? block = none := by
  have htrim : ∀ g ∈ trim header, ∀ mark ∈ ['\\', '`', '|'], g.isChar mark = false :=
    fun g hg ↦ hheader g (mem_of_mem_stripBy hg)
  obtain ⟨row, hrow⟩ : ∃ row, trim header = row := ⟨_, rfl⟩
  rw [hrow] at htrim
  have hborder : hasBorder row = false := by
    have hstart : Run.startsWith '|' row = false := by
      cases row with
      | nil => rfl
      | cons g rest => exact htrim g (.head _) _ (by decide)
    have hend : withoutEndBar? row = none := by
      rw [withoutEndBar?]
      split
      · next g rest heq =>
        have hg := htrim g (List.mem_reverse.mp (heq ▸ .head _)) '|' (by decide)
        exact if_neg (by simp [hg])
      · rfl
    rw [hasBorder, hstart, hend]
    rfl
  have hcells : rowCells false row = [row] := by
    rw [rowCells, if_neg Bool.false_ne_true, cells, marks_eq_nil htrim]
    rfl
  rw [shape?, hlines, List.map_cons, hrow]
  cases rows.map trim with
  | nil => rfl
  | cons separator rows =>
    dsimp only
    rw [hborder, hcells]
    rfl

end Table

/-- The element of a block. -/
def PlainBlock.element (block : PlainBlock) : Element :=
  Element.leaf block.leaf.tag (Run.ofChars block.leaf.words)

namespace Block

/-- Text that does not begin with blanks is not indented. -/
theorem indent_eq_zero {g : Glyph} {rest : Run} (hg : g.isChar ' ' = false) :
    Run.indent (g :: rest) = 0 := by
  simp [Run.indent, hg]

/-! ### Headings -/

theorem headingWords?_of_forall {words : Run}
    (h : ∀ g ∈ words, ∀ mark ∈ ['#', '\\'], g.isChar mark = false) :
    headingWords? words = some words := by
  induction words with
  | nil => rfl
  | cons g words ih =>
    obtain ⟨hg, hwords⟩ := List.forall_mem_cons.mp h
    have hmark := hg '#' (by decide)
    have hslash := hg '\\' (by decide)
    cases words with
    | nil => simp [headingWords?, hmark, hslash]
    | cons next rest =>
      rw [headingWords?, if_neg (by simp [hmark]), if_neg (by simp [hslash]), ih hwords]
      rfl

private theorem isChar_of_isPlain {words : List Char} (h : ∀ c ∈ words, IsPlain c) {mark : Char}
    (hmark : mark ∈ markup) : ∀ g ∈ Run.ofChars words, g.isChar mark = false := by
  intro g hg
  obtain ⟨c, hc, rfl⟩ := List.mem_map.mp hg
  simpa using (h c hc).ne hmark

theorem heading?_line {rank : Nat} {words : List Char} (isRank : 1 ≤ rank ∧ rank ≤ 6)
    (isPlain : ∀ c ∈ words, IsPlain c) :
    heading? (Run.ofChars (List.replicate rank '#' ++ words)) =
      some (rank, Run.ofChars (strip words)) := by
  have hmark : ∀ g ∈ Run.ofChars words, g.isChar '#' = false :=
    isChar_of_isPlain isPlain (by decide)
  have hmarks : (Run.ofChars (List.replicate rank '#' ++ words)).takeWhile (Glyph.isChar '#') =
      List.replicate rank (.char '#') := by
    have hnone : (Run.ofChars words).takeWhile (Glyph.isChar '#') = [] := by
      cases hwords : Run.ofChars words with
      | nil => rfl
      | cons g rest => exact List.takeWhile_cons_of_neg (by simp [hmark g (hwords ▸ .head _)])
    rw [Run.ofChars_append, Run.ofChars, List.map_replicate, List.takeWhile_append_of_pos, hnone,
      List.append_nil]
    intro g hg
    rw [List.eq_of_mem_replicate hg]
    rfl
  have hrank : min 6 (List.replicate rank (Glyph.char '#')).length = rank := by
    rw [List.length_replicate]
    omega
  have hdrop : (Run.ofChars (List.replicate rank '#' ++ words)).drop rank = Run.ofChars words := by
    rw [Run.ofChars_append]
    exact List.drop_left' (by simp [Run.ofChars])
  have hwords : headingWords? (Run.ofChars words) = some (Run.ofChars words) :=
    headingWords?_of_forall fun g hg mark hmark ↦
      isChar_of_isPlain isPlain ((by decide : ['#', '\\'] ⊆ markup) hmark) g hg
  have hstrip : (Run.ofChars words).strip = Run.ofChars (strip words) := stripBy_map _ words
  rw [heading?, hmarks, hrank, hdrop, hwords, if_neg (by simpa using Nat.ne_of_gt isRank.1),
    Option.map_some, hstrip]

theorem read_nil (dialect : Dialect) (fuel : Nat) (context : Context) (parent : Element) :
    read dialect fuel context parent [] = pure parent := by
  cases fuel <;> rw [read.eq_def]

/-- A heading line is read as a heading, whatever comes after it. -/
theorem read_heading (dialect : Dialect) (fuel : Nat) (page : Element) {rank : Nat}
    {words : List Char} (isRank : 1 ≤ rank ∧ rank ≤ 6) (isPlain : ∀ c ∈ words, IsPlain c)
    (isWritten : hasInk words = true) {piece : Run}
    (hpiece : piece = [] ∨ ∃ more, piece = .char '\n' :: more) (blocks : List Run) :
    ∃ more, read dialect (fuel + 1) .page page
        ((Run.ofChars (PlainBlock.heading rank words isRank isPlain isWritten).text ++ piece) ::
          blocks) =
      read dialect fuel .page
        (page.push (PlainBlock.heading rank words isRank isPlain isWritten).element)
        (more ++ blocks) ∧ (piece = [] → more = []) := by
  obtain ⟨line, hline⟩ : ∃ line, List.replicate rank '#' ++ words = line := ⟨_, rfl⟩
  have htext : (PlainBlock.heading rank words isRank isPlain isWritten).text = line := hline
  have hnone : ∀ g ∈ Run.ofChars line, ∀ mark ∈ ['\\', '`', '|', '\n'], g.isChar mark = false := by
    intro g hg mark hmark
    rw [← hline, Run.ofChars_append] at hg
    rcases List.mem_append.mp hg with hg | hg
    · obtain ⟨c, hc, rfl⟩ := List.mem_map.mp hg
      rw [List.eq_of_mem_replicate hc]
      rw [Glyph.isChar_char, beq_eq_false_iff_ne]
      exact (ne_of_mem_of_not_mem hmark (by decide)).symm
    · exact isChar_of_isPlain isPlain
        ((by decide : ['\\', '`', '|', '\n'] ⊆ markup) hmark) g hg
  obtain ⟨others, hlines, hothers⟩ : ∃ others,
      (Run.ofChars line ++ piece).lines = Run.ofChars line :: others ∧ (piece = [] → others = []) := by
    have hself : Run.lines (Run.ofChars line) = [Run.ofChars line] :=
      splitBy_of_forall fun g hg ↦ hnone g hg '\n' (by decide)
    rcases hpiece with rfl | ⟨more, rfl⟩
    · exact ⟨[], by rw [List.append_nil, hself], fun _ ↦ rfl⟩
    · refine ⟨Run.lines more, ?_, nofun⟩
      rw [Run.lines, splitBy_append_cons _ _ rfl, ← Run.lines, hself]
      rfl
  obtain ⟨rest, hrest⟩ : ∃ rest, Run.ofChars line ++ piece = .char '#' :: rest := by
    obtain ⟨n, rfl⟩ := Nat.exists_eq_add_of_le' isRank.1
    exact ⟨_, by rw [← hline]; rfl⟩
  have hshape := Table.shape?_eq_none hlines fun g hg mark hmark ↦
    hnone g hg mark ((by decide : ['\\', '`', '|'] ⊆ ['\\', '`', '|', '\n']) hmark)
  have hheading : splitAtLine? heading? (Run.ofChars line ++ piece).lines =
      some ([], (rank, Run.ofChars (strip words)), others) := by
    rw [hlines, splitAtLine?, ← hline, heading?_line isRank isPlain]
  have hnested : isNested (.char '#' :: rest) = false := by
    rw [isNested, indent_eq_zero rfl]
    rfl
  refine ⟨blockOf others, ?_, fun hnil ↦ by rw [hothers hnil]; rfl⟩
  rw [htext]
  rw [hrest] at hshape hheading ⊢
  rw [read.eq_def]
  dsimp only
  rw [if_neg (by simp), if_neg (by simp [continuesList, hnested]), if_neg (by simp [hnested]), hshape,
    ite_self, hheading]
  have hnothing : blockOf [] = [] := rfl
  dsimp only
  rw [hnothing, read_nil, pure_bind]
  simp [PlainBlock.element, PlainBlock.leaf, headingElement]

/-! ### Paragraphs -/

theorem references?_eq_none {block : Run} (h : ∀ g ∈ block, g.isChar '[' = false) :
    references? block = none := by
  have hmatch : ∀ before tail, tail <:+ block →
      Pattern.matchAt? Glyph.sameChar referencePattern before tail = none := by
    intro before tail htail
    -- the bracket that opens the label comes behind the line's start and its indent
    simp only [Pattern.matchAt?, referencePattern, Pattern.chain, Pattern.run_seq]
    refine Pattern.run_eq_none fun t ht ↦ Pattern.run_eq_none fun u hu ↦ ?_
    have hbracket : u.next? (Glyph.isChar '[') = none :=
      Pattern.next?_eq_none fun g hg ↦ h g (htail.subset (ht.subset (hu.subset hg)))
    rw [Pattern.run_one, hbracket, Option.bind_none]
  rw [references?, reference?, Pattern.find?_eq_none hmatch]
  rfl

/-- No rule but the one for paragraphs fits a plain line. -/
structure IsWordy (line : Run) : Prop where
  isUnindented : line.indent = 0
  isNoHeading : heading? line = none
  isNoUnderline : underlineRank? line = none
  isNoRule : isRule line = false
  isNoItem : item? line = none
  isNoQuote : quoted? line = none

theorem isWordy {line : List Char} (h : IsPlainLine line) : IsWordy (Run.ofChars line) := by
  obtain ⟨c, rest, rfl, hblank, hmark, hdigit⟩ := h.begins
  have hplain := h.isPlain c (.head _)
  have hc : ∀ mark ∈ [' ', '#', '=', '-', '_', '*', '+', '>'], (Glyph.char c).isChar mark = false := by
    intro mark hmem
    rw [Glyph.isChar_char, beq_eq_false_iff_ne]
    rintro rfl
    have hmem' : c ∈ ' ' :: (markup ++ ['=', '-', '+', '~']) :=
      (by decide : [' ', '#', '=', '-', '_', '*', '+', '>'] ⊆
        ' ' :: (markup ++ ['=', '-', '+', '~'])) hmem
    rcases List.mem_cons.mp hmem' with rfl | hmem
    · cases hblank
    rcases List.mem_append.mp hmem with hmem | hmem
    · exact hplain hmem
    · exact hmark hmem
  have hindent : Run.indent (.char c :: Run.ofChars rest) = 0 := indent_eq_zero (hc ' ' (by decide))
  refine ⟨hindent, ?_, ?_, ?_, ?_, ?_⟩ <;> rw [Run.ofChars_cons]
  · rw [heading?, List.takeWhile_cons_of_neg (by simp [hc '#' (by decide)])]
    rfl
  · simp [underlineRank?, Run.startsWith, hc '=' (by decide), hc '-' (by decide)]
  · have hbody : ∀ mark ∈ ['-', '_', '*'], Run.startsWith mark
        (stripEnd (Glyph.isChar ' ') (.char c :: Run.ofChars rest)) = false := by
      intro mark hmem
      obtain ⟨more, hmore⟩ : stripEnd (Glyph.isChar ' ') (.char c :: Run.ofChars rest) <+:
          .char c :: Run.ofChars rest :=
        List.reverse_suffix.mp (by simpa [stripEnd] using List.dropWhile_suffix _)
      cases hbody : stripEnd (Glyph.isChar ' ') (.char c :: Run.ofChars rest) with
      | nil => rfl
      | cons g body =>
        rw [hbody] at hmore
        obtain rfl := (List.cons.inj hmore).1
        exact hc mark ((by decide : ['-', '_', '*'] ⊆ [' ', '#', '=', '-', '_', '*', '+', '>']) hmem)
    rw [isRule, hindent, List.drop_zero]
    simp [hbody '-' (by decide), hbody '_' (by decide), hbody '*' (by decide)]
  · have hdigits : (Glyph.char c :: Run.ofChars rest).takeWhile
        (Glyph.isOf fun c ↦ (digitValue? c).isSome) = [] :=
      List.takeWhile_cons_of_neg (by simp [hdigit])
    have hbullet : bullet? (.char c :: Run.ofChars rest) = none := by
      have hstar := hc '*' (by decide)
      have hplus := hc '+' (by decide)
      have hdash := hc '-' (by decide)
      rw [bullet?.eq_def]
      dsimp only
      rw [hdigits]
      simp_all
    rw [item?, hindent, List.drop_zero, hbullet, ite_self]
  · rw [quoted?, hindent, List.drop_zero]
    exact if_neg (by simp [hc '>' (by decide)])

theorem splitAtLine?_eq_none {α : Type} {what : Run → Option α} {lines : List Run}
    (h : ∀ line ∈ lines, what line = none) : splitAtLine? what lines = none := by
  induction lines with
  | nil => rfl
  | cons line lines ih =>
    obtain ⟨hline, hlines⟩ := List.forall_mem_cons.mp h
    rw [splitAtLine?, hline, ih hlines]
    rfl

/-- A block whose lines fit no other rule is read as a paragraph. -/
theorem read_wordy (dialect : Dialect) (fuel : Nat) (page : Element) {block : Run}
    (hwordy : ∀ line ∈ block.lines, IsWordy line)
    (hnone : ∀ g ∈ block, ∀ mark ∈ ['\\', '`', '|', '['], g.isChar mark = false) {first : Glyph}
    {rest : Run} (hblock : block = first :: rest) (hblank : first.isBlank = false)
    (blocks : List Run) :
    read dialect (fuel + 1) .page page (block :: blocks) =
      read dialect fuel .page (page.push (Element.leaf "p" block)) blocks := by
  obtain ⟨line, lines, hlines⟩ :=
    List.exists_cons_of_ne_nil (splitBy_ne_nil (p := Glyph.isChar '\n') block)
  have hline : IsWordy line := hwordy line (by rw [Run.lines, hlines]; exact .head _)
  have hshape : Table.shape? block = none := by
    have hmem : ∀ g ∈ line, g ∈ block := fun g hg ↦
      (of_mem_splitBy (p := Glyph.isChar '\n') (hlines ▸ .head _) hg).2
    exact Table.shape?_eq_none hlines fun g hg mark hmark ↦
      hnone g (hmem g hg) mark ((by decide : ['\\', '`', '|'] ⊆ ['\\', '`', '|', '[']) hmark)
  have hheading : splitAtLine? heading? block.lines = none :=
    splitAtLine?_eq_none fun line hline ↦ (hwordy line hline).isNoHeading
  have hrule : splitAtLine? (fun line ↦ if isRule line then some () else none) block.lines = none :=
    splitAtLine?_eq_none fun line hline ↦ if_neg (by simp [(hwordy line hline).isNoRule])
  have hquote : splitAtLine? quoted? block.lines = none :=
    splitAtLine?_eq_none fun line hline ↦ (hwordy line hline).isNoQuote
  have hunderline : block.lines[1]?.bind underlineRank? = none := by
    cases hsecond : block.lines[1]? with
    | none => rfl
    | some second => exact (hwordy second (List.mem_of_getElem? hsecond)).isNoUnderline
  have hitem : item? (block.lines.headD []) = none := by
    rw [Run.lines, hlines]
    exact hline.isNoItem
  have hreference := references?_eq_none fun g hg ↦ hnone g hg '[' (by decide)
  have hfirst : ∀ c, isBlank c = true → first.isChar c = false := by
    intro c hc
    rw [← Bool.not_eq_true, Glyph.isChar_iff]
    rintro rfl
    rw [Glyph.isBlank_char, hc] at hblank
    cases hblank
  have hadd : addParagraph .page page block = page.push (Element.leaf "p" block) := by
    have hink : Run.hasInk block = true := by simp [hblock, Run.hasInk, hblank]
    have hdrop : Run.dropBlanks block = block := by
      rw [hblock]
      exact List.dropWhile_cons_of_neg (by simp [hblank])
    rw [addParagraph, hink, hdrop]
    rfl
  have hnested : isNested block = false := by
    rw [hblock, isNested, indent_eq_zero (hfirst ' ' rfl)]
    rfl
  have hfeed := hfirst '\n' rfl
  rw [hblock] at *
  rw [read.eq_def]
  dsimp only
  rw [hfeed, if_neg Bool.false_ne_true, if_neg (by simp [continuesList, hnested]),
    if_neg (by simp [hnested]), hshape, ite_self, hheading]
  dsimp only
  rw [hunderline]
  split
  · next hnone => cases hnone
  · rw [hrule]
    dsimp only
    rw [hitem]
    dsimp only
    rw [hquote]
    dsimp only
    rw [hreference, hadd]

theorem read_paragraph (dialect : Dialect) (fuel : Nat) (page : Element) {lines : List (List Char)}
    (hasLines : lines ≠ []) (arePlain : ∀ line ∈ lines, IsPlainLine line) (blocks : List Run) :
    read dialect (fuel + 1) .page page
        (Run.ofChars (PlainBlock.paragraph lines hasLines arePlain).text :: blocks) =
      read dialect fuel .page (page.push (PlainBlock.paragraph lines hasLines arePlain).element)
        blocks := by
  have hlines : (Run.ofChars (joinWith ['\n'] lines)).lines = lines.map Run.ofChars := by
    have hsplit : splitOnChar '\n' (joinWith ['\n'] lines) = lines :=
      splitOnChar_joinWith lines hasLines fun line hline hfeed ↦
        (arePlain line hline).isPlain _ hfeed (by decide)
    rw [Run.lines_ofChars, hsplit]
  obtain ⟨c, rest, hrest, hblank⟩ : ∃ c rest, joinWith ['\n'] lines = c :: rest ∧ isBlank c = false := by
    obtain ⟨line, more, rfl⟩ := List.exists_cons_of_ne_nil hasLines
    obtain ⟨c, words, rfl, hblank, -⟩ := (arePlain line (.head _)).begins
    cases more <;> exact ⟨c, _, rfl, hblank⟩
  refine read_wordy dialect fuel page ?_ ?_ (congrArg Run.ofChars hrest) hblank blocks
  · intro line hline
    change line ∈ (Run.ofChars (joinWith ['\n'] lines)).lines at hline
    rw [hlines] at hline
    obtain ⟨words, hwords, rfl⟩ := List.mem_map.mp hline
    exact isWordy (arePlain words hwords)
  · intro g hg mark hmark
    obtain ⟨c, hc, rfl⟩ := List.mem_map.mp hg
    rw [Glyph.isChar_char, beq_eq_false_iff_ne]
    have hmarkup : mark ∈ markup := (by decide : ['\\', '`', '|', '['] ⊆ markup) hmark
    have hfeed : mark ≠ '\n' := ne_of_mem_of_not_mem hmark (by decide)
    exact (PlainBlock.paragraph lines hasLines arePlain).leaf.ne_of_mem_words hc hmarkup hfeed

/-! ### Pages -/

/-- A plain block is read as what it is. A heading may go on with another line. -/
theorem read_block (dialect : Dialect) (fuel : Nat) (page : Element) (block : PlainBlock)
    (piece : Run)
    (hpiece : piece = [] ∨ block.isHeading = true ∧ ∃ more, piece = .char '\n' :: more)
    (blocks : List Run) :
    ∃ more, read dialect (fuel + 1) .page page ((Run.ofChars block.text ++ piece) :: blocks) =
      read dialect fuel .page (page.push block.element) (more ++ blocks) ∧
        (piece = [] → more = []) := by
  cases block with
  | paragraph lines hasLines arePlain =>
    obtain rfl := hpiece.resolve_right nofun
    rw [List.append_nil]
    exact ⟨[], read_paragraph dialect fuel page hasLines arePlain blocks, fun _ ↦ rfl⟩
  | heading rank words isRank isPlain isWritten =>
    exact read_heading dialect fuel page isRank isPlain isWritten (hpiece.imp_right And.right) blocks

/-- Plain blocks are read one after another. -/
theorem read_blocks (dialect : Dialect) (fuel : Nat) (page : Element) (blocks : List PlainBlock)
    (rest : List Run) :
    read dialect (fuel + blocks.length) .page page
        (blocks.map (fun block ↦ Run.ofChars block.text) ++ rest) =
      read dialect fuel .page
        (page.withChildren (page.children ++ blocks.map PlainBlock.element)) rest := by
  induction blocks generalizing page with
  | nil =>
    cases page
    simp [Element.withChildren, Element.tag, Element.attributes, Element.text, Element.isSealed,
      Element.children, Element.tail]
  | cons block blocks ih =>
    obtain ⟨more, hread, hmore⟩ := read_block dialect (fuel + blocks.length) page block []
      (.inl rfl) (blocks.map (fun block ↦ Run.ofChars block.text) ++ rest)
    rw [hmore rfl, List.nil_append, List.append_nil] at hread
    have hpush : (page.push block.element).withChildren
        ((page.push block.element).children ++ blocks.map PlainBlock.element) =
        page.withChildren (page.children ++ (block :: blocks).map PlainBlock.element) := by
      simp [Element.push, Element.withChildren, Element.children, Element.tag, Element.attributes,
        Element.text, Element.isSealed, Element.tail]
    rw [List.length_cons, ← Nat.add_assoc, List.map_cons, List.cons_append, hread, ih, hpush]

theorem length_chunks_le (text : Run) : (chunks text).length ≤ text.length + 1 := by
  induction text using chunks.induct with
  | case1 => simp [chunks]
  | case2 g => simp [chunks]
  | case3 g h rest hfeeds ih =>
    rw [chunks, if_pos hfeeds]
    simp
    omega
  | case4 g h rest hfeeds hnil ih => simp [chunks, hfeeds, hnil]
  | case5 g h rest hfeeds piece pieces hcut ih =>
    rw [hcut] at ih
    rw [chunks, if_neg hfeeds, hcut]
    simp at ih ⊢
    omega

end Block

namespace PlainBlock

/-- The page that plain blocks alone are. -/
def pageOf (blocks : List PlainBlock) : Element :=
  (Element.bare "div").withChildren (blocks.map element)

theorem pageOf_concat (blocks : List PlainBlock) (last : PlainBlock) :
    (pageOf blocks).push last.element = pageOf (blocks ++ [last]) := by
  rw [pageOf, pageOf, List.map_append]
  rfl

theorem opens_pageOf (blocks : List PlainBlock) : Block.Opens (blocks.map element) (pageOf blocks) where
  isPage := rfl
  isBare := rfl
  areLeaves e he := by
    obtain ⟨block, -, rfl⟩ := List.mem_map.mp he
    exact block.leaf.isKnown
  begins := List.prefix_refl _

end PlainBlock

namespace Block

variable (dialect : Dialect) {lines : List Run} {blocks : List PlainBlock} {last : PlainBlock}

/-- Plain blocks at the start of a page are read before all others. -/
theorem readPage_eq {rest piece : Run} {pieces : List Run}
    (htext : Run.ofLines lines =
      Run.ofChars (PlainBlock.textOf (blocks ++ [last])) ++ .char '\n' :: rest)
    (hbehind : chunks (.char '\n' :: rest) = piece :: pieces)
    (hpiece : piece = [] ∨ last.isHeading = true ∧ ∃ more, piece = .char '\n' :: more) :
    ∃ fuel more, readPage dialect lines = (read dialect (fuel + 1) .page
      (PlainBlock.pageOf (blocks ++ [last])) (more ++ pieces)).run [] ∧ (piece = [] → more = []) := by
  have hcut := PlainBlock.chunks_textOf blocks last hbehind
  have hlength := length_chunks_le (Run.ofLines lines)
  rw [htext, hcut, List.length_append, List.length_map, List.length_cons, ← htext] at hlength
  obtain ⟨fuel, hfuel⟩ : ∃ fuel,
      6 * (Run.ofLines lines).length + 24 = fuel + 1 + 1 + blocks.length :=
    ⟨6 * (Run.ofLines lines).length + 22 - blocks.length, by omega⟩
  obtain ⟨more, hread, hmore⟩ :=
    read_block dialect (fuel + 1) (PlainBlock.pageOf blocks) last piece hpiece pieces
  refine ⟨fuel, more, ?_, hmore⟩
  rw [readPage, hfuel, htext, hcut, read_blocks]
  change (read dialect (fuel + 1 + 1) .page (PlainBlock.pageOf blocks) _).run [] = _
  rw [hread, PlainBlock.pageOf_concat]

/-- A page that begins with plain blocks, a heading last, is read as a page that begins with them. -/
theorem opens_readPage {rest : Run} (hlast : last.isHeading = true)
    (htext : Run.ofLines lines =
      Run.ofChars (PlainBlock.textOf (blocks ++ [last])) ++ .char '\n' :: rest) :
    Opens ((blocks ++ [last]).map PlainBlock.element) (readPage dialect lines).1 := by
  obtain ⟨piece, pieces, hbehind, hpiece⟩ := chunks_behind rest
  obtain ⟨fuel, more, hread, -⟩ :=
    readPage_eq dialect htext hbehind (hpiece.imp_right fun h ↦ ⟨hlast, h⟩)
  rw [hread]
  exact gives_read (fuel + 1) (PlainBlock.opens_pageOf _) _ _

/-- Empty lines say nothing behind what is no code. -/
theorem read_feeds {context : Context} {page : Element} (hpage : ∀ e, extendCode page e = page)
    (fuel : Nat) {blocks : List Run} (hblocks : ∀ block ∈ blocks, ∀ g ∈ block, g = .char '\n') :
    read dialect fuel context page blocks = pure page := by
  induction fuel generalizing blocks with
  | zero => rw [read.eq_def]
  | succ fuel ih =>
    rcases blocks with _ | ⟨_ | ⟨g, rest⟩, blocks⟩
    · exact read_nil ..
    · rw [read.eq_def]
      dsimp only
      rw [hpage]
      exact ih fun block hblock ↦ hblocks block (.tail _ hblock)
    · obtain ⟨hblock, hothers⟩ := List.forall_mem_cons.mp hblocks
      obtain ⟨rfl, hrest⟩ := List.forall_mem_cons.mp hblock
      rw [read.eq_def]
      dsimp only
      rw [if_pos (show (Glyph.char '\n').isChar '\n' = true from rfl), hpage]
      split
      · exact ih hothers
      · exact ih (List.forall_mem_cons.mpr ⟨hrest, hothers⟩)

/-- A page that is nothing but plain blocks, with empty lines behind them, is read as them. -/
theorem readPage_of_plain {n : Nat}
    (htext : Run.ofLines lines =
      Run.ofChars (PlainBlock.textOf (blocks ++ [last]) ++ List.replicate (n + 2) '\n')) :
    (readPage dialect lines).1 = PlainBlock.pageOf (blocks ++ [last]) := by
  rw [Run.ofChars_append] at htext
  have hbehind : chunks (Run.ofChars (List.replicate (n + 2) '\n')) =
      [] :: chunks (Run.ofChars (List.replicate n '\n')) := if_pos rfl
  obtain ⟨fuel, more, hread, hmore⟩ := readPage_eq dialect htext hbehind (.inl rfl)
  have hcode : ∀ e, extendCode (PlainBlock.pageOf (blocks ++ [last])) e =
      PlainBlock.pageOf (blocks ++ [last]) := by
    have hchild : (PlainBlock.pageOf (blocks ++ [last])).lastChild? = some last.element := by
      simp [PlainBlock.pageOf, Element.lastChild?, Element.withChildren, Element.children]
    intro e
    rw [extendCode, hchild]
    refine if_neg fun hcode ↦ ?_
    exact not_isLeaf_of_isCode hcode last.leaf.isKnown
  have hfeeds : ∀ block ∈ chunks (Run.ofChars (List.replicate n '\n')), ∀ g ∈ block,
      g = .char '\n' := by
    intro block hblock g hg
    obtain ⟨c, hc, rfl⟩ := List.mem_map.mp (mem_of_mem_chunks hblock hg)
    rw [List.eq_of_mem_replicate hc]
  rw [hread, hmore rfl, List.nil_append, read_feeds dialect hcode _ hfeeds]
  rfl

end Block

end Guidebook.Markdown
