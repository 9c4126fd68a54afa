import Guidebook.Page.Content
import Guidebook.Proofs.Markdown.RawHtml
import Guidebook.Proofs.Markdown.Words

/-!
# The title a reader sees

A page is read twice, in one dialect for its title and in another for its content. On a page that
begins with plain blocks the two agree on its first heading, whatever stands behind that heading.
-/

namespace Guidebook.Page

open Markdown

/-- The title a reader sees in HTML: the words of the first heading with any. -/
def shownTitle (html : List Char) : List Char :=
  (Html.headingAmong? (Html.parse html)).getD untitled

variable {text : List Char} {blocks : List PlainBlock} {last : PlainBlock}
  {others : List (List Char)}

/-! ## Lines of plain blocks -/

theorem exists_ink (blocks : List PlainBlock) (last : PlainBlock) :
    ∃ line ∈ PlainBlock.linesOf (blocks ++ [last]), ∃ c ∈ line, Text.isBlank c = false := by
  obtain ⟨line, hline, c, hc, hblank⟩ :
      ∃ line ∈ last.lines, ∃ c ∈ line, Text.isBlank c = false := by
    cases last with
    | paragraph lines hasLines arePlain =>
      obtain ⟨line, more, rfl⟩ := List.exists_cons_of_ne_nil hasLines
      obtain ⟨c, words, rfl, hblank, -⟩ := (arePlain line (.head _)).begins
      exact ⟨_, .head _, c, .head _, hblank⟩
    | heading rank words isRank isPlain isWritten =>
      obtain ⟨c, hc, hink⟩ := List.any_eq_true.mp isWritten
      exact ⟨_, .head _, c, List.mem_append_right _ hc, by simpa using hink⟩
  exact ⟨line, PlainBlock.mem_linesOf (by simp) hline, c, hc, hblank⟩

theorem hasInk_of_lines
    (h : Text.splitOnChar '\n' text = PlainBlock.linesOf (blocks ++ [last]) ++ others) :
    Text.hasInk text = true := by
  obtain ⟨line, hline, c, hc, hblank⟩ := exists_ink blocks last
  have hmem : c ∈ text :=
    (Text.of_mem_splitBy (p := (· == '\n')) (by
      rw [← Text.splitOnChar, h]
      exact List.mem_append_left _ hline) hc).2
  exact List.any_eq_true.mpr ⟨c, hmem, by simp [hblank]⟩

/-- The text of plain blocks with empty lines behind them. -/
theorem text_of_lines
    (h : Text.splitOnChar '\n' text = PlainBlock.linesOf (blocks ++ [last]) ++ others)
    (hempty : ∀ line ∈ others, line = []) :
    text = PlainBlock.textOf (blocks ++ [last]) ++ List.replicate others.length '\n' := by
  have hne : PlainBlock.linesOf (blocks ++ [last]) ≠ [] := PlainBlock.linesOf_ne_nil (by simp)
  have hfeeds : ∀ n, Text.joinWith ['\n'] (List.replicate (n + 1) []) = List.replicate n '\n' := by
    intro n
    induction n with
    | zero => rfl
    | succ n ih =>
      rw [List.replicate_succ] at ih ⊢
      rw [List.replicate_succ, Text.joinWith_cons_cons, ih]
      rfl
  rw [← Text.joinWith_splitOnChar '\n' text, h, List.eq_replicate_of_mem hempty,
    List.length_replicate, PlainBlock.textOf]
  cases others.length with
  | zero => rw [List.replicate_zero, List.replicate_zero, List.append_nil, List.append_nil]
  | succ n =>
    rw [Text.joinWith_append _ hne (by simp), hfeeds, List.append_assoc]
    rfl

theorem isStill_of_lines
    (h : Text.splitOnChar '\n' text = PlainBlock.linesOf (blocks ++ [last]) ++ others)
    (hempty : ∀ line ∈ others, line = []) : ∀ line ∈ Text.splitOnChar '\n' text, IsStill line := by
  rw [h]
  intro line hline
  rcases List.mem_append.mp hline with hline | hline
  · exact PlainBlock.isStill hline
  · exact hempty line hline ▸ isStill_nil

/-- A page of plain blocks with empty lines behind them is read with two more. -/
theorem sourceText_of_lines
    (h : Text.splitOnChar '\n' text = PlainBlock.linesOf (blocks ++ [last]) ++ others)
    (hempty : ∀ line ∈ others, line = []) :
    Text.joinWith ['\n'] (sourceLines text) =
      PlainBlock.textOf (blocks ++ [last]) ++ List.replicate (others.length + 2) '\n' := by
  have hne : Text.splitOnChar '\n' text ≠ [] := Text.splitBy_ne_nil text
  rw [sourceLines_of_forall (isStill_of_lines h hempty), Text.joinWith_append _ hne (by simp),
    Text.joinWith_splitOnChar, List.replicate_add, ← List.append_assoc, ← text_of_lines h hempty,
    List.append_assoc]
  rfl

/-- No HTML begins in plain blocks. -/
theorem ne_of_mem_textOf {c : Char} (hc : c ∈ PlainBlock.textOf blocks) : c ≠ '<' ∧ c ≠ '&' := by
  rcases Text.mem_joinWith hc with hfeed | ⟨line, hline, hc⟩
  · rw [List.mem_singleton.mp hfeed]
    decide
  · have hno := (PlainBlock.isStill hline).hasNo c hc
    simp only [List.mem_cons, not_or] at hno
    exact ⟨hno.2.2.2.2.2.1, hno.2.2.2.2.2.2.1⟩

/-- A page of which the first lines are those of plain blocks begins with them in the plain
dialect. -/
theorem titleLines (h : Text.splitOnChar '\n' text = PlainBlock.linesOf (blocks ++ [last]) ++ others) :
    ∃ rest, Run.ofLines (RawHtml.setAside (Text.joinWith ['\n'] (sourceLines text))) =
      Run.ofChars (PlainBlock.textOf (blocks ++ [last])) ++ .char '\n' :: rest := by
  have hne : PlainBlock.linesOf (blocks ++ [last]) ≠ [] := PlainBlock.linesOf_ne_nil (by simp)
  obtain ⟨more, hlines, hmore, -⟩ :=
    sourceLines_of_still hne (fun line hline ↦ PlainBlock.isStill hline) h
  have hfront : ∀ c ∈ PlainBlock.textOf (blocks ++ [last]) ++ ['\n'], c ≠ '<' ∧ c ≠ '&' := by
    intro c hc
    rcases List.mem_append.mp hc with hc | hc
    · exact ne_of_mem_textOf hc
    · rw [List.mem_singleton.mp hc]
      decide
  rw [hlines, Text.joinWith_append _ hne hmore, ← PlainBlock.textOf]
  obtain ⟨rest, hrest⟩ := RawHtml.setAside_append (by simp) hfront (Text.joinWith ['\n'] more)
  exact ⟨rest, by simpa using hrest⟩

theorem setFencesAside_ne_nil {style : String} {fuel : Nat} {lines : List (List Char)}
    {found : List Run} (hne : lines ≠ []) (h : setFencesAside style fuel lines = .ok found) :
    found ≠ [] := by
  obtain ⟨line, rest, rfl⟩ := List.exists_cons_of_ne_nil hne
  cases fuel with
  | zero =>
    obtain rfl := Except.ok.inj h
    exact List.cons_ne_nil _ _
  | succ fuel =>
    rw [setFencesAside] at h
    split at h
    · obtain ⟨html, -, h⟩ := bind_eq_ok h
      obtain ⟨after, -, heq⟩ := bind_eq_ok h
      obtain rfl := Except.ok.inj heq
      exact List.cons_ne_nil _ _
    · obtain ⟨after, -, heq⟩ := bind_eq_ok h
      obtain rfl := Except.ok.inj heq
      exact List.cons_ne_nil _ _

/-- The same in the full dialect. -/
theorem contentLines {style : String} {found : List Run}
    (h : Text.splitOnChar '\n' text = PlainBlock.linesOf (blocks ++ [last]) ++ others)
    (hset : setFencesAside style (sourceLines (normalizeFences text)).length
      (sourceLines (normalizeFences text)) = .ok found) :
    ∃ rest, Run.ofLines found =
      Run.ofChars (PlainBlock.textOf (blocks ++ [last])) ++ .char '\n' :: rest := by
  have hstill : ∀ line ∈ PlainBlock.linesOf (blocks ++ [last]), IsStill line :=
    fun line hline ↦ PlainBlock.isStill hline
  have hne : PlainBlock.linesOf (blocks ++ [last]) ≠ [] := PlainBlock.linesOf_ne_nil (by simp)
  obtain ⟨more, hlines, hmore, -⟩ :=
    sourceLines_of_still hne hstill (splitOnChar_normalizeFences_of_still hstill h)
  rw [hlines, List.length_append, setFencesAside_of_still hstill] at hset
  obtain ⟨behind, hbehind, rfl⟩ := map_eq_ok hset
  have hfront := Run.ofLines_map_ofChars (PlainBlock.linesOf (blocks ++ [last]))
  rw [Run.ofLines] at hfront ⊢
  rw [Text.joinWith_append _ (by simpa using hne) (setFencesAside_ne_nil hmore hbehind), hfront,
    ← PlainBlock.textOf]
  exact ⟨Text.joinWith [.char '\n'] behind, by simp⟩

/-! ## Titles -/

theorem title_of_hasInk (h : Text.hasInk text = true) :
    ∃ page references,
      Block.readPage .plain (RawHtml.setAside (Text.joinWith ['\n'] (sourceLines text))) =
        (page, references) ∧
      title text = (headingIn? (Inline.readPage .plain references page)).getD untitled := by
  refine ⟨_, _, rfl, ?_⟩
  rw [title, h]
  rfl

/-- The steps in which a page that is not blank becomes its content. -/
theorem content_of_hasInk {style : String} {html : List Char}
    (hink : Text.hasInk (normalizeFences text) = true) (h : content style text = .ok html) :
    ∃ lines page references found,
      setFencesAside style (sourceLines (normalizeFences text)).length
        (sourceLines (normalizeFences text)) = .ok lines ∧
      Block.readPage .full lines = (page, references) ∧ setCode style page = .ok found ∧
      html = Html.sanitize (pageHtml (Inline.readPage .full references found)) := by
  obtain ⟨written, hwritten, rfl⟩ := map_eq_ok h
  rw [toHtml, hink, if_neg (by decide)] at hwritten
  obtain ⟨lines, hlines, hwritten⟩ := bind_eq_ok hwritten
  obtain ⟨found, hfound, heq⟩ := bind_eq_ok hwritten
  exact ⟨lines, _, _, found, hlines, rfl, hfound, congrArg Html.sanitize (Except.ok.inj heq).symm⟩

theorem headingIn?_page {page : Element} (h : page.tag = "div") :
    headingIn? page = headingAmong? page.children := by
  obtain ⟨tag, attributes, words, isSealed, children, tail⟩ := page
  obtain rfl : tag = "div" := h
  rfl

theorem isSome_heading? (h : last.isHeading = true) : last.leaf.heading?.isSome = true := by
  cases last with
  | paragraph lines hasLines arePlain => cases h
  | heading rank words isRank isPlain isWritten =>
    have htag : Html.Builder.headingTags.contains ("h" ++ toString rank) = true := by
      obtain ⟨hlow, hhigh⟩ := isRank
      interval_cases rank <;> decide
    have hink : Text.hasInk (Text.strip words) = true := by
      have hempty := Text.isEmpty_strip (Text.strip words)
      rw [Text.strip, Text.strip, Text.stripBy_stripBy, ← Text.strip, Text.isEmpty_strip,
        isWritten] at hempty
      simpa using hempty.symm
    rw [Html.Leaf.heading?]
    change Option.isSome (if Html.Builder.headingTags.contains ("h" ++ toString rank) &&
      Text.hasInk (Text.strip words) then _ else _) = true
    rw [htag, hink]
    rfl

/-- A heading among blocks settles what their first heading is, whatever comes behind them. -/
theorem findSome?_or (h : last.isHeading = true) (behind : Option (List Char)) :
    ((blocks ++ [last]).findSome? (·.leaf.heading?)).or behind =
      (blocks ++ [last]).findSome? (·.leaf.heading?) := by
  refine Option.or_of_isSome ?_
  rw [List.findSome?_isSome_iff]
  exact ⟨last, by simp, isSome_heading? h⟩

/-- The title of a page that begins with plain blocks. -/
theorem title_of_lines
    (h : Text.splitOnChar '\n' text = PlainBlock.linesOf (blocks ++ [last]) ++ others)
    (hopening : (∀ line ∈ others, line = []) ∨ last.isHeading = true) :
    title text = ((blocks ++ [last]).findSome? (·.leaf.heading?)).getD untitled := by
  obtain ⟨page, references, hread, htitle⟩ := title_of_hasInk (hasInk_of_lines h)
  rw [htitle]
  refine congrArg (Option.getD · untitled) ?_
  rcases hopening with hempty | hlast
  · have hnone : ∀ c ∈ Text.joinWith ['\n'] (sourceLines text), c ≠ '<' ∧ c ≠ '&' := by
      rw [sourceText_of_lines h hempty]
      intro c hc
      rcases List.mem_append.mp hc with hc | hc
      · exact ne_of_mem_textOf hc
      · rw [List.eq_of_mem_replicate hc]
        decide
    have hlines := RawHtml.setAside_of_forall hnone
    rw [sourceText_of_lines h hempty] at hlines hread
    have hpage := Block.readPage_of_plain .plain hlines
    have hall := PlainBlock.headingAmong?_elements (blocks ++ [last]) []
    rw [hread] at hpage
    dsimp only at hpage
    rw [List.append_nil, headingAmong?, Option.or_none] at hall
    rw [hpage, PlainBlock.readPage_pageOf, headingIn?_page rfl]
    exact hall
  · obtain ⟨rest, hlines⟩ := titleLines h
    have hopens := Block.opens_readPage .plain hlast hlines
    rw [hread] at hopens
    have hopens := PlainBlock.opens_readPage .plain references hopens
    obtain ⟨more, hmore⟩ := hopens.begins
    rw [headingIn?_page hopens.isPage, ← hmore, PlainBlock.headingAmong?_elements, findSome?_or hlast]

/-- A page of plain blocks, perhaps with empty lines behind them, always has a content: the blocks as
what they are. -/
theorem content_of_plain (style : String)
    (h : Text.splitOnChar '\n' text = PlainBlock.linesOf (blocks ++ [last]) ++ others)
    (hempty : ∀ line ∈ others, line = []) :
    content style text = .ok (Html.Leaf.htmlOf ((blocks ++ [last]).map PlainBlock.leaf)) := by
  have hstill := isStill_of_lines h hempty
  have hset : setFencesAside style (sourceLines text).length (sourceLines text) =
      .ok ((sourceLines text).map Run.ofChars) := by
    refine setFencesAside_of_forall style ?_
    rw [sourceLines_of_forall hstill]
    intro line hline
    rcases List.mem_append.mp hline with hline | hline
    · exact hstill line hline
    · rw [show line = [] by simpa using hline]
      exact isStill_nil
  have hlines : Run.ofLines ((sourceLines text).map Run.ofChars) = Run.ofChars _ :=
    (Run.ofLines_map_ofChars _).trans (congrArg Run.ofChars (sourceText_of_lines h hempty))
  have hpage := Block.readPage_of_plain .full hlines
  have hcode := PlainBlock.setCode_pageOf style (blocks ++ [last])
  rw [← hpage] at hcode
  rw [content, toHtml, normalizeFences_of_forall hstill, hasInk_of_lines h, if_neg (by decide)]
  dsimp only
  rw [hset]
  change (setCode style (Block.readPage .full _).1 >>= fun page ↦
    .ok (pageHtml (Inline.readPage .full _ page))).map Html.sanitize = _
  rw [hcode, hpage]
  change Except.ok (Html.sanitize (pageHtml (Inline.readPage .full _ _))) = _
  rw [PlainBlock.readPage_pageOf, PlainBlock.pageHtml_pageOf (by simp), Html.sanitize_htmlOf]

/-- The title a reader sees on a page that begins with plain blocks. -/
theorem shownTitle_of_lines {style : String} {html : List Char}
    (h : Text.splitOnChar '\n' text = PlainBlock.linesOf (blocks ++ [last]) ++ others)
    (hopening : (∀ line ∈ others, line = []) ∨ last.isHeading = true)
    (hcontent : content style text = .ok html) :
    shownTitle html = ((blocks ++ [last]).findSome? (·.leaf.heading?)).getD untitled := by
  have hleaves : (blocks ++ [last]).map PlainBlock.leaf ≠ [] := by simp
  have hfirst : ((blocks ++ [last]).map PlainBlock.leaf).findSome? Html.Leaf.heading? =
      (blocks ++ [last]).findSome? (·.leaf.heading?) := List.findSome?_map
  rcases hopening with hempty | hlast
  · rw [content_of_plain style h hempty] at hcontent
    obtain rfl := Except.ok.inj hcontent
    rw [shownTitle, Html.parse_htmlOf, Html.headingAmong?_nodes, hfirst]
  · obtain ⟨lines, page, references, found, hset, hread, hcode, hhtml⟩ :=
      content_of_hasInk (hasInk_of_lines
        (splitOnChar_normalizeFences_of_still (fun _ ↦ PlainBlock.isStill) h)) hcontent
    obtain ⟨rest, hlines⟩ := contentLines h hset
    have hopens := Block.opens_readPage .full hlast hlines
    rw [hread] at hopens
    have hopens := PlainBlock.opens_readPage .full references
      (PlainBlock.opens_setCode hopens hcode)
    obtain ⟨tail, htail⟩ := PlainBlock.pageHtml_of_opens (by simp) hopens
    obtain ⟨clean, hclean⟩ := Html.sanitize_leaves hleaves tail
    obtain ⟨more, hmore⟩ := Html.parse_leaves hleaves clean
    rw [shownTitle, hhtml, htail, hclean, ← hmore, Html.headingAmong?_append,
      Html.headingAmong?_nodes, hfirst, findSome?_or hlast]

theorem hasInk_of_empty (h : ∀ line ∈ Text.splitOnChar '\n' text, line = []) :
    Text.hasInk text = false := by
  rw [Text.hasInk, List.any_eq_false]
  intro c hc
  rw [← Text.joinWith_splitOnChar '\n' text] at hc
  rcases Text.mem_joinWith hc with hfeed | ⟨line, hline, hc⟩
  · rw [List.mem_singleton.mp hfeed]
    decide
  · rw [h line hline] at hc
    cases hc

/-- A page of empty lines has no title, and no reader sees one. -/
theorem titles_of_empty {style : String} {html : List Char}
    (h : ∀ line ∈ Text.splitOnChar '\n' text, line = []) (hcontent : content style text = .ok html) :
    title text = untitled ∧ shownTitle html = untitled := by
  have hnormal : ∀ line ∈ Text.splitOnChar '\n' (normalizeFences text), line = [] := by
    rw [splitOnChar_normalizeFences]
    intro line hline
    obtain ⟨written, hwritten, rfl⟩ := List.mem_map.mp hline
    rw [h written hwritten]
    rfl
  constructor
  · rw [title, hasInk_of_empty h]
    rfl
  · rw [content, toHtml, hasInk_of_empty hnormal] at hcontent
    obtain rfl := Except.ok.inj hcontent
    rfl

private theorem isPlainLine_moreWords : IsPlainLine "More words".toList where
  isPlain := Text.isPlain_of_all (by decide)
  begins := ⟨'M', "ore words".toList, rfl, rfl, by decide, rfl⟩
  ends c hc := by rw [← Option.some.inj hc]; rfl

private def startHeading : PlainBlock :=
  .heading 1 " Start".toList (by decide) (Text.isPlain_of_all (by decide)) rfl

private def moreWords : PlainBlock :=
  .paragraph ["More words".toList] (by decide) (by simpa using isPlainLine_moreWords)

end Guidebook.Page
