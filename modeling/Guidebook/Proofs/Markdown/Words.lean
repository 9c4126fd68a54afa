import Guidebook.Markdown.Render
import Guidebook.Page.Title
import Guidebook.Proofs.Markdown.Blocks
import Guidebook.Proofs.Result

/-!
# Plain words

No rule for text finds anything in plain words, so paragraphs and headings of them are read and
written as they are, and a heading of them is the heading a title is taken from.
-/

namespace Guidebook.Markdown

open Text

/-! ## Rules that find nothing -/

namespace Inline

/-- A rule that finds nothing in a text. -/
def Idle (rule : Rule) (text : Run) : Prop :=
  ∀ before g rest, g :: rest <:+ text → rule.find? before (g :: rest) = none

theorem search?_eq_none {rule : Rule} {text : Run} (h : Idle rule text) (before : Run) :
    search? rule before text = none := by
  induction text generalizing before with
  | nil => rfl
  | cons g rest ih =>
    rw [search?, h before g rest (List.suffix_refl _)]
    exact ih (fun before g tail htail ↦ h before g tail (htail.trans (List.suffix_cons _ _))) _

/-- Text in which no rule finds anything stays as it is. -/
theorem apply_of_idle {rules : List Rule} {text : Run} (h : ∀ rule ∈ rules, Idle rule text)
    (fuel : Nat) : apply fuel rules [] text = text := by
  induction fuel generalizing rules with
  | zero => rfl
  | succ fuel ih =>
    cases rules with
    | nil => rfl
    | cons rule later =>
      obtain ⟨hrule, hlater⟩ := List.forall_mem_cons.mp h
      rw [apply, search?_eq_none hrule]
      exact ih hlater

/-- Text without the characters rules look for, and without blanks at the end of a line. -/
structure IsWords (text : Run) : Prop where
  hasNo : ∀ g ∈ text, ∀ mark ∈ ['`', '\\', '[', '<', '&', '*', '_'], g.isChar mark = false
  hasNoBreak : ¬ [Glyph.char ' ', .char '\n'] <:+: text

theorem tickRuns_eq_nil {text : Run} (h : ∀ g ∈ text, g.isChar '`' = false) (fuel place : Nat) :
    tickRuns fuel place text = [] := by
  induction fuel generalizing place text with
  | zero => rfl
  | succ fuel ih =>
    cases text with
    | nil => rfl
    | cons g rest =>
      obtain ⟨hg, hrest⟩ := List.forall_mem_cons.mp h
      rw [tickRuns, List.takeWhile_cons_of_neg (by simp [hg])]
      exact ih hrest _

theorem dropPrefix?_eq_none {c : Char} (cs : List Char) (hc : c ∈ cs) {text : Run}
    (h : ∀ g ∈ text, g.isChar c = false) : Run.dropPrefix? cs text = none := by
  induction cs generalizing text with
  | nil => cases hc
  | cons d cs ih =>
    cases text with
    | nil => rfl
    | cons g rest =>
      obtain ⟨hg, hrest⟩ := List.forall_mem_cons.mp h
      rw [Run.dropPrefix?]
      split
      · next hmatch =>
        rcases List.mem_cons.mp hc with rfl | hc
        · rw [hg] at hmatch
          cases hmatch
        · exact ih hc hrest
      · rfl

theorem dropPrefix?_eq_some {cs : List Char} {text after : Run}
    (h : Run.dropPrefix? cs text = some after) : text = Run.ofChars cs ++ after := by
  induction cs generalizing text with
  | nil => exact Option.some.inj h
  | cons c cs ih =>
    cases text with
    | nil => cases h
    | cons g rest =>
      obtain ⟨hg, hrest⟩ := Option.ite_none_right_eq_some.mp h
      rw [Glyph.isChar_iff.mp hg, ih hrest]
      rfl

theorem opened?_eq_none {image : Bool} {before text : Run} (h : ∀ g ∈ text, g.isChar '[' = false) :
    opened? image before text = none := by
  have himage := dropPrefix?_eq_none ['!', '['] (by decide) h
  have hlink := dropPrefix?_eq_none ['['] (by decide) h
  rw [opened?, himage, hlink]
  exact ite_self _

theorem angled?_eq_none {g : Glyph} {rest : Run} (h : g.isChar '<' = false) :
    angled? (g :: rest) = none := by
  rw [angled?, h]

theorem asideLength?_eq_none {text : Run} (h : ∀ g ∈ text, g.isChar '<' = false) :
    asideLength? text = none := by
  have hbegin : ∀ first last : List Char, '<' ∈ first → lengthBetween? first last text = none := by
    intro first last hfirst
    rw [lengthBetween?, dropPrefix?_eq_none _ hfirst h]
    rfl
  simp [asideLength?, hbegin]

/-! ### What a rule does not find -/

section

variable {before : Run} {g : Glyph} {rest : Run}

theorem codeRule_eq_none (htick : ∀ f ∈ g :: rest, f.isChar '`' = false)
    (hslash : g.isChar '\\' = false) : codeRule.find? before (g :: rest) = none := by
  have hslashes : (g :: rest).takeWhile (Glyph.isChar '\\') = [] :=
    List.takeWhile_cons_of_neg (by simp [hslash])
  have hfrom : codeFrom? (g :: rest) = none := by
    rw [codeFrom?, tickRuns_eq_nil htick]
  rw [codeRule]
  dsimp only
  rw [hslashes, hfrom]
  exact ite_self _

theorem escapeRule_eq_none (dialect : Dialect) (hslash : g.isChar '\\' = false) :
    (escapeRule dialect).find? before (g :: rest) = none := by
  cases rest with
  | nil => rfl
  | cons f rest => exact if_pos (by simp [hslash])

theorem referenceRule_eq_none (image short : Bool) (references : References)
    (hopen : ∀ f ∈ g :: rest, f.isChar '[' = false) :
    (referenceRule image short references).find? before (g :: rest) = none := by
  simp [referenceRule, opened?_eq_none hopen]

theorem linkRule_eq_none (image : Bool) (hopen : ∀ f ∈ g :: rest, f.isChar '[' = false) :
    (linkRule image).find? before (g :: rest) = none := by
  simp [linkRule, opened?_eq_none hopen]

theorem addressRule_eq_none (hangle : g.isChar '<' = false) :
    addressRule.find? before (g :: rest) = none := by
  simp [addressRule, angled?_eq_none hangle]

theorem mailRule_eq_none (hangle : g.isChar '<' = false) :
    mailRule.find? before (g :: rest) = none := by
  simp [mailRule, angled?_eq_none hangle]

theorem htmlRule_eq_none (hangle : ∀ f ∈ g :: rest, f.isChar '<' = false) :
    htmlRule.find? before (g :: rest) = none := by
  simp [htmlRule, tagLength?, angled?_eq_none (hangle g (.head _)), asideLength?_eq_none hangle]

theorem breakRule_eq_none (hbreak : ¬ [Glyph.char ' ', .char '\n'] <:+: g :: rest) :
    breakRule.find? before (g :: rest) = none := by
  rw [breakRule]
  dsimp only
  cases hdrop : Run.dropPrefix? [' ', ' ', '\n'] (g :: rest) with
  | none => rfl
  | some after =>
    refine absurd ?_ hbreak
    rw [dropPrefix?_eq_some hdrop]
    exact ⟨[.char ' '], after, rfl⟩

theorem entityRule_eq_none (hamp : g.isChar '&' = false) :
    entityRule.find? before (g :: rest) = none := by
  simp [entityRule, entityLength?, Run.startsWith, hamp]

theorem emphasisRule_eq_none {mark : Char} (hmark : g.isChar mark = false) :
    (emphasisRule mark).find? before (g :: rest) = none :=
  if_neg (by simp [Run.startsWith, hmark])

theorem loneMarksRule_eq_none (hstar : g.isChar '*' = false) (hline : g.isChar '_' = false) :
    loneMarksRule.find? before (g :: rest) = none := by
  simp [loneMarksRule, hstar, hline]

end

/-- No rule finds anything in plain words. -/
theorem idle_rules (dialect : Dialect) (references : References) {text : Run} (h : IsWords text) :
    ∀ rule ∈ rules dialect references, Idle rule text := by
  intro rule hrule before g rest htail
  have hno : ∀ mark ∈ ['`', '\\', '[', '<', '&', '*', '_'], ∀ f ∈ g :: rest, f.isChar mark = false :=
    fun mark hmark f hf ↦ h.hasNo f (htail.subset hf) mark hmark
  have hg : ∀ mark ∈ ['`', '\\', '[', '<', '&', '*', '_'], g.isChar mark = false :=
    fun mark hmark ↦ hno mark hmark g (.head _)
  have hopen := hno '[' (by decide)
  have hangle := hno '<' (by decide)
  have hbreak : ¬ [Glyph.char ' ', .char '\n'] <:+: g :: rest :=
    fun hwithin ↦ h.hasNoBreak (hwithin.trans htail.isInfix)
  rw [rules, List.mem_append, List.mem_append] at hrule
  rcases hrule with (hrule | hrule) | hrule
  · simp only [List.mem_cons, List.not_mem_nil, or_false] at hrule
    rcases hrule with rfl | rfl | rfl | rfl | rfl | rfl | rfl | rfl | rfl | rfl | rfl
    · exact codeRule_eq_none (hno '`' (by decide)) (hg '\\' (by decide))
    · exact escapeRule_eq_none dialect (hg '\\' (by decide))
    · exact referenceRule_eq_none _ _ references hopen
    · exact linkRule_eq_none _ hopen
    · exact linkRule_eq_none _ hopen
    · exact referenceRule_eq_none _ _ references hopen
    · exact referenceRule_eq_none _ _ references hopen
    · exact referenceRule_eq_none _ _ references hopen
    · exact addressRule_eq_none (hg '<' (by decide))
    · exact mailRule_eq_none (hg '<' (by decide))
    · exact breakRule_eq_none hbreak
  · split at hrule
    · rw [List.mem_singleton.mp hrule]
      exact htmlRule_eq_none hangle
    · cases hrule
  · simp only [List.mem_cons, List.not_mem_nil, or_false] at hrule
    rcases hrule with rfl | rfl | rfl | rfl
    · exact entityRule_eq_none (hg '&' (by decide))
    · exact loneMarksRule_eq_none (hg '*' (by decide)) (hg '_' (by decide))
    · exact emphasisRule_eq_none (hg '_' (by decide))
    · exact emphasisRule_eq_none (hg '*' (by decide))

theorem settle_ofChars (cs : List Char) : settle (Run.ofChars cs) = (Run.ofChars cs, []) := by
  induction cs with
  | nil => rfl
  | cons c cs ih =>
    rw [Run.ofChars_cons, settle, ih]

/-- A leaf of text in which there is nothing to read is read as it is. -/
theorem readElement_of_words {dialect : Dialect} {references : References} {text : Run}
    (h : IsWords text) (hsettle : settle text = (text, [])) (tag : String) (fuel : Nat) :
    readElement (rules dialect references) (fuel + 1) (Element.leaf tag text) =
      [Element.leaf tag text] := by
  have happly := apply_of_idle (idle_rules dialect references h)
    (2 * (text.length + 4) * (text.length + 4))
  have hread : settle (applyAll (rules dialect references) text) = (text, []) := by
    rw [applyAll, happly, hsettle]
  cases text with
  | nil => rfl
  | cons g rest =>
    have hwritten : (g :: rest).isEmpty = false := rfl
    rw [readElement]
    simp only [Element.text_leaf, Element.isSealed_leaf, Element.tail_leaf, Element.children_leaf,
      hwritten, hread, Bool.or_false, Bool.false_eq_true, if_false, List.isEmpty_nil, if_true]
    rfl

/-- A leaf of plain words is read as it is. -/
theorem readElement_leaf {dialect : Dialect} {references : References} {cs : List Char}
    (h : IsWords (Run.ofChars cs)) (tag : String) (fuel : Nat) :
    readElement (rules dialect references) (fuel + 1) (Element.leaf tag (Run.ofChars cs)) =
      [Element.leaf tag (Run.ofChars cs)] :=
  readElement_of_words h (settle_ofChars cs) tag fuel

end Inline

/-! ## Plain blocks -/

namespace PlainBlock

theorem isWords (block : PlainBlock) : Inline.IsWords (Run.ofChars block.leaf.words) := by
  refine ⟨fun g hg mark hmark ↦ ?_, ?_⟩
  · obtain ⟨c, hc, rfl⟩ := List.mem_map.mp hg
    have hmarkup : mark ∈ markup := (by decide : ['`', '\\', '[', '<', '&', '*', '_'] ⊆ markup) hmark
    have hfeed : mark ≠ '\n' := ne_of_mem_of_not_mem hmark (by decide)
    simpa using block.leaf.ne_of_mem_words hc hmarkup hfeed
  · rintro ⟨front, back, heq⟩
    obtain ⟨chars, tail, hwords, hfront, hback⟩ := List.map_eq_append_iff.mp heq.symm
    obtain ⟨before, gap, rfl, rfl, hgap⟩ := List.map_eq_append_iff.mp hfront
    obtain rfl : gap = [' ', '\n'] :=
      List.map_injective_iff.mpr (fun _ _ ↦ Glyph.char.inj) hgap
    cases block with
    | paragraph lines hasLines arePlain =>
      have hsplit : splitOnChar '\n' (joinWith ['\n'] lines) = lines :=
        splitOnChar_joinWith lines hasLines fun line hline hfeed ↦
          (arePlain line hline).isPlain _ hfeed (by decide)
      have hcut : joinWith ['\n'] lines = before ++ [' '] ++ '\n' :: tail := by
        simpa [leaf] using hwords
      obtain ⟨others, last, hlast⟩ : ∃ others last,
          splitBy (· == '\n') (before ++ [' ']) = others ++ [last ++ [' ']] :=
        splitBy_concat before (by simp)
      rw [hcut, splitOnChar, splitBy_append_cons _ _ rfl, hlast] at hsplit
      have hmem : last ++ [' '] ∈ lines := hsplit ▸ by simp
      have hblank := (arePlain _ hmem).ends ' ' (by simp)
      exact absurd hblank (by decide)
    | heading rank words isRank isPlain isWritten =>
      have hfeed : '\n' ∈ strip words := by
        change strip words = _ at hwords
        simp [hwords]
      exact isPlain _ (mem_of_mem_stripBy hfeed) (by decide)

/-- Plain blocks are read as they are. -/
theorem flatMap_readElement {dialect : Dialect} {references : References}
    (blocks : List PlainBlock) :
    (blocks.map element).flatMap (Inline.readElement (Inline.rules dialect references) Inline.deepest) =
      blocks.map element := by
  induction blocks with
  | nil => rfl
  | cons block blocks ih =>
    rw [List.map_cons, List.flatMap_cons, ih]
    exact congrArg (· ++ _) (Inline.readElement_leaf block.isWords _ 999)

theorem opens_readPage (dialect : Dialect) (references : References) {blocks : List PlainBlock}
    {page : Element} (h : Block.Opens (blocks.map element) page) :
    Block.Opens (blocks.map element) (Inline.readPage dialect references page) := by
  obtain ⟨more, hmore⟩ := h.begins
  refine ⟨h.isPage, h.isBare, h.areLeaves, ?_⟩
  rw [Inline.readPage, Element.children_withChildren, ← hmore, List.flatMap_append,
    flatMap_readElement]
  exact List.prefix_append _ _

theorem readPage_pageOf (dialect : Dialect) (references : References) (blocks : List PlainBlock) :
    Inline.readPage dialect references (pageOf blocks) = pageOf blocks := by
  rw [Inline.readPage, pageOf, Element.children_withChildren, flatMap_readElement]
  rfl

/-! ### Code -/

theorem setCode_of_ne {style tag : String} (h : tag ≠ "pre") (attributes : List (String × Run))
    (text : Run) (isSealed : Bool) (children : List Element) (tail : Run) :
    setCode style (.mk tag attributes text isSealed children tail) =
      (setAllCode style children).map fun set ↦ .mk tag attributes text isSealed set tail := by
  rw [setCode.eq_def]
  dsimp only
  split
  · exact absurd rfl h
  · rfl

theorem setCode_element (style : String) (block : PlainBlock) :
    setCode style block.element = .ok block.element :=
  setCode_of_ne ((by decide : ∀ tag ∈ "p" :: Html.Builder.headingTags, tag ≠ "pre") _
    block.leaf.isKnown) ..

theorem setAllCode_elements {style : String} (blocks : List PlainBlock) {more found : List Element}
    (h : setAllCode style (blocks.map element ++ more) = .ok found) :
    ∃ others, found = blocks.map element ++ others ∧ setAllCode style more = .ok others := by
  induction blocks generalizing found with
  | nil => exact ⟨found, rfl, h⟩
  | cons block blocks ih =>
    rw [List.map_cons, List.cons_append, setAllCode, setCode_element] at h
    obtain ⟨first, hfirst, h⟩ := bind_eq_ok h
    obtain rfl := Except.ok.inj hfirst
    obtain ⟨rest, hrest, heq⟩ := bind_eq_ok h
    obtain rfl := Except.ok.inj heq
    obtain ⟨others, rfl, hothers⟩ := ih hrest
    exact ⟨others, rfl, hothers⟩

theorem opens_setCode {style : String} {blocks : List PlainBlock} {page found : Element}
    (h : Block.Opens (blocks.map element) page) (hset : setCode style page = .ok found) :
    Block.Opens (blocks.map element) found := by
  obtain ⟨tag, attributes, text, isSealed, children, tail⟩ := page
  obtain rfl : tag = "div" := h.isPage
  obtain ⟨more, hmore⟩ : blocks.map element <+: children := h.begins
  rw [setCode_of_ne (by decide)] at hset
  obtain ⟨set, hchildren, rfl⟩ := map_eq_ok hset
  obtain ⟨others, rfl, -⟩ := setAllCode_elements blocks (hmore ▸ hchildren)
  exact ⟨rfl, h.isBare, h.areLeaves, List.prefix_append _ _⟩

theorem setCode_pageOf (style : String) (blocks : List PlainBlock) :
    setCode style (pageOf blocks) = .ok (pageOf blocks) := by
  have hall : setAllCode style (blocks.map element) = .ok (blocks.map element) := by
    induction blocks with
    | nil => rfl
    | cons block blocks ih =>
      rw [List.map_cons, setAllCode, setCode_element, ih]
      rfl
  refine (setCode_of_ne (by decide) ..).trans ?_
  rw [hall]
  rfl

/-! ### Titles -/

theorem glyphWords_ofChars (cs : List Char) : glyphWords (Run.ofChars cs) = Run.ofChars cs := by
  induction cs with
  | nil => rfl
  | cons c cs ih =>
    rw [Run.ofChars_cons, glyphWords, ih]
    rfl

theorem writtenWords_ofChars (cs : List Char) : Page.writtenWords (Run.ofChars cs) = cs := by
  induction cs with
  | nil => rfl
  | cons c cs ih =>
    rw [Page.writtenWords] at ih ⊢
    rw [Run.ofChars_cons, List.flatMap_cons, ih]
    rfl

/-- Text without references is what is read of it. -/
theorem plainText_of_forall {cs : List Char} (h : ∀ c ∈ cs, c ≠ '&') (fuel : Nat) :
    Html.plainText fuel cs = cs := by
  induction fuel generalizing cs with
  | zero => rfl
  | succ fuel ih =>
    cases cs with
    | nil => rfl
    | cons c cs =>
      obtain ⟨hc, hcs⟩ := List.forall_mem_cons.mp h
      rw [Html.plainText, ih hcs]
      · rintro rest rfl
        exact absurd rfl hc
      · rintro rfl
        exact absurd rfl hc

theorem headingText_element (block : PlainBlock) :
    Page.headingText block.element = strip block.leaf.words := by
  have hwords : block.element.words = Run.ofChars block.leaf.words := by
    rw [element, Element.leaf, Element.words, glyphWords_ofChars]
    exact List.append_nil _
  have hamp : ∀ c ∈ block.leaf.words, c ≠ '&' := fun c hc ↦
    block.leaf.ne_of_mem_words hc (by decide) (by decide)
  rw [Page.headingText, hwords, writtenWords_ofChars, plainText_of_forall hamp]

theorem headingIn?_element (block : PlainBlock) :
    Page.headingIn? block.element = block.leaf.heading? := by
  have htext := headingText_element block
  rw [element, Element.leaf] at htext ⊢
  rw [Page.headingIn?, htext, Html.Leaf.heading?]
  change (if (if Markdown.isHeading block.leaf.tag then _ else []).isEmpty then none else some _) =
    if Markdown.isHeading block.leaf.tag && _ then _ else _
  cases Markdown.isHeading block.leaf.tag with
  | false => rfl
  | true =>
    rw [if_pos rfl, isEmpty_strip, Bool.true_and]
    cases hasInk block.leaf.words <;> rfl

theorem headingAmong?_elements (blocks : List PlainBlock) (more : List Element) :
    Page.headingAmong? (blocks.map element ++ more) =
      (blocks.findSome? (·.leaf.heading?)).or (Page.headingAmong? more) := by
  induction blocks with
  | nil => simp
  | cons block blocks ih =>
    rw [List.map_cons, List.cons_append, Page.headingAmong?, headingIn?_element, ih,
      List.findSome?_cons]
    cases block.leaf.heading? <;> simp

/-! ### HTML -/

/-- The element of a block on a line of its own. -/
def laid (block : PlainBlock) : Element :=
  .mk block.leaf.tag [] (Run.ofChars block.leaf.words) false [] [.char '\n']

theorem layBlocks_elements (blocks : List PlainBlock) (more : List Element) :
    layBlocks (blocks.map element ++ more) = blocks.map laid ++ layBlocks more := by
  induction blocks with
  | nil => rfl
  | cons block blocks ih =>
    have htag : isBlockTag block.element.tag = true :=
      (by decide : ∀ tag ∈ "p" :: Html.Builder.headingTags, isBlockTag tag = true) _
        block.leaf.isKnown
    have hlay : layBlock block.element = block.laid := by
      rw [element, Element.leaf, layBlock]
      simp only [List.head?_nil, Option.any_none, Bool.and_false, Bool.false_eq_true, if_false,
        layBlocks, ite_self]
      rfl
    rw [List.map_cons, List.cons_append, layBlocks, ih, if_pos htag, hlay]
    rfl

theorem breakAll_laid (blocks : List PlainBlock) (more : List Element) :
    breakAll (blocks.map laid ++ more) = blocks.map laid ++ breakAll more := by
  induction blocks with
  | nil => rfl
  | cons block blocks ih =>
    have htag : (block.leaf.tag == "br") = false :=
      (by decide : ∀ tag ∈ "p" :: Html.Builder.headingTags, (tag == "br") = false) _
        block.leaf.isKnown
    have hbreak : breakLines block.laid = block.laid := by
      rw [laid, breakLines, htag]
      rfl
    rw [List.map_cons, List.cons_append, breakAll, ih, hbreak]
    rfl

theorem released_ofChars (cs : List Char) : released (Run.ofChars cs) = Run.ofChars cs :=
  List.map_map.trans (List.map_congr_left fun _ _ ↦ rfl)

/-- Text without markup is written as it is. -/
theorem escapeText_of_forall {cs : List Char} (h : ∀ c ∈ cs, c ≠ '&' ∧ c ≠ '<' ∧ c ≠ '>') :
    escapeText false (Run.ofChars cs) = cs := by
  induction cs with
  | nil => rfl
  | cons c cs ih =>
    obtain ⟨⟨hamp, hopen, hclose⟩, hcs⟩ := List.forall_mem_cons.mp h
    rw [Run.ofChars_cons, escapeText.eq_def]
    dsimp only
    rw [ih hcs]
    split <;> first | rfl | simp_all

theorem elementHtml_laid (block : PlainBlock) :
    elementHtml block.laid = block.leaf.html ++ ['\n'] := by
  have hwords : escapeText false (released (Run.ofChars block.leaf.words)) = block.leaf.words := by
    rw [released_ofChars]
    exact escapeText_of_forall fun c hc ↦ ⟨block.leaf.ne_of_mem_words hc (by decide) (by decide),
      block.leaf.ne_of_mem_words hc (by decide) (by decide),
      block.leaf.ne_of_mem_words hc (by decide) (by decide)⟩
  have hvoid : isVoidTag block.leaf.tag = false :=
    (by decide : ∀ tag ∈ "p" :: Html.Builder.headingTags, isVoidTag tag = false) _
      block.leaf.isKnown
  have hattributes : attributesHtml (sortAttributes []) = [] := by
    simp [sortAttributes, attributesHtml]
  have hfeed : escapeText false (released [.char '\n']) = ['\n'] := by decide
  rw [laid, elementHtml, hattributes, hfeed, hwords, hvoid, childrenHtml]
  · simp [Html.Leaf.html]
  · intro html _ hraw
    cases hchars : block.leaf.words with
    | nil => simp [hchars] at hraw
    | cons c cs => simp [hchars] at hraw

theorem childrenHtml_laid {blocks : List PlainBlock} (hne : blocks ≠ []) (more : List Element) :
    childrenHtml (blocks.map laid ++ more) =
      Html.Leaf.htmlOf (blocks.map leaf) ++ '\n' :: childrenHtml more := by
  induction blocks with
  | nil => exact absurd rfl hne
  | cons block blocks ih =>
    rw [List.map_cons, List.cons_append, childrenHtml, elementHtml_laid]
    cases blocks with
    | nil => simp [Html.Leaf.htmlOf, joinWith]
    | cons next rest =>
      rw [ih (List.cons_ne_nil _ _), Html.Leaf.htmlOf, Html.Leaf.htmlOf]
      simp [joinWith_cons_cons]

/-- The content of a page is that of its blocks on lines of their own. -/
theorem pageHtml_eq (page : Element) (htag : page.tag = "div") (htext : page.text = []) :
    ∃ front : List Char, (∀ c ∈ front, isBlank c = true) ∧
      pageHtml page = strip (front ++ childrenHtml (breakAll (layBlocks page.children))) := by
  obtain ⟨tag, attributes, text, isSealed, children, tail⟩ := page
  obtain rfl : tag = "div" := htag
  obtain rfl : text = [] := htext
  refine ⟨_, ?_, rfl⟩
  intro c hc
  rw [layBlock, breakLines] at hc
  dsimp only [Element.text] at hc
  split at hc
  · change c ∈ ['\n'] at hc
    rw [List.mem_singleton.mp hc]
    rfl
  · cases hc

theorem pageHtml_of_opens {blocks : List PlainBlock} (hne : blocks ≠ []) {page : Element}
    (h : Block.Opens (blocks.map element) page) :
    ∃ rest, pageHtml page = Html.Leaf.htmlOf (blocks.map leaf) ++ rest := by
  obtain ⟨more, hmore⟩ := h.begins
  obtain ⟨front, hfront, hpage⟩ := pageHtml_eq page h.isPage h.isBare
  obtain ⟨inner, hinner⟩ := Html.Leaf.htmlOf_eq (mt List.map_eq_nil_iff.mp hne)
  rw [hpage, ← hmore, layBlocks_elements, breakAll_laid, childrenHtml_laid hne, hinner,
    ← List.append_assoc, strip, stripBy_between hfront rfl rfl]
  exact ⟨_, rfl⟩

theorem pageHtml_pageOf {blocks : List PlainBlock} (hne : blocks ≠ []) :
    pageHtml (pageOf blocks) = Html.Leaf.htmlOf (blocks.map leaf) := by
  obtain ⟨front, hfront, hpage⟩ := pageHtml_eq (pageOf blocks) rfl rfl
  obtain ⟨inner, hinner⟩ := Html.Leaf.htmlOf_eq (mt List.map_eq_nil_iff.mp hne)
  have hchildren : (pageOf blocks).children = blocks.map element ++ [] := (List.append_nil _).symm
  have hnothing : childrenHtml (breakAll (layBlocks [])) = [] := rfl
  have hend : stripEnd isBlank ['\n'] = [] := by decide
  rw [hpage, hchildren, layBlocks_elements, breakAll_laid, childrenHtml_laid hne, hinner, hnothing,
    ← List.append_assoc, strip, stripBy_between hfront rfl rfl, hend, List.append_nil]

end PlainBlock

end Guidebook.Markdown
