import Guidebook.Markdown.Render
import Guidebook.Proofs.Code.Displayed
import Guidebook.Proofs.Markdown.TidyInline
import Guidebook.Proofs.Markdown.TidyReading

/-!
# Written pages

A tree of the elements of Markdown is written as HTML whose start tags are those of its elements and
of the displays of code in it: its text is escaped, and so are the values of its attributes. A page
is rendered from such a tree if none of its fences brings markup of its own.
-/

namespace Guidebook.Markdown

open Code Html

/-! ## Text -/

/-- A character is written without opening brackets, and within an attribute without quotes. -/
theorem escapeText_char (inAttribute : Bool) (c : Char) (rest : Run) :
    ∃ here, escapeText inAttribute (.char c :: rest) = here ++ escapeText inAttribute rest ∧
      '<' ∉ here ∧ (inAttribute = true → '"' ∉ here) := by
  rw [escapeText.eq_def]
  dsimp only
  refine ⟨_, rfl, ?_⟩
  split
  · split
    · exact ⟨by decide, fun _ ↦ by decide⟩
    · exact ⟨by decide, fun _ ↦ by decide⟩
  · exact ⟨by decide, fun _ ↦ by decide⟩
  · exact ⟨by decide, fun _ ↦ by decide⟩
  · split
    · exact ⟨by decide, fun _ ↦ by decide⟩
    · next hin => exact ⟨by decide, fun h ↦ absurd h hin⟩
  · next c _ hopen _ hquote heq =>
    obtain rfl := Glyph.char.inj heq
    exact ⟨fun h ↦ hopen (List.mem_singleton.mp h).symm,
      fun _ h ↦ hquote (List.mem_singleton.mp h).symm⟩
  all_goals next heq => cases heq

/-- Text is written without opening brackets, and within an attribute without quotes. -/
theorem quiet_escapeText (inAttribute : Bool) {text : Run} (h : text.IsTidy) :
    '<' ∉ escapeText inAttribute (released text) ∧
      (inAttribute = true → '"' ∉ escapeText inAttribute (released text)) := by
  induction text with
  | nil => exact ⟨List.not_mem_nil, fun _ ↦ List.not_mem_nil⟩
  | cons g rest ih =>
    obtain ⟨hg, hrest⟩ := List.forall_mem_cons.mp h
    obtain ⟨hopen, hquote⟩ := ih hrest
    have hhere : ∃ here, escapeText inAttribute (released (g :: rest)) =
        here ++ escapeText inAttribute (released rest) ∧
          '<' ∉ here ∧ (inAttribute = true → '"' ∉ here) := by
      cases hg with
      | char c => exact escapeText_char inAttribute c _
      | kept c => exact escapeText_char inAttribute c _
      | held hquiet => exact ⟨_, rfl, hquiet.1, fun _ ↦ hquiet.2⟩
      | amp => exact ⟨['&'], rfl, by decide, fun _ ↦ by decide⟩
      | raw hquiet => exact ⟨_, rfl, hquiet.1, fun _ ↦ hquiet.2⟩
      | node _ => exact ⟨[], rfl, List.not_mem_nil, fun _ ↦ List.not_mem_nil⟩
    obtain ⟨here, heq, hhereOpen, hhereQuote⟩ := hhere
    rw [heq]
    exact ⟨fun hmem ↦ (List.mem_append.mp hmem).elim hhereOpen hopen,
      fun hin hmem ↦ (List.mem_append.mp hmem).elim (hhereQuote hin) (hquote hin)⟩

theorem Run.IsTidy.marked {p : StartTag → Prop} {text : Run} (h : text.IsTidy) :
    Marked p (escapeText false (released text)) :=
  .of_text (quiet_escapeText false h).1

/-! ## Elements -/

/-- An attribute as it is written. -/
def writtenAttribute (a : String × Run) : String × List Char :=
  (a.1, escapeText true (released a.2))

theorem attributesHtml_eq (attributes : List (String × Run)) :
    attributesHtml attributes = (attributes.map writtenAttribute).flatMap attributeHtml := by
  induction attributes with
  | nil => rfl
  | cons a rest ih => simp [attributesHtml, ih, writtenAttribute, attributeHtml]

theorem childrenHtml_eq (children : List Element) :
    childrenHtml children = children.flatMap elementHtml := by
  induction children with
  | nil => rfl
  | cons e rest ih => rw [childrenHtml, ih, List.flatMap_cons]

/-- A tree whose start tags some marks account for once it is written. -/
inductive Element.Writes (marks : List (String × List String)) : Element → Prop
  | mk {tag : String} {attributes : List (String × List Glyph)} {text : List Glyph}
    {isSealed : Bool} {children : List Element} {tail : List Glyph}
    (isMarked : IsMarked marks tag (attributes.map writtenAttribute))
    (areQuoted : ∀ a ∈ attributes.map writtenAttribute, '"' ∉ a.2)
    (htext : Marked (WrittenFor marks) (escapeText false (released text)))
    (hchildren : ∀ child ∈ children, Element.Writes marks child)
    (htail : Marked (WrittenFor marks) (escapeText false (released tail))) :
    Element.Writes marks (.mk tag attributes text isSealed children tail)

variable {marks : List (String × List String)}

/-- Elements that are laid out are still written with their marks. -/
theorem writes_layBlocks {children : List Element} (h : ∀ child ∈ children, child.Writes marks)
    (hlaid : ∀ child ∈ children, (layBlock child).Writes marks) :
    ∀ child ∈ layBlocks children, child.Writes marks := by
  induction children with
  | nil => exact nofun
  | cons e rest ih =>
    obtain ⟨he, hrest⟩ := List.forall_mem_cons.mp h
    obtain ⟨helaid, hrestlaid⟩ := List.forall_mem_cons.mp hlaid
    rw [layBlocks]
    refine List.forall_mem_cons.mpr ⟨?_, ih hrest hrestlaid⟩
    split
    · exact helaid
    · exact he

theorem forall_breakAll {children : List Element}
    (h : ∀ child ∈ children, (breakLines child).Writes marks) :
    ∀ child ∈ breakAll children, child.Writes marks := by
  induction children with
  | nil => exact nofun
  | cons e rest ih =>
    obtain ⟨he, hrest⟩ := List.forall_mem_cons.mp h
    exact List.forall_mem_cons.mpr ⟨he, ih hrest⟩

private theorem marked_feed {p : StartTag → Prop} :
    Marked p (escapeText false (released [.char '\n'])) :=
  .of_text (by decide)

namespace Element.Writes

variable {e : Element}

theorem layBlock (h : e.Writes marks) : (layBlock e).Writes marks := by
  induction h with
  | mk isMarked areQuoted htext hchildren htail ih =>
    rw [Markdown.layBlock]
    refine .mk isMarked areQuoted ?_ ?_ ?_
    · split
      · exact marked_feed
      · exact htext
    · split
      · exact writes_layBlocks hchildren ih
      · exact hchildren
    · split
      · exact marked_feed
      · exact htail

theorem breakLines (h : e.Writes marks) : (breakLines e).Writes marks := by
  induction h with
  | mk isMarked areQuoted htext hchildren htail ih =>
    rw [Markdown.breakLines]
    refine .mk isMarked areQuoted htext (forall_breakAll ih) ?_
    split
    · refine Marked.char (by decide) ?_
      split
      · exact .nil
      · exact htail
    · exact htail

/-- The start tag of an element. -/
private theorem marked_start {tag : String} {attributes : List (String × Run)}
    (isMarked : IsMarked marks tag (attributes.map writtenAttribute))
    (areQuoted : ∀ a ∈ attributes.map writtenAttribute, '"' ∉ a.2) (selfClosing : Bool) :
    Marked (WrittenFor marks) ('<' :: tag.toList ++ attributesHtml (sortAttributes attributes) ++
      tagEnd selfClosing) := by
  have hsub : (sortAttributes attributes).map writtenAttribute ⊆ attributes.map writtenAttribute :=
    List.map_subset _ (List.mergeSort_perm ..).subset
  let t : StartTag := {
    name := tag
    attributes := (sortAttributes attributes).map writtenAttribute
    selfClosing := selfClosing
    isName := isMarked.isName.1
    areNames := fun a ha ↦ isMarked.isName.2 a (hsub ha)
    areQuoted := fun a ha ↦ areQuoted a (hsub ha) }
  rw [attributesHtml_eq]
  exact Marked.of_start (t := t) ⟨_, isMarked, hsub⟩

theorem marked (h : e.Writes marks) : Marked (WrittenFor marks) (elementHtml e) := by
  induction h with
  | @mk tag attributes text isSealed children tail isMarked areQuoted htext hchildren htail ih =>
    have hinner : Marked (WrittenFor marks)
        (escapeText false (released text) ++ childrenHtml children) := by
      rw [childrenHtml_eq]
      exact htext.append (.flatMap ih)
    have hstart := marked_start isMarked areQuoted
    have hstop : Marked (WrittenFor marks) (endTag tag) := .of_stop isMarked.isName.1
    rw [elementHtml.eq_def]
    refine Marked.append ?_ htail
    split
    · next html hbare =>
      split
      · simpa [released, escapeText] using htext
      · simp only [Bool.and_eq_true, beq_iff_eq, List.isEmpty_iff] at hbare
        obtain ⟨⟨rfl, rfl⟩, -⟩ := hbare
        simpa [tagEnd, endTag, sortAttributes, attributesHtml] using
          ((hstart false).append hinner).append hstop
    · split
      · exact hstart true
      · simpa [tagEnd, endTag] using ((hstart false).append hinner).append hstop

end Element.Writes

/-! ## Marks -/

/-- The marks of the displays in a text. -/
def runMarks (text : Run) : List (String × List String) :=
  text.flatMap fun g ↦
    match g with
    | .raw html => if html.contains '<' then displayMarks else []
    | _ => []

mutual

/-- The tags in an element with the names of their attributes, those of displays among them. -/
def Element.marks : Element → List (String × List String)
  | .mk _ _ text _ children _ => runMarks text ++ childMarks children

/-- The tags of elements and in them, with the names of their attributes. -/
def childMarks : List Element → List (String × List String)
  | [] => []
  | e :: rest =>
    (e.tag, e.attributes.map (·.1)) :: (e.marks ++ runMarks e.tail ++ childMarks rest)

end

theorem childMarks_subset {child : Element} {children : List Element} (h : child ∈ children) :
    (child.tag, child.attributes.map (·.1)) ∈ childMarks children ∧
      child.marks ⊆ childMarks children := by
  induction children with
  | nil => cases h
  | cons e rest ih =>
    rw [childMarks]
    rcases List.mem_cons.mp h with rfl | h
    · exact ⟨.head _, fun mark hmark ↦
        .tail _ (List.mem_append_left _ (List.mem_append_left _ hmark))⟩
    · obtain ⟨hmem, hmarks⟩ := ih h
      exact ⟨.tail _ (List.mem_append_right _ hmem), fun mark hmark ↦
        .tail _ (List.mem_append_right _ (hmarks hmark))⟩

/-- The style of a cell is written as it is. -/
theorem IsKnown.isMarked {tag : String} {attributes : List (String × Run)}
    (h : IsKnown tag attributes) (hmark : (tag, attributes.map (·.1)) ∈ marks) :
    IsMarked marks tag (attributes.map writtenAttribute) := by
  obtain ⟨names, hmem, hnames⟩ := h.isNamed
  refine ⟨⟨names, List.mem_append_left _ hmem, ?_⟩, ⟨_, hmark, ?_⟩, fun _ a ha hstyle ↦ ?_⟩
  · exact List.forall_mem_map.mpr hnames
  · exact List.forall_mem_map.mpr fun a ha ↦ List.mem_map_of_mem ha
  · obtain ⟨b, hb, rfl⟩ := List.mem_map.mp ha
    obtain ⟨column, style, hcolumn, hvalue⟩ := h.isAligned b hb hstyle
    have hstyles : ∀ column : Table.Alignment, ∀ style ∈ column.style?,
        String.ofList (escapeText true (released (Run.ofString style))) ∈ cellStyles := by
      intro column
      cases column <;> decide
    rw [writtenAttribute, hvalue]
    exact hstyles column style hcolumn

/-- A display in a paragraph of its own is written as it is. -/
theorem marked_display {html : List Char} (h : IsDisplay html) (feeds : Nat)
    (hmarks : runMarks (.raw html :: List.replicate feeds (.char '\n')) ⊆ marks) :
    Marked (WrittenFor marks)
      (escapeText false (released (.raw html :: List.replicate feeds (.char '\n')))) := by
  have hfeeds : Run.IsTidy (List.replicate feeds (.char '\n')) := fun g hg ↦
    List.eq_of_mem_replicate hg ▸ .char '\n'
  have hhtml : Marked (WrittenFor marks) html := by
    by_cases hopen : '<' ∈ html
    · have hdisplay : displayMarks ⊆ runMarks (.raw html :: List.replicate feeds (.char '\n')) := by
        simp [runMarks, hopen]
      exact h.mono fun t ht ↦ ht.mono (List.Subset.trans hdisplay hmarks)
    · exact .of_text hopen
  exact hhtml.append hfeeds.marked

/-- A tree in which displays stand is written with its marks. -/
theorem Element.Shows.writes {e : Element} (h : e.Shows IsDisplay)
    (hmark : (e.tag, e.attributes.map (·.1)) ∈ marks) (hmarks : e.marks ⊆ marks) :
    e.Writes marks := by
  induction h with
  | @display html feeds h =>
    have hknown : IsKnown "p" [] := isKnown_nil (by decide)
    exact .mk (hknown.isMarked hmark) nofun
      (marked_display h feeds fun mark hin ↦ hmarks (List.mem_append_left _ hin)) nofun .nil
  | @mk tag attributes text isSealed children tail isKnown areTidy htext hchildren htail ih =>
    refine .mk (isKnown.isMarked hmark) ?_ htext.marked (fun child hchild ↦ ?_) htail.marked
    · exact List.forall_mem_map.mpr fun a ha ↦ (quiet_escapeText true (areTidy a ha)).2 rfl
    · obtain ⟨hmem, hsub⟩ := childMarks_subset hchild
      have hchildMarks : childMarks children ⊆ marks := fun mark hin ↦
        hmarks (List.mem_append_right _ hin)
      exact ih child hchild (hchildMarks hmem) fun mark hin ↦ hchildMarks (hsub hin)

/-- A page is written with the marks of its tree. -/
theorem marked_pageHtml {page : Element} (h : page.IsFrame (Element.Shows IsDisplay)) :
    Marked (WrittenFor page.marks) (pageHtml page) := by
  have hchildren : ∀ child ∈ page.children, child.Writes page.marks := by
    intro child hchild
    obtain ⟨hmem, hsub⟩ := childMarks_subset hchild
    have hmarks : childMarks page.children ⊆ page.marks := by
      cases page
      exact fun mark hin ↦ List.mem_append_right _ hin
    exact (h.children child hchild).writes (hmarks hmem) fun mark hin ↦ hmarks (hsub hin)
  have hlaid : ∀ child ∈ layBlocks page.children, child.Writes page.marks :=
    writes_layBlocks hchildren fun child hchild ↦ (hchildren child hchild).layBlock
  obtain ⟨tag, attributes, text, isSealed, children, tail⟩ := page
  rw [pageHtml, layBlock, breakLines, childrenHtml_eq]
  refine (Marked.append ?_ (.flatMap fun child hchild ↦ ?_)).strip
  · dsimp only [Element.text]
    split
    · exact marked_feed
    · exact h.text.marked
  · refine (forall_breakAll (fun child hchild ↦ Element.Writes.breakLines ?_) child hchild).marked
    split at hchild
    · exact hlaid child hchild
    · exact hchildren child hchild

variable {style : String}

/-! ## Fences -/

/-- The fenced block that a line opens: what it says, its code and the lines behind it. -/
def fencedBlock? (line : List Char) (rest : List (List Char)) :
    Option (FenceInfo × List Char × List (List Char)) := do
  let (fence, info) ← openingFence? line
  let (info, inside) ← fenceInfo? info rest
  let (code, after) ← untilFence? fence inside
  pure (info, code.flatMap (· ++ ['\n']), after)

/-- What the fenced blocks among lines say of themselves. -/
def fencesAmong : Nat → List (List Char) → List FenceInfo
  | 0, _ => []
  | _, [] => []
  | fuel + 1, line :: rest =>
    match fencedBlock? line rest with
    | some (info, _, after) => info :: fencesAmong fuel after
    | none => fencesAmong fuel rest

/-- What the fences of a page say of their blocks. -/
def pageFences (text : List Char) : List FenceInfo :=
  let lines := sourceLines (normalizeFences text)
  fencesAmong lines.length lines

theorem setFencesAside_cons (fuel : Nat) (line : List Char) (rest : List (List Char)) :
    setFencesAside style (fuel + 1) (line :: rest) = (match fencedBlock? line rest with
      | some (info, code, after) => do
        let html ← fencedCode style info code
        let rest ← setFencesAside style fuel after
        pure ([] :: [.raw html] :: [] :: rest)
      | none => do
        let rest ← setFencesAside style fuel rest
        pure (Run.ofChars line :: rest)) := rfl

/-- Fences that bring no markup are set aside as displays. -/
theorem areLines_setFencesAside {fuel : Nat} {lines : List (List Char)} {aside : List Run}
    (h : ∀ info ∈ fencesAmong fuel lines, info.IsTame)
    (haside : setFencesAside style fuel lines = .ok aside) : Block.AreLines IsDisplay aside := by
  have hlines : ∀ lines : List (List Char), Block.AreLines IsDisplay (lines.map Run.ofChars) := by
    intro lines
    induction lines with
    | nil => exact .nil
    | cons line rest ih => exact .line line ih
  induction fuel generalizing lines aside with
  | zero => exact Except.ok.inj haside ▸ hlines lines
  | succ fuel ih =>
    cases lines with
    | nil => exact Except.ok.inj haside ▸ .nil
    | cons line rest =>
      rw [setFencesAside_cons] at haside
      rw [fencesAmong] at h
      split at haside
      · next info code after hblock =>
        rw [hblock] at h
        obtain ⟨hinfo, hafter⟩ := List.forall_mem_cons.mp h
        obtain ⟨html, hhtml, haside⟩ := bind_eq_ok haside
        obtain ⟨others, hothers, haside⟩ := bind_eq_ok haside
        obtain rfl := Except.ok.inj haside
        exact .display (isDisplay_fencedCode hinfo hhtml) (ih hafter hothers)
      · next hblock =>
        rw [hblock] at h
        obtain ⟨others, hothers, haside⟩ := bind_eq_ok haside
        obtain rfl := Except.ok.inj haside
        exact .line line (ih h hothers)

/-! ## Indented code -/

theorem mem_setAllCode {elements set : List Element} (h : setAllCode style elements = .ok set)
    {e : Element} (he : e ∈ set) : ∃ from' ∈ elements, setCode style from' = .ok e := by
  induction elements generalizing set with
  | nil =>
    obtain rfl := Except.ok.inj h
    cases he
  | cons first rest ih =>
    rw [setAllCode] at h
    obtain ⟨first', hfirst, h⟩ := bind_eq_ok h
    obtain ⟨rest', hrest, h⟩ := bind_eq_ok h
    obtain rfl := Except.ok.inj h
    rcases List.mem_cons.mp he with rfl | he
    · exact ⟨first, .head _, hfirst⟩
    · obtain ⟨from', hfrom, heq⟩ := ih hrest he
      exact ⟨from', .tail _ hfrom, heq⟩

/-- Indented code is replaced by its display; of other elements only what is in them may be. -/
theorem setCode_cases {e set : Element} (h : setCode style e = .ok set) :
    (e.tag = "pre" ∧ ∃ code html, styledCode style .plain code = .ok html ∧
      set = .leaf "p" [.raw html]) ∨
    ∃ children, setAllCode style e.children = .ok children ∧ set = e.withChildren children := by
  obtain ⟨tag, attributes, text, isSealed, children, tail⟩ := e
  rw [setCode.eq_def] at h
  dsimp only at h
  split at h
  · obtain ⟨html, hhtml, h⟩ := bind_eq_ok h
    exact .inl ⟨rfl, _, html, hhtml, (Except.ok.inj h).symm⟩
  · obtain ⟨children', hchildren, h⟩ := bind_eq_ok h
    exact .inr ⟨children', hchildren, (Except.ok.inj h).symm⟩

/-- Code that is set in a style is displayed. -/
theorem Element.Shows.setCode {e set : Element} (h : e.Shows IsDisplay)
    (hset : setCode style e = .ok set) : set.Shows IsDisplay := by
  induction h generalizing set with
  | @display html feeds h =>
    rcases setCode_cases hset with ⟨htag, -⟩ | ⟨children, hchildren, rfl⟩
    · exact absurd (show "p" = "pre" from htag) (by decide)
    · obtain rfl := Except.ok.inj hchildren
      exact .display feeds h
  | mk isKnown areTidy htext hchildren htail ih =>
    rcases setCode_cases hset with ⟨-, code, html, hhtml, rfl⟩ | ⟨children, hall, rfl⟩
    · exact .display 0 (isDisplay_styledCode isTame_plain hhtml)
    · refine .mk isKnown areTidy htext (fun child hchild ↦ ?_) htail
      obtain ⟨from', hfrom, heq⟩ := mem_setAllCode hall hchild
      exact ih from' hfrom heq

/-! ## Pages as trees -/

/-- The tree of a page, its code set in a style. -/
def pageTree (style : String) (text : List Char) : Except Code.Problem Element := do
  let text := normalizeFences text
  if !Text.hasInk text then pure (.bare "div")
  else
    let lines := sourceLines text
    let (page, references) := Block.readPage .full (← setFencesAside style lines.length lines)
    pure (Inline.readPage .full references (← setCode style page))

/-- A page is rendered from its tree. -/
theorem toHtml_eq (style : String) (text : List Char) :
    toHtml style text = (pageTree style text).map pageHtml := by
  rw [toHtml, pageTree]
  dsimp only
  split
  · rfl
  · cases setFencesAside style _ _ with
    | error problem => rfl
    | ok aside =>
      change (setCode style _ >>= _) = (setCode style _ >>= _).map pageHtml
      cases setCode style (Block.readPage .full aside).1 <;> rfl

/-- A page without markup in its fences is a tree in which displays stand. -/
theorem shows_pageTree {text : List Char} {page : Element}
    (h : ∀ info ∈ pageFences text, info.IsTame) (hpage : pageTree style text = .ok page) :
    page.IsFrame (Element.Shows IsDisplay) := by
  rw [pageTree] at hpage
  dsimp only at hpage
  split at hpage
  · exact Except.ok.inj hpage ▸ .bare (by decide)
  · obtain ⟨aside, haside, hpage⟩ := bind_eq_ok hpage
    obtain ⟨hstands, hreferences⟩ :=
      Block.stands_readPage .full (areLines_setFencesAside h haside)
    generalize Block.readPage .full aside = read at hpage hstands hreferences
    obtain ⟨blocks, references⟩ := read
    obtain ⟨set, hset, hpage⟩ := bind_eq_ok hpage
    obtain rfl := Except.ok.inj hpage
    refine Inline.shows_readPage hreferences ?_
    have hblocks : blocks.IsFrame (Element.Shows IsDisplay) := hstands.mono fun e he ↦
      he.elim Element.IsTidy.shows fun ⟨html, feeds, hhtml, heq⟩ ↦ heq ▸ .display feeds hhtml
    rcases setCode_cases hset with ⟨htag, -⟩ | ⟨children, hchildren, rfl⟩
    · exact absurd (htag.symm.trans (hstands.isPage [] .nil)) (by decide)
    · refine hblocks.withChildren fun child hchild ↦ ?_
      obtain ⟨from', hfrom, heq⟩ := mem_setAllCode hchildren hchild
      exact (hblocks.children from' hfrom).setCode heq

end Guidebook.Markdown
