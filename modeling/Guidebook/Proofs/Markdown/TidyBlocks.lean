import Guidebook.Proofs.Markdown.Blocks
import Guidebook.Proofs.Markdown.Tidy

/-!
# Tidy blocks

Whatever the blocks of a page say, what is read of them is a tidy tree. Displays of code stand in
paragraphs of their own right below the page: each is cut out as a block of its own that no other
rule fits, so nothing else ever holds one.
-/

namespace Guidebook.Markdown

open Text

/-- A part of a page: a tidy element, or a display of code in a paragraph of its own. -/
def Element.IsPart (displays : List Char → Prop) (e : Element) : Prop :=
  e.IsTidy ∨ ∃ html feeds, displays html ∧
    e = .leaf "p" (.raw html :: List.replicate feeds (.char '\n'))

/-- An element that blocks are read into; only a page holds displays of code. -/
structure Element.Stands (displays : List Char → Prop) (e : Element) : Prop
    extends e.IsFrame (IsPart displays) where
  isPage : ∀ html, displays html → e.tag = "div"

/-- References with tidy links and titles. -/
def References.IsTidy (references : References) : Prop :=
  ∀ r ∈ references, Run.IsTidy r.2.link ∧ ∀ title, r.2.title = some title → Run.IsTidy title

variable {displays : List Char → Prop}

namespace Element

variable {e child last : Element}

theorem IsPart.isTidy (h : e.IsPart displays) (htag : e.tag ≠ "p") : e.IsTidy := by
  rcases h with h | ⟨html, feeds, -, rfl⟩
  · exact h
  · exact absurd rfl htag

/-- Where there are no displays, everything is tidy. -/
theorem stands_iff (hnone : ∀ html, ¬ displays html) : e.Stands displays ↔ e.IsTidy := by
  refine ⟨fun h ↦ isTidy_iff.mpr (h.mono fun e he ↦ he.resolve_right ?_), fun h ↦ ?_⟩
  · rintro ⟨html, _, hdisplay, -⟩
    exact hnone html hdisplay
  · exact ⟨(isTidy_iff.mp h).mono fun e he ↦ .inl he, fun html h ↦ absurd h (hnone html)⟩

theorem stands_nowhere : e.Stands (fun _ ↦ False) ↔ e.IsTidy := stands_iff fun _ ↦ id

theorem IsTidy.push (h : e.IsTidy) (hchild : child.IsTidy) : (e.push child).IsTidy :=
  isTidy_iff.mpr ((isTidy_iff.mp h).push hchild)

theorem IsTidy.setLast (h : e.IsTidy) (hchild : child.IsTidy) : (e.setLast child).IsTidy :=
  isTidy_iff.mpr ((isTidy_iff.mp h).setLast hchild)

theorem IsTidy.leaf {tag : String} (hknown : tag ∈ vocabulary.map (·.1)) {text : Run}
    (htext : text.IsTidy) : (leaf tag text).IsTidy := isTidy_iff.mpr (.leaf hknown htext)

theorem IsTidy.bare {tag : String} (hknown : tag ∈ vocabulary.map (·.1)) : (bare tag).IsTidy :=
  .leaf hknown .nil

theorem IsTidy.withChildren (h : e.IsTidy) {children : List Element}
    (hchildren : ∀ child ∈ children, child.IsTidy) : (e.withChildren children).IsTidy :=
  isTidy_iff.mpr ((isTidy_iff.mp h).withChildren hchildren)

theorem IsTidy.withText (h : e.IsTidy) {text : Run} (htext : text.IsTidy) :
    (e.withText text).IsTidy := isTidy_iff.mpr ((isTidy_iff.mp h).withText htext)

theorem IsTidy.withTail (h : e.IsTidy) {tail : Run} (htail : tail.IsTidy) :
    (e.withTail tail).IsTidy := isTidy_iff.mpr ((isTidy_iff.mp h).withTail htail)

theorem IsTidy.sealText (h : e.IsTidy) : e.sealText.IsTidy :=
  isTidy_iff.mpr (isTidy_iff.mp h).sealText

theorem IsTidy.lastChild? (h : e.IsTidy) (hlast : e.lastChild? = some last) : last.IsTidy :=
  (isTidy_iff.mp h).lastChild? hlast

theorem Stands.push (h : e.Stands displays) (hchild : child.IsTidy) :
    (e.push child).Stands displays :=
  ⟨h.toIsFrame.push (.inl hchild), h.isPage⟩

theorem Stands.setLast (h : e.Stands displays) (hchild : child.IsTidy) :
    (e.setLast child).Stands displays :=
  ⟨h.toIsFrame.setLast (.inl hchild), h.isPage⟩

/-- A last child that is no paragraph is tidy. -/
theorem Stands.lastChild? (h : e.Stands displays) (hlast : e.lastChild? = some last)
    (htag : last.tag ≠ "p") : last.IsTidy :=
  (h.toIsFrame.lastChild? hlast).isTidy htag

theorem tag_of_isList (h : e.isList = true) : e.tag = "ol" ∨ e.tag = "ul" := by
  simpa [isList] using h

theorem ne_p_of_isList (h : e.isList = true) : e.tag ≠ "p" := by
  rcases tag_of_isList h with htag | htag <;> rw [htag] <;> decide

end Element

namespace Block

/-! ## Lines -/

theorem tidy_dedent? {steps : Nat} {line inner : Run} (hline : line.IsTidy)
    (h : dedent? steps line = some inner) : inner.IsTidy := by
  obtain ⟨-, h⟩ := Option.ite_none_right_eq_some.mp h
  exact Option.some.inj h ▸ hline.drop _

theorem tidy_splitNested {lines : List Run} (h : ∀ line ∈ lines, line.IsTidy) :
    (∀ line ∈ (splitNested lines).1, line.IsTidy) ∧ ∀ line ∈ (splitNested lines).2, line.IsTidy := by
  induction lines with
  | nil => exact ⟨nofun, nofun⟩
  | cons line rest ih =>
    obtain ⟨hline, hrest⟩ := List.forall_mem_cons.mp h
    obtain ⟨hnested, hothers⟩ := ih hrest
    rw [splitNested]
    split
    · next inner hinner =>
      exact ⟨List.forall_mem_cons.mpr ⟨tidy_dedent? hline hinner, hnested⟩, hothers⟩
    · split
      · exact ⟨nofun, h⟩
      · exact ⟨List.forall_mem_cons.mpr ⟨.nil, hnested⟩, hothers⟩

theorem tidy_dedentAll {text : Run} (h : text.IsTidy) (steps : Nat) :
    (dedentAll steps text).IsTidy := by
  refine .ofLines fun line hline ↦ ?_
  obtain ⟨whole, hwhole, rfl⟩ := List.mem_map.mp hline
  cases hinner : dedent? steps whole with
  | none => exact h.lines whole hwhole
  | some inner => exact tidy_dedent? (h.lines whole hwhole) hinner

theorem tidy_chunks {text : Run} (h : text.IsTidy) : ∀ block ∈ chunks text, block.IsTidy :=
  fun _ hblock _ hg ↦ h _ (mem_of_mem_chunks hblock hg)

theorem tidy_blockOf {lines : List Run} (h : ∀ line ∈ lines, line.IsTidy) :
    ∀ block ∈ blockOf lines, block.IsTidy := by
  intro block hblock
  rw [blockOf] at hblock
  split at hblock
  · cases hblock
  · exact List.mem_singleton.mp hblock ▸ .ofLines h

/-- What a block is at one of its lines, the lines before it and those behind it. -/
theorem of_splitAtLine? {α : Type} {what : Run → Option α} {lines before after : List Run} {a : α}
    (h : splitAtLine? what lines = some (before, a, after)) :
    ∃ line, what line = some a ∧ lines = before ++ line :: after := by
  induction lines generalizing before with
  | nil => cases h
  | cons line rest ih =>
    rw [splitAtLine?] at h
    split at h
    · next found hfound =>
      obtain ⟨rfl, rfl, rfl⟩ : [] = before ∧ found = a ∧ rest = after := by simpa using h
      exact ⟨line, hfound, rfl⟩
    · obtain ⟨⟨front, found, back⟩, hfound, heq⟩ := Option.map_eq_some_iff.mp h
      obtain ⟨rfl, rfl, rfl⟩ : line :: front = before ∧ found = a ∧ back = after := by simpa using heq
      obtain ⟨at', hat, rfl⟩ := ih hfound
      exact ⟨at', hat, rfl⟩

/-- All lines around the one that a tidy block is split at are tidy, and so is that line. -/
theorem tidy_splitAtLine? {α : Type} {what : Run → Option α} {lines before after : List Run} {a : α}
    (hlines : ∀ line ∈ lines, line.IsTidy)
    (h : splitAtLine? what lines = some (before, a, after)) :
    (∀ line ∈ before, line.IsTidy) ∧ (∃ line : Run, line.IsTidy ∧ what line = some a) ∧
      ∀ line ∈ after, line.IsTidy := by
  obtain ⟨line, hline, rfl⟩ := of_splitAtLine? h
  obtain ⟨hfront, hlines⟩ := List.forall_mem_append.mp hlines
  obtain ⟨htidy, hback⟩ := List.forall_mem_cons.mp hlines
  exact ⟨hfront, ⟨line, htidy, hline⟩, hback⟩

/-! ## Code -/

theorem tidy_codeElement {text : Run} (h : text.IsTidy) : (codeElement text).IsTidy :=
  .withChildren (.bare (by decide)) (List.forall_mem_singleton.mpr (.sealText (.leaf (by decide) h)))

theorem tidy_codeText {e : Element} (h : e.IsTidy) : (codeText e).IsTidy := by
  rw [codeText]
  cases hchildren : e.children with
  | nil => exact .nil
  | cons first rest =>
    have hfirst : first.IsTidy := (Element.isTidy_iff.mp h).children first (hchildren ▸ .head _)
    exact (Element.isTidy_iff.mp hfirst).text

theorem stands_extendCode {parent : Element} (h : parent.Stands displays) {more : Run}
    (hmore : more.IsTidy) : (extendCode parent more).Stands displays := by
  rw [extendCode]
  split
  · next last hlast =>
    split
    · next hcode =>
      have htag : last.tag ≠ "p" := fun hp ↦ not_isLeaf_of_isCode hcode (hp ▸ .head _)
      have htidy := h.lastChild? hlast htag
      exact h.setLast (.withTail (tidy_codeElement ((tidy_codeText htidy).append hmore))
        (Element.isTidy_iff.mp htidy).tail)
    · exact h
  · exact h

theorem stands_addCode {parent : Element} (h : parent.Stands displays) {block : Run}
    (hblock : block.IsTidy) :
    (addCode parent block).1.Stands displays ∧ (addCode parent block).2.IsTidy := by
  obtain ⟨hnested, hothers⟩ := tidy_splitNested hblock.lines
  have hcode := ((Run.IsTidy.ofLines hnested).stripEnd Glyph.isBlank).append (.cons (.char '\n') .nil)
  rw [addCode]
  dsimp only
  refine ⟨?_, .ofLines hothers⟩
  split
  · exact stands_extendCode h (.cons (.char '\n') hcode)
  · exact h.push (tidy_codeElement hcode)

/-! ## Headings -/

theorem headingWords?_subset {line words : Run} (h : headingWords? line = some words) :
    words ⊆ line := by
  induction line using headingWords?.induct generalizing words with
  | case1 => exact Option.some.inj h ▸ List.Subset.refl _
  | case2 g hmark =>
    rw [headingWords?, if_pos hmark] at h
    exact Option.some.inj h ▸ List.nil_subset _
  | case3 g hmark hslash =>
    rw [headingWords?, if_neg hmark, if_pos hslash] at h
    cases h
  | case4 g hmark hslash =>
    rw [headingWords?, if_neg hmark, if_neg hslash] at h
    exact Option.some.inj h ▸ List.Subset.refl _
  | case5 g next rest hmarks =>
    rw [headingWords?, if_pos hmarks] at h
    exact Option.some.inj h ▸ List.nil_subset _
  | case6 g next rest hmarks hslash ih =>
    rw [headingWords?, if_neg hmarks, if_pos hslash] at h
    obtain ⟨more, hmore, rfl⟩ := Option.map_eq_some_iff.mp h
    exact List.cons_subset_cons _ (List.cons_subset_cons _ (ih hmore))
  | case7 g next rest hmarks hslash ih =>
    rw [headingWords?, if_neg hmarks, if_neg hslash] at h
    obtain ⟨more, hmore, rfl⟩ := Option.map_eq_some_iff.mp h
    exact List.cons_subset_cons _ (ih hmore)

theorem tidy_headingElement {rank : Nat} (hrank : 1 ≤ rank ∧ rank ≤ 6) {words : Run}
    (hwords : words.IsTidy) : (headingElement rank words).IsTidy := by
  refine .leaf ?_ hwords
  obtain ⟨hlow, hhigh⟩ := hrank
  interval_cases rank <;> decide

theorem tidy_heading? {line words : Run} {rank : Nat} (hline : line.IsTidy)
    (h : heading? line = some (rank, words)) : (headingElement rank words).IsTidy := by
  rw [heading?] at h
  split at h
  · cases h
  · next hrank =>
    obtain ⟨found, hfound, heq⟩ := Option.map_eq_some_iff.mp h
    obtain ⟨rfl, rfl⟩ := Prod.mk.inj heq
    refine tidy_headingElement ⟨?_, Nat.min_le_left _ _⟩
      (((hline.drop _).subset (headingWords?_subset hfound)).stripBy _)
    exact Nat.one_le_iff_ne_zero.mpr (by simpa using hrank)

theorem underlineRank?_cases {line : Run} {rank : Nat} (h : underlineRank? line = some rank) :
    1 ≤ rank ∧ rank ≤ 6 := by
  rw [underlineRank?] at h
  dsimp only at h
  split at h
  · exact Option.some.inj h ▸ by decide
  · split at h
    · exact Option.some.inj h ▸ by decide
    · cases h

/-! ## Lists -/

theorem bullet?_subset {line text : Run} {bullet : Bullet}
    (h : bullet? line = some (bullet, text)) :
    text ⊆ line := by
  rw [bullet?.eq_def] at h
  dsimp only at h
  split at h
  · next found rest hfound =>
    obtain ⟨-, h⟩ := Option.ite_none_right_eq_some.mp h
    obtain ⟨-, rfl⟩ := Prod.mk.inj (Option.some.inj h)
    refine List.Subset.trans (List.dropWhile_suffix _).subset ?_
    split at hfound
    · obtain ⟨-, hfound⟩ := Option.ite_none_right_eq_some.mp hfound
      obtain ⟨-, rfl⟩ := Prod.mk.inj (Option.some.inj hfound)
      exact List.subset_cons_self _ _
    · cases hfound
    · split at hfound
      · next g behind hdrop =>
        obtain ⟨-, hfound⟩ := Option.ite_none_right_eq_some.mp hfound
        obtain ⟨-, rfl⟩ := Prod.mk.inj (Option.some.inj hfound)
        exact List.Subset.trans (List.subset_cons_self _ _) (hdrop ▸ List.drop_subset _ _)
      · cases hfound
  · cases h

theorem tidy_item? {line text : Run} {bullet : Bullet} (hline : line.IsTidy)
    (h : item? line = some (bullet, text)) : text.IsTidy := by
  obtain ⟨-, h⟩ := Option.ite_none_right_eq_some.mp h
  exact (hline.drop _).subset (bullet?_subset h)

theorem tidy_collectItems {accepts : Bullet → Bool} {items lines : List Run}
    (hitems : ∀ item ∈ items, item.IsTidy) (hlines : ∀ line ∈ lines, line.IsTidy) :
    ∀ item ∈ collectItems accepts items lines, item.IsTidy := by
  induction lines generalizing items with
  | nil => rwa [collectItems]
  | cons line rest ih =>
    obtain ⟨hline, hrest⟩ := List.forall_mem_cons.mp hlines
    rw [collectItems.eq_def]
    dsimp -zeta only
    extract_lets continued
    have hcontinued : ∀ item ∈ continued, item.IsTidy := by
      unfold continued
      split
      · obtain ⟨hlast, hearlier⟩ := List.forall_mem_cons.mp hitems
        exact List.forall_mem_cons.mpr
          ⟨hlast.append (hline.cons (Glyph.IsTidy.char '\n')), hearlier⟩
      · exact List.forall_mem_singleton.mpr hline
    split
    · next bullet text hitem =>
      split
      · exact ih (List.forall_mem_cons.mpr ⟨tidy_item? hline hitem, hitems⟩) hrest
      · exact ih hcontinued hrest
    · split
      · exact ih (List.forall_mem_cons.mpr ⟨hline, hitems⟩) hrest
      · exact ih hcontinued hrest

theorem tidy_items {dialect : Dialect} {tag : String} {block : Run} (h : block.IsTidy) :
    ∀ item ∈ items dialect tag block, item.IsTidy := fun item hitem ↦
  tidy_collectItems (fun _ h ↦ absurd h List.not_mem_nil) h.lines item (List.mem_reverse.mp hitem)

theorem tidy_newList (dialect : Dialect) (bullet : Bullet) : (newList dialect bullet).IsTidy := by
  have hordered : (Element.bare "ol").IsTidy := .bare (by decide)
  rw [newList.eq_def]
  split
  · next digits =>
    split
    · exact hordered
    · refine Element.isTidy_iff.mpr ((Element.isTidy_iff.mp hordered).withAttribute (.ofChars _) ?_)
      exact isKnown_of_mem (by decide : ("ol", ["start"]) ∈ vocabulary) (by decide)
        (List.forall_mem_singleton.mpr (.head _))
  · cases bullet with
    | number digits => exact hordered
    | mark => exact .bare (by decide)

theorem tidy_wrapText {item : Element} (h : item.IsTidy) : (wrapText item).IsTidy := by
  have hparts := Element.isTidy_iff.mp h
  rw [wrapText]
  split
  · exact h
  · exact (h.withText .nil).withChildren
      (List.forall_mem_cons.mpr ⟨.leaf (by decide) hparts.text, hparts.children⟩)

theorem tidy_wrapTail {item : Element} (h : item.IsTidy) : (wrapTail item).IsTidy := by
  rw [wrapTail]
  split
  · next last hlast =>
    have hparts := h.lastChild? hlast
    split
    · exact h
    · exact (h.setLast (hparts.withTail .nil)).push
        (.leaf (by decide) ((Element.isTidy_iff.mp hparts).tail.dropWhile _))
  · exact h

theorem tidy_modifyLast {change : Element → Element} (hchange : ∀ e, e.IsTidy → (change e).IsTidy)
    (n : Nat) {e : Element} (h : e.IsTidy) : (Element.modifyLast change n e).IsTidy := by
  induction n generalizing e with
  | zero => exact hchange e h
  | succ n ih =>
    rw [Element.modifyLast]
    split
    · next child hchild => exact h.setLast (ih (h.lastChild? hchild))
    · exact h

/-! ## Quotes -/

theorem tidy_unquote {line : Run} (h : line.IsTidy) : (unquote line).IsTidy := by
  rw [unquote]
  split
  · exact .nil
  · cases hquoted : quoted? line with
    | none => exact h
    | some text =>
      rw [quoted?] at hquoted
      split at hquoted
      · next g rest hdrop =>
        have hrest : Run.IsTidy rest :=
          (h.drop line.indent).subset (hdrop ▸ List.subset_cons_self _ _)
        obtain ⟨-, hquoted⟩ := Option.ite_none_right_eq_some.mp hquoted
        obtain rfl := Option.some.inj hquoted
        split
        · exact hrest.drop 1
        · exact hrest
      · cases hquoted

/-! ## References -/

theorem tidy_reference? {block before after : Run} {label : List Char} {reference : Reference}
    (hblock : block.IsTidy) (h : reference? block = some (before, (label, reference), after)) :
    before.IsTidy ∧ References.IsTidy [(label, reference)] ∧ after.IsTidy := by
  rw [reference?] at h
  split at h
  · next front found hfind =>
    obtain ⟨skipped, tail, rfl, rfl, hbehind⟩ := Pattern.of_find? hfind
    have htail : Run.IsTidy tail := hblock.subset (List.subset_append_right _ _)
    have hgroup : ∀ n, Run.IsTidy ((found.group n).getD []) := fun n ↦ by
      cases hgroup : found.group n with
      | none => exact .nil
      | some items => exact htail.subset (Pattern.group_subset hbehind hgroup)
    obtain ⟨rfl, ⟨rfl, rfl⟩, rfl⟩ := by simpa using h
    refine ⟨?_, ?_, htail.subset hbehind.rest.subset⟩
    · exact hblock.subset (by simp)
    · refine List.forall_mem_singleton.mpr ⟨((hgroup 2).dropWhile _).stripEnd _, fun title htitle ↦ ?_⟩
      dsimp only at htitle
      obtain ⟨-, htitle⟩ := Option.ite_none_left_eq_some.mp htitle
      rw [← Option.some.inj htitle]
      split
      · exact hgroup 6
      · exact hgroup 5
  · cases h

theorem tidy_further {text : Run} (h : text.IsTidy) (fuel : Nat) :
    References.IsTidy (references?.further fuel text).1 ∧
      Run.IsTidy (references?.further fuel text).2 := by
  induction fuel generalizing text with
  | zero => exact ⟨nofun, h⟩
  | succ fuel ih =>
    rw [references?.further]
    split
    · next reference after hfound =>
      obtain ⟨-, hreference, hafter⟩ := tidy_reference? (h.dropWhile _) hfound
      obtain ⟨hmore, hrest⟩ := ih hafter
      exact ⟨List.forall_mem_append.mpr ⟨hmore, hreference⟩, hrest⟩
    · exact ⟨nofun, h⟩

theorem tidy_references? {block before after : Run} {found : References} (hblock : block.IsTidy)
    (h : references? block = some (before, found, after)) :
    before.IsTidy ∧ References.IsTidy found ∧ after.IsTidy := by
  obtain ⟨⟨front, reference, behind⟩, hfound, heq⟩ := Option.map_eq_some_iff.mp h
  obtain ⟨hfront, hreference, hbehind⟩ := tidy_reference? hblock hfound
  obtain ⟨hmore, hrest⟩ := tidy_further hbehind block.length
  obtain ⟨rfl, rfl, rfl⟩ := by simpa using heq
  exact ⟨hfront, List.forall_mem_append.mpr ⟨hmore, hreference⟩, hrest⟩

end Block

/-! ## Tables -/

namespace Table

theorem tidy_cutAt {row : Run} (h : row.IsTidy) (here : Nat) (places : List Nat) :
    ∀ cell ∈ cutAt here places row, cell.IsTidy := by
  induction places generalizing here row with
  | nil => exact List.forall_mem_singleton.mpr h
  | cons place places ih => exact List.forall_mem_cons.mpr ⟨h.take _, ih (h.drop _) _⟩

theorem tidy_rowCells {row : Run} (h : row.IsTidy) (bordered : Bool) :
    ∀ cell ∈ rowCells bordered row, cell.IsTidy := by
  rw [rowCells]
  split
  · have hinner : Run.IsTidy (if row.startsWith '|' then row.drop 1 else row) := by
      split
      · exact h.drop 1
      · exact h
    revert hinner
    generalize (if row.startsWith '|' then row.drop 1 else row) = inner
    intro hinner
    refine tidy_cutAt ?_ _ _
    cases hend : withoutEndBar? inner with
    | none => exact hinner
    | some without =>
      rw [withoutEndBar?] at hend
      split at hend
      · next g rest hreverse =>
        obtain ⟨-, hend⟩ := Option.ite_none_right_eq_some.mp hend
        obtain rfl := Option.some.inj hend
        exact ((hinner.reverse.subset (hreverse ▸ List.subset_cons_self _ _)).drop _).reverse
      · cases hend
  · exact tidy_cutAt h _ _

theorem tidy_cell {tag : String} (htag : tag = "th" ∨ tag = "td") {text : Run} (h : text.IsTidy)
    (column : Alignment) : (cell tag text column).IsTidy := by
  have hleaf : (Element.leaf tag text).IsTidy := .leaf (by rcases htag with rfl | rfl <;> decide) h
  rw [cell]
  split
  · next style hstyle =>
    refine Element.isTidy_iff.mpr ((Element.isTidy_iff.mp hleaf).withAttribute (.ofChars _) ⟨?_, ?_⟩)
    · exact ⟨["style"], by rcases htag with rfl | rfl <;> simp [vocabulary],
        List.forall_mem_singleton.mpr (.head _)⟩
    · exact List.forall_mem_singleton.mpr fun _ ↦ ⟨column, style, hstyle, rfl⟩
  · exact hleaf

theorem tidy_fillRow {tag : String} (htag : tag = "th" ∨ tag = "td") {texts : List Run}
    (h : ∀ text ∈ texts, text.IsTidy) (columns : List Alignment) :
    ∀ cell ∈ fillRow tag texts columns, cell.IsTidy := by
  induction columns generalizing texts with
  | nil => cases texts <;> exact nofun
  | cons column columns ih =>
    cases texts with
    | nil => exact List.forall_mem_cons.mpr ⟨tidy_cell htag .nil column, ih nofun⟩
    | cons text texts =>
      obtain ⟨htext, htexts⟩ := List.forall_mem_cons.mp h
      exact List.forall_mem_cons.mpr ⟨tidy_cell htag (htext.stripBy _) column, ih htexts⟩

theorem tidy_row (shape : Shape) {tag : String} (htag : tag = "th" ∨ tag = "td") {line : Run}
    (h : line.IsTidy) : (row shape tag line).IsTidy :=
  .withChildren (.bare (by decide)) (tidy_fillRow htag (tidy_rowCells (h.stripBy _) _) _)

theorem tidy_build (shape : Shape) {block : Run} (h : block.IsTidy) :
    (build shape block).IsTidy := by
  have hlines := h.lines
  have hhead : (row shape "th" (block.lines.headD [])).IsTidy := by
    refine tidy_row shape (.inl rfl) ?_
    cases hfirst : block.lines with
    | nil => exact .nil
    | cons line rest => exact hlines line (hfirst ▸ .head _)
  rw [build]
  refine .withChildren (.bare (by decide)) (List.forall_mem_cons.mpr
    ⟨.withChildren (.bare (by decide)) (List.forall_mem_singleton.mpr hhead),
      List.forall_mem_singleton.mpr (.withChildren (.bare (by decide)) ?_)⟩)
  split
  · refine List.forall_mem_singleton.mpr (.withChildren (.bare (by decide)) fun e he ↦ ?_)
    obtain ⟨column, -, rfl⟩ := List.mem_map.mp he
    exact .bare (by decide)
  · next hrows =>
    intro e he
    obtain ⟨line, hline, rfl⟩ := List.mem_map.mp he
    exact tidy_row shape (.inr rfl) (hlines line (List.drop_subset _ _ hline))

end Table

end Guidebook.Markdown
