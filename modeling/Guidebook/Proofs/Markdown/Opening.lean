import Guidebook.Html.Tree
import Guidebook.Markdown.Block

/-!
# The first blocks of a page

A block that is read may go into the list, the quote or the code a page ends with, but never into a
paragraph or a heading. So paragraphs and headings a page begins with stay its first children
whatever blocks follow.
-/

namespace Guidebook.Markdown.Block

/-- A page under way that begins with some paragraphs and headings. -/
structure Opens (leaves : List Element) (page : Element) : Prop where
  isPage : page.tag = "div"
  isBare : page.text = []
  areLeaves : ∀ e ∈ leaves, e.tag ∈ "p" :: Html.Builder.headingTags
  begins : leaves <+: page.children

variable {leaves : List Element} {page : Element}

theorem Opens.push (h : Opens leaves page) (e : Element) : Opens leaves (page.push e) :=
  ⟨h.isPage, h.isBare, h.areLeaves, h.begins.trans (List.prefix_append _ _)⟩

/-- A last child that is no paragraph and no heading may be replaced. -/
theorem Opens.setLast (h : Opens leaves page) {last : Element} (hlast : page.lastChild? = some last)
    (htag : last.tag ∉ "p" :: Html.Builder.headingTags) (e : Element) :
    Opens leaves (page.setLast e) := by
  refine ⟨h.isPage, h.isBare, h.areLeaves, ?_⟩
  obtain ⟨front, hfront⟩ := List.getLast?_eq_some_iff.mp hlast
  have hbegins := h.begins
  rw [hfront] at hbegins
  have hshorter : leaves <+: front := by
    rcases List.prefix_concat_iff.mp hbegins with heq | hprefix
    · exact absurd (h.areLeaves last (by simp [heq])) htag
    · exact hprefix
  show leaves <+: page.children.dropLast ++ [e]
  rw [hfront, List.dropLast_concat]
  exact hshorter.trans (List.prefix_append _ _)

theorem Opens.not_isItem (h : Opens leaves page) : page.isItem = false := by
  rw [Element.isItem, h.isPage]
  decide

theorem Opens.not_isList (h : Opens leaves page) : page.isList = false := by
  rw [Element.isList, h.isPage]
  decide

theorem not_isLeaf_of_isList {e : Element} (h : e.isList = true) :
    e.tag ∉ "p" :: Html.Builder.headingTags := by
  intro hmem
  exact absurd h ((by decide : ∀ tag ∈ "p" :: Html.Builder.headingTags,
    ¬ ["ol", "ul"].contains tag = true) e.tag hmem)

theorem not_isLeaf_of_isCode {e : Element} (h : isCode e = true) :
    e.tag ∉ "p" :: Html.Builder.headingTags := by
  rw [isCode, Bool.and_eq_true, beq_iff_eq] at h
  rw [h.1]
  decide

theorem Opens.extendCode (h : Opens leaves page) (more : Run) :
    Opens leaves (extendCode page more) := by
  rw [Block.extendCode]
  split
  · next last hlast =>
    split
    · next hcode => exact h.setLast hlast (not_isLeaf_of_isCode hcode) _
    · exact h
  · exact h

theorem Opens.addCode (h : Opens leaves page) (block : Run) :
    Opens leaves (addCode page block).1 := by
  rw [Block.addCode]
  dsimp only
  split
  · exact h.extendCode _
  · exact h.push _

theorem Opens.addParagraph (h : Opens leaves page) (block : Run) :
    Opens leaves (addParagraph .page page block) := by
  rw [Block.addParagraph]
  split
  · exact h
  · exact h.push _

/-! ## Readers -/

/-- A reader whose page begins with some paragraphs and headings. -/
def Gives (leaves : List Element) (m : StateM References Element) : Prop :=
  ∀ references, Opens leaves (m.run references).1

variable {α : Type}

theorem Gives.pure (h : Opens leaves page) : Gives leaves (Pure.pure page) := fun _ ↦ h

theorem Gives.bind {m : StateM References Element} {f : Element → StateM References Element}
    (hm : Gives leaves m) (hf : ∀ e, Opens leaves e → Gives leaves (f e)) : Gives leaves (m >>= f) :=
  fun references ↦ hf _ (hm references) _

/-- What is read on the way does not matter. -/
theorem Gives.after {m : StateM References α} {f : α → StateM References Element}
    (hf : ∀ a, Gives leaves (f a)) : Gives leaves (m >>= f) := fun _ ↦ hf _ _

theorem Gives.readLast (h : Opens leaves page) {last : Element}
    (hlast : page.lastChild? = some last) (htag : last.tag ∉ "p" :: Html.Builder.headingTags)
    (change : Element → StateM References Element) : Gives leaves (readLast change page) := by
  rw [Block.readLast, hlast]
  exact .after fun e ↦ .pure (h.setLast hlast htag e)

theorem Gives.ite {p : Prop} [Decidable p] {m n : StateM References Element} (hm : Gives leaves m)
    (hn : Gives leaves n) : Gives leaves (if p then m else n) := by
  split
  · exact hm
  · exact hn

theorem gives_readNested {dialect : Dialect} (fuel : Nat) (h : Opens leaves page) {block : Run}
    (hlist : continuesList .page page block = true) :
    Gives leaves (read.readNested dialect fuel .page page block) := by
  rw [continuesList, h.not_isItem, Bool.false_or, Bool.and_eq_true] at hlist
  obtain ⟨last, hlast, hisList⟩ := Option.any_eq_true _ _ |>.mp hlist.2
  have htag := not_isLeaf_of_isList hisList
  rw [read.readNested.eq_def]
  dsimp only
  rw [h.not_isItem, if_neg Bool.false_ne_true]
  generalize (nesting _ _ _ _).1 = depth
  cases depth with
  | zero =>
    rw [readDeep, h.not_isItem, if_neg Bool.false_ne_true]
    exact .ite (.readLast h hlast htag _) (.after fun e ↦ .pure (h.push e))
  | succ depth =>
    rw [readDeep]
    exact .readLast h hlast htag _

theorem gives_readList {dialect : Dialect} (fuel : Nat) (h : Opens leaves page) (bullet : Bullet)
    (block : Run) : Gives leaves (read.readList dialect fuel page bullet block) := by
  rw [read.readList.eq_def]
  dsimp only
  rw [h.not_isList, if_neg Bool.false_ne_true]
  split
  · next last first others hlast hitems =>
    split
    · next hjoins =>
      have hisList := (Bool.and_eq_true _ _ ▸ hjoins).1
      exact .after fun item ↦ .after fun list ↦
        .pure (h.setLast hlast (not_isLeaf_of_isList hisList) list)
    · exact .after fun list ↦ .pure (h.push list)
  · exact .after fun list ↦ .pure (h.push list)

/-- Whatever blocks follow, a page keeps the paragraphs and headings it begins with. -/
theorem gives_read {dialect : Dialect} (fuel : Nat) (h : Opens leaves page) (blocks : List Run) :
    Gives leaves (read dialect fuel .page page blocks) := by
  induction fuel generalizing page blocks with
  | zero =>
    rw [read.eq_def]
    exact .pure h
  | succ fuel ih =>
    rw [read.eq_def]
    rcases blocks with _ | ⟨_ | ⟨first, rest⟩, blocks⟩
    · exact .pure h
    · exact ih (h.extendCode _) _
    · dsimp only
      split
      · exact ih (h.extendCode _) _
      split
      · next hlist => exact .bind (gives_readNested fuel h hlist) fun e he ↦ ih he _
      split
      · exact ih (h.addCode _) _
      split
      · exact ih (h.push _) _
      split
      · exact .bind (ih h _) fun e he ↦ ih (he.push _) _
      split
      · exact ih (h.push _) _
      split
      · exact .bind (ih h _) fun e he ↦ ih (he.push _) _
      split
      · exact .bind (gives_readList fuel h _ _) fun e he ↦ ih he _
      split
      · refine .bind (ih h _) fun e he ↦ ?_
        split
        · next hquote =>
          obtain ⟨last, hlast, htag⟩ := Option.any_eq_true _ _ |>.mp hquote
          refine .bind (.readLast he hlast ?_ _) fun e he ↦ ih he _
          rw [beq_iff_eq.mp htag]
          decide
        · exact .after fun quote ↦ ih (he.push quote) _
      split
      · exact .after fun _ ↦ ih h _
      · exact ih (h.addParagraph _) _

end Guidebook.Markdown.Block
