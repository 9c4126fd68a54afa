import Mathlib.Data.List.Infix
import Guidebook.Html.Tree

/-!
# What reading HTML may build

A policy says which start tags are read, which elements may be opened for them, which nodes elements
may hold and what the outermost element has. If it is closed under the ways in which elements are
opened and filled, then whatever opens, closes, is mended or moved keeps to it. The outermost
element is the only one numbered zero, so no rule of formatting ever picks it.
-/

namespace Guidebook.Html

/-- Tags that are not read as mere elements: their content is text, they are read as another tag, or
they begin another vocabulary. -/
def specialTags : List String :=
  ["title", "noframes", "style", "script", "iframe", "noembed", "noscript", "plaintext", "textarea",
    "xmp", "image", "svg", "math"]

/-- Elements that are opened for tags that were left out. -/
def bareTags : List String := ["br", "colgroup", "p", "tbody", "tr"]

/-- What may be built from HTML. -/
structure Policy where
  /-- Start tags that are read. -/
  reads : Tag → Prop
  /-- Elements that may be opened in the outermost one. -/
  opens : Vocabulary → String → List Attribute → Prop
  /-- Nodes that elements may hold. -/
  holds : Node → Prop
  /-- What the outermost element may have for children, the newest first. -/
  root : List Node → Prop
  /-- Whether the content of an element may be read as text. -/
  awaits : Prop
  opens_tag : ∀ {tag : Tag}, reads tag → opens .html tag.name tag.attributes
  opens_bare : ∀ tag ∈ bareTags, opens .html tag []
  opens_html : ∀ {vocabulary tag attributes}, opens vocabulary tag attributes →
    opens .html tag attributes
  opens_inner : ∀ {vocabulary tag attributes} {inner : Tag}, opens vocabulary tag attributes →
    reads inner → opens vocabulary inner.name inner.attributes
  special : ∀ {tag : Tag}, reads tag → tag.name ∈ specialTags →
    awaits ∧ ∀ vocabulary name, opens vocabulary name tag.attributes
  holds_text : ∀ content, holds (.text content)
  holds_element : ∀ {vocabulary tag attributes children}, opens vocabulary tag attributes →
    (∀ node ∈ children, holds node) → holds (.element vocabulary tag attributes children)
  root_add : ∀ {o : Open} {node : Node}, root o.children → holds node → root (o.add node).children

variable {policy : Policy}

/-- An element in the outermost one keeps to a policy. -/
structure Policy.Admits (policy : Policy) (o : Open) : Prop where
  label : o.label ≠ 0
  opens : policy.opens o.vocabulary o.tag o.attributes
  holds : ∀ node ∈ o.children, policy.holds node

/-- Open elements keep to a policy. The outermost one is of HTML, and it alone is numbered zero. -/
def Rooted (policy : Policy) : List Open → Prop
  | [] => False
  | [o] => o.label = 0 ∧ o.vocabulary = .html ∧ policy.root o.children
  | o :: p :: rest => policy.Admits o ∧ Rooted policy (p :: rest)

theorem Rooted.ne_nil {stack : List Open} (h : Rooted policy stack) : stack ≠ [] := by
  rintro rfl
  exact h

theorem rooted_cons {o : Open} {stack : List Open} (hne : stack ≠ []) :
    Rooted policy (o :: stack) ↔ policy.Admits o ∧ Rooted policy stack := by
  cases stack with
  | nil => exact absurd rfl hne
  | cons p rest => rfl

theorem rooted_append {front stack : List Open} (hne : stack ≠ []) :
    Rooted policy (front ++ stack) ↔ (∀ o ∈ front, policy.Admits o) ∧ Rooted policy stack := by
  induction front with
  | nil => simp
  | cons o front ih =>
    rw [List.cons_append, rooted_cons (by simp [hne]), ih, List.forall_mem_cons, and_assoc]

/-- The innermost element is the outermost one, or it keeps to the policy. -/
theorem Rooted.head {o : Open} {rest : List Open} (h : Rooted policy (o :: rest)) :
    o.vocabulary = .html ∨ policy.Admits o := by
  cases rest with
  | nil => exact .inl h.2.1
  | cons p rest => exact .inr h.1

/-! ## One element -/

@[simp] theorem Open.label_add (node : Node) (o : Open) : (o.add node).label = o.label := by
  rw [Open.add.eq_def]
  split <;> rfl

@[simp] theorem Open.vocabulary_add (node : Node) (o : Open) :
    (o.add node).vocabulary = o.vocabulary := by
  rw [Open.add.eq_def]
  split <;> rfl

@[simp] theorem Open.tag_add (node : Node) (o : Open) : (o.add node).tag = o.tag := by
  rw [Open.add.eq_def]
  split <;> rfl

@[simp] theorem Open.attributes_add (node : Node) (o : Open) :
    (o.add node).attributes = o.attributes := by
  rw [Open.add.eq_def]
  split <;> rfl

/-- An element that is given a node holds it, or holds its text behind that of the newest one. -/
theorem Open.mem_children_add {node other : Node} {o : Open} (h : other ∈ (o.add node).children) :
    other = node ∨ (∃ content, other = .text content) ∨ other ∈ o.children := by
  rw [Open.add.eq_def] at h
  split at h
  · next old rest heq =>
    rcases List.mem_cons.mp h with rfl | h
    · exact .inr (.inl ⟨_, rfl⟩)
    · exact .inr (.inr (heq ▸ .tail _ h))
  · exact (List.mem_cons.mp h).imp_right .inr

theorem Policy.Admits.add {o : Open} (h : policy.Admits o) {node : Node}
    (hnode : policy.holds node) : policy.Admits (o.add node) where
  label := by simpa using h.label
  opens := by simpa using h.opens
  holds other hother := by
    rcases Open.mem_children_add hother with rfl | ⟨content, rfl⟩ | hother
    · exact hnode
    · exact policy.holds_text content
    · exact h.holds other hother

/-- What an element may hold, its own finished element may be held for. -/
theorem Policy.Admits.holds_node {o : Open} (h : policy.Admits o) : policy.holds o.node := by
  refine policy.holds_element h.opens fun node hnode ↦ ?_
  split at hnode
  · cases hnode
  · exact h.holds node (List.mem_reverse.mp hnode)

/-- Only the number, the tag and the children matter. -/
theorem Policy.Admits.of_eq {o p : Open} (h : policy.Admits o) (hlabel : p.label ≠ 0)
    (hvocabulary : p.vocabulary = o.vocabulary) (htag : p.tag = o.tag)
    (hattributes : p.attributes = o.attributes) (hholds : ∀ node ∈ p.children, policy.holds node) :
    policy.Admits p :=
  ⟨hlabel, hvocabulary ▸ htag ▸ hattributes ▸ h.opens, hholds⟩

theorem Rooted.add {o : Open} {rest : List Open} (h : Rooted policy (o :: rest)) {node : Node}
    (hnode : policy.holds node) : Rooted policy (o.add node :: rest) := by
  cases rest with
  | nil =>
    exact ⟨(o.label_add node).trans h.1, (o.vocabulary_add node).trans h.2.1,
      policy.root_add h.2.2 hnode⟩
  | cons p rest => exact ⟨h.1.add hnode, h.2⟩

/-- Elements may be marked as ended. -/
theorem Rooted.map {stack : List Open} (h : Rooted policy stack) {f : Open → Open}
    (hf : ∀ o, ∃ ended, f o = { o with ended }) : Rooted policy (stack.map f) := by
  induction stack with
  | nil => exact h
  | cons o rest ih =>
    obtain ⟨ended, heq⟩ := hf o
    cases rest with
    | nil =>
      rw [List.map_cons, heq]
      exact h
    | cons p rest =>
      have hrest := ih h.2
      rw [List.map_cons, heq, rooted_cons hrest.ne_nil]
      exact ⟨h.1.of_eq h.1.label rfl rfl rfl h.1.holds, hrest⟩

namespace Builder

theorem rooted_addBeforeTable {stack : List Open} (h : Rooted policy stack) {node : Node}
    (hnode : policy.holds node) : Rooted policy (addBeforeTable node stack) := by
  induction stack with
  | nil => exact h
  | cons o rest ih =>
    cases rest with
    | nil => exact h.add hnode
    | cons p rest =>
      rw [addBeforeTable]
      split
      · exact h.add hnode
      · split
        · exact ⟨h.1, h.2.add hnode⟩
        · have hrest := ih h.2
          exact (rooted_cons hrest.ne_nil).mpr ⟨h.1, hrest⟩

theorem rooted_give {stack : List Open} (h : Rooted policy stack) {node : Node}
    (hnode : policy.holds node) (fostered : Bool) : Rooted policy (give node fostered stack) := by
  induction stack generalizing node fostered with
  | nil => exact absurd rfl h.ne_nil
  | cons o rest ih =>
    cases fostered with
    | true => exact rooted_addBeforeTable h hnode
    | false =>
      rw [give]
      split
      · next hended =>
        have hne : rest ≠ [] := by
          rintro rfl
          simp at hended
        obtain ⟨hadmits, hrest⟩ := (rooted_cons hne).mp h
        exact ih hrest (hadmits.add hnode).holds_node _
      · exact h.add hnode

/-- A builder that keeps to a policy: formatting is never looked for in the outermost element. -/
structure Holds (policy : Policy) (b : Builder) : Prop where
  stack : Rooted policy b.stack
  formats : ∀ label tag attributes, .element label tag attributes ∈ b.formats →
    label ≠ 0 ∧ policy.opens .html tag attributes
  fresh : b.fresh ≠ 0
  awaited : b.awaited.isSome → policy.awaits

variable {b : Builder}

/-! ## Opening and closing -/

/-- Only the open elements, the formatting and what is awaited matter. -/
theorem Holds.of_eq (h : b.Holds policy) {b' : Builder} (hstack : b'.stack = b.stack)
    (hformats : b'.formats = b.formats) (hfresh : b'.fresh = b.fresh)
    (hawaited : b'.awaited = b.awaited) : b'.Holds policy :=
  ⟨hstack ▸ h.stack, hformats ▸ h.formats, hfresh ▸ h.fresh, hawaited ▸ h.awaited⟩

theorem Holds.withStack (h : b.Holds policy) {stack : List Open} (hstack : Rooted policy stack) :
    Holds policy { b with stack } :=
  ⟨hstack, h.formats, h.fresh, h.awaited⟩

theorem Holds.addNode (h : b.Holds policy) {node : Node} (hnode : policy.holds node) :
    (b.addNode node).Holds policy := by
  rcases b with ⟨_ | ⟨o, rest⟩, formats, mode, modes, fresh, pending, fostering, form, skip, awaited⟩
  · exact h
  · rw [Builder.addNode]
    dsimp only
    split
    · exact h.withStack (rooted_addBeforeTable h.stack hnode)
    · exact h.withStack (h.stack.add hnode)

theorem Holds.close (h : b.Holds policy) : b.close.Holds policy := by
  rw [Builder.close]
  split
  · next o p rest heq =>
    have hstack := h.stack
    rw [heq] at hstack
    exact h.withStack (rooted_give hstack.2 hstack.1.holds_node _)
  · exact h

theorem Holds.endBelow (h : b.Holds policy) (label : Nat) : (b.endBelow label).Holds policy := by
  refine h.withStack (h.stack.map fun o ↦ ?_)
  split
  · exact ⟨true, rfl⟩
  · exact ⟨o.ended, rfl⟩

theorem Holds.closeWhile (h : b.Holds policy) (p : Open → Bool) (fuel : Nat) :
    (Builder.closeWhile p fuel b).Holds policy := by
  induction fuel generalizing b with
  | zero => exact h
  | succ fuel ih =>
    rw [Builder.closeWhile]
    split
    · exact ih h.close
    · exact h

theorem Holds.closeThrough (h : b.Holds policy) (p : Open → Bool) :
    (Builder.closeThrough p b).Holds policy :=
  (h.closeWhile _ _).close

theorem Holds.push (h : b.Holds policy) {vocabulary : Vocabulary} {tag : String}
    {attributes : List Attribute} (hopens : policy.opens vocabulary tag attributes) :
    (b.push vocabulary tag attributes).Holds policy :=
  ⟨(rooted_cons h.stack.ne_nil).mpr ⟨⟨h.fresh, hopens, nofun⟩, h.stack⟩, h.formats,
    Nat.succ_ne_zero _, h.awaited⟩

theorem Holds.pushHtml (h : b.Holds policy) {tag : Tag}
    (hopens : policy.opens .html tag.name tag.attributes) : (b.pushHtml tag).Holds policy :=
  h.push hopens

theorem Holds.pushBare (h : b.Holds policy) {tag : String} (htag : tag ∈ bareTags) :
    (b.pushBare tag).Holds policy :=
  h.push (policy.opens_bare tag htag)

theorem Holds.addVoid (h : b.Holds policy) {tag : Tag}
    (hopens : policy.opens .html tag.name tag.attributes) : (b.addVoid tag).Holds policy :=
  (h.pushHtml hopens).close

theorem Holds.closeImplied (h : b.Holds policy) (tags : List String) :
    (b.closeImplied tags).Holds policy :=
  h.closeWhile _ _

theorem Holds.closeElement (h : b.Holds policy) (tag : String) :
    (b.closeElement tag).Holds policy :=
  (h.closeImplied _).closeThrough _

theorem Holds.closeParagraph (h : b.Holds policy) : b.closeParagraph.Holds policy := by
  rw [Builder.closeParagraph]
  split
  · exact h.closeElement _
  · exact h

theorem Holds.closeTo (h : b.Holds policy) (tags : List String) : (b.closeTo tags).Holds policy :=
  h.closeWhile _ _

/-! ## Formatting -/

theorem Holds.withFormats (h : b.Holds policy) {formats : List Format}
    (hformats : ∀ label tag attributes, .element label tag attributes ∈ formats →
      label ≠ 0 ∧ policy.opens .html tag attributes) :
    Holds policy { b with formats } :=
  ⟨h.stack, hformats, h.fresh, h.awaited⟩

theorem Holds.dropFormats (h : b.Holds policy) : b.dropFormats.Holds policy :=
  h.withFormats fun _ _ _ hmem ↦
    h.formats _ _ _ ((List.dropWhile_sublist _).subset (List.mem_of_mem_drop hmem))

theorem Holds.dropFormat (h : b.Holds policy) (label : Nat) : (b.dropFormat label).Holds policy :=
  h.withFormats fun _ _ _ hmem ↦ h.formats _ _ _ (List.mem_filter.mp hmem).1

theorem Holds.addEdge (h : b.Holds policy) : b.addEdge.Holds policy :=
  h.withFormats fun _ _ _ hmem ↦ h.formats _ _ _ ((List.mem_cons.mp hmem).resolve_left nofun)

/-- Formatting that has just begun is remembered. -/
theorem Holds.addFormat (h : b.Holds policy) {tag : Tag}
    (hopens : policy.opens .html tag.name tag.attributes) :
    (b.pushHtml tag).addFormat.Holds policy := by
  have hpush := h.pushHtml hopens
  rw [Builder.addFormat]
  split
  · next o hcurrent =>
    have hnew : o.label ≠ 0 ∧ policy.opens .html o.tag o.attributes := by
      obtain rfl := Option.some.inj hcurrent
      exact ⟨h.fresh, hopens⟩
    refine hpush.withFormats fun label t attributes hmem ↦ ?_
    rcases List.mem_append.mp hmem with hmem | hmem
    · rcases List.mem_cons.mp hmem with heq | hmem
      · obtain ⟨rfl, rfl, rfl⟩ := Format.element.inj heq
        exact hnew
      · have hrecent : .element label t attributes ∈
            (b.pushHtml tag).formats.takeWhile (· != .edge) := by
          split at hmem
          · rcases List.mem_append.mp (List.mem_reverse.mp hmem) with hmem | hmem
            · exact List.mem_reverse.mp ((List.takeWhile_sublist _).subset hmem)
            · exact List.mem_reverse.mp
                ((List.dropWhile_sublist _).subset (List.mem_of_mem_drop hmem))
          · exact hmem
        exact hpush.formats _ _ _ ((List.takeWhile_sublist _).subset hrecent)
    · exact hpush.formats _ _ _ (List.mem_of_mem_drop hmem)
  · exact hpush

/-- A format may take on the number of the next element. -/
theorem Holds.renumber (h : b.Holds policy) (old : Format) {label : Nat} (hlabel : label ≠ 0)
    {tag : String} {attributes : List Attribute} (hopens : policy.opens .html tag attributes) :
    Holds policy { b with formats := b.formats.map fun f ↦
      if f == old then .element label tag attributes else f } := by
  refine h.withFormats fun other t a hmem ↦ ?_
  obtain ⟨f, hf, heq⟩ := List.mem_map.mp hmem
  split at heq
  · obtain ⟨rfl, rfl, rfl⟩ := Format.element.inj heq
    exact ⟨hlabel, hopens⟩
  · exact h.formats _ _ _ (heq ▸ hf)

theorem Holds.foldl {α : Type} {step : Builder → α → Builder} {items : List α}
    (hstep : ∀ a ∈ items, ∀ {b : Builder}, b.Holds policy → (step b a).Holds policy)
    (h : b.Holds policy) : (items.foldl step b).Holds policy := by
  induction items generalizing b with
  | nil => exact h
  | cons a items ih =>
    exact ih (fun a ha ↦ hstep a (.tail _ ha)) (hstep a (.head _) h)

theorem Holds.reopen (h : b.Holds policy) : b.reopen.Holds policy := by
  rw [Builder.reopen]
  refine Holds.foldl (fun f hf b hb ↦ ?_) h
  cases f with
  | edge => exact hb
  | element label tag attributes =>
    have hopens := (h.formats label tag attributes
      ((List.takeWhile_sublist _).subset (List.mem_reverse.mp hf))).2
    exact (hb.push hopens).renumber _ hb.fresh hopens

theorem Holds.endOther (h : b.Holds policy) (tag : String) : (b.endOther tag).Holds policy := by
  rw [Builder.endOther]
  split
  · split
    · exact (h.closeImplied _).closeThrough _
    · exact h
  · exact h

/-- Elements closed one into another may be held. -/
theorem holds_nest {stack : List Open} (h : ∀ o ∈ stack, policy.Admits o) {node : Node}
    (hnest : nest stack = some node) : policy.holds node := by
  induction stack generalizing node with
  | nil => cases hnest
  | cons o inner ih =>
    obtain ⟨ho, hinner⟩ := List.forall_mem_cons.mp h
    rw [nest] at hnest
    split at hnest
    · next found hfound =>
      obtain rfl := Option.some.inj hnest
      exact (ho.add (ih hinner hfound)).holds_node
    · obtain rfl := Option.some.inj hnest
      exact ho.holds_node

/-- Formatting that goes on in a block is numbered anew. -/
theorem Holds.reopenBetween (h : b.Holds policy) (count : Nat) (between : List Open)
    (hbetween : ∀ o ∈ between, policy.Admits o) :
    (∀ o ∈ (b.reopenBetween count between).1, policy.Admits o) ∧
      (b.reopenBetween count between).2.Holds policy ∧
      (b.reopenBetween count between).2.stack = b.stack := by
  induction between generalizing b count with
  | nil => exact ⟨nofun, h, rfl⟩
  | cons o rest ih =>
    obtain ⟨ho, hmore⟩ := List.forall_mem_cons.mp hbetween
    rw [Builder.reopenBetween]
    split
    · have hnext : Holds policy { b with fresh := b.fresh + 1 } :=
        ⟨h.stack, h.formats, Nat.succ_ne_zero _, h.awaited⟩
      obtain ⟨houter, hrest, hstack⟩ :=
        ih (hnext.renumber (.element o.label o.tag o.attributes) h.fresh
          (policy.opens_html ho.opens)) (count + 1) hmore
      refine ⟨fun p hp ↦ ?_, hrest, hstack⟩
      rcases List.mem_append.mp hp with hp | hp
      · exact houter p hp
      · obtain rfl := List.mem_singleton.mp hp
        exact ho.of_eq h.fresh rfl rfl rfl nofun
    · exact ih (h.dropFormat o.label) (count + 1) hmore

theorem label_of_format? {tag : String} {label : Nat} (h : b.Holds policy)
    (hformat : b.format? tag = some label) : label ≠ 0 := by
  obtain ⟨f, hf, heq⟩ := List.exists_of_findSome?_eq_some hformat
  cases f with
  | edge => cases heq
  | element l t attributes =>
    obtain ⟨-, heq⟩ := Option.ite_none_right_eq_some.mp heq
    obtain rfl := Option.some.inj heq
    exact (h.formats _ _ _ ((List.takeWhile_sublist _).subset hf)).1

/-- An element of formatting has elements around it, the outermost among them. -/
private theorem rooted_outer {label : Nat} (hlabel : label ≠ 0) (h : Rooted policy b.stack)
    {format : Open} {outer : List Open}
    (heq : b.stack.dropWhile (·.label != label) = format :: outer) :
    (∀ o ∈ b.stack.takeWhile (·.label != label), policy.Admits o) ∧ policy.Admits format ∧
      Rooted policy outer := by
  rw [← List.takeWhile_append_dropWhile (p := (·.label != label)) (l := b.stack), heq,
    rooted_append (List.cons_ne_nil _ _)] at h
  have hformat : format.label = label := by
    have hhead := List.head?_dropWhile_not (·.label != label) b.stack
    rw [heq] at hhead
    simpa using hhead
  refine ⟨h.1, ?_⟩
  cases outer with
  | nil => exact absurd (hformat.symm.trans h.2.1) hlabel
  | cons p rest => exact h.2

/-- Elements of formatting that go on in a block stand around and in it. -/
private theorem Holds.replant (h : b.Holds policy) {inner : List Open}
    (hinner : ∀ o ∈ inner, policy.Admits o) :
    Holds policy { b with stack := inner.reverse ++ b.stack } :=
  h.withStack ((rooted_append h.stack.ne_nil).mpr
    ⟨fun o ho ↦ hinner o (List.mem_reverse.mp ho), h.stack⟩)

/-- Elements that move into another place may be held there, beside a table or not. -/
private theorem admits_moved {moved : List Open} (h : ∀ o ∈ moved, policy.Admits o)
    (fostered : Bool) :
    ∀ o ∈ (match moved with
      | [] => []
      | o :: rest => { o with fostered } :: rest), policy.Admits o := by
  cases moved with
  | nil => nofun
  | cons first rest =>
    obtain ⟨hfirst, hrest⟩ := List.forall_mem_cons.mp h
    exact List.forall_mem_cons.mpr ⟨hfirst.of_eq hfirst.label rfl rfl rfl hfirst.holds, hrest⟩

/-- Formatting is remembered at another place, under the number of the element that goes on. -/
private theorem opens_replaced {formats : List Format}
    (h : ∀ l t a, .element l t a ∈ formats → l ≠ 0 ∧ policy.opens .html t a) {fresh : Nat}
    {tag : String} {attributes : List Attribute}
    (hfresh : fresh ≠ 0 ∧ policy.opens .html tag attributes) (anchor label : Nat) :
    ∀ l t a, .element l t a ∈ (formats.flatMap fun f ↦
      match f with
      | .element l _ _ =>
        if l == anchor then
          .element fresh tag attributes :: (if l == label then [] else [f])
        else if l == label then [] else [f]
      | .edge => [f]) → l ≠ 0 ∧ policy.opens .html t a := by
  intro l t a hmem
  obtain ⟨f, hf, hmem⟩ := List.mem_flatMap.mp hmem
  have hold := h l t a
  cases f <;> grind

theorem Holds.endFormat (h : b.Holds policy) (tag : String) (fuel : Nat) :
    (Builder.endFormat tag fuel b).Holds policy := by
  induction fuel generalizing b with
  | zero => exact h
  | succ fuel ih =>
    rw [Builder.endFormat]
    split
    · exact h.endOther tag
    · next label hformat =>
      split
      · exact h.dropFormat label
      split
      · exact h
      dsimp only
      split
      · next format outer hstack =>
        obtain ⟨hinner, hadmits, houter⟩ := rooted_outer (label_of_format? h hformat) h.stack hstack
        split
        · exact (h.closeThrough _).dropFormat label
        · next block deeper hblock =>
          have hdeeper : ∀ o ∈ block :: deeper, policy.Admits o := fun o ho ↦
            hinner o (List.mem_reverse.mp (List.mem_of_mem_drop (hblock ▸ ho)))
          have hplain : ∀ o ∈ (b.stack.takeWhile (·.label != label)).reverse.takeWhile
              (fun o ↦ o.ended || !o.isSpecial), policy.Admits o := fun o ho ↦
            hinner o (List.mem_reverse.mp ((List.takeWhile_sublist _).subset ho))
          obtain ⟨haround, hbetween, hsame⟩ := h.reopenBetween 0
            (((b.stack.takeWhile (·.label != label)).reverse.takeWhile
              fun o ↦ o.ended || !o.isSpecial).reverse.filter (!·.ended))
            fun o ho ↦ hplain o (List.mem_reverse.mp (List.mem_filter.mp ho).1)
          generalize b.reopenBetween 0 _ = found at *
          obtain ⟨around, b'⟩ := found
          dsimp only at *
          have hfirst := hdeeper block (.head _)
          have hmoved : ∀ o ∈ around ++ [{ block with children := [], fostered := false }],
              policy.Admits o := by
            intro o ho
            rcases List.mem_append.mp ho with ho | ho
            · exact haround o ho
            · rw [List.mem_singleton.mp ho]
              exact hfirst.of_eq hfirst.label rfl rfl rfl nofun
          have hopens := opens_replaced hbetween.formats
            ⟨hbetween.fresh, policy.opens_html hadmits.opens⟩
          refine ih (Holds.replant ?_ fun o ho ↦ ?_)
          · have hgoes : ∀ {stack formats}, Rooted policy stack →
                (∀ l t a, .element l t a ∈ formats → l ≠ 0 ∧ policy.opens .html t a) →
                Holds policy { b' with stack, fresh := b'.fresh + 1, formats } :=
              fun hstack hformats ↦ ⟨hstack, hformats, Nat.succ_ne_zero _, hbetween.awaited⟩
            cases hnest : nest (format :: _) with
            | none => exact hgoes houter (hopens _ _)
            | some node =>
              exact hgoes (rooted_give houter
                (holds_nest (List.forall_mem_cons.mpr ⟨hadmits, hplain⟩) hnest) _) (hopens _ _)
          · rcases List.mem_append.mp ho with ho | ho
            · exact admits_moved hmoved _ o ho
            · rcases List.mem_cons.mp ho with rfl | ho
              · exact hadmits.of_eq hbetween.fresh rfl rfl rfl hfirst.holds
              · exact hdeeper o (.tail _ ho)
      · exact h

theorem Holds.endFormatting (h : b.Holds policy) (tag : String) :
    (b.endFormatting tag).Holds policy := by
  rw [Builder.endFormatting]
  split
  · split
    · exact h.close
    · exact h.endFormat tag 8
  · exact h

end Builder

end Guidebook.Html
