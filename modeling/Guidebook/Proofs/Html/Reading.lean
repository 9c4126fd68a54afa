import Guidebook.Proofs.Html.Policy

/-!
# Reading keeps to a policy

Every rule for a token only opens, closes, moves and mends elements, so reading a text whose start
tags a policy accepts keeps to the policy; and what is left when the text ends is what the policy
says of the outermost element.
-/

namespace Guidebook.Html

variable {policy : Policy}

/-- Tokens that a policy has read: all but start tags that are not to be read. -/
def Policy.Accepts (policy : Policy) : Token → Prop
  | .start tag => policy.reads tag
  | _ => True

namespace Builder

variable {b : Builder}

/-! ## Rules for one part of a page -/

theorem Holds.ite {p : Prop} [Decidable p] {b₁ b₂ : Builder} (h₁ : b₁.Holds policy)
    (h₂ : b₂.Holds policy) : (if p then b₁ else b₂).Holds policy := by
  split
  · exact h₁
  · exact h₂

/-- What is done for some tags only may rely on the tag. -/
theorem Holds.when {p : Prop} [Decidable p] {b₁ b₂ : Builder} (h₁ : p → b₁.Holds policy)
    (h₂ : b₂.Holds policy) : (if p then b₁ else b₂).Holds policy := by
  split
  · next h => exact h₁ h
  · exact h₂

theorem Holds.resetMode (h : b.Holds policy) : b.resetMode.Holds policy :=
  h.of_eq rfl rfl rfl rfl

theorem Holds.endSelect (h : b.Holds policy) : b.endSelect.Holds policy :=
  h.closeThrough _

section

variable {tag : Tag}

theorem Holds.await (h : b.Holds policy) (hopens : policy.opens .html tag.name tag.attributes)
    (hawaits : policy.awaits) : (b.await tag).Holds policy :=
  have hpush := h.pushHtml hopens
  ⟨hpush.stack, hpush.formats, hpush.fresh, fun _ ↦ hawaits⟩

theorem Holds.startItem (h : b.Holds policy) (tags : List String)
    (hopens : policy.opens .html tag.name tag.attributes) :
    (b.startItem tags tag).Holds policy := by
  rw [Builder.startItem]
  refine Holds.pushHtml (Holds.closeParagraph ?_) hopens
  split
  · exact .ite (h.closeElement _) h
  · exact h

theorem Holds.startTemplate (h : b.Holds policy)
    (hopens : policy.opens .html tag.name tag.attributes) : (b.startTemplate tag).Holds policy :=
  (h.pushHtml hopens).addEdge.of_eq rfl rfl rfl rfl

theorem Holds.startInBody (h : b.Holds policy) (htag : policy.reads tag) :
    (b.startInBody tag).Holds policy := by
  have hopens := policy.opens_tag htag
  have hblock := h.closeParagraph.pushHtml hopens
  have hline := h.reopen.addVoid hopens
  have hspecial : ∀ {tags : List String}, tags ⊆ specialTags → tags.contains tag.name = true →
      policy.awaits ∧ ∀ vocabulary name, policy.opens vocabulary name tag.attributes :=
    fun hsub hname ↦ policy.special htag (hsub (List.contains_iff_mem.mp hname))
  have hspecial' : ∀ name ∈ specialTags, (tag.name == name) = true →
      policy.awaits ∧ ∀ vocabulary name, policy.opens vocabulary name tag.attributes :=
    fun name hmem hname ↦ policy.special htag (eq_of_beq hname ▸ hmem)
  rw [Builder.startInBody]
  -- one step for each kind of tag, in the order of the rules
  refine .ite h <| .ite (h.addVoid hopens) <| .when ?text <| .ite (h.startTemplate hopens) <|
    .ite hblock <| .ite ?heading <| .ite (hblock.of_eq rfl rfl rfl rfl) <| .ite ?form <|
    .ite (h.startItem _ hopens) <| .ite (h.startItem _ hopens) <| .when ?plaintext <|
    .ite ?button <| .ite ?link <| .ite (h.reopen.addFormat hopens) <| .ite ?nobr <|
    .ite (h.reopen.pushHtml hopens).addEdge <| .ite (hblock.of_eq rfl rfl rfl rfl) <| .ite hline <|
    .ite ?input <| .when ?image <| .ite ?rule <| .when ?textarea <| .when ?xmp <|
    .ite ?select <| .ite ?option <| .ite ?ruby <| .ite ?rubyText <| .when ?foreign
    (h.reopen.pushHtml hopens)
  case text => exact fun hname ↦ h.await hopens (hspecial (by decide) hname).1
  case heading => exact .pushHtml (.ite h.closeParagraph.close h.closeParagraph) hopens
  case form => exact .ite hblock (.ite h (hblock.of_eq rfl rfl rfl rfl))
  case plaintext =>
    exact fun hname ↦ h.closeParagraph.await hopens (hspecial' _ (by decide) hname).1
  case button =>
    exact .pushHtml (.reopen (.ite ((h.closeImplied []).closeThrough _) h)) hopens
  case link =>
    refine .addFormat (.reopen ?_) hopens
    split
    · next label _ =>
      have hended := (h.endFormat "a" 8).dropFormat label
      exact .ite (hended.endBelow label) hended
    · exact h
  case nobr => exact .addFormat (.ite (h.reopen.endFormatting "nobr").reopen h.reopen) hopens
  case input => exact .addVoid (.reopen (.ite h.endSelect h)) hopens
  case image => exact fun hname ↦ h.reopen.addVoid ((hspecial' _ (by decide) hname).2 _ _)
  case rule => exact .addVoid (.ite (h.closeParagraph.closeImplied []) h.closeParagraph) hopens
  case textarea =>
    exact fun hname ↦ (h.await hopens (hspecial' _ (by decide) hname).1).of_eq rfl rfl rfl rfl
  case xmp =>
    exact fun hname ↦ h.closeParagraph.reopen.await hopens (hspecial' _ (by decide) hname).1
  case select => exact .ite h.endSelect (h.reopen.pushHtml hopens)
  case option => exact .pushHtml (.reopen (.ite (h.closeImplied _) (.ite h.close h))) hopens
  case ruby => exact .pushHtml (.ite (h.closeImplied []) h) hopens
  case rubyText => exact .pushHtml (.ite (h.closeImplied _) h) hopens
  case foreign =>
    intro hname
    have hall := (hspecial (by decide) hname).2
    exact .ite (h.reopen.push (hall _ _)).close (h.reopen.push (hall _ _))

end

theorem Holds.endForm (h : b.Holds policy) : b.endForm.Holds policy := by
  rw [Builder.endForm]
  split
  · exact .ite (h.closeThrough _) h
  · exact h
  · next label _ _ =>
    have hforgotten : Holds policy { b with form := none } := h.of_eq rfl rfl rfl rfl
    exact .ite hforgotten
      (.ite (hforgotten.closeImplied []).close ((hforgotten.closeImplied []).endBelow label))

theorem Holds.endInBody (h : b.Holds policy) (name : String) : (b.endInBody name).Holds policy := by
  have hparagraph : (b.pushBare "p").Holds policy := h.pushBare (by decide)
  have hbreak : (b.reopen.addVoid ⟨"br", [], false⟩).Holds policy :=
    h.reopen.addVoid (policy.opens_bare "br" (by decide))
  rw [Builder.endInBody]
  refine .ite h <| .ite (.ite ?template h) <| .ite (.ite ((h.closeImplied []).closeThrough _) h) <|
    .ite h.endForm <| .ite (.closeElement (.ite h hparagraph) "p") <|
    .ite (.ite (h.closeElement _) h) <| .ite (.ite (h.closeElement _) h) <|
    .ite (.ite ((h.closeImplied []).closeThrough _) h) <| .ite (h.endFormatting name) <|
    .ite (.ite ((h.closeImplied []).closeThrough _).dropFormats h) <|
    .ite hbreak (h.endOther name)
  case template =>
    have hended := (h.closeThrough (·.isHtml "template")).dropFormats
    exact .resetMode (hended.of_eq rfl rfl rfl rfl)

variable {token : Token}

theorem Holds.inBody (h : b.Holds policy) (htoken : policy.Accepts token) :
    (b.inBody token).Holds policy := by
  cases token with
  | char c => exact .ite h (h.reopen.addNode (policy.holds_text _))
  | start tag => exact h.startInBody htoken
  | stop name => exact h.endInBody name
  | comment => exact h

theorem Holds.besideTable (h : b.Holds policy) (htoken : policy.Accepts token) :
    (b.besideTable token).Holds policy := by
  have hfostering : Holds policy { b with fostering := true } := h.of_eq rfl rfl rfl rfl
  exact (hfostering.inBody htoken).of_eq rfl rfl rfl rfl

theorem Holds.flushPending (h : b.Holds policy) : b.flushPending.Holds policy := by
  have hflushed : Holds policy { b with pending := [] } := h.of_eq rfl rfl rfl rfl
  exact .ite hflushed (.ite (hflushed.addNode (policy.holds_text _))
    (hflushed.foldl fun c _ _ hb ↦ hb.besideTable (show policy.Accepts (.char c) from trivial)))

theorem Holds.endCaption (h : b.Holds policy) : b.endCaption.Holds policy :=
  ((h.closeImplied []).closeThrough _).dropFormats.of_eq rfl rfl rfl rfl

theorem Holds.endCell (h : b.Holds policy) : b.endCell.Holds policy :=
  ((h.closeImplied []).closeThrough _).dropFormats.of_eq rfl rfl rfl rfl

/-- The innermost element may hold what is read, as an element of its own vocabulary. -/
theorem Holds.opens_current (h : b.Holds policy) {tag : Tag} (htag : policy.reads tag) :
    policy.opens ((b.current?.map Open.vocabulary).getD .html) tag.name tag.attributes := by
  have hstack := h.stack
  rw [Builder.current?]
  cases heq : b.stack with
  | nil => exact policy.opens_tag htag
  | cons o rest =>
    rw [heq] at hstack
    rcases hstack.head with hhtml | hadmits
    · simpa [hhtml] using policy.opens_tag htag
    · exact policy.opens_inner hadmits.opens htag

theorem Holds.inForeign? (h : b.Holds policy) (htoken : policy.Accepts token) {b' : Builder}
    (hread : b.inForeign? token = some b') : b'.Holds policy := by
  cases token with
  | char c =>
    obtain rfl := Option.some.inj hread
    exact h.addNode (policy.holds_text _)
  | start tag =>
    obtain ⟨-, hread⟩ := Option.ite_none_left_eq_some.mp hread
    obtain rfl := Option.some.inj hread
    have hopens := h.opens_current htoken
    exact .ite (h.push hopens).close (h.push hopens)
  | stop name =>
    obtain ⟨-, hread⟩ := Option.ite_none_left_eq_some.mp hread
    split at hread
    · obtain rfl := Option.some.inj hread
      exact h.closeThrough _
    · cases hread
  | comment =>
    obtain rfl := Option.some.inj hread
    exact h

/-! ## A token -/

section

variable {again : Builder → Builder} {againIn : Mode → Builder → Builder}
  (hagain : ∀ {b : Builder}, b.Holds policy → (again b).Holds policy)
  (hagainIn : ∀ mode {b : Builder}, b.Holds policy → (againIn mode b).Holds policy)

include hagain hagainIn

theorem Holds.readHtml (h : b.Holds policy) (isStart isStop : List String → Bool)
    (htoken : policy.Accepts token) :
    (read.readHtml again againIn isStart isStop b token).Holds policy := by
  delta read.readHtml
  extract_lets groups cells ignored inTable
  have htable : (inTable b).Holds policy := by
    have hbare := h.closeTo ["table"]
    cases token with
    | char c => exact .ite (.ite h (h.of_eq rfl rfl rfl rfl)) (h.besideTable htoken)
    | start tag =>
      have hopens := policy.opens_tag htoken
      refine .ite ((hbare.addEdge.pushHtml hopens).of_eq rfl rfl rfl rfl) <|
        .ite ((hbare.pushHtml hopens).of_eq rfl rfl rfl rfl) <|
        .ite (hagainIn _ (hbare.pushBare (by decide))) <|
        .ite ((hbare.pushHtml hopens).of_eq rfl rfl rfl rfl) <|
        .ite (hagainIn _ (hbare.pushBare (by decide))) <|
        .ite (.ite (hagain (h.closeThrough _).resetMode) h) <| .ite (h.startInBody htoken) <|
        .ite (h.addVoid hopens) <| .ite (.ite h ((h.addVoid hopens).of_eq rfl rfl rfl rfl))
        (h.besideTable htoken)
    | stop name =>
      exact .ite (.ite (h.closeThrough _).resetMode h) <| .ite (h.endInBody name) <|
        .ite h (h.besideTable htoken)
    | comment => exact h
  split
  · exact h.inBody htoken
  · split
    · exact .ite (h.startInBody htoken) (hagainIn _ (h.of_eq rfl rfl rfl rfl))
    · exact .ite (h.endInBody _) h
    · exact h.inBody htoken
  · exact htable
  · exact .ite (.ite h.endCaption h) <| .ite (.ite (hagain h.endCaption) h) <|
      .ite h (h.inBody htoken)
  · refine .ite (h.addNode (policy.holds_text _)) ?_
    split
    · exact h.addVoid (policy.opens_tag htoken)
    · exact h
    · exact h.startTemplate (policy.opens_tag htoken)
    · exact h.endInBody _
    · exact h
    · exact .ite (h.close.of_eq rfl rfl rfl rfl) h
    · exact .ite (hagainIn _ h.close) h
  · refine .ite ?_ <| .ite (hagainIn _ ((h.closeTo _).pushBare (by decide))) <| .ite ?_ <|
      .ite (.ite (hagainIn _ (h.closeTo _).close) h) <| .ite h htable
    · split
      · exact ((h.closeTo _).pushHtml (policy.opens_tag htoken)).of_eq rfl rfl rfl rfl
      · exact h
    · split
      · exact .ite ((h.closeTo _).close.of_eq rfl rfl rfl rfl) h
      · exact h
  · have hrow := (h.closeTo ["tr"]).close
    refine .ite ?_ <| .ite (.ite (hrow.of_eq rfl rfl rfl rfl) h) <| .ite (.ite (hagainIn _ hrow) h) <|
      .ite ?_ <| .ite h htable
    · split
      · exact ((h.closeTo _).pushHtml (policy.opens_tag htoken)).addEdge.of_eq rfl rfl rfl rfl
      · exact h
    · split
      · exact .ite (hagainIn _ hrow) h
      · exact h
  · refine .ite ?_ <| .ite (.ite (hagain h.endCell) h) <| .ite h <| .ite ?_ (h.inBody htoken)
    · split
      · exact .ite (((h.closeImplied []).closeThrough _).dropFormats.of_eq rfl rfl rfl rfl) h
      · exact h
    · split
      · exact .ite (hagain h.endCell) h
      · exact h

end

theorem Holds.read (h : b.Holds policy) (fuel : Nat) (htoken : policy.Accepts token) :
    (Builder.read fuel b token).Holds policy := by
  induction fuel generalizing b with
  | zero => exact h
  | succ fuel ih =>
    rw [Builder.read.eq_def]
    dsimp -zeta only
    extract_lets again againIn isStart isStop b'
    have hagain : ∀ {b : Builder}, b.Holds policy → (again b).Holds policy := ih
    have hagainIn : ∀ mode {b : Builder}, b.Holds policy → (againIn mode b).Holds policy :=
      fun _ _ h ↦ ih (h.of_eq rfl rfl rfl rfl)
    have hflushed : b'.Holds policy := by
      cases token with
      | char c => exact h
      | start tag => exact h.flushPending
      | stop name => exact h.flushPending
      | comment => exact h.flushPending
    refine .ite ?_ (hflushed.readHtml hagain hagainIn _ _ htoken)
    split
    · next hread => exact hflushed.inForeign? htoken hread
    · split
      · exact .readHtml hagain hagainIn (.ite (hflushed.closeWhile _ _) hflushed) _ _ htoken
      · exact ih (hflushed.closeWhile _ _)

theorem Holds.accept (h : b.Holds policy) (htoken : policy.Accepts token) :
    (b.accept token).Holds policy := by
  have hline : Holds policy { b with skipLine := false } := h.of_eq rfl rfl rfl rfl
  rw [Builder.accept.eq_def]
  dsimp only
  split
  · exact hline.flushPending
  · exact .ite hline (hline.read _ htoken)
  · exact hline.read _ htoken

theorem Holds.acceptText (h : b.Holds policy) (name : String) (cs : List Char) :
    (b.acceptText name cs).1.Holds policy := by
  have hread : Holds policy { b with awaited := none, skipLine := false } :=
    ⟨h.stack, h.formats, h.fresh, nofun⟩
  rw [Builder.acceptText]
  refine Holds.close (.ite hread (hread.withStack ?_))
  have hstack := h.stack
  dsimp only
  split
  · next o rest heq =>
    rw [heq] at hstack
    exact hstack.add (policy.holds_text _)
  · next heq => exact absurd heq h.stack.ne_nil

/-- Reading a text keeps to a policy that has all its tokens read. -/
theorem Holds.readText (h : b.Holds policy) (fuel : Nat) (cs : List Char)
    (htokens : ∀ foreign cs, ∀ token ∈ (nextTokens foreign cs).1, policy.Accepts token) :
    (Builder.readText fuel b cs).Holds policy := by
  induction fuel generalizing b cs with
  | zero => exact h
  | succ fuel ih =>
    cases cs with
    | nil => exact h
    | cons c cs =>
      rw [Builder.readText]
      split
      · exact ih (h.acceptText _ _) _
      · exact ih (h.foldl fun token htoken _ hb ↦ hb.accept (htokens _ _ token htoken)) _

/-! ## The end of a text -/

theorem length_addBeforeTable (node : Node) (stack : List Open) :
    (addBeforeTable node stack).length = stack.length := by
  induction stack with
  | nil => rfl
  | cons o rest ih =>
    cases rest with
    | nil => rfl
    | cons p rest => grind [addBeforeTable]

theorem length_give_le (node : Node) (fostered : Bool) (stack : List Open) :
    (give node fostered stack).length ≤ stack.length := by
  induction stack generalizing node fostered with
  | nil => cases fostered <;> simp [give, addBeforeTable]
  | cons o rest ih =>
    cases fostered with
    | true => exact (length_addBeforeTable node _).le
    | false =>
      rw [give]
      split
      · exact (ih _ _).trans (Nat.le_succ _)
      · rfl

theorem length_close_lt (h : 1 < b.stack.length) : b.close.stack.length < b.stack.length := by
  rcases b with ⟨_ | ⟨o, _ | ⟨p, rest⟩⟩, formats, mode, modes, fresh, pending, fostering, form, skip,
    awaited⟩
  · cases h
  · exact absurd h (Nat.lt_irrefl 1)
  · exact Nat.lt_succ_of_le (length_give_le _ _ _)

/-- All elements but the outermost can be closed. -/
theorem length_closeWhile_le (fuel : Nat) (h : b.stack.length ≤ fuel + 1) :
    (closeWhile (fun _ ↦ true) fuel b).stack.length ≤ 1 := by
  induction fuel generalizing b with
  | zero => exact h
  | succ fuel ih =>
    rw [closeWhile]
    split
    · next hmore =>
      have hlt := length_close_lt (b := b) (by simp_all)
      exact ih (by omega)
    · next hdone =>
      rcases hstack : b.stack with _ | ⟨o, rest⟩
      · exact Nat.zero_le 1
      · simpa [hstack, Builder.current?] using hdone

/-- What is left when a text ends is what the outermost element has. -/
theorem Holds.finish (h : b.Holds policy) : policy.root b.finish.reverse := by
  have hclosed := h.flushPending.closeWhile (fun _ ↦ true) b.flushPending.stack.length
  have hlength := length_closeWhile_le (b := b.flushPending) _ (Nat.le_succ _)
  rw [Builder.finish]
  generalize Builder.closeWhile _ _ _ = closed at hclosed hlength
  have hstack := hclosed.stack
  rcases closed with ⟨_ | ⟨root, _ | ⟨p, rest⟩⟩, formats, mode, modes, fresh, pending, fostering, form,
    skip, awaited⟩
  · exact hstack.elim
  · simpa [Builder.current?] using hstack.2.2
  · exact absurd hlength (by simp)

end Builder

/-! ## What the outermost element has stays -/

/-- Nodes of which the newest is an element, so that no text is added to it. -/
def Finished (nodes : List Node) : Prop :=
  ∃ vocabulary tag attributes children rest,
    nodes = .element vocabulary tag attributes children :: rest

variable {nodes : List Node}

theorem Finished.suffix_add (hnodes : Finished nodes) {o : Open} (h : nodes <:+ o.children)
    (node : Node) : nodes <:+ (o.add node).children := by
  obtain ⟨vocabulary, tag, attributes, children, older, rfl⟩ := hnodes
  rw [Open.add.eq_def]
  split
  · next new old rest heq =>
    -- the text that is added to is newer than all the nodes
    rw [heq] at h
    rcases List.suffix_cons_iff.mp h with h | h
    · cases h
    · exact h.trans (List.suffix_cons _ _)
  · exact h.trans (List.suffix_cons _ _)

/-- Anything may be built, and nodes stay the first children of the outermost element. -/
def Policy.keeping (nodes : List Node) (h : Finished nodes) : Policy where
  reads _ := True
  opens _ _ _ := True
  holds _ := True
  root children := nodes <:+ children
  awaits := True
  opens_tag _ := trivial
  opens_bare _ _ := trivial
  opens_html _ := trivial
  opens_inner _ _ := trivial
  special _ _ := ⟨trivial, fun _ _ ↦ trivial⟩
  holds_text _ := trivial
  holds_element _ _ := trivial
  root_add hroot _ := h.suffix_add hroot _

theorem Policy.accepts_keeping (h : Finished nodes) (token : Token) :
    (Policy.keeping nodes h).Accepts token := by
  cases token <;> trivial

end Guidebook.Html
