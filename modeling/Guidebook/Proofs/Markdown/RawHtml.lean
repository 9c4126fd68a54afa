import Guidebook.Markdown.RawHtml
import Guidebook.Proofs.Markdown.Run

/-!
# What stands before the HTML of a page

The search for HTML only ever adds to what it has put out, so the text before the first tag or
reference of a page is the start of what is left when HTML is set aside.
-/

namespace Guidebook.Markdown.RawHtml

variable {α β : Type}

/-- A part of a search that takes nothing back. -/
def Adds (m : Searching α) : Prop := ∀ s, s.output <:+ (m.run s).2.output

theorem Adds.pure (a : α) : Adds (Pure.pure a) := fun _ ↦ List.suffix_refl _

theorem Adds.get : Adds (MonadState.get : Searching Search) := fun _ ↦ List.suffix_refl _

theorem Adds.bind {m : Searching α} {f : α → Searching β} (hm : Adds m) (hf : ∀ a, Adds (f a)) :
    Adds (m >>= f) := fun s ↦ (hm s).trans (hf _ _)

theorem Adds.ite {p : Prop} [Decidable p] {m n : Searching α} (hm : Adds m) (hn : Adds n) :
    Adds (if p then m else n) := by
  split
  · exact hm
  · exact hn

/-- A step that is taken or not, and what comes after it. -/
theorem Adds.when {p : Prop} [Decidable p] {m : Searching Unit} {f : Unit → Searching β}
    (hm : Adds m) (hf : ∀ u, Adds (f u)) : Adds (if p then m >>= f else f ()) :=
  .ite (hm.bind hf) (hf ())

/-- One of two steps, and what comes after either. -/
theorem Adds.branch {p : Prop} [Decidable p] {m n : Searching α} {f : α → Searching β}
    (hm : Adds m) (hn : Adds n) (hf : ∀ a, Adds (f a)) : Adds (if p then m >>= f else n >>= f) :=
  .ite (hm.bind hf) (hn.bind hf)

/-- What does not touch the output takes nothing back. -/
theorem Adds.change {f : Search → Search} (h : ∀ s, (f s).output = s.output) :
    Adds (modify f : Searching Unit) := fun s ↦ by
  show s.output <:+ (f s).output
  exact h s ▸ List.suffix_refl _

theorem adds_advance (cs : List Char) : Adds (advance cs) :=
  .change fun s ↦ by dsimp only; split <;> rfl

theorem adds_lineStart : Adds lineStart := fun _ ↦ List.suffix_refl _

theorem adds_here : Adds here :=
  adds_lineStart.bind fun _ ↦ Adds.get.bind fun _ ↦ .pure _

theorem adds_atLineStart : Adds atLineStart :=
  Adds.get.bind fun _ ↦ .ite (.pure _) (.ite (.pure _) (adds_lineStart.bind fun _ ↦ .pure _))

theorem adds_emit (text : Run) : Adds (emit text) := fun _ ↦ List.suffix_cons _ _

theorem adds_keep (cs : List Char) : Adds (keep cs) := .change fun _ ↦ rfl

theorem adds_words (cs : List Char) : Adds (words cs) :=
  .when (.change fun _ ↦ rfl) fun _ ↦ Adds.get.bind fun _ ↦ .ite (adds_keep cs) (adds_emit _)

theorem adds_other (isBlock : Bool) (kept : List Char) : Adds (other isBlock kept) :=
  Adds.get.bind fun _ ↦ .ite (adds_keep kept) <| adds_atLineStart.bind fun _ ↦
    .ite
      (adds_here.bind fun _ ↦ .when (.change fun _ ↦ rfl) fun _ ↦ .when (adds_emit _) fun _ ↦
        (adds_emit _).bind fun _ ↦ adds_emit _)
      (adds_emit _)

theorem adds_openTag (tag : String) (written : List Char) : Adds (openTag tag written) := by
  have hplace : ∀ inTail : Bool, Adds (pure inTail <||> atLineStart) := fun inTail ↦ by
    cases inTail with
    | true => exact .pure true
    | false => exact adds_atLineStart
  have hrest : Adds (do
      if (← get).inside then
        modify fun s ↦ { s with stack := tag :: s.stack }
        keep written
      else
        emit (Run.ofChars written)
        if isHolder tag then modify fun s ↦ { s with holder := none }) :=
    Adds.get.bind fun _ ↦ .ite (.bind (.change fun _ ↦ rfl) fun _ ↦ adds_keep written)
      ((adds_emit _).bind fun _ ↦ .ite (.change fun _ ↦ rfl) (.pure _))
  exact .when (.change fun _ ↦ rfl) fun _ ↦ .ite (adds_other _ written) <|
    .ite
      (Adds.get.bind fun _ ↦ (hplace _).bind fun _ ↦
        .ite (.bind (.change fun _ ↦ rfl) fun _ ↦ (adds_emit _).bind fun _ ↦ hrest) hrest)
      hrest

theorem adds_closeTag (tag : String) : Adds (closeTag tag) :=
  adds_here.bind fun _ ↦ Adds.get.bind fun _ ↦ .ite (adds_emit _) <|
    (adds_keep _).bind fun _ ↦ .bind (.change fun _ ↦ rfl) fun _ ↦ Adds.get.bind fun _ ↦
      .ite
        (adds_here.bind fun _ ↦
          have hend : ∀ _ : Unit, Adds (do
              modify fun s ↦ { s with inside := false }
              emit [.raw (← get).cache]
              emit (Run.ofString "\n\n")
              modify fun s ↦ { s with cache := [] }) := fun _ ↦
            .bind (.change fun _ ↦ rfl) fun _ ↦ Adds.get.bind fun _ ↦ (adds_emit _).bind fun _ ↦
              (adds_emit _).bind fun _ ↦ .change fun _ ↦ rfl
          .ite ((adds_keep _).bind hend) (.bind (.change fun _ ↦ rfl) hend))
        (.pure _)

theorem adds_isApart : Adds isApart := Adds.get.bind fun _ ↦ .pure _

theorem adds_take (piece : HtmlPiece) (written : List Char) : Adds (take piece written) := by
  cases piece with
  | words => exact adds_words written
  | opening tag => exact adds_openTag tag written
  | lone tag => exact adds_other _ written
  | closing tag exact =>
    exact (adds_closeTag tag).bind fun _ ↦ .ite (.change fun _ ↦ rfl) (.pure _)
  | comment kept => exact adds_isApart.bind fun _ ↦ adds_other _ kept
  | other isBlock kept => exact adds_other isBlock kept

private theorem run_get (s : Search) (f : Search → Searching α) : (get >>= f).run s = (f s).run s :=
  rfl

/-- A round puts out the text before what it finds first, and takes nothing back behind that. -/
theorem run_round_some {isLast : Bool} {fuel : Nat} {c : Char} {cs text : List Char} {s : Search}
    (hround : ∀ cs, Adds (round isLast fuel cs))
    (htext : textBefore? s.holder (c :: cs) = some text) :
    ∃ f, Adds f ∧ (round isLast (fuel + 1) (c :: cs)).run s =
      (if !text.isEmpty then words text >>= fun _ ↦ f else f).run s := by
  refine ⟨?behind, ?adds, ?run⟩
  case run =>
    rw [round.eq_def]
    dsimp only
    rw [run_get, htext]
  case adds =>
    have hplace : Adds (do if ← atLineStart then return true else return (← get).inTail) :=
      adds_atLineStart.bind fun _ ↦ .ite (.pure _) (Adds.get.bind fun _ ↦ .pure _)
    refine (adds_advance text).bind fun _ ↦ .branch hplace (.pure false) fun mayBeBlock ↦ ?_
    split
    · exact (adds_take _ _).bind fun _ ↦ (adds_advance _).bind fun _ ↦ hround _
    · exact .ite (.pure _) ((adds_words _).bind fun _ ↦ (adds_advance _).bind fun _ ↦ hround _)
    · exact .when (adds_words _) fun _ ↦ (adds_advance _).bind fun _ ↦ .pure _

theorem run_round_none {isLast : Bool} {fuel : Nat} {c : Char} {cs : List Char} {s : Search}
    (htext : textBefore? s.holder (c :: cs) = none) :
    (round isLast (fuel + 1) (c :: cs)).run s =
      (if s.holder.isSome then pure (c :: cs)
        else do
          words (c :: cs)
          advance (c :: cs)
          pure []).run s := by
  rw [round.eq_def]
  dsimp only
  rw [run_get, htext]

/-- A round puts out what it finds behind what is there. -/
theorem adds_round (isLast : Bool) (fuel : Nat) (cs : List Char) : Adds (round isLast fuel cs) := by
  induction fuel generalizing cs with
  | zero => exact .pure cs
  | succ fuel ih =>
    cases cs with
    | nil => exact .pure []
    | cons c cs =>
      intro s
      cases htext : textBefore? s.holder (c :: cs) with
      | none =>
        rw [run_round_none htext]
        exact Adds.ite (.pure _)
          ((adds_words _).bind fun _ ↦ (adds_advance _).bind fun _ ↦ .pure _) s
      | some text =>
        obtain ⟨f, hf, hrun⟩ := run_round_some ih htext
        rw [hrun]
        exact Adds.ite ((adds_words text).bind fun _ ↦ hf) hf s

/-- Text without brackets and references stands before all that is found. -/
theorem textBefore?_append {front : List Char} (hfront : ∀ c ∈ front, c ≠ '<' ∧ c ≠ '&')
    (rest : List Char) :
    textBefore? none (front ++ rest) = (textBefore? none rest).map (front ++ ·) := by
  induction front with
  | nil => simp
  | cons c front ih =>
    obtain ⟨⟨hopen, hamp⟩, hfront⟩ := List.forall_mem_cons.mp hfront
    rw [List.cons_append, textBefore?, ih hfront]
    simp [hopen, hamp, Function.comp_def]

theorem run_advance (cs : List Char) (s : Search) :
    ∃ s', (advance cs).run s = ((), s') ∧ s'.output = s.output ∧ s'.cache = s.cache := by
  refine ⟨_, rfl, ?_⟩
  dsimp only
  split <;> exact ⟨rfl, rfl⟩

/-- Outside of elements text is put out. -/
theorem run_words (cs : List Char) {s : Search} (h : s.inside = false) :
    ∃ s', (words cs).run s = ((), s') ∧ s'.output = Run.ofChars cs :: s.output ∧
      s'.cache = s.cache := by
  have hput : ∀ s : Search, s.inside = false →
      (do if (← get).inside then keep cs else emit (Run.ofChars cs) : Searching Unit).run s =
        ((), { s with output := Run.ofChars cs :: s.output }) := by
    intro s h
    rw [run_get, if_neg (by simp [h])]
    rfl
  rw [words]
  split
  · exact ⟨_, hput { s with inTail := false } h, rfl, rfl⟩
  · exact ⟨_, hput s h, rfl, rfl⟩

/-- The first thing put out is text up to the first piece. -/
theorem output_round {front : List Char} (rest : List Char) (hne : front ≠ [])
    (hfront : ∀ c ∈ front, c ≠ '<' ∧ c ≠ '&') (fuel : Nat) :
    ∃ more, [Run.ofChars (front ++ more)] <:+
      ((round false (fuel + 1) (front ++ rest)).run (Search.start (front ++ rest))).2.output := by
  obtain ⟨c, cs, hcs⟩ : ∃ c cs, front ++ rest = c :: cs :=
    List.exists_cons_of_ne_nil (by simp [hne])
  have htext := textBefore?_append hfront rest
  rw [hcs] at htext ⊢
  have hput : ∀ cs' : List Char, ∀ f : Searching (List Char), Adds f →
      [Run.ofChars cs'] <:+ ((words cs' >>= fun _ ↦ f).run (Search.start (c :: cs))).2.output := by
    intro cs' f hf
    have hstart : (Search.start (c :: cs)).inside = false := rfl
    obtain ⟨s, hrun, hout, -⟩ := run_words cs' hstart
    rw [StateT.run_bind, hrun]
    exact hout ▸ hf s
  cases hrest : textBefore? none rest with
  | none =>
    rw [hrest] at htext
    refine ⟨rest, ?_⟩
    rw [run_round_none htext, hcs]
    exact hput _ _ ((adds_advance _).bind fun _ ↦ .pure _)
  | some before =>
    rw [hrest] at htext
    obtain ⟨f, hf, hrun⟩ := run_round_some (s := Search.start (c :: cs)) (adds_round false fuel) htext
    refine ⟨before, ?_⟩
    rw [hrun, if_pos (by simp [hne])]
    exact hput _ f hf

/-- Text in front of a page in which no HTML begins stays in front. -/
theorem setAside_append {front : List Char} (hne : front ≠ [])
    (hfront : ∀ c ∈ front, c ≠ '<' ∧ c ≠ '&') (rest : List Char) :
    ∃ more, Run.ofLines (setAside (front ++ rest)) = Run.ofChars front ++ more := by
  obtain ⟨more, hout⟩ := output_round rest hne hfront (front ++ rest).length
  have hbehind : ∀ k : List Char → Searching Unit, (∀ left, Adds (k left)) → ∃ more,
      ((round false ((front ++ rest).length + 1) (front ++ rest) >>= k).run
        (Search.start (front ++ rest))).2.output.reverse.flatten = Run.ofChars front ++ more := by
    intro k hk
    obtain ⟨later, hlater⟩ := hout.trans (hk ((round false _ _).run (Search.start _)).1 _)
    refine ⟨Run.ofChars more ++ later.reverse.flatten, ?_⟩
    have hflat := congrArg (fun out : List Run ↦ out.reverse.flatten) hlater.symm
    refine hflat.trans ?_
    simp
  rw [setAside, Run.ofLines_lines]
  refine hbehind _ fun left ↦ .bind (.change fun _ ↦ rfl) fun _ ↦ (adds_round true _ _).bind fun _ ↦
    .when (adds_words _) fun _ ↦ Adds.get.bind fun _ ↦ .ite (adds_emit _) (.pure _)

/-- A page in which no HTML begins stays as it is. -/
theorem setAside_of_forall {text : List Char} (htext : ∀ c ∈ text, c ≠ '<' ∧ c ≠ '&') :
    Run.ofLines (setAside text) = Run.ofChars text := by
  rw [setAside, Run.ofLines_lines]
  have hnone : textBefore? none text = none := by
    simpa [textBefore?] using textBefore?_append htext []
  cases text with
  | nil => rfl
  | cons c cs =>
    have hstart : (Search.start (c :: cs)).inside = false := rfl
    obtain ⟨s₁, hwords, hout, hcache⟩ := run_words (c :: cs) hstart
    obtain ⟨s₂, hadvance, hout', hcache'⟩ := run_advance (c :: cs) s₁
    have hround : (round false ((c :: cs).length + 1) (c :: cs)).run (Search.start (c :: cs)) =
        ([], s₂) := by
      rw [run_round_none (s := Search.start (c :: cs)) hnone, if_neg (by simp [Search.start]),
        StateT.run_bind, hwords]
      show (advance (c :: cs) >>= fun _ ↦ pure []).run s₁ = _
      rw [StateT.run_bind, hadvance]
      rfl
    dsimp only
    rw [StateT.run_bind, hround]
    show ((if !s₂.cache.isEmpty then emit [.raw s₂.cache] else pure () : Searching Unit).run
      { s₂ with page := [] }).2.output.reverse.flatten = _
    rw [hcache', hcache, if_neg (by simp [Search.start])]
    show s₂.output.reverse.flatten = _
    rw [hout', hout]
    simp [Search.start]

end Guidebook.Markdown.RawHtml
