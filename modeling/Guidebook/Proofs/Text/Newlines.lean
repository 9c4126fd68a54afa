import Guidebook.Proofs.Text.Split

/-!
# Line ends

A carriage return ends a line just as a line feed does, and the two together end one. What lines a
text has can be seen from what lies between its line feeds.
-/

namespace Guidebook.Text

/-! ## Splitting -/

/-- What stands between separators, with separators between it, is the text. -/
theorem joinWith_splitOnChar (sep : Char) (cs : List Char) :
    joinWith [sep] (splitOnChar sep cs) = cs := by
  induction cs with
  | nil => rfl
  | cons c cs ih =>
    obtain ⟨first, others, hsplit⟩ := List.exists_cons_of_ne_nil (splitBy_ne_nil (p := (· == sep)) cs)
    rw [splitOnChar] at ih ⊢
    rw [splitBy, hsplit]
    rw [hsplit] at ih
    by_cases hc : c = sep
    · subst hc
      simp [joinWith, ih]
    · rw [if_neg (by simpa using hc), ← ih]
      cases others <;> rfl

/-- Pieces hold no separator. -/
theorem not_mem_of_mem_splitOnChar {sep : Char} {cs piece : List Char}
    (h : piece ∈ splitOnChar sep cs) : sep ∉ piece := by
  intro hsep
  have hfalse := (of_mem_splitBy h hsep).1
  simp at hfalse

/-- Text that loses other characters than the separator loses them piece by piece. -/
theorem splitOnChar_filter {sep : Char} {keep : Char → Bool} (h : keep sep = true)
    (cs : List Char) :
    splitOnChar sep (cs.filter keep) = (splitOnChar sep cs).map (List.filter keep) := by
  induction cs with
  | nil => rfl
  | cons c cs ih =>
    rw [splitOnChar] at ih ⊢
    by_cases hc : c = sep
    · subst hc
      rw [List.filter_cons_of_pos h]
      simp [splitBy, ih, splitOnChar]
    · obtain ⟨first, others, hsplit⟩ :=
        List.exists_cons_of_ne_nil (splitBy_ne_nil (p := (· == sep)) cs)
      rw [splitOnChar, hsplit] at ih
      rw [splitOnChar, splitBy, if_neg (by simpa using hc), hsplit, List.filter_cons]
      split
      · next hkeep => simp [splitBy, hc, ih, hkeep]
      · next hkeep => simp [ih, hkeep]

/-! ## Both line ends -/

/-- A carriage return that no line feed follows is made one. -/
theorem universalNewlines_return {rest : List Char} (h : rest.head? ≠ some '\n') :
    universalNewlines ('\r' :: rest) = '\n' :: universalNewlines rest := by
  rw [universalNewlines]
  rintro other rfl
  exact h rfl

theorem universalNewlines_cons {c : Char} (hc : c ≠ '\r') (rest : List Char) :
    universalNewlines (c :: rest) = c :: universalNewlines rest := by
  rw [universalNewlines]
  · rintro other heq -
    exact hc heq
  · rintro heq
    exact hc heq

/-- Text comes apart anywhere but between a carriage return and its line feed. -/
theorem universalNewlines_append {front : List Char} (back : List Char)
    (h : front.getLast? = some '\r' → back.head? ≠ some '\n') :
    universalNewlines (front ++ back) = universalNewlines front ++ universalNewlines back := by
  have hlast {c : Char} {rest : List Char} (h : (c :: rest).getLast? = some '\r' →
      back.head? ≠ some '\n') : rest.getLast? = some '\r' → back.head? ≠ some '\n' :=
    fun hrest ↦ h (by simp [List.getLast?_cons, hrest])
  induction front using universalNewlines.induct with
  | case1 => rfl
  | case2 rest ih => simp [universalNewlines, ih (hlast (hlast h))]
  | case3 rest hpair ih =>
    have hhead : rest.head? ≠ some '\n' := by
      cases rest with
      | nil => simp
      | cons c rest =>
        rintro heq
        exact hpair rest (by rw [Option.some.inj heq])
    rw [List.cons_append, universalNewlines_return, universalNewlines_return hhead, ih (hlast h),
      List.cons_append]
    cases rest with
    | nil => exact h rfl
    | cons c rest => exact hhead
  | case4 c rest _ hc ih =>
    have hc : c ≠ '\r' := fun heq ↦ hc heq
    rw [List.cons_append, universalNewlines_cons hc, universalNewlines_cons hc, ih (hlast h),
      List.cons_append]

/-- No carriage return is left. -/
theorem return_not_mem_universalNewlines (cs : List Char) : '\r' ∉ universalNewlines cs := by
  induction cs using universalNewlines.induct with
  | case1 => simp [universalNewlines]
  | case2 rest ih => simp [universalNewlines, ih]
  | case3 rest hpair ih =>
    rw [universalNewlines]
    · simp [ih]
    · exact hpair
  | case4 c rest _ hc ih =>
    have hc : c ≠ '\r' := fun heq ↦ hc heq
    rw [universalNewlines_cons hc, List.mem_cons, not_or]
    exact ⟨Ne.symm hc, ih⟩

/-! ## Lines -/

/-- The lines of what stands before the end of a text. -/
theorem splitOnChar_universalNewlines {line : List Char} (h : '\n' ∉ line) :
    splitOnChar '\n' (universalNewlines line) = splitOnChar '\r' line := by
  induction line with
  | nil => rfl
  | cons c line ih =>
    rw [List.mem_cons, not_or] at h
    have hline := ih h.2
    rw [splitOnChar] at hline ⊢
    by_cases hc : c = '\r'
    · subst hc
      have hhead : line.head? ≠ some '\n' := fun heq ↦ h.2 (List.mem_of_mem_head? heq)
      rw [universalNewlines_return hhead]
      simp [splitBy, splitOnChar, hline]
    · have hfeed : (c == '\n') = false := by simpa using Ne.symm h.1
      rw [universalNewlines_cons hc, splitBy, hfeed, hline, splitOnChar, splitOnChar, splitBy]
      simp [hc]

/-- The lines of what stands before a line feed: a carriage return right before it ends no line of
its own. -/
def linesBefore (line : List Char) : List (List Char) :=
  if line.getLast? = some '\r' then (splitOnChar '\r' line).dropLast else splitOnChar '\r' line

/-- The lines of what stands between line feeds. -/
def linesOf : List (List Char) → List (List Char)
  | [] => []
  | [last] => splitOnChar '\r' last
  | line :: next :: rest => linesBefore line ++ linesOf (next :: rest)

/-- A line feed ends the lines before it. -/
theorem splitOnChar_universalNewlines_append {line : List Char} (h : '\n' ∉ line)
    (rest : List Char) :
    splitOnChar '\n' (universalNewlines (line ++ '\n' :: rest)) =
      linesBefore line ++ splitOnChar '\n' (universalNewlines rest) := by
  rw [linesBefore]
  split
  · next hlast =>
    obtain ⟨front, rfl⟩ := List.getLast?_eq_some_iff.mp hlast
    rw [List.mem_append, not_or] at h
    have hpair : universalNewlines ('\r' :: '\n' :: rest) = '\n' :: universalNewlines rest := by
      rw [universalNewlines]
    have hpieces : splitOnChar '\r' (front ++ ['\r']) = splitOnChar '\r' front ++ [[]] :=
      splitBy_append_cons front [] (by decide)
    have hfront : universalNewlines (front ++ '\r' :: '\n' :: rest) =
        universalNewlines front ++ universalNewlines ('\r' :: '\n' :: rest) :=
      universalNewlines_append _ (by simp)
    rw [List.append_assoc, List.singleton_append, hfront, hpair, splitOnChar,
      splitBy_append_cons _ _ (by decide), ← splitOnChar, ← splitOnChar,
      splitOnChar_universalNewlines h.1, hpieces, List.dropLast_concat]
  · next hlast =>
    have hfeed : universalNewlines ('\n' :: rest) = '\n' :: universalNewlines rest :=
      universalNewlines_cons (by decide) rest
    rw [universalNewlines_append _ fun heq ↦ absurd heq hlast, hfeed, splitOnChar,
      splitBy_append_cons _ _ (by decide), ← splitOnChar, ← splitOnChar,
      splitOnChar_universalNewlines h]

/-- The lines of a text. -/
theorem splitOnChar_universalNewlines_eq (cs : List Char) :
    splitOnChar '\n' (universalNewlines cs) = linesOf (splitOnChar '\n' cs) := by
  have hjoin : ∀ pieces : List (List Char), pieces ≠ [] → (∀ piece ∈ pieces, '\n' ∉ piece) →
      splitOnChar '\n' (universalNewlines (joinWith ['\n'] pieces)) = linesOf pieces := by
    intro pieces hne hpieces
    induction pieces with
    | nil => exact absurd rfl hne
    | cons piece pieces ih =>
      have hpiece := hpieces piece List.mem_cons_self
      cases pieces with
      | nil => exact splitOnChar_universalNewlines hpiece
      | cons next rest =>
        have hcut : joinWith ['\n'] (piece :: next :: rest) =
            piece ++ '\n' :: joinWith ['\n'] (next :: rest) := by simp [joinWith]
        rw [hcut, splitOnChar_universalNewlines_append hpiece,
          ih (by simp) fun other ho ↦ hpieces other (List.mem_cons_of_mem _ ho), linesOf]
  have hcs := hjoin (splitOnChar '\n' cs) (splitBy_ne_nil cs) fun piece ↦ not_mem_of_mem_splitOnChar
  rwa [joinWith_splitOnChar] at hcs

private theorem linesBefore_subset (line : List Char) :
    linesBefore line ⊆ splitOnChar '\r' line := by
  rw [linesBefore]
  split
  · exact List.dropLast_subset _
  · exact List.Subset.refl _

/-- No carriage return is left in a line. -/
theorem return_not_mem_of_mem_linesOf {pieces : List (List Char)} {line : List Char}
    (h : line ∈ linesOf pieces) : '\r' ∉ line := by
  induction pieces using linesOf.induct with
  | case1 => cases h
  | case2 last => exact not_mem_of_mem_splitOnChar h
  | case3 piece next rest ih =>
    rcases List.mem_append.mp h with h | h
    · exact not_mem_of_mem_splitOnChar (linesBefore_subset piece h)
    · exact ih h

/-- What has no carriage return is one line. -/
theorem linesOf_cons {line : List Char} (h : '\r' ∉ line) (rest : List (List Char)) :
    linesOf (line :: rest) = line :: linesOf rest := by
  have hline : splitOnChar '\r' line = [line] :=
    splitBy_of_forall fun c hc ↦ by simpa using ne_of_mem_of_not_mem hc h
  cases rest with
  | nil => exact hline
  | cons next rest =>
    rw [linesOf, linesBefore, if_neg fun heq ↦ h (List.mem_of_getLast? heq), hline,
      List.singleton_append]

/-- Lines without carriage returns are the lines of a text. -/
theorem linesOf_eq_self {lines : List (List Char)} (h : ∀ line ∈ lines, '\r' ∉ line) :
    linesOf lines = lines := by
  induction lines with
  | nil => rfl
  | cons line rest ih =>
    rw [linesOf_cons (h line List.mem_cons_self),
      ih fun other ho ↦ h other (List.mem_cons_of_mem _ ho)]

end Guidebook.Text
