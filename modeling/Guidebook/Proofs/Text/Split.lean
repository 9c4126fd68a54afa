import Mathlib.Data.List.DropRight
import Mathlib.Data.List.TakeWhile
import Guidebook.Text.Chars

/-!
# Splitting, joining and stripping

Text that is put together from pieces with a separator between or behind them comes apart into the
same pieces, provided that no piece holds the separator. Stripping leaves a part of a text.
-/

namespace Guidebook.Text

variable {α : Type} {p : α → Bool}

/-- A list without separators is one piece. -/
theorem splitBy_of_forall {cs : List α} (h : ∀ c ∈ cs, p c = false) : splitBy p cs = [cs] := by
  induction cs with
  | nil => rfl
  | cons c cs ih =>
    have hc : p c = false := h c (by simp)
    have hrest := ih fun d hd ↦ h d (by simp [hd])
    simp [splitBy, hc, hrest]

/-- There is always a piece. -/
theorem splitBy_ne_nil (cs : List α) : splitBy p cs ≠ [] := by
  cases cs with
  | nil => simp [splitBy]
  | cons c cs =>
    rw [splitBy]
    split
    · simp
    · split <;> simp

/-- A separator ends a piece. -/
theorem splitBy_append_cons (front rest : List α) {sep : α} (hsep : p sep = true) :
    splitBy p (front ++ sep :: rest) = splitBy p front ++ splitBy p rest := by
  induction front with
  | nil => simp [splitBy, hsep]
  | cons c front ih =>
    rw [List.cons_append, splitBy, splitBy, ih]
    split
    · rfl
    · cases hf : splitBy p front with
      | nil => exact absurd hf (splitBy_ne_nil front)
      | cons first others => rfl

/-- Items that separate nothing go to the front of the first piece. -/
theorem splitBy_append {front rest first : List α} {others : List (List α)}
    (h : ∀ c ∈ front, p c = false) (hrest : splitBy p rest = first :: others) :
    splitBy p (front ++ rest) = (front ++ first) :: others := by
  induction front with
  | nil => exact hrest
  | cons c front ih =>
    have hc : p c = false := h c (by simp)
    have hfront := ih fun d hd ↦ h d (by simp [hd])
    simp [splitBy, hc, hfront]

/-- Items that separate nothing go to the end of the last piece. -/
theorem splitBy_concat (front : List α) {tail : List α} (h : ∀ c ∈ tail, p c = false) :
    ∃ others last, splitBy p (front ++ tail) = others ++ [last ++ tail] := by
  induction front with
  | nil => exact ⟨[], [], splitBy_of_forall h⟩
  | cons c front ih =>
    obtain ⟨others, last, hsplit⟩ := ih
    rw [List.cons_append, splitBy, hsplit]
    split
    · exact ⟨[] :: others, last, rfl⟩
    · cases others with
      | nil => exact ⟨[], c :: last, rfl⟩
      | cons first others => exact ⟨(c :: first) :: others, last, rfl⟩

/-- Pieces hold no separator and only items of the list. -/
theorem of_mem_splitBy {cs piece : List α} (hpiece : piece ∈ splitBy p cs) {c : α}
    (hc : c ∈ piece) : p c = false ∧ c ∈ cs := by
  induction cs generalizing piece with
  | nil =>
    obtain rfl : piece = [] := by simpa [splitBy] using hpiece
    simp at hc
  | cons d cs ih =>
    rw [splitBy] at hpiece
    split at hpiece
    · rcases List.mem_cons.mp hpiece with rfl | hpiece
      · simp at hc
      · exact ⟨(ih hpiece hc).1, List.mem_cons_of_mem _ (ih hpiece hc).2⟩
    · next hd =>
      have hd : p d = false := by simpa using hd
      cases hs : splitBy p cs with
      | nil => exact absurd hs (splitBy_ne_nil cs)
      | cons first others =>
        rw [hs] at hpiece
        rcases List.mem_cons.mp hpiece with rfl | hpiece
        · rcases List.mem_cons.mp hc with rfl | hc
          · exact ⟨hd, by simp⟩
          · have := ih (hs ▸ List.mem_cons_self) hc
            exact ⟨this.1, List.mem_cons_of_mem _ this.2⟩
        · have := ih (hs ▸ List.mem_cons_of_mem _ hpiece) hc
          exact ⟨this.1, List.mem_cons_of_mem _ this.2⟩

/-- Pieces with a separator behind each come apart, with an empty piece at the end. -/
theorem splitBy_flatMap {sep : α} (hsep : p sep = true) (pieces : List (List α))
    (h : ∀ piece ∈ pieces, ∀ c ∈ piece, p c = false) :
    splitBy p (pieces.flatMap (· ++ [sep])) = pieces ++ [[]] := by
  induction pieces with
  | nil => rfl
  | cons piece pieces ih =>
    obtain ⟨hpiece, hpieces⟩ := List.forall_mem_cons.mp h
    rw [List.flatMap_cons, List.append_assoc, List.singleton_append, splitBy_append_cons _ _ hsep,
      splitBy_of_forall hpiece]
    exact congrArg _ (ih hpieces)

theorem splitOnChar_flatMap {sep : Char} (pieces : List (List Char))
    (h : ∀ piece ∈ pieces, sep ∉ piece) :
    splitOnChar sep (pieces.flatMap (· ++ [sep])) = pieces ++ [[]] :=
  splitBy_flatMap (p := (· == sep)) (beq_self_eq_true sep) pieces fun piece hpiece c hc ↦ by
    simpa using ne_of_mem_of_not_mem hc (h piece hpiece)

/-- Pieces joined by a separator come apart. -/
theorem splitOnChar_joinWith {sep : Char} (pieces : List (List Char)) (hne : pieces ≠ [])
    (h : ∀ piece ∈ pieces, sep ∉ piece) : splitOnChar sep (joinWith [sep] pieces) = pieces := by
  induction pieces with
  | nil => exact absurd rfl hne
  | cons piece pieces ih =>
    have hpiece : ∀ c ∈ piece, (c == sep) = false := fun c hc ↦ by
      simpa using ne_of_mem_of_not_mem hc (h piece (by simp))
    cases pieces with
    | nil => exact splitBy_of_forall hpiece
    | cons next rest =>
      have hrest := ih (by simp) fun other ho ↦ h other (by simp [ho])
      have hjoin : joinWith [sep] (piece :: next :: rest) =
          piece ++ sep :: joinWith [sep] (next :: rest) := by simp [joinWith]
      rw [hjoin, splitOnChar, splitBy_append_cons _ _ (by simp), splitBy_of_forall hpiece]
      exact congrArg _ hrest

theorem joinWith_cons_cons (sep piece next : List α) (rest : List (List α)) :
    joinWith sep (piece :: next :: rest) = piece ++ sep ++ joinWith sep (next :: rest) := rfl

/-- Pieces joined in two parts have a separator between the parts. -/
theorem joinWith_append (sep : List α) {front back : List (List α)} (hfront : front ≠ [])
    (hback : back ≠ []) :
    joinWith sep (front ++ back) = joinWith sep front ++ sep ++ joinWith sep back := by
  induction front with
  | nil => exact absurd rfl hfront
  | cons piece front ih =>
    cases front with
    | nil =>
      obtain ⟨next, rest, rfl⟩ := List.exists_cons_of_ne_nil hback
      rfl
    | cons next front =>
      have hrest := ih (by simp)
      simp only [List.cons_append, joinWith, List.append_assoc] at hrest ⊢
      rw [hrest]

/-- Joined pieces hold the separator and what the pieces hold. -/
theorem mem_joinWith {sep : List α} {pieces : List (List α)} {a : α}
    (h : a ∈ joinWith sep pieces) : a ∈ sep ∨ ∃ piece ∈ pieces, a ∈ piece := by
  induction pieces with
  | nil => cases h
  | cons piece pieces ih =>
    cases pieces with
    | nil => exact .inr ⟨piece, List.mem_cons_self, h⟩
    | cons next rest =>
      rw [joinWith, List.mem_append, List.mem_append] at h
      · rcases h with (h | h) | h
        · exact .inr ⟨piece, List.mem_cons_self, h⟩
        · exact .inl h
        · rcases ih h with h | ⟨other, hother, h⟩
          · exact .inl h
          · exact .inr ⟨other, List.mem_cons_of_mem _ hother, h⟩
      · simp

/-- A text without separators is not cut. -/
theorem partitionAt_of_not_mem {sep : Char} {cs : List Char} (h : sep ∉ cs) :
    partitionAt sep cs = (cs, false, []) := by
  induction cs with
  | nil => rfl
  | cons c cs ih =>
    rw [List.mem_cons, not_or] at h
    have hc : (c == sep) = false := by simpa using Ne.symm h.1
    rw [partitionAt, hc, if_neg Bool.false_ne_true, ih h.2]

/-- A text is cut at its first separator. -/
theorem partitionAt_append {sep : Char} {front : List Char} (rest : List Char)
    (h : sep ∉ front) : partitionAt sep (front ++ sep :: rest) = (front, true, rest) := by
  induction front with
  | nil => simp [partitionAt]
  | cons c front ih =>
    have hc : (c == sep) = false := by simpa using fun hc : c = sep ↦ h (by simp [hc])
    have hrest := ih fun hm ↦ h (by simp [hm])
    simp [partitionAt, hc, hrest]

/-- A prefix is dropped exactly from the texts that start with it. -/
theorem dropPrefix?_eq_some_iff {start cs rest : List Char} :
    dropPrefix? start cs = some rest ↔ cs = start ++ rest := by
  induction start generalizing cs with
  | nil => simp [dropPrefix?]
  | cons s start ih =>
    cases cs with
    | nil => simp [dropPrefix?]
    | cons c cs =>
      by_cases h : s = c
      · subst h
        simp [dropPrefix?, ih]
      · simp [dropPrefix?, h, Ne.symm h]

theorem startsWith_singleton {d : Char} {cs : List Char} :
    startsWith [d] cs = true ↔ cs.head? = some d := by
  cases cs with
  | nil => simp [startsWith, dropPrefix?]
  | cons c cs =>
    by_cases h : c = d
    · simp [startsWith, dropPrefix?, h]
    · simp [startsWith, dropPrefix?, h, Ne.symm h]

theorem endsWith_singleton {d : Char} {cs : List Char} :
    endsWith [d] cs = true ↔ cs.getLast? = some d := by
  rw [endsWith, List.reverse_singleton, startsWith_singleton, List.head?_reverse]

/-- A text that ends with another is the part in front followed by it. -/
theorem removeEnding_append {tail cs : List Char} (h : endsWith tail cs = true) :
    removeEnding tail cs ++ tail = cs := by
  obtain ⟨front, hf⟩ := Option.isSome_iff_exists.mp h
  have heq : cs.reverse = tail.reverse ++ front := dropPrefix?_eq_some_iff.mp hf
  have hcs : cs = front.reverse ++ tail := by simpa using congrArg List.reverse heq
  rw [removeEnding, hf, hcs]

/-- Without its ending a text keeps only characters it had. -/
theorem mem_of_mem_removeEnding {tail cs : List Char} {c : Char} (h : c ∈ removeEnding tail cs) :
    c ∈ cs := by
  rw [removeEnding] at h
  split at h
  · next front hf =>
    have heq := dropPrefix?_eq_some_iff.mp hf
    have hc : c ∈ cs.reverse := heq ▸ List.mem_append_right _ (List.mem_reverse.mp h)
    exact List.mem_reverse.mp hc
  · exact h

/-- A text that does not end like another does not come about by appending that other. -/
theorem append_ne {s t u : String} (h : ¬ t.toList <:+ u.toList) : s ++ t ≠ u := by
  rintro rfl
  rw [String.toList_append] at h
  exact h (List.suffix_append _ _)

/-- Text without carriage returns keeps its line ends. -/
theorem universalNewlines_eq_self {cs : List Char} (h : '\r' ∉ cs) : universalNewlines cs = cs := by
  induction cs with
  | nil => rfl
  | cons c cs ih =>
    have hc : c ≠ '\r' := fun hc ↦ h (by simp [hc])
    have hrest := ih fun hm ↦ h (by simp [hm])
    rw [universalNewlines.eq_def]
    split
    · next heq => cases heq
    · next heq => exact absurd (List.cons.inj heq).1 hc
    · next heq => exact absurd (List.cons.inj heq).1 hc
    · next heq =>
      obtain ⟨rfl, rfl⟩ := List.cons.inj heq
      rw [hrest]

/-! ## Items in front -/

section Front

variable {front back : List α}

/-- The items of a class in front of a list end in its first part, unless its second part goes on
with one. -/
theorem takeWhile_append_of_head (h : ∀ c ∈ back.head?, p c = false) :
    (front ++ back).takeWhile p = front.takeWhile p := by
  induction front with
  | nil =>
    cases back with
    | nil => rfl
    | cons c back => exact List.takeWhile_cons_of_neg (by simpa using h c rfl)
  | cons d front ih => rw [List.cons_append, List.takeWhile_cons, List.takeWhile_cons, ih]

theorem dropWhile_append_of_head (h : ∀ c ∈ back.head?, p c = false) :
    (front ++ back).dropWhile p = front.dropWhile p ++ back := by
  have hwhole := List.takeWhile_append_dropWhile (p := p) (l := front ++ back)
  rw [takeWhile_append_of_head h] at hwhole
  have hparts : front.takeWhile p ++ (front.dropWhile p ++ back) = front ++ back := by
    rw [← List.append_assoc, List.takeWhile_append_dropWhile]
  exact List.append_cancel_left (hwhole.trans hparts.symm)

theorem takeWhile_dropWhile (cs : List α) : (cs.dropWhile p).takeWhile p = [] := by
  induction cs with
  | nil => rfl
  | cons c cs ih =>
    rw [List.dropWhile_cons]
    split
    · exact ih
    · next hc => exact List.takeWhile_cons_of_neg hc

end Front

/-! ## Stripping -/

/-- Items of a class around a list do not count when it is stripped. -/
theorem stripBy_surrounded {front back : List α} (hfront : ∀ c ∈ front, p c = true)
    (hback : ∀ c ∈ back, p c = true) (cs : List α) :
    stripBy p (front ++ cs ++ back) = stripBy p cs := by
  rw [stripBy, stripBy, List.append_assoc, List.dropWhile_append_of_pos hfront,
    List.dropWhile_append]
  split
  · next hnil =>
    rw [List.isEmpty_iff.mp hnil, List.dropWhile_eq_nil_iff.mpr hback]
  · rw [List.reverse_append,
      List.dropWhile_append_of_pos fun c hc ↦ hback c (List.mem_reverse.mp hc)]

/-- A list is what is left of it with items of the class around it. -/
theorem exists_stripBy (p : α → Bool) (cs : List α) : ∃ front back,
    cs = front ++ stripBy p cs ++ back ∧ (∀ c ∈ front, p c = true) ∧ ∀ c ∈ back, p c = true := by
  have hback : cs.dropWhile p = stripBy p cs ++ ((cs.dropWhile p).reverse.takeWhile p).reverse := by
    rw [stripBy, ← List.reverse_append, List.takeWhile_append_dropWhile, List.reverse_reverse]
  refine ⟨cs.takeWhile p, ((cs.dropWhile p).reverse.takeWhile p).reverse, ?_,
    fun c hc ↦ List.mem_takeWhile_imp hc,
    fun c hc ↦ List.mem_takeWhile_imp (List.mem_reverse.mp hc)⟩
  rw [List.append_assoc, ← hback, List.takeWhile_append_dropWhile]

private theorem dropWhile_eq_self_iff {cs : List α} :
    cs.dropWhile p = cs ↔ ∀ c ∈ cs.head?, p c = false := by
  cases cs with
  | nil => simp
  | cons c cs =>
    cases hc : p c with
    | false => simp [hc]
    | true =>
      refine iff_of_false (fun heq ↦ ?_) fun hhead ↦ absurd (hhead c rfl) (by simp [hc])
      rw [List.dropWhile_cons_of_pos hc] at heq
      exact absurd (heq ▸ (List.dropWhile_suffix p).length_le) (Nat.not_succ_le_self _)

/-- A list is left as it is exactly if there is no item of the class at its ends. -/
theorem stripBy_eq_self_iff {cs : List α} :
    stripBy p cs = cs ↔ (∀ c ∈ cs.head?, p c = false) ∧ ∀ c ∈ cs.getLast?, p c = false := by
  rw [← dropWhile_eq_self_iff, ← List.head?_reverse, ← dropWhile_eq_self_iff]
  constructor
  · intro h
    have hlength : cs.length ≤ (cs.dropWhile p).length := by
      conv_lhs => rw [← h, stripBy, List.length_reverse]
      exact (List.dropWhile_suffix p).length_le.trans_eq List.length_reverse
    have hleft : cs.dropWhile p = cs := (List.dropWhile_suffix p).eq_of_length_le hlength
    rw [stripBy, hleft, List.reverse_eq_iff] at h
    exact ⟨hleft, h⟩
  · rintro ⟨hleft, hright⟩
    rw [stripBy, hleft, hright, List.reverse_reverse]

/-- What holds no items of a class is left when items of the class stand around it. -/
theorem stripBy_append {front back cs : List α} (hcs : ∀ c ∈ cs, p c = false)
    (hfront : ∀ c ∈ front, p c = true) (hback : ∀ c ∈ back, p c = true) :
    stripBy p (front ++ cs ++ back) = cs := by
  rw [stripBy_surrounded hfront hback, stripBy_eq_self_iff]
  exact ⟨fun c hc ↦ hcs c (List.mem_of_mem_head? hc),
    fun c hc ↦ hcs c (List.mem_of_mem_getLast? hc)⟩

/-- Of a larger class as much is stripped whether or not the smaller is stripped first. -/
theorem stripBy_stripBy_of_imp {q : α → Bool} (h : ∀ c, p c = true → q c = true) (cs : List α) :
    stripBy q (stripBy p cs) = stripBy q cs := by
  obtain ⟨front, back, heq, hfront, hback⟩ := exists_stripBy p cs
  conv_rhs => rw [heq]
  exact (stripBy_surrounded (fun c hc ↦ h c (hfront c hc)) (fun c hc ↦ h c (hback c hc)) _).symm

/-- Stripping twice is stripping once. -/
theorem stripBy_stripBy (cs : List α) : stripBy p (stripBy p cs) = stripBy p cs :=
  stripBy_stripBy_of_imp (fun _ ↦ id) cs

variable {β : Type}

theorem stripBy_sublist (p : α → Bool) (cs : List α) : (stripBy p cs).Sublist cs := by
  have hback := (List.dropWhile_sublist p (l := (cs.dropWhile p).reverse)).reverse
  rw [List.reverse_reverse] at hback
  exact hback.trans (List.dropWhile_sublist p)

theorem mem_of_mem_stripBy {cs : List α} {c : α} (h : c ∈ stripBy p cs) : c ∈ cs :=
  (stripBy_sublist p cs).subset h

/-- Nothing is left of a text of the class alone. -/
theorem stripBy_eq_nil_iff {cs : List α} : stripBy p cs = [] ↔ ∀ c ∈ cs, p c = true := by
  rw [stripBy, List.reverse_eq_nil_iff, List.dropWhile_eq_nil_iff]
  constructor
  · intro h
    have hnil : cs.dropWhile p = [] := by
      by_contra hne
      have hhead := List.head_dropWhile_not p hne
      rw [h _ (List.mem_reverse.mpr (List.head_mem hne))] at hhead
      cases hhead
    exact List.dropWhile_eq_nil_iff.mp hnil
  · intro h c hc
    exact h c ((List.dropWhile_sublist p).subset (List.mem_reverse.mp hc))

/-- What stands between characters of no class stays, with the most part of what follows. -/
theorem stripBy_between {front inner tail : List α} {first last : α}
    (hfront : ∀ c ∈ front, p c = true) (hfirst : p first = false) (hlast : p last = false) :
    stripBy p (front ++ (first :: inner ++ [last]) ++ tail) =
      first :: inner ++ [last] ++ stripEnd p tail := by
  rw [stripBy, stripEnd, List.append_assoc, List.dropWhile_append_of_pos hfront]
  have hdrop : (first :: inner ++ [last] ++ tail).dropWhile p = first :: inner ++ [last] ++ tail :=
    List.dropWhile_cons_of_neg (by simp [hfirst])
  rw [hdrop, List.reverse_append, List.dropWhile_append]
  split
  · next hnil =>
    rw [List.isEmpty_iff.mp hnil]
    simp [hlast]
  · simp

theorem stripBy_map (f : β → α) (cs : List β) :
    stripBy p (cs.map f) = (stripBy (p ∘ f) cs).map f := by
  rw [stripBy, stripBy, List.dropWhile_map, ← List.map_reverse, List.dropWhile_map,
    List.map_reverse]

theorem strip_eq_nil_iff {cs : List Char} : strip cs = [] ↔ hasInk cs = false := by
  rw [strip, stripBy_eq_nil_iff]
  simp [hasInk]

theorem isEmpty_strip (cs : List Char) : (strip cs).isEmpty = !hasInk cs := by
  rw [Bool.eq_iff_iff, List.isEmpty_iff, strip_eq_nil_iff, Bool.not_eq_true']

end Guidebook.Text
