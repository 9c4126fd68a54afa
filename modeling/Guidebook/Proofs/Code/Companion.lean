import Guidebook.Code.Companion
import Guidebook.Proofs.Html.References
import Guidebook.Proofs.Text.Newlines
import Guidebook.Proofs.Text.Pattern

/-!
# The text of companions

Nothing in the text of a companion is markup, and with its references replaced it is the text that
it shows: that of the file, or for a language the form in which highlighting takes it. Highlighting
puts tags of spans between the characters of that text. As the text has no brackets, taking out all
tags takes out these and nothing else.
-/

namespace Guidebook.Code

open Html Pattern

/-! ## Escapes -/

theorem bracket_not_mem_escapeHighlighted {b : Char} (hb : b = '<' ∨ b = '>') (c : Char) :
    b ∉ escapeHighlighted c := by
  rw [escapeHighlighted.eq_def]
  split
  · rcases hb with rfl | rfl <;> decide
  · rcases hb with rfl | rfl <;> decide
  · rcases hb with rfl | rfl <;> decide
  · next _ hopen hclose =>
    rw [List.mem_singleton]
    rintro rfl
    exact hb.elim hopen hclose

theorem bracket_not_mem_escapePlain {b : Char} (hb : b = '<' ∨ b = '>') (c : Char) :
    b ∉ escapePlain c := by
  rw [escapePlain.eq_def]
  split
  · rcases hb with rfl | rfl <;> decide
  · rcases hb with rfl | rfl <;> decide
  · exact bracket_not_mem_escapeHighlighted hb c

theorem escapeHighlighted_ne_nil (c : Char) : escapeHighlighted c ≠ [] := by
  rw [escapeHighlighted.eq_def]
  split <;> simp

theorem escapePlain_ne_nil (c : Char) : escapePlain c ≠ [] := by
  rw [escapePlain.eq_def]
  split
  · simp
  · simp
  · exact escapeHighlighted_ne_nil c

section Reading

variable {read : Nat → List Char → List Char} (h : ReadsReferences read) (n : Nat) (c : Char)
  (rest : List Char)

include h

theorem read_escapeHighlighted :
    read (n + 1) (escapeHighlighted c ++ rest) = c :: read n rest := by
  rw [escapeHighlighted.eq_def]
  split
  · exact h.named "amp".toList ['&'] n rest (by decide +kernel) rfl
  · exact h.named "lt".toList ['<'] n rest (by decide +kernel) rfl
  · exact h.named "gt".toList ['>'] n rest (by decide +kernel) rfl
  · next hamp _ _ => exact h.cons n rest hamp

theorem read_escapePlain : read (n + 1) (escapePlain c ++ rest) = c :: read n rest := by
  rw [escapePlain.eq_def]
  split
  · exact h.named "quot".toList ['"'] n rest (by decide +kernel) rfl
  · exact h.numbered "27".toList n rest (by decide) (by decide) (by decide)
  · exact read_escapeHighlighted h n c rest

end Reading

/-! ## Shown text -/

/-- The text that the companion of a file shows. -/
def shownText (text : List Char) (extension : String) : List Char :=
  if isHighlighted extension then highlightedSource text else text

theorem companionText_eq (text : List Char) (extension : String) :
    companionText text extension = (shownText text extension).flatMap
      (if isHighlighted extension then escapeHighlighted else escapePlain) := by
  rw [companionText, shownText]
  split <;> rfl

theorem bracket_not_mem_companionText {b : Char} (hb : b = '<' ∨ b = '>') (text : List Char)
    (extension : String) : b ∉ companionText text extension := by
  rw [companionText_eq, List.mem_flatMap]
  rintro ⟨c, -, hc⟩
  split at hc
  · exact bracket_not_mem_escapeHighlighted hb c hc
  · exact bracket_not_mem_escapePlain hb c hc

/-- With its references replaced a companion is the text that it shows. -/
theorem read_companionText {read : Nat → List Char → List Char} (h : ReadsReferences read)
    (text : List Char) (extension : String) :
    read (companionText text extension).length (companionText text extension) =
      shownText text extension := by
  rw [companionText_eq]
  split
  · exact read_flatMap h.nil (read_escapeHighlighted h)
      (length_le_written escapeHighlighted_ne_nil _)
  · exact read_flatMap h.nil (read_escapePlain h) (length_le_written escapePlain_ne_nil _)

/-- Highlighting takes a text as it is if nothing in it has to be changed: it has line feeds only,
no byte order mark in front and a line feed at its end. -/
structure IsSource (text : List Char) : Prop where
  feeds : '\r' ∉ text
  mark : text.head? ≠ some '\ufeff'
  ends : text.getLast? = some '\n'

theorem dropMark_eq_self {cs : List Char} (h : cs.head? ≠ some '\ufeff') : dropMark cs = cs := by
  rw [dropMark]
  rintro rest rfl
  exact h rfl

theorem dropMark_suffix (cs : List Char) : dropMark cs <:+ cs := by
  rw [dropMark.eq_def]
  split
  · exact List.suffix_cons _ _
  · exact List.suffix_refl _

theorem withFinalNewline_eq_self {cs : List Char} (h : cs.getLast? = some '\n') :
    withFinalNewline cs = cs :=
  if_pos (Text.endsWith_singleton.mpr h)

theorem getLast?_withFinalNewline (cs : List Char) :
    (withFinalNewline cs).getLast? = some '\n' := by
  rw [withFinalNewline]
  split
  · next hends => exact Text.endsWith_singleton.mp hends
  · exact List.getLast?_concat

/-- What highlighting takes is in the form that it needs, but for a mark behind the one that is
dropped. -/
theorem return_not_mem_highlightedSource (text : List Char) : '\r' ∉ highlightedSource text := by
  have hdropped : '\r' ∉ dropMark (Text.universalNewlines text) := fun h ↦
    Text.return_not_mem_universalNewlines text ((dropMark_suffix _).subset h)
  rw [highlightedSource, withFinalNewline]
  split
  · exact hdropped
  · rw [List.mem_append]
    exact fun h ↦ h.elim hdropped (by decide)

/-- The texts that highlighting takes as they are. -/
theorem highlightedSource_eq_self_iff {text : List Char} :
    highlightedSource text = text ↔ IsSource text := by
  constructor
  · intro h
    have hfeeds : '\r' ∉ text := h ▸ return_not_mem_highlightedSource text
    rw [highlightedSource, Text.universalNewlines_eq_self hfeeds] at h
    have hends : text.getLast? = some '\n' := by
      rw [← h]
      exact getLast?_withFinalNewline (dropMark text)
    refine ⟨hfeeds, fun hmark ↦ ?_, hends⟩
    -- without its mark the text still ends in a line feed, so it would stay shorter than it was
    obtain ⟨rest, rfl⟩ := List.head?_eq_some_iff.mp hmark
    rw [List.getLast?_cons, Option.some_inj] at hends
    have hrest : rest.getLast? = some '\n' := by
      cases hlast : rest.getLast? with
      | none =>
        rw [hlast] at hends
        exact absurd hends (by decide)
      | some last =>
        rw [hlast] at hends
        exact congrArg some hends
    rw [dropMark, withFinalNewline_eq_self hrest] at h
    exact List.cons_ne_self _ _ h.symm
  · intro h
    rw [highlightedSource, Text.universalNewlines_eq_self h.feeds, dropMark_eq_self h.mark,
      withFinalNewline_eq_self h.ends]

/-- A companion shows the text of its file if highlighting is not asked or has nothing to change. -/
theorem shownText_eq_self_iff {text : List Char} {extension : String} :
    shownText text extension = text ↔ (isHighlighted extension = true → IsSource text) := by
  rw [shownText]
  split
  · next hknown => simp [hknown, highlightedSource_eq_self_iff]
  · next hunknown => simp [hunknown]

/-! ## Tags -/

/-- What a reader of markup without any notion of its tags takes them for. -/
def tagPattern : Pattern Char :=
  .seq (.one (· == '<')) (.seq (atLeast 1 (.one (· != '>'))) (.one (· == '>')))

/-- Markup with all of its tags taken out. -/
def withoutTags (html : List Char) : List Char :=
  replaceAll (· == ·) tagPattern (fun _ ↦ []) [] html

/-- The tags of spans. -/
inductive IsSpanTag : List Char → Prop
  | opening (attributes : List Char) (h : '>' ∉ attributes) :
    IsSpanTag ("<span".toList ++ attributes ++ ">".toList)
  | closing : IsSpanTag "</span>".toList

/-- Markup that has tags of spans between the characters of a text. -/
inductive Highlights : List Char → List Char → Prop
  | nil : Highlights [] []
  | char {html text : List Char} (c : Char) (rest : Highlights html text) :
    Highlights (c :: html) (c :: text)
  | tag {tag html text : List Char} (spans : IsSpanTag tag) (rest : Highlights html text) :
    Highlights (tag ++ html) text

/-- A text is highlighted without a tag. -/
theorem Highlights.refl (text : List Char) : Highlights text text := by
  induction text with
  | nil => exact .nil
  | cons c text ih => exact .char c ih

theorem IsSpanTag.exists_inner {tag : List Char} (h : IsSpanTag tag) :
    ∃ inner, inner ≠ [] ∧ '>' ∉ inner ∧ tag = '<' :: (inner ++ ['>']) := by
  cases h with
  | opening attributes hattributes =>
    refine ⟨"span".toList ++ attributes, by simp, ?_, by simp⟩
    rw [List.mem_append]
    exact fun h ↦ h.elim (by decide) hattributes
  | closing => exact ⟨"/span".toList, by decide, by decide, rfl⟩

theorem matchAt?_tagPattern_of_ne {c : Char} (h : c ≠ '<') (before rest : List Char) :
    matchAt? (· == ·) tagPattern before (c :: rest) = none := by
  have hnext : (⟨before, c :: rest, []⟩ : Progress Char).next? (· == '<') = none := by
    simp [Progress.next?, h]
  rw [matchAt?, tagPattern, run_seq, run_one, hnext, Option.bind_none]

/-- A tag is matched up to its own end. -/
theorem matchAt?_tagPattern {inner : List Char} (hne : inner ≠ []) (hinner : '>' ∉ inner)
    (before rest : List Char) :
    matchAt? (· == ·) tagPattern before ('<' :: (inner ++ '>' :: rest)) =
      some ⟨'>' :: (inner.reverse ++ '<' :: before), rest, []⟩ := by
  have htake : (inner ++ '>' :: rest).takeWhile (· != '>') = inner := by
    rw [List.takeWhile_append_of_pos fun c hc ↦ by simpa using ne_of_mem_of_not_mem hc hinner,
      List.takeWhile_cons_of_neg (by simp), List.append_nil]
  let opened : Progress Char := ⟨'<' :: before, inner ++ '>' :: rest, []⟩
  have hnext : (⟨before, '<' :: (inner ++ '>' :: rest), []⟩ : Progress Char).next? (· == '<') =
      some opened := by
    simp [Progress.next?, opened]
  have hinside : ∀ n < inner.length,
      run (· == ·) (.one (· == '>')) (opened.advance n) some = none := by
    intro n hn
    have hrest : (opened.advance n).rest =
        inner[n] :: (inner.drop (n + 1) ++ '>' :: rest) := by
      rw [Progress.rest_advance, List.drop_append_of_le_length (Nat.le_of_lt hn),
        List.drop_eq_getElem_cons hn, List.cons_append]
    have hnext : ((opened.advance n).next? fun c ↦ c == '>') = none := by
      rw [Progress.next?, hrest]
      exact if_neg (by simpa using ne_of_mem_of_not_mem (List.getElem_mem hn) hinner)
    rw [run_one, hnext, Option.bind_none]
  rw [matchAt?, tagPattern, run_seq, run_one, hnext, Option.bind_some, run_seq,
    run_atLeast (congrArg List.length htake.symm) fun n hn ↦ .inl (hinside n hn),
    if_pos (Nat.succ_le_of_lt (List.length_pos_iff.mpr hne)), Progress.advance_append rfl, run_one]
  simp [Progress.next?, opened]

/-- Taking out the tags of what highlights a text leaves the text, as it has no brackets. -/
theorem withoutTags_of_highlights {html text : List Char} (h : Highlights html text)
    (htext : '<' ∉ text) : withoutTags html = text := by
  suffices hall : ∀ before,
      replaceAll (· == ·) tagPattern (fun _ ↦ []) before html = text from hall []
  induction h with
  | nil =>
    intro before
    rw [replaceAll]
  | char c rest ih =>
    intro before
    rw [List.mem_cons, not_or] at htext
    rw [replaceAll_of_none (matchAt?_tagPattern_of_ne (Ne.symm htext.1) _ _), ih htext.2]
  | @tag tag html text spans rest ih =>
    intro before
    obtain ⟨inner, hne, hinner, rfl⟩ := spans.exists_inner
    rw [List.cons_append, List.append_assoc, List.singleton_append, replaceAll,
      matchAt?_tagPattern hne hinner]
    dsimp only
    have hshorter : html.length ≤ (inner ++ '>' :: html).length := by
      rw [List.length_append, List.length_cons]
      omega
    rw [if_pos hshorter, List.nil_append, ih htext]

/-- With its tags taken out markup has no brackets left, and with its references replaced it is a
text: for a reader of plain text as for one of markup. -/
structure Shows (html text : List Char) : Prop where
  opening : '<' ∉ withoutTags html
  closing : '>' ∉ withoutTags html
  plain : plainText (withoutTags html).length (withoutTags html) = text
  decoded : decode false (withoutTags html).length (withoutTags html) = text

/-- However highlighting puts its tags into a companion, it shows the text that it should. -/
theorem shows_of_highlights {html text : List Char} {extension : String}
    (h : Highlights html (companionText text extension)) :
    Shows html (shownText text extension) := by
  have hopening := bracket_not_mem_companionText (.inl rfl) text extension
  have hclosing := bracket_not_mem_companionText (.inr rfl) text extension
  have htags := withoutTags_of_highlights h hopening
  exact {
    opening := htags ▸ hopening
    closing := htags ▸ hclosing
    plain := by rw [htags, read_companionText readsReferences_plainText]
    decoded := by rw [htags, read_companionText (readsReferences_decode false)] }

end Guidebook.Code
