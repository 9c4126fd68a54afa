import Guidebook.Page.Content
import Guidebook.Page.Title
import Guidebook.Proofs.Text.Newlines

/-!
# Line ends in page sources

A page reads the same whichever characters end its lines, with two exceptions. Characters that pages
lose may stand between a carriage return and its line feed. And the rules for fences go by line
feeds, so they do not see the lines that carriage returns end.
-/

namespace Guidebook.Markdown

open Text

/-! ## Lost characters -/

/-- A character that pages keep. -/
def isKept (c : Char) : Bool := c != '\x02' && c != '\x03'

/-- What pages keep of a line. -/
def kept (line : List Char) : List Char := line.filter isKept

/-- A line that ends in a carriage return once its last characters are lost. -/
def Parted (line : List Char) : Prop :=
  (kept line).getLast? = some '\r' ∧ line.getLast? ≠ some '\r'

instance (line : List Char) : Decidable (Parted line) := instDecidableAnd

/-- No line feed is parted from a carriage return by characters that are lost. -/
def Unparted (text : List Char) : Prop :=
  ∀ line ∈ (splitOnChar '\n' text).dropLast, ¬ Parted line

instance (text : List Char) : Decidable (Unparted text) :=
  inferInstanceAs (Decidable (∀ line ∈ (splitOnChar '\n' text).dropLast, ¬ Parted line))

private theorem splitOnChar_kept (line : List Char) :
    splitOnChar '\r' (kept line) = (splitOnChar '\r' line).map kept :=
  splitOnChar_filter (by decide) line

private theorem getLast?_kept {line : List Char} (h : line.getLast? = some '\r') :
    (kept line).getLast? = some '\r' := by
  obtain ⟨front, rfl⟩ := List.getLast?_eq_some_iff.mp h
  have hkept : kept (front ++ ['\r']) = kept front ++ ['\r'] := by
    rw [kept, List.filter_append]
    rfl
  rw [hkept, List.getLast?_concat]

private theorem linesBefore_kept {line : List Char} (h : ¬ Parted line) :
    linesBefore (kept line) = (linesBefore line).map kept := by
  rw [linesBefore, linesBefore, splitOnChar_kept]
  by_cases hlast : line.getLast? = some '\r'
  · rw [if_pos hlast, if_pos (getLast?_kept hlast), List.map_dropLast]
  · rw [if_neg hlast, if_neg fun hkept ↦ h ⟨hkept, hlast⟩]

private theorem length_linesBefore_kept (line : List Char) :
    (linesBefore (kept line)).length ≤ (linesBefore line).length ∧
      (Parted line → (linesBefore (kept line)).length < (linesBefore line).length) := by
  by_cases h : Parted line
  · have hne : 0 < (splitOnChar '\r' line).length := List.length_pos_iff.mpr (splitBy_ne_nil line)
    have hlt : (linesBefore (kept line)).length < (linesBefore line).length := by
      rw [linesBefore, linesBefore, if_pos h.1, if_neg h.2, splitOnChar_kept,
        List.length_dropLast, List.length_map]
      omega
    exact ⟨hlt.le, fun _ ↦ hlt⟩
  · rw [linesBefore_kept h, List.length_map]
    exact ⟨le_rfl, fun hparted ↦ absurd hparted h⟩

/-- What is kept of lines without carriage returns has the same lines. -/
private theorem linesOf_map_kept {lines : List (List Char)} (h : ∀ line ∈ lines, '\r' ∉ line) :
    linesOf (lines.map kept) = lines.map kept := by
  refine linesOf_eq_self fun line hline ↦ ?_
  obtain ⟨source, hsource, rfl⟩ := List.mem_map.mp hline
  exact fun hreturn ↦ h source hsource (List.mem_filter.mp hreturn).1

/-- Losing characters leaves the lines as many as they are exactly if it leaves them the same. -/
private theorem linesOf_kept_iff (pieces : List (List Char)) :
    (linesOf (pieces.map kept)).length ≤ (linesOf pieces).length ∧
      ((∀ line ∈ pieces.dropLast, ¬ Parted line) →
        linesOf (pieces.map kept) = (linesOf pieces).map kept) ∧
      ((linesOf (pieces.map kept)).length = (linesOf pieces).length →
        ∀ line ∈ pieces.dropLast, ¬ Parted line) := by
  induction pieces using linesOf.induct with
  | case1 => simp [linesOf]
  | case2 last => simp [linesOf, splitOnChar_kept]
  | case3 line next rest ih =>
    obtain ⟨hle, hsame, hunparted⟩ := ih
    obtain ⟨hline, hlt⟩ := length_linesBefore_kept line
    rw [List.map_cons] at hle hsame hunparted
    simp only [List.map_cons, linesOf, List.dropLast_cons_cons, List.forall_mem_cons,
      List.length_append, List.map_append]
    refine ⟨by omega, fun hwhole ↦ ?_, fun heq ↦ ⟨fun hparted ↦ ?_, hunparted (by omega)⟩⟩
    · rw [linesBefore_kept hwhole.1, hsame hwhole.2]
    · have := hlt hparted
      omega

/-! ## Finished lines -/

/-- A line without its blanks if it holds nothing else. -/
def clearBlanks (line : List Char) : List Char := if line.all (· == ' ') then [] else line

/-- The lines of a page, given those of its source, with two empty ones behind them. -/
def finishLines (lines : List (List Char)) : List (List Char) :=
  match lines.map (expandTabs 0) ++ [[], []] with
  | [] => []
  | first :: rest => first :: rest.map clearBlanks

theorem expandTabs_cons {c : Char} (htab : c ≠ '\t') (hfeed : c ≠ '\n') (column : Nat)
    (rest : List Char) : expandTabs column (c :: rest) = c :: expandTabs (column + 1) rest := by
  rw [expandTabs]
  · rintro heq
    exact htab heq
  · rintro heq
    exact hfeed heq

/-- Blanks are put in place of tabulators line by line. -/
private theorem splitOnChar_expandTabs (column : Nat) (cs : List Char) :
    ∃ first rest, splitOnChar '\n' cs = first :: rest ∧
      splitOnChar '\n' (expandTabs column cs) =
        expandTabs column first :: rest.map (expandTabs 0) := by
  induction cs generalizing column with
  | nil => exact ⟨[], [], rfl, by simp [expandTabs, splitOnChar, splitBy]⟩
  | cons c cs ih =>
    by_cases hfeed : c = '\n'
    · subst hfeed
      obtain ⟨first, rest, hsplit, hexpand⟩ := ih 0
      refine ⟨[], first :: rest, ?_, ?_⟩
      · rw [splitOnChar] at hsplit ⊢
        simp [splitBy, hsplit]
      · rw [splitOnChar] at hexpand ⊢
        simp [expandTabs, splitBy, hexpand]
    · have hsplit {first : List Char} {rest : List (List Char)}
          (h : splitOnChar '\n' cs = first :: rest) :
          splitOnChar '\n' (c :: cs) = (c :: first) :: rest := by
        rw [splitOnChar] at h ⊢
        simp [splitBy, hfeed, h]
      by_cases htab : c = '\t'
      · subst htab
        obtain ⟨first, rest, hfirst, hexpand⟩ := ih 0
        refine ⟨_, _, hsplit hfirst, ?_⟩
        rw [expandTabs, expandTabs]
        refine splitBy_append (fun d hd ↦ ?_) hexpand
        rw [List.eq_of_mem_replicate hd]
        decide
      · obtain ⟨first, rest, hfirst, hexpand⟩ := ih (column + 1)
        refine ⟨_, _, hsplit hfirst, ?_⟩
        rw [expandTabs_cons htab hfeed, expandTabs_cons htab hfeed]
        rw [splitOnChar] at hexpand ⊢
        simp [splitBy, hfeed, hexpand]

/-- The lines of a page are finished from what is kept of those of its text. -/
theorem sourceLines_eq (text : List Char) :
    sourceLines text = finishLines (linesOf ((splitOnChar '\n' text).map kept)) := by
  have hlines : splitOnChar '\n' (universalNewlines (kept text) ++ ['\n', '\n']) =
      linesOf ((splitOnChar '\n' text).map kept) ++ [[], []] := by
    have htwo : splitOnChar '\n' ['\n'] = [[], []] := by decide
    rw [splitOnChar, splitBy_append_cons _ _ (by decide), ← splitOnChar, ← splitOnChar,
      splitOnChar_universalNewlines_eq, kept, splitOnChar_filter (by decide), htwo]
    rfl
  obtain ⟨first, rest, hsplit, hexpand⟩ :=
    splitOnChar_expandTabs 0 (universalNewlines (kept text) ++ ['\n', '\n'])
  have hmap : expandTabs 0 first :: rest.map (expandTabs 0) =
      (linesOf ((splitOnChar '\n' text).map kept)).map (expandTabs 0) ++ [[], []] := by
    rw [← List.map_cons, ← hsplit, hlines, List.map_append]
    rfl
  have hkept : (text.filter fun c ↦ c != '\x02' && c != '\x03') = kept text := rfl
  rw [finishLines, ← hmap, sourceLines, hkept, hexpand]
  rfl

@[simp] private theorem length_finishLines (lines : List (List Char)) :
    (finishLines lines).length = lines.length + 2 := by
  cases lines <;> simp [finishLines]

/-- A line of a page as it is finished behind the first. -/
private def finished (line : List Char) : List Char := clearBlanks (expandTabs 0 (kept line))

/-- Pages with the same lines have the same lines also if the first is finished like the others. -/
private theorem map_finished_of_finishLines {a b : List (List Char)}
    (h : finishLines (a.map kept) = finishLines (b.map kept)) : a.map finished = b.map finished := by
  have hclear (line : List Char) : clearBlanks (clearBlanks line) = clearBlanks line := by
    simp only [clearBlanks]
    split <;> simp_all
  have hall (lines : List (List Char)) :
      (finishLines (lines.map kept)).map clearBlanks = lines.map finished ++ [[], []] := by
    cases lines with
    | nil => rfl
    | cons first rest =>
      have hnil : clearBlanks [] = [] := rfl
      simp [finishLines, finished, Function.comp_def, hclear, hnil]
  have heq := congrArg (List.map clearBlanks) h
  rw [hall, hall] at heq
  exact List.append_cancel_right heq

/-- The lines of a page are those of its text however they end, exactly if no line feed is parted
from a carriage return. -/
theorem sourceLines_universalNewlines_iff {text : List Char} :
    sourceLines (universalNewlines text) = sourceLines text ↔ Unparted text := by
  obtain ⟨-, hsame, hunparted⟩ := linesOf_kept_iff (splitOnChar '\n' text)
  rw [sourceLines_eq, sourceLines_eq, splitOnChar_universalNewlines_eq,
    linesOf_map_kept fun line ↦ return_not_mem_of_mem_linesOf]
  constructor
  · intro heq
    have hlength := congrArg List.length heq
    rw [length_finishLines, length_finishLines, List.length_map] at hlength
    exact hunparted (by omega)
  · intro h
    rw [hsame h]

/-! ## Fence lines -/

private theorem takeWhile_append_cons {p : Char → Bool} {c : Char} (hc : p c = false)
    (front rest : List Char) : (front ++ c :: rest).takeWhile p = front.takeWhile p := by
  refine takeWhile_append_of_head ?_
  rintro d ⟨⟩
  exact hc

private theorem dropWhile_append_cons {p : Char → Bool} {c : Char} (hc : p c = false)
    (front rest : List Char) :
    (front ++ c :: rest).dropWhile p = front.dropWhile p ++ c :: rest := by
  refine dropWhile_append_of_head ?_
  rintro d ⟨⟩
  exact hc

/-- The rule for indented fences looks at what stands before a carriage return only. -/
private theorem dropFenceIndent_append (front rest : List Char) :
    dropFenceIndent (front ++ '\r' :: rest) = dropFenceIndent front ++ '\r' :: rest := by
  rw [dropFenceIndent, dropFenceIndent]
  simp only [takeWhile_append_cons (p := (· == ' ')) (c := '\r') (by decide),
    dropWhile_append_cons (p := (· == ' ')) (c := '\r') (by decide),
    takeWhile_append_cons (p := isFenceMark) (c := '\r') (by decide)]
  split <;> rfl

/-- A fence has no label where it ends in a carriage return. -/
private theorem dropFenceLabel_append (front rest : List Char) :
    dropFenceLabel (front ++ '\r' :: rest) = front ++ '\r' :: rest := by
  rw [dropFenceLabel]
  simp only [takeWhile_append_cons (p := isFenceMark) (c := '\r') (by decide),
    dropWhile_append_cons (p := isFenceMark) (c := '\r') (by decide),
    takeWhile_append_cons (p := isLabelChar) (c := '\r') (by decide),
    dropWhile_append_cons (p := isLabelChar) (c := '\r') (by decide)]
  split
  · next c label heq =>
    have hreturn : '\r' ∈ ',' :: c :: label := heq ▸ by simp
    have hlabel : (c :: label).contains '\r' = true := by simpa using hreturn
    rw [hlabel]
    simp
  · rfl

/-- What the rules for fences make of a line with a carriage return. -/
private theorem normalizeLine_append (front rest : List Char) :
    normalizeLine (front ++ '\r' :: rest) = dropFenceIndent front ++ '\r' :: rest := by
  rw [normalizeLine, dropFenceIndent_append, dropFenceLabel_append]

/-- What the rule for indented fences does: a blank goes, and a fence starts the line. -/
private theorem dropFenceIndent_cases (line : List Char) :
    dropFenceIndent line = line ∨ ∃ more mark rest, line = ' ' :: more ∧
      dropFenceIndent line = mark :: rest ∧ isFenceMark mark = true ∧ mark :: rest <:+ line := by
  by_cases h : dropFenceIndent line = line
  · exact .inl h
  refine .inr ?_
  rw [dropFenceIndent] at h
  split at h
  · next hrule =>
    have hlengths := hrule
    simp only [Bool.and_eq_true, decide_eq_true_eq] at hlengths
    obtain ⟨⟨hindent, -⟩, hfence⟩ := hlengths
    have hsuffix := List.dropWhile_suffix (· == ' ') (l := line)
    rw [dropFenceIndent, if_pos hrule]
    cases hrest : line.dropWhile (· == ' ') with
    | nil =>
      rw [hrest] at hfence
      exact absurd hfence (by decide)
    | cons mark rest =>
      rw [hrest] at hfence hsuffix
      have hmark : isFenceMark mark = true := by
        by_contra hmark
        rw [List.takeWhile_cons_of_neg hmark] at hfence
        exact absurd hfence (by decide)
      cases line with
      | nil => exact absurd hindent (by decide)
      | cons c more =>
        refine ⟨more, mark, rest, ?_, rfl, hmark, hsuffix⟩
        by_cases hc : c = ' '
        · rw [hc]
        · rw [List.takeWhile_cons_of_neg (by simpa using hc)] at hindent
          exact absurd hindent (by decide)
  · exact absurd rfl h

/-- What the rule for labels does: a comma goes, and what follows it. -/
private theorem dropFenceLabel_cases (line : List Char) :
    dropFenceLabel line = line ∨ ∃ fence language label, line = fence ++ language ++ ',' :: label ∧
      dropFenceLabel line = fence ++ language ∧ fence ≠ [] ∧
      (∀ c ∈ fence, isFenceMark c = true) ∧ ∀ c ∈ language, isLabelChar c = true := by
  by_cases h : dropFenceLabel line = line
  · exact .inl h
  refine .inr ⟨line.takeWhile isFenceMark, (line.dropWhile isFenceMark).takeWhile isLabelChar, ?_⟩
  have hmarks : ∀ c ∈ line.takeWhile isFenceMark, isFenceMark c = true :=
    fun c hc ↦ List.mem_takeWhile_imp hc
  have hlabels : ∀ c ∈ (line.dropWhile isFenceMark).takeWhile isLabelChar, isLabelChar c = true :=
    fun c hc ↦ List.mem_takeWhile_imp hc
  have hwhole : line = line.takeWhile isFenceMark ++
      (line.dropWhile isFenceMark).takeWhile isLabelChar ++
        (line.dropWhile isFenceMark).dropWhile isLabelChar := by
    rw [List.append_assoc, List.takeWhile_append_dropWhile, List.takeWhile_append_dropWhile]
  rw [dropFenceLabel] at h
  split at h
  · next c label heq =>
    split at h
    · next hrule =>
      rw [heq] at hwhole
      refine ⟨c :: label, hwhole, ?_, ?_, hmarks, hlabels⟩
      · rw [dropFenceLabel]
        simp only [heq]
        rw [if_pos hrule]
      · intro hnil
        rw [hnil] at hrule
        exact absurd hrule (by simp [fenceLength])
    · exact absurd rfl h
  · exact absurd rfl h

/-- The rules for fences only leave something out. -/
private theorem normalizeLine_subset (line : List Char) : normalizeLine line ⊆ line := by
  have hindent : dropFenceIndent line ⊆ line := by
    rcases dropFenceIndent_cases line with heq | ⟨-, mark, rest, -, heq, -, hsuffix⟩
    · rw [heq]
      exact List.Subset.refl _
    · rw [heq]
      exact hsuffix.subset
  refine List.Subset.trans ?_ hindent
  rcases dropFenceLabel_cases (dropFenceIndent line) with heq | ⟨fence, language, label, hline, heq, -⟩
  · rw [normalizeLine, heq]
    exact List.Subset.refl _
  · rw [normalizeLine, heq, hline]
    exact List.subset_append_left _ _

/-! ### Fence lines as they are finished -/

private theorem finished_mark {mark : Char} (h : isFenceMark mark = true) (rest : List Char) :
    finished (mark :: rest) = mark :: expandTabs 1 (kept rest) := by
  have hmark : mark = '`' ∨ mark = '~' := by simpa [isFenceMark] using h
  have hexpand : expandTabs 0 (kept (mark :: rest)) = mark :: expandTabs 1 (kept rest) := by
    rcases hmark with rfl | rfl
    · rw [kept, List.filter_cons_of_pos (by decide), expandTabs_cons (by decide) (by decide), ← kept]
    · rw [kept, List.filter_cons_of_pos (by decide), expandTabs_cons (by decide) (by decide), ← kept]
  have hblank : (mark == ' ') = false := by rcases hmark with rfl | rfl <;> decide
  rw [finished, hexpand, clearBlanks, List.all_cons, hblank, Bool.false_and,
    if_neg Bool.false_ne_true]

private theorem expandTabs_append {front : List Char} (h : ∀ c ∈ front, c ≠ '\t' ∧ c ≠ '\n')
    (column : Nat) (rest : List Char) :
    expandTabs column (front ++ rest) = front ++ expandTabs (column + front.length) rest := by
  induction front generalizing column with
  | nil => rfl
  | cons c front ih =>
    obtain ⟨htab, hfeed⟩ := h c List.mem_cons_self
    rw [List.cons_append, expandTabs_cons htab hfeed,
      ih (fun d hd ↦ h d (List.mem_cons_of_mem _ hd)), List.cons_append, List.length_cons,
      Nat.add_right_comm, Nat.add_assoc]

/-- A fence that reads the same without its label has none. -/
private theorem dropFenceLabel_of_finished {line : List Char}
    (h : finished (dropFenceLabel line) = finished line) : dropFenceLabel line = line := by
  rcases dropFenceLabel_cases line with
    heq | ⟨fence, language, label, hline, heq, hne, hmarks, hlabels⟩
  · exact heq
  obtain ⟨mark, others, rfl⟩ := List.exists_cons_of_ne_nil hne
  have hplain : ∀ c ∈ kept (others ++ language), c ≠ '\t' ∧ c ≠ '\n' := by
    intro c hc
    rcases List.mem_append.mp (List.mem_filter.mp hc).1 with hc | hc
    · have hmark := hmarks c (List.mem_cons_of_mem _ hc)
      constructor
      all_goals
        rintro rfl
        exact absurd hmark (by decide)
    · have hlabel := hlabels c hc
      constructor
      all_goals
        rintro rfl
        exact absurd hlabel (by decide)
  have hcut : kept (others ++ language ++ ',' :: label) =
      kept (others ++ language) ++ ',' :: kept label := by
    rw [kept, List.filter_append, List.filter_cons_of_pos (by decide)]
    rfl
  have hshort := expandTabs_append hplain 1 []
  rw [List.append_nil] at hshort
  have hmark := hmarks mark List.mem_cons_self
  rw [heq, hline, List.cons_append, List.cons_append, finished_mark hmark, finished_mark hmark, hcut,
    hshort, expandTabs_append hplain, expandTabs_cons (by decide) (by decide)] at h
  exact absurd (List.append_cancel_left (List.cons.inj h).2) (by simp [expandTabs])

private theorem head?_normalizeLine {line rest : List Char} {mark : Char}
    (hindent : dropFenceIndent line = mark :: rest) : ∃ others, normalizeLine line = mark :: others := by
  rw [normalizeLine, hindent]
  rcases dropFenceLabel_cases (mark :: rest) with heq | ⟨fence, language, label, hline, heq, hne, -⟩
  · exact ⟨rest, heq⟩
  · obtain ⟨first, others, rfl⟩ := List.exists_cons_of_ne_nil hne
    obtain ⟨rfl, -⟩ := List.cons.inj hline
    exact ⟨others ++ language, heq⟩

/-- A line that reads the same when the rules for fences are applied is not changed by them. -/
private theorem normalizeLine_of_finished {line : List Char}
    (h : finished (normalizeLine line) = finished line) : normalizeLine line = line := by
  rcases dropFenceIndent_cases line with heq | ⟨more, mark, rest, hline, heq, hmark, -⟩
  · rw [normalizeLine, heq] at h ⊢
    exact dropFenceLabel_of_finished h
  · -- the line starts with a blank if it is not empty, its fence does not
    obtain ⟨others, hothers⟩ := head?_normalizeLine heq
    have hblank : kept (' ' :: more) = ' ' :: kept more := List.filter_cons_of_pos (by decide)
    rw [hothers, finished_mark hmark, hline, finished, hblank,
      expandTabs_cons (by decide) (by decide), clearBlanks] at h
    split at h
    · cases h
    · rw [(List.cons.inj h).1] at hmark
      exact absurd hmark (by decide)

/-! ### Lines and carriage returns -/

/-- A line that the rules for fences treat like the lines that its carriage returns make of it: the
first has no label, and the others stay what they are. -/
def Settled (line : List Char) : Prop :=
  match splitOnChar '\r' line with
  | first :: second :: rest =>
    dropFenceLabel (dropFenceIndent first) = dropFenceIndent first ∧
      ∀ piece ∈ second :: rest, normalizeLine piece = piece
  | _ => True

instance (line : List Char) : Decidable (Settled line) :=
  match h : splitOnChar '\r' line with
  | [] => .isTrue (by simp [Settled, h])
  | [_] => .isTrue (by simp [Settled, h])
  | first :: second :: rest =>
    decidable_of_iff (dropFenceLabel (dropFenceIndent first) = dropFenceIndent first ∧
      ∀ piece ∈ second :: rest, normalizeLine piece = piece) (by simp only [Settled, h])

/-- A text that the rules for fences treat in the same way however its lines end. -/
def FencesSettled (text : List Char) : Prop := ∀ line ∈ splitOnChar '\n' text, Settled line

instance (text : List Char) : Decidable (FencesSettled text) :=
  inferInstanceAs (Decidable (∀ line ∈ splitOnChar '\n' text, Settled line))

/-- What carriage returns make of a line before and after the rules for fences are applied. -/
private theorem splitOnChar_normalizeLine (line : List Char) :
    (splitOnChar '\r' line = [line] ∧
      splitOnChar '\r' (normalizeLine line) = [normalizeLine line]) ∨
    ∃ first second rest, splitOnChar '\r' line = first :: second :: rest ∧
      splitOnChar '\r' (normalizeLine line) = dropFenceIndent first :: second :: rest := by
  have hself {cs : List Char} (h : '\r' ∉ cs) : splitOnChar '\r' cs = [cs] :=
    splitBy_of_forall fun c hc ↦ by simpa using ne_of_mem_of_not_mem hc h
  by_cases hreturn : '\r' ∈ line
  · obtain ⟨front, back, rfl, hfront⟩ := List.eq_append_cons_of_mem hreturn
    obtain ⟨second, rest, hback⟩ :=
      List.exists_cons_of_ne_nil (splitBy_ne_nil (p := (· == '\r')) back)
    have hindent : '\r' ∉ dropFenceIndent front := by
      rcases dropFenceIndent_cases front with heq | ⟨-, mark, others, -, heq, -, hsuffix⟩
      · rwa [heq]
      · rw [heq]
        exact fun hmem ↦ hfront (hsuffix.mem hmem)
    have hcut (cs : List Char) (h : '\r' ∉ cs) :
        splitOnChar '\r' (cs ++ '\r' :: back) = cs :: second :: rest := by
      have hcs := hself h
      rw [splitOnChar] at hcs ⊢
      rw [splitBy_append_cons _ _ (by decide), hcs, hback, List.singleton_append]
    refine .inr ⟨front, second, rest, hcut front hfront, ?_⟩
    rw [normalizeLine_append, hcut _ hindent]
  · exact .inl ⟨hself hreturn, hself fun hmem ↦ hreturn (normalizeLine_subset line hmem)⟩

private theorem length_splitOnChar_normalizeLine (line : List Char) :
    (splitOnChar '\r' (normalizeLine line)).length = (splitOnChar '\r' line).length := by
  rcases splitOnChar_normalizeLine line with ⟨hpieces, hnormal⟩ | ⟨_, _, _, hpieces, hnormal⟩
  · rw [hpieces, hnormal]
    rfl
  · rw [hpieces, hnormal]
    rfl

/-- The rules for fences leave the end of a line with a carriage return as it is. -/
private theorem getLast?_filter_normalizeLine (keep : Char → Bool) (h : keep '\r' = true)
    (line : List Char) :
    ((normalizeLine line).filter keep).getLast? = some '\r' ↔
      (line.filter keep).getLast? = some '\r' := by
  by_cases hreturn : '\r' ∈ line
  · obtain ⟨front, back, rfl⟩ := List.append_of_mem hreturn
    have hlast (cs : List Char) : ((cs ++ '\r' :: back).filter keep).getLast? =
        ('\r' :: back.filter keep).getLast? := by
      rw [List.filter_append, List.filter_cons_of_pos h, List.getLast?_append, List.getLast?_cons,
        Option.some_or]
    rw [normalizeLine_append, hlast, hlast]
  · have hnone {cs : List Char} (hsubset : cs ⊆ line) :
        (cs.filter keep).getLast? ≠ some '\r' := fun heq ↦
      hreturn (hsubset (List.mem_filter.mp (List.mem_of_getLast? heq)).1)
    exact iff_of_false (hnone (normalizeLine_subset line)) (hnone (List.Subset.refl _))

private theorem getLast?_normalizeLine (line : List Char) :
    (normalizeLine line).getLast? = some '\r' ↔ line.getLast? = some '\r' := by
  have h := getLast?_filter_normalizeLine (fun _ ↦ true) rfl line
  rwa [List.filter_eq_self.mpr fun _ _ ↦ rfl, List.filter_eq_self.mpr fun _ _ ↦ rfl] at h

private theorem parted_normalizeLine (line : List Char) :
    Parted (normalizeLine line) ↔ Parted line := by
  rw [Parted, Parted, kept, kept, getLast?_filter_normalizeLine isKept (by decide), Ne,
    getLast?_normalizeLine]

/-- Lines that are shown by something that tells changed lines from unchanged ones: the rules for
fences come to the same on both sides of the carriage returns exactly of a settled line. -/
private theorem settled_iff {g : List Char → List Char}
    (hline : ∀ line, g (normalizeLine line) = g line → normalizeLine line = line)
    (hlabel : ∀ line, g (dropFenceLabel line) = g line → dropFenceLabel line = line)
    (line : List Char) :
    (splitOnChar '\r' (normalizeLine line)).map g =
      ((splitOnChar '\r' line).map normalizeLine).map g ↔ Settled line := by
  rcases splitOnChar_normalizeLine line with ⟨hpieces, hnormal⟩ | ⟨first, second, rest, hpieces, hnormal⟩
  · rw [hnormal, hpieces, Settled, hpieces]
    exact iff_of_true rfl trivial
  · rw [hnormal, hpieces, Settled, hpieces]
    simp only
    generalize second :: rest = others
    rw [List.map_cons, List.map_cons, List.map_cons, List.cons.injEq, List.map_map,
      List.map_inj_left]
    refine and_congr ⟨fun h ↦ hlabel _ h.symm, fun h ↦ ?_⟩
      (forall₂_congr fun piece _ ↦ ⟨fun h ↦ hline _ h.symm, fun h ↦ ?_⟩)
    · rw [normalizeLine, h]
    · rw [Function.comp_apply, h]

/-- What a carriage return at the end of a line stands for does not matter to the rules. -/
private theorem linesBefore_normalizeLine (g : List Char → List Char) (line : List Char) :
    (linesBefore (normalizeLine line)).length = (linesBefore line).length ∧
      ((linesBefore (normalizeLine line)).map g = ((linesBefore line).map normalizeLine).map g ↔
        (splitOnChar '\r' (normalizeLine line)).map g =
          ((splitOnChar '\r' line).map normalizeLine).map g) := by
  have hlength := length_splitOnChar_normalizeLine line
  have hlast := getLast?_normalizeLine line
  rw [linesBefore, linesBefore]
  by_cases hreturn : line.getLast? = some '\r'
  · rw [if_pos hreturn, if_pos (hlast.mpr hreturn)]
    refine ⟨by rw [List.length_dropLast, List.length_dropLast, hlength], ?_⟩
    obtain ⟨front, rfl⟩ := List.getLast?_eq_some_iff.mp hreturn
    have hcut (cs : List Char) : splitOnChar '\r' (cs ++ ['\r']) = splitOnChar '\r' cs ++ [[]] :=
      splitBy_append_cons cs [] (by decide)
    have hnil : normalizeLine [] = [] := by decide
    rw [normalizeLine_append, hcut, hcut, List.dropLast_concat, List.dropLast_concat]
    simp [hnil]
  · rw [if_neg hreturn, if_neg (hlast.not.mpr hreturn)]
    exact ⟨hlength, Iff.rfl⟩

/-- The rules for fences come to the same before and after carriage returns are made line feeds
exactly if every line is settled. -/
private theorem linesOf_normalizeLine {g : List Char → List Char}
    (hline : ∀ line, g (normalizeLine line) = g line → normalizeLine line = line)
    (hlabel : ∀ line, g (dropFenceLabel line) = g line → dropFenceLabel line = line)
    (pieces : List (List Char)) :
    (linesOf (pieces.map normalizeLine)).length = (linesOf pieces).length ∧
      ((linesOf (pieces.map normalizeLine)).map g = ((linesOf pieces).map normalizeLine).map g ↔
        ∀ line ∈ pieces, Settled line) := by
  induction pieces using linesOf.induct with
  | case1 => simp [linesOf]
  | case2 last =>
    rw [List.map_singleton, linesOf, linesOf, settled_iff hline hlabel, List.forall_mem_singleton]
    exact ⟨length_splitOnChar_normalizeLine last, Iff.rfl⟩
  | case3 line next rest ih =>
    obtain ⟨hlength, hiff⟩ := linesBefore_normalizeLine g line
    rw [settled_iff hline hlabel] at hiff
    rw [List.map_cons] at ih
    simp only [List.map_cons, linesOf, List.length_append, List.map_append, hlength, ih.1,
      List.forall_mem_cons (a := line), true_and]
    rw [← ih.2]
    constructor
    · intro heq
      obtain ⟨hfirst, hrest⟩ := List.append_inj heq (by simp [hlength])
      exact ⟨hiff.mp hfirst, hrest⟩
    · rintro ⟨hfirst, hrest⟩
      rw [hiff.mpr hfirst, hrest]

/-! ## Page sources -/

theorem splitOnChar_normalizeFences (text : List Char) :
    splitOnChar '\n' (normalizeFences text) = (splitOnChar '\n' text).map normalizeLine := by
  have hne : splitOnChar '\n' text ≠ [] := splitBy_ne_nil text
  refine splitOnChar_joinWith _ (by simpa using hne) fun line hline ↦ ?_
  obtain ⟨source, hsource, rfl⟩ := List.mem_map.mp hline
  exact fun hfeed ↦ not_mem_of_mem_splitOnChar hsource (normalizeLine_subset source hfeed)

/-- The rules for fences can be applied before or after carriage returns are made line feeds. -/
theorem normalizeFences_universalNewlines {text : List Char} (h : FencesSettled text) :
    normalizeFences (universalNewlines text) = universalNewlines (normalizeFences text) := by
  have hlines := (linesOf_normalizeLine (g := id) (fun _ ↦ id) (fun _ ↦ id)
    (splitOnChar '\n' text)).2.mpr h
  rw [List.map_id, List.map_id] at hlines
  rw [normalizeFences, splitOnChar_universalNewlines_eq, ← hlines, ← splitOnChar_normalizeFences,
    ← splitOnChar_universalNewlines_eq, joinWith_splitOnChar]

/-- With its fences in their one form a page has the lines of its text however they end, exactly if
no line feed is parted from a carriage return and the fences are settled. -/
theorem sourceLines_normalizeFences_iff {text : List Char} :
    sourceLines (normalizeFences (universalNewlines text)) = sourceLines (normalizeFences text) ↔
      Unparted text ∧ FencesSettled text := by
  have hunparted : Unparted (normalizeFences text) ↔ Unparted text := by
    rw [Unparted, Unparted, splitOnChar_normalizeFences, ← List.map_dropLast]
    simp only [List.mem_map, forall_exists_index, and_imp, forall_apply_eq_imp_iff₂,
      parted_normalizeLine]
  constructor
  · intro heq
    have hclean : ∀ line ∈ (linesOf (splitOnChar '\n' text)).map normalizeLine, '\r' ∉ line := by
      intro line hline
      obtain ⟨source, hsource, rfl⟩ := List.mem_map.mp hline
      exact fun hmem ↦ return_not_mem_of_mem_linesOf hsource (normalizeLine_subset source hmem)
    obtain ⟨hlength, hiff⟩ := linesOf_normalizeLine (g := finished)
      (fun _ ↦ normalizeLine_of_finished) (fun _ ↦ dropFenceLabel_of_finished)
      (splitOnChar '\n' text)
    obtain ⟨-, hsame, hfew⟩ := linesOf_kept_iff ((splitOnChar '\n' text).map normalizeLine)
    rw [sourceLines_eq, sourceLines_eq, splitOnChar_normalizeFences, splitOnChar_normalizeFences,
      splitOnChar_universalNewlines_eq, linesOf_map_kept hclean] at heq
    have hcount := congrArg List.length heq
    rw [length_finishLines, length_finishLines, List.length_map, List.length_map] at hcount
    have hwhole := hfew (by omega)
    rw [hsame hwhole] at heq
    refine ⟨hunparted.mp ?_, hiff.mp (map_finished_of_finishLines heq.symm)⟩
    rw [Unparted, splitOnChar_normalizeFences]
    exact hwhole
  · rintro ⟨h, hfences⟩
    rw [normalizeFences_universalNewlines hfences, sourceLines_universalNewlines_iff, hunparted]
    exact h

example : FencesSettled "```x\r\n```\r\n".toList ∧
    ¬ FencesSettled "```x,label\r\n```\r\n".toList := by decide

/-- A text has ink whichever characters end its lines. -/
private theorem hasInk_universalNewlines (text : List Char) :
    hasInk (universalNewlines text) = hasInk text := by
  have hreturn : isBlank '\r' = true := by decide
  have hfeed : isBlank '\n' = true := by decide
  simp only [hasInk]
  induction text using universalNewlines.induct with
  | case1 => rfl
  | case2 rest ih => simp [universalNewlines, hreturn, hfeed, ih]
  | case3 rest hpair ih =>
    rw [universalNewlines]
    · simp [hreturn, hfeed, ih]
    · exact hpair
  | case4 c rest _ hc ih => rw [universalNewlines_cons hc, List.any_cons, List.any_cons, ih]

end Guidebook.Markdown

namespace Guidebook.Page

open Markdown Text

/-- The title of a page does not depend on what ends its lines, as long as no line feed is parted
from a carriage return. -/
theorem title_universalNewlines {text : List Char} (h : Unparted text) :
    title (universalNewlines text) = title text := by
  rw [title, title, hasInk_universalNewlines, sourceLines_universalNewlines_iff.mpr h]

/-- Neither does its content, as long as its fences are settled as well. -/
theorem content_universalNewlines {text : List Char} (h : Unparted text)
    (hfences : FencesSettled text) (style : String) :
    content style (universalNewlines text) = content style text := by
  rw [content, content, toHtml, toHtml, sourceLines_normalizeFences_iff.mpr ⟨h, hfences⟩,
    normalizeFences_universalNewlines hfences, hasInk_universalNewlines]

end Guidebook.Page
