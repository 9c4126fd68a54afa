import Guidebook.Proofs.Markdown.Source
import Guidebook.Proofs.Text.Pattern

/-!
# Fences in one form

The rules for fences are two substitutions: blanks go in front of a fence, and the rest of a fence
line goes from a comma on. Both work line by line, and done once they leave nothing to do.
-/

namespace Guidebook.Markdown

open Text Pattern

/-! ## Patterns -/

/-- A fence. -/
def fencePart : Pattern Char := .group 1 (atLeast fenceLength (.one isFenceMark))

/-- The language behind a fence. -/
def languagePart : Pattern Char := .group 2 (atLeast 1 (.one isLabelChar))

/-- A character that ends no line. -/
def isInLine (c : Char) : Bool := c != '\r' && c != '\n'

/-- A comma and more of its line. -/
def extraPart : Pattern Char := .group 3 (.seq (.one (· == ',')) (atLeast 1 (.one isInLine)))

/-- One to three blanks at the start of a line and the fence behind them. -/
def fenceIndentPattern : Pattern Char :=
  chain [lineStart, between 1 3 (.one (· == ' ')), fencePart]

/-- A line that is a fence, perhaps with a language, and goes on behind a comma. -/
def fenceLabelPattern : Pattern Char :=
  chain [lineStart, fencePart, perhaps languagePart, extraPart, lineEnd]

/-- What stays of a match: the fence and, if there is one, its language. -/
def fenceOf (found : Progress Char) : List Char :=
  (found.group 1).getD [] ++ (found.group 2).getD []

section Lines

variable {p : Char → Bool} {cs rest : List Char}

private theorem takeWhile_line (hp : p '\n' = false) (cs : List Char) (hrest : AtFeed rest) :
    (cs ++ rest).takeWhile p = cs.takeWhile p :=
  takeWhile_append_of_head fun c hc ↦ hrest c hc ▸ hp

/-- Among the first items of a class there is one of the class at every place. -/
private theorem exists_of_lt_takeWhile {n : Nat} (h : n < (cs.takeWhile p).length) :
    ∃ c more, cs.drop n = c :: more ∧ p c = true := by
  have hn : n < cs.length := h.trans_le (List.takeWhile_prefix p).length_le
  refine ⟨cs[n], cs.drop (n + 1), List.drop_eq_getElem_cons hn, ?_⟩
  rw [← (List.takeWhile_prefix p).getElem h]
  exact List.mem_takeWhile_imp (List.getElem_mem h)

end Lines

section Runs

variable {s : Progress Char} {k : Progress Char → Option (Progress Char)}

/-- No class of items is found where the next is not of the class. -/
private theorem run_group_of_not {label least : Nat} {p : Char → Bool} (hleast : 0 < least)
    {c : Char} {more : List Char} (hrest : s.rest = c :: more) (hc : p c = false) :
    run (· == ·) (.group label (atLeast least (.one p))) s k = none := by
  have hnone : ([] : List Char) = s.rest.takeWhile p := by simp [hrest, hc]
  rw [run_group_atLeast (List.nil_append s.rest).symm hnone fun n hn ↦ absurd hn n.not_lt_zero]
  exact if_neg (by simpa using hleast.ne')

end Runs

/-- A fence at the start of what is left of a line is found as a whole. -/
private theorem run_fencePart {s : Progress Char} {line rest : List Char}
    (hline : s.rest = line ++ rest) (hrest : AtFeed rest) :
    run (· == ·) fencePart s some = if fenceLength ≤ (line.takeWhile isFenceMark).length then
      some ⟨(line.takeWhile isFenceMark).reverse ++ s.before, line.dropWhile isFenceMark ++ rest,
        (1, line.takeWhile isFenceMark) :: s.groups⟩ else none := by
  refine run_group_atLeast ?_ ?_ fun n _ ↦ .inr fun t ↦ rfl
  · rw [hline, ← List.append_assoc, List.takeWhile_append_dropWhile]
  · rw [hline, takeWhile_line (by decide) _ hrest]

/-- At the start of a line all its blanks are taken, if there are one to three, and then its
fence. -/
private theorem matchAt?_fenceIndent {before line rest : List Char} (hbefore : AtFeed before)
    (hrest : AtFeed rest) :
    let indent := line.takeWhile (· == ' ')
    let inner := line.dropWhile (· == ' ')
    matchAt? (· == ·) fenceIndentPattern before (line ++ rest) =
      if (1 ≤ indent.length ∧ indent.length ≤ 3) ∧
          fenceLength ≤ (inner.takeWhile isFenceMark).length then
        some ⟨(indent ++ inner.takeWhile isFenceMark).reverse ++ before,
          inner.dropWhile isFenceMark ++ rest, [(1, inner.takeWhile isFenceMark)]⟩
      else none := by
  intro indent inner
  have htake : (line ++ rest).takeWhile (· == ' ') = indent := takeWhile_line (by decide) line hrest
  have hwhole : line ++ rest = indent ++ (inner ++ rest) := by
    rw [← List.append_assoc, List.takeWhile_append_dropWhile]
  have hfew : ∀ n < indent.length,
      run (· == ·) fencePart (Progress.advance ⟨before, line ++ rest, []⟩ n) some = none := by
    intro n hn
    obtain ⟨c, more, hdrop, hc⟩ := exists_of_lt_takeWhile (htake ▸ hn)
    obtain rfl : c = ' ' := by simpa using hc
    exact run_group_of_not (by decide) hdrop (by decide)
  simp only [matchAt?, fenceIndentPattern, chain, run_seq, run_lineStart, if_pos hbefore]
  rw [run_between (congrArg (fun cs ↦ min 3 (List.length cs)) htake.symm) fun n hn ↦
    .inl (hfew n (hn.trans_le (Nat.min_le_right 3 indent.length)))]
  rcases Nat.lt_or_ge 3 indent.length with hmany | hat
  · -- with a fourth blank there is no fence behind the third
    rw [Nat.min_eq_left hmany.le, hfew 3 hmany, ite_self, if_neg fun h ↦ hmany.not_ge h.1.2]
  · rw [Nat.min_eq_right hat, Progress.advance_append hwhole, run_fencePart rfl hrest,
      List.reverse_append, List.append_assoc]
    by_cases hblank : 1 ≤ indent.length
    · rw [if_pos hblank]
      exact if_congr (and_iff_right ⟨hblank, hat⟩).symm rfl rfl
    · rw [if_neg hblank, if_neg fun h ↦ hblank h.1.1]

/-- The blanks in front of a fence are dropped line by line. -/
theorem isLineRule_fenceIndent : IsLineRule fenceIndentPattern fenceOf dropFenceIndent where
  start := fun h ↦ by
    simp only [matchAt?, fenceIndentPattern, chain, run_seq, run_lineStart, if_neg h]
  line := by
    intro before line rest hbefore _ hrest
    rw [matchAt?_fenceIndent hbefore hrest, dropFenceIndent]
    by_cases hfence : (1 ≤ (line.takeWhile (· == ' ')).length ∧
        (line.takeWhile (· == ' ')).length ≤ 3) ∧
        fenceLength ≤ ((line.dropWhile (· == ' ')).takeWhile isFenceMark).length
    · refine .inr ⟨_, (line.dropWhile (· == ' ')).dropWhile isFenceMark, _, ?_, ?_,
        if_pos hfence, fun _ _ ↦ ?_⟩
      · intro hnil
        rw [(List.append_eq_nil_iff.mp hnil).1] at hfence
        exact absurd hfence.1.1 (by decide)
      · rw [List.append_assoc, List.takeWhile_append_dropWhile, List.takeWhile_append_dropWhile]
      · have hput : ∀ fence front back, fenceOf ⟨front, back, [(1, fence)]⟩ = fence ++ [] :=
          fun _ _ _ ↦ rfl
        rw [if_pos (by simpa using hfence), hput, List.append_nil, List.takeWhile_append_dropWhile]
    · refine .inl ⟨if_neg hfence, if_neg ?_⟩
      simpa using hfence

/-- What comes behind the language of a fence. -/
private abbrev runExtra (s : Progress Char) : Option (Progress Char) :=
  run (· == ·) extraPart s fun t ↦ run (· == ·) lineEnd t some

private theorem runExtra_of_ne {s : Progress Char} (h : ∀ c ∈ s.rest.head?, c ≠ ',') :
    runExtra s = none := by
  have hnone : s.next? (· == ',') = none := by
    rw [Progress.next?]
    split
    · next c rest heq => exact if_neg (by simpa using h c (by simp [heq]))
    · rfl
  rw [runExtra, extraPart, run, run_seq, run_one, hnone, Option.bind_none]

/-- What has to end where a line ends takes the whole rest of the line, if there is one, and no
carriage return. -/
private theorem run_inLine {s : Progress Char} {k : Progress Char → Option (Progress Char)}
    {put : Progress Char → Progress Char} {extra rest : List Char} (hs : s.rest = extra ++ rest)
    (hextra : '\n' ∉ extra) (hrest : AtFeed rest)
    (hk : ∀ t, k t = if AtFeed t.rest then some (put t) else none) :
    run (· == ·) (atLeast 1 (.one isInLine)) s k =
      if 1 ≤ extra.length ∧ '\r' ∉ extra then
        some (put ⟨extra.reverse ++ s.before, rest, s.groups⟩) else none := by
  obtain ⟨taken, htaken⟩ : ∃ taken, extra.takeWhile isInLine = taken := ⟨_, rfl⟩
  obtain ⟨left, hleft⟩ : ∃ left, extra.dropWhile isInLine = left := ⟨_, rfl⟩
  have hwhole : extra = taken ++ left := by
    rw [← htaken, ← hleft, List.takeWhile_append_dropWhile]
  have htake : s.rest.takeWhile isInLine = taken := by
    rw [hs, takeWhile_line (by decide) _ hrest, htaken]
  have hbehind : s.advance taken.length = ⟨taken.reverse ++ s.before, left ++ rest, s.groups⟩ :=
    Progress.advance_append (by rw [hs, hwhole, List.append_assoc])
  have hfew : ∀ n < taken.length, k (s.advance n) = none := by
    intro n hn
    obtain ⟨c, more, hdrop, hc⟩ := exists_of_lt_takeWhile (htake ▸ hn)
    rw [hk, Progress.rest_advance, hdrop, if_neg]
    rw [atFeed_cons]
    rintro rfl
    exact absurd hc (by decide)
  rw [run_atLeast (congrArg List.length htake).symm fun n hn ↦ .inl (hfew n hn), hbehind, hk]
  cases left with
  | nil =>
    obtain rfl : extra = taken := by rw [hwhole, List.append_nil]
    have hreturn : '\r' ∉ extra := fun hmem ↦
      absurd (List.mem_takeWhile_imp (htaken.symm ▸ hmem)) (by decide)
    rw [List.nil_append, if_pos hrest]
    exact if_congr (and_iff_left hreturn).symm rfl rfl
  | cons c left =>
    have hc : isInLine c = false := by
      have hhead := List.head_dropWhile_not isInLine (l := extra) (by simp [hleft])
      simpa only [hleft, List.head_cons] using hhead
    have hfeed : c ≠ '\n' := by
      rintro rfl
      exact hextra (hwhole ▸ by simp)
    obtain rfl : c = '\r' := by simpa [isInLine, hfeed] using hc
    have hreturn : '\r' ∈ extra := hwhole ▸ by simp
    have hback : ¬ AtFeed ('\r' :: left ++ rest) := fun hat ↦ hfeed (atFeed_cons.mp hat)
    rw [if_neg hback, ite_self, if_neg fun h ↦ h.2 hreturn]

/-- Behind a comma the whole rest of the line is taken, if there is one, and no carriage return. -/
private theorem runExtra_comma {s : Progress Char} {extra rest : List Char}
    (hs : s.rest = ',' :: (extra ++ rest)) (hextra : '\n' ∉ extra) (hrest : AtFeed rest) :
    runExtra s = if 1 ≤ extra.length ∧ '\r' ∉ extra then
      some ⟨(',' :: extra).reverse ++ s.before, rest, (3, ',' :: extra) :: s.groups⟩ else none := by
  have hnext : s.next? (· == ',') = some ⟨',' :: s.before, extra ++ rest, s.groups⟩ := by
    rw [Progress.next?, hs]
    rfl
  have hlength : s.rest.take (s.rest.length - rest.length) = ',' :: extra := by
    rw [hs, ← List.cons_append, List.length_append, Nat.add_sub_cancel, List.take_left]
  rw [runExtra, extraPart, run, run_seq, run_one, hnext, Option.bind_some]
  refine Eq.trans (run_inLine rfl hextra hrest fun t ↦ run_lineEnd) ?_
  rw [hlength, List.reverse_cons, List.append_assoc, List.singleton_append]

/-- A language is taken as a whole, or left out where there is none. -/
private theorem run_language {s : Progress Char} {line rest : List Char}
    (hline : s.rest = line ++ rest) (hrest : AtFeed rest) :
    run (· == ·) (perhaps languagePart) s runExtra =
      runExtra ⟨(line.takeWhile isLabelChar).reverse ++ s.before,
        line.dropWhile isLabelChar ++ rest,
        if line.takeWhile isLabelChar = [] then s.groups
        else (2, line.takeWhile isLabelChar) :: s.groups⟩ := by
  have htake := takeWhile_line (p := isLabelChar) (by decide) line hrest
  obtain ⟨language, hlanguage⟩ : ∃ language, line.takeWhile isLabelChar = language := ⟨_, rfl⟩
  obtain ⟨tail, htail⟩ : ∃ tail, line.dropWhile isLabelChar = tail := ⟨_, rfl⟩
  have hwhole : s.rest = language ++ (tail ++ rest) := by
    rw [hline, ← hlanguage, ← htail, ← List.append_assoc, List.takeWhile_append_dropWhile]
  rw [hlanguage] at htake ⊢
  rw [htail]
  have hfew : ∀ n < language.length, ∀ groups, runExtra { s.advance n with groups } = none := by
    intro n hn groups
    obtain ⟨c, more, hdrop, hc⟩ := exists_of_lt_takeWhile (htake ▸ hn)
    refine runExtra_of_ne fun d hd ↦ ?_
    rw [Progress.rest_advance, hline, hdrop] at hd
    obtain rfl := Option.some.inj hd
    rintro rfl
    exact absurd hc (by decide)
  rw [run_perhaps, languagePart, run_group_atLeast hwhole (by rw [hline, htake])]
  swap
  · exact fun n hn ↦ .inl fun groups ↦ by rw [hfew n hn, ite_self]
  cases language with
  | nil =>
    have hself : s = ⟨s.before, tail ++ rest, s.groups⟩ := by
      rw [← List.nil_append (tail ++ rest), ← hwhole]
    rw [if_neg (by decide), Option.none_or, if_pos rfl, List.reverse_nil, List.nil_append, ← hself]
  | cons c language =>
    have hnone : runExtra s = none := by
      have hzero := hfew 0 (by simp) s.groups
      rwa [Progress.advance_zero] at hzero
    have hshorter : (tail ++ rest).length < s.rest.length := by
      simp only [hwhole, List.length_append, List.length_cons]
      omega
    rw [if_pos (by simp : 1 ≤ (c :: language).length), if_pos hshorter, hnone, Option.or_none,
      if_neg (List.cons_ne_nil c language)]

/-- The groups of a fence with a language that may be missing. -/
private def fenceGroups (fence language : List Char) : List (Nat × List Char) :=
  if language = [] then [(1, fence)] else [(2, language), (1, fence)]

private theorem fenceOf_fenceGroups (fence language extra front back : List Char) :
    fenceOf ⟨front, back, (3, extra) :: fenceGroups fence language⟩ = fence ++ language := by
  rw [fenceGroups]
  split
  · next hnil =>
    rw [hnil]
    rfl
  · rfl

/-- At the start of a line its fence is taken as a whole, and then its language. -/
private theorem matchAt?_fenceLabel {before line rest : List Char} (hbefore : AtFeed before)
    (hrest : AtFeed rest) :
    let inner := line.dropWhile isFenceMark
    matchAt? (· == ·) fenceLabelPattern before (line ++ rest) =
      if fenceLength ≤ (line.takeWhile isFenceMark).length then
        runExtra ⟨(line.takeWhile isFenceMark ++ inner.takeWhile isLabelChar).reverse ++ before,
          inner.dropWhile isLabelChar ++ rest,
          fenceGroups (line.takeWhile isFenceMark) (inner.takeWhile isLabelChar)⟩
      else none := by
  intro inner
  have htake := takeWhile_line (p := isFenceMark) (by decide) line hrest
  have hwhole : line ++ rest = line.takeWhile isFenceMark ++ (inner ++ rest) := by
    rw [← List.append_assoc, List.takeWhile_append_dropWhile]
  have hfew : ∀ n < (line.takeWhile isFenceMark).length, ∀ groups,
      run (· == ·) (perhaps languagePart)
        { Progress.advance ⟨before, line ++ rest, []⟩ n with groups } runExtra = none := by
    intro n hn groups
    obtain ⟨c, more, hdrop, hc⟩ := exists_of_lt_takeWhile (htake ▸ hn)
    have hmark : c = '`' ∨ c = '~' := by simpa [isFenceMark] using hc
    have hplain : isLabelChar c = false ∧ c ≠ ',' := by rcases hmark with rfl | rfl <;> decide
    rw [run_perhaps, languagePart, run_group_of_not (by decide) hdrop hplain.1, Option.none_or]
    refine runExtra_of_ne fun d hd ↦ ?_
    rw [Progress.rest_advance, hdrop] at hd
    exact Option.some.inj hd ▸ hplain.2
  simp only [matchAt?, fenceLabelPattern, chain, run_seq, run_lineStart, if_pos hbefore]
  rw [fencePart, run_group_atLeast hwhole htake.symm fun n hn ↦ .inl (hfew n hn),
    run_language rfl hrest, List.reverse_append, List.append_assoc]
  rfl

/-- The rule for labels where a comma stands behind the language. -/
private theorem dropFenceLabel_comma {line extra : List Char}
    (h : (line.dropWhile isFenceMark).dropWhile isLabelChar = ',' :: extra) :
    dropFenceLabel line =
      if fenceLength ≤ (line.takeWhile isFenceMark).length ∧ 1 ≤ extra.length ∧ '\r' ∉ extra then
        line.takeWhile isFenceMark ++ (line.dropWhile isFenceMark).takeWhile isLabelChar
      else line := by
  rw [dropFenceLabel, h]
  cases extra <;> simp

private theorem dropFenceLabel_of_ne {line : List Char}
    (h : ∀ extra, (line.dropWhile isFenceMark).dropWhile isLabelChar ≠ ',' :: extra) :
    dropFenceLabel line = line := by
  rw [dropFenceLabel]
  split
  · next c label heq => exact absurd heq (h (c :: label))
  · rfl

/-- The rest of a fence line is dropped line by line. -/
theorem isLineRule_fenceLabel : IsLineRule fenceLabelPattern fenceOf dropFenceLabel where
  start := fun h ↦ by
    simp only [matchAt?, fenceLabelPattern, chain, run_seq, run_lineStart, if_neg h]
  line := by
    intro before line rest hbefore hfeed hrest
    rw [matchAt?_fenceLabel hbefore hrest]
    have hwhole : line.takeWhile isFenceMark ++
        (line.dropWhile isFenceMark).takeWhile isLabelChar ++
        (line.dropWhile isFenceMark).dropWhile isLabelChar = line := by
      rw [List.append_assoc, List.takeWhile_append_dropWhile, List.takeWhile_append_dropWhile]
    by_cases hcomma : ∃ extra, (line.dropWhile isFenceMark).dropWhile isLabelChar = ',' :: extra
    · obtain ⟨extra, htail⟩ := hcomma
      rw [htail] at hwhole
      have hextra : '\n' ∉ extra := fun hmem ↦ hfeed (hwhole ▸ by simp [hmem])
      rw [dropFenceLabel_comma htail, htail, runExtra_comma rfl hextra hrest]
      by_cases hlabel : fenceLength ≤ (line.takeWhile isFenceMark).length ∧
          1 ≤ extra.length ∧ '\r' ∉ extra
      · rw [if_pos hlabel.1, if_pos hlabel.2, if_pos hlabel]
        refine .inr ⟨line, [], (3, ',' :: extra) :: fenceGroups (line.takeWhile isFenceMark)
          ((line.dropWhile isFenceMark).takeWhile isLabelChar), ?_, (List.append_nil _).symm, ?_,
          fun _ _ ↦ ?_⟩
        · rintro rfl
          exact absurd hlabel.1 (by decide)
        · rw [← List.append_assoc, ← List.reverse_append, hwhole, List.nil_append]
        · rw [fenceOf_fenceGroups, List.append_nil]
      · refine .inl ⟨?_, if_neg hlabel⟩
        by_cases hlength : fenceLength ≤ (line.takeWhile isFenceMark).length
        · rw [if_pos hlength, if_neg fun hsome ↦ hlabel ⟨hlength, hsome⟩]
        · rw [if_neg hlength]
    · have hne := not_exists.mp hcomma
      refine .inl ⟨?_, dropFenceLabel_of_ne hne⟩
      rw [runExtra_of_ne, ite_self]
      intro c hc
      cases htail : (line.dropWhile isFenceMark).dropWhile isLabelChar with
      | nil =>
        rw [htail] at hc
        rw [hrest c hc]
        decide
      | cons d extra =>
        rw [htail] at hc
        obtain rfl := Option.some.inj hc
        rintro rfl
        exact hne extra htail

private theorem mem_of_mem_dropFenceIndent {line : List Char} {c : Char}
    (h : c ∈ dropFenceIndent line) : c ∈ line := by
  rw [dropFenceIndent] at h
  split at h
  · exact (List.dropWhile_suffix _).mem h
  · exact h

/-- The rules for fences are two substitutions, one after the other, over the whole text. -/
theorem normalizeFences_eq_replaceAll (text : List Char) :
    normalizeFences text = replaceAll (· == ·) fenceLabelPattern fenceOf []
      (replaceAll (· == ·) fenceIndentPattern fenceOf [] text) := by
  have hlines : ∀ line ∈ (splitOnChar '\n' text).map dropFenceIndent, '\n' ∉ line := by
    intro line hline hfeed
    obtain ⟨source, hsource, rfl⟩ := List.mem_map.mp hline
    exact not_mem_of_mem_splitOnChar hsource (mem_of_mem_dropFenceIndent hfeed)
  rw [replaceAll_eq isLineRule_fenceIndent, replaceAll_eq isLineRule_fenceLabel,
    splitOnChar_joinWith _ (by simp [splitOnChar, splitBy_ne_nil]) hlines, List.map_map]
  rfl

/-! ## Lines -/

/-- A line that is a fence behind one to three blanks, and the line without them. -/
inductive Dedents : List Char → List Char → Prop
  | intro {blanks : Nat} {fence : List Char} (hblanks : 1 ≤ blanks ∧ blanks ≤ 3)
      (hlength : fenceLength ≤ fence.length) (hmarks : ∀ c ∈ fence, isFenceMark c = true)
      (rest : List Char) : Dedents (List.replicate blanks ' ' ++ (fence ++ rest)) (fence ++ rest)

/-- A fence line that goes on behind a comma, and its fence with its language. -/
inductive Unlabels : List Char → List Char → Prop
  | intro {fence language extra : List Char} (hlength : fenceLength ≤ fence.length)
      (hmarks : ∀ c ∈ fence, isFenceMark c = true)
      (hlanguage : ∀ c ∈ language, isLabelChar c = true) (hextra : extra ≠ [])
      (hreturn : '\r' ∉ extra) :
      Unlabels (fence ++ language ++ ',' :: extra) (fence ++ language)

/-- A line as a rule changes it, or the line itself if the rule does not apply. -/
def Becomes (rule : List Char → List Char → Prop) (line out : List Char) : Prop :=
  rule line out ∨ (∀ other, ¬ rule line other) ∧ out = line

section Rules

variable {rule : List Char → List Char → Prop} {line out : List Char}

private theorem eq_iff_becomes {f : List Char → List Char}
    (hrule : ∀ out, rule line out → f line = out)
    (h : f line = line ∨ rule line (f line)) : f line = out ↔ Becomes rule line out := by
  constructor
  · rintro rfl
    by_cases hother : ∃ other, rule line other
    · obtain ⟨other, hother⟩ := hother
      exact .inl (hrule other hother ▸ hother)
    · have hnone := not_exists.mp hother
      exact .inr ⟨hnone, h.resolve_right (hnone _)⟩
  · rintro (hout | ⟨hnone, rfl⟩)
    · exact hrule out hout
    · exact h.resolve_right (hnone _)

end Rules

section Marks

variable {fence language rest : List Char} {c : Char}

private theorem takeWhile_dropWhile_eq {p : Char → Bool} (hfront : ∀ d ∈ fence, p d = true)
    (hrest : ∀ d ∈ rest.head?, p d = false) :
    (fence ++ rest).takeWhile p = fence ∧ (fence ++ rest).dropWhile p = rest := by
  rw [List.takeWhile_append_of_pos hfront, List.dropWhile_append_of_pos hfront]
  cases rest with
  | nil => simp
  | cons d rest =>
    have hd : p d = false := hrest d rfl
    simp [hd]

theorem not_blank_of_mark (h : isFenceMark c = true) : (c == ' ') = false := by
  have hmark : c = '`' ∨ c = '~' := by simpa [isFenceMark] using h
  rcases hmark with rfl | rfl <;> decide

private theorem not_mark_of_label (h : isLabelChar c = true) : isFenceMark c = false := by
  refine Bool.eq_false_iff.mpr fun hmark ↦ ?_
  have hchar : c = '`' ∨ c = '~' := by simpa [isFenceMark] using hmark
  rcases hchar with rfl | rfl <;> exact absurd h (by decide)

/-- Behind the marks of a fence there are as many as in the fence at least. -/
private theorem fenceLength_le (hlength : fenceLength ≤ fence.length)
    (hmarks : ∀ d ∈ fence, isFenceMark d = true) (rest : List Char) :
    fenceLength ≤ ((fence ++ rest).takeWhile isFenceMark).length := by
  rw [List.takeWhile_append_of_pos hmarks, List.length_append]
  exact hlength.trans (Nat.le_add_right _ _)

end Marks

section Rules

variable {line out : List Char}

theorem dropFenceIndent_eq_iff : dropFenceIndent line = out ↔ Becomes Dedents line out := by
  refine eq_iff_becomes (fun out h ↦ ?_) ?_
  · obtain ⟨hblanks, hlength, hmarks, rest⟩ := h
    next blanks fence =>
    have hhead : ∀ d ∈ (fence ++ rest).head?, (d == ' ') = false := by
      cases fence with
      | nil => exact absurd hlength (by decide)
      | cons mark fence =>
        intro d hd
        obtain rfl := Option.some.inj hd
        exact not_blank_of_mark (hmarks _ List.mem_cons_self)
    have hblank : ∀ d ∈ List.replicate blanks ' ', (d == ' ') = true :=
      fun d hd ↦ by simpa using List.eq_of_mem_replicate hd
    obtain ⟨htake, hdrop⟩ := takeWhile_dropWhile_eq hblank hhead
    have hmany := fenceLength_le hlength hmarks rest
    rw [dropFenceIndent, htake, hdrop, List.length_replicate]
    exact if_pos (by simpa using ⟨hblanks, hmany⟩)
  · by_cases hrule : dropFenceIndent line = line
    · exact .inl hrule
    · refine .inr ?_
      rw [dropFenceIndent] at hrule ⊢
      split at hrule
      · next hshape =>
        rw [if_pos hshape]
        simp only [Bool.and_eq_true, decide_eq_true_eq] at hshape
        obtain ⟨hblanks, hlength⟩ := hshape
        have hindent : line.takeWhile (· == ' ') =
            List.replicate (line.takeWhile (· == ' ')).length ' ' :=
          List.eq_replicate_of_mem fun c hc ↦ by simpa using List.mem_takeWhile_imp hc
        have hdedents := Dedents.intro hblanks hlength (fun c hc ↦ List.mem_takeWhile_imp hc)
          ((line.dropWhile (· == ' ')).dropWhile isFenceMark)
        rwa [List.takeWhile_append_dropWhile, ← hindent, List.takeWhile_append_dropWhile]
          at hdedents
      · exact absurd rfl hrule

theorem dropFenceLabel_eq_iff : dropFenceLabel line = out ↔ Becomes Unlabels line out := by
  refine eq_iff_becomes (fun out h ↦ ?_) ?_
  · obtain ⟨hlength, hmarks, hlanguage, hextra, hreturn⟩ := h
    next fence language extra =>
    have hmark : ∀ d ∈ (language ++ ',' :: extra).head?, isFenceMark d = false := by
      cases language with
      | nil =>
        rintro d ⟨⟩
        decide
      | cons c language =>
        rintro d ⟨⟩
        exact not_mark_of_label (hlanguage _ List.mem_cons_self)
    obtain ⟨htake, hdrop⟩ := takeWhile_dropWhile_eq hmarks hmark
    have hcomma : ∀ d ∈ (',' :: extra).head?, isLabelChar d = false := by
      rintro d ⟨⟩
      decide
    obtain ⟨hlabel, hbehind⟩ := takeWhile_dropWhile_eq hlanguage hcomma
    rw [List.append_assoc, dropFenceLabel_comma (hdrop ▸ hbehind), htake, hdrop, hlabel]
    exact if_pos ⟨hlength, List.length_pos_iff.mpr hextra, hreturn⟩
  · by_cases hcomma : ∃ extra, (line.dropWhile isFenceMark).dropWhile isLabelChar = ',' :: extra
    · obtain ⟨extra, htail⟩ := hcomma
      rw [dropFenceLabel_comma htail]
      split
      · next hshape =>
        obtain ⟨hlength, hextra, hreturn⟩ := hshape
        have hlanguage : ∀ c ∈ (line.dropWhile isFenceMark).takeWhile isLabelChar,
            isLabelChar c = true := fun c hc ↦ List.mem_takeWhile_imp hc
        have hunlabels := Unlabels.intro hlength (fun c hc ↦ List.mem_takeWhile_imp hc) hlanguage
          (List.length_pos_iff.mp hextra) hreturn
        rw [← htail, List.append_assoc, List.takeWhile_append_dropWhile,
          List.takeWhile_append_dropWhile] at hunlabels
        exact .inr hunlabels
      · exact .inl rfl
    · exact .inl (dropFenceLabel_of_ne (not_exists.mp hcomma))

end Rules

/-! ## One form -/

section Form

variable {line out other : List Char}

/-- No blank stands where a fence starts. -/
private theorem not_dedents {fence rest : List Char} (hlength : fenceLength ≤ fence.length)
    (hmarks : ∀ c ∈ fence, isFenceMark c = true) : ¬ Dedents (fence ++ rest) other := by
  intro h
  generalize hline : fence ++ rest = line at h
  obtain ⟨hblanks, -, -, _⟩ := h
  cases fence with
  | nil => exact absurd hlength (by decide)
  | cons mark fence =>
    obtain ⟨n, rfl⟩ : ∃ n, _ = n + 1 := ⟨_, (Nat.sub_add_cancel hblanks.1).symm⟩
    rw [List.replicate_succ] at hline
    have hmark := not_blank_of_mark (hmarks mark List.mem_cons_self)
    rw [(List.cons.inj hline).1] at hmark
    exact absurd hmark (by decide)

/-- Nothing stands behind a comma in what a label was dropped from. -/
private theorem not_unlabels {fence language : List Char}
    (hmarks : ∀ c ∈ fence, isFenceMark c = true)
    (hlanguage : ∀ c ∈ language, isLabelChar c = true) : ¬ Unlabels (fence ++ language) other := by
  intro h
  have hcomma : ',' ∈ fence ++ language := by
    generalize fence ++ language = line at h
    obtain ⟨-, -, -, -, -⟩ := h
    simp
  rcases List.mem_append.mp hcomma with hmem | hmem
  · exact absurd (hmarks _ hmem) (by decide)
  · exact absurd (hlanguage _ hmem) (by decide)

/-- Neither rule applies to what the rules make of a line. -/
private theorem not_becomes {middle : List Char} (hindent : Becomes Dedents line middle)
    (hlabel : Becomes Unlabels middle out) :
    (∀ other, ¬ Dedents out other) ∧ ∀ other, ¬ Unlabels out other := by
  rcases hlabel with hlabel | ⟨hnone, rfl⟩
  · obtain ⟨hlength, hmarks, hlanguage, -, -⟩ := hlabel
    exact ⟨fun _ ↦ not_dedents hlength hmarks, fun _ ↦ not_unlabels hmarks hlanguage⟩
  · refine ⟨?_, hnone⟩
    rcases hindent with hdedents | ⟨hstill, rfl⟩
    · obtain ⟨-, hlength, hmarks, _⟩ := hdedents
      exact fun _ ↦ not_dedents hlength hmarks
    · exact hstill

theorem normalizeLine_eq_iff : normalizeLine line = out ↔
    ∃ middle, Becomes Dedents line middle ∧ Becomes Unlabels middle out := by
  simp only [← dropFenceIndent_eq_iff, ← dropFenceLabel_eq_iff, exists_eq_left', normalizeLine]

@[simp] theorem normalizeLine_normalizeLine (line : List Char) :
    normalizeLine (normalizeLine line) = normalizeLine line := by
  obtain ⟨middle, hindent, hlabel⟩ := normalizeLine_eq_iff.mp (Eq.refl (normalizeLine line))
  obtain ⟨hblanks, hcomma⟩ := not_becomes hindent hlabel
  exact normalizeLine_eq_iff.mpr ⟨_, .inr ⟨hblanks, rfl⟩, .inr ⟨hcomma, rfl⟩⟩

end Form

/-- A line feed divides a text into two that are put in one form by themselves. -/
theorem normalizeFences_append (front rest : List Char) :
    normalizeFences (front ++ '\n' :: rest) =
      normalizeFences front ++ '\n' :: normalizeFences rest := by
  rw [normalizeFences, splitOnChar, splitBy_append_cons _ _ (by decide), List.map_append,
    joinWith_append _ (by simpa using splitBy_ne_nil front) (by simpa using splitBy_ne_nil rest),
    List.append_assoc]
  rfl

theorem normalizeFences_normalizeFences (text : List Char) :
    normalizeFences (normalizeFences text) = normalizeFences text := by
  rw [normalizeFences, splitOnChar_normalizeFences, List.map_map, normalizeFences]
  exact congrArg _ (List.map_congr_left fun line _ ↦ normalizeLine_normalizeLine line)

theorem normalizeFences_line {line : List Char} (hline : '\n' ∉ line) :
    normalizeFences line = normalizeLine line := by
  have hsplit : splitOnChar '\n' line = [line] :=
    splitBy_of_forall fun c hc ↦ by simpa using ne_of_mem_of_not_mem hc hline
  rw [normalizeFences, hsplit]
  rfl

/-- The two substitutions over a whole text work line by line, and done once they leave nothing to
do. On one line the first drops one to three blanks in front of a fence, and the second drops what
a fence line holds behind its language from a comma on. -/
theorem normalizeFences_by_line :
    (∀ text, normalizeFences text = replaceAll (· == ·) fenceLabelPattern fenceOf []
      (replaceAll (· == ·) fenceIndentPattern fenceOf [] text)) ∧
    (∀ front rest, normalizeFences (front ++ '\n' :: rest) =
      normalizeFences front ++ '\n' :: normalizeFences rest) ∧
    (∀ text, normalizeFences (normalizeFences text) = normalizeFences text) ∧
    ∀ line out, '\n' ∉ line → (normalizeFences line = out ↔
      ∃ middle, Becomes Dedents line middle ∧ Becomes Unlabels middle out) := by
  refine ⟨normalizeFences_eq_replaceAll, normalizeFences_append, normalizeFences_normalizeFences,
    fun line out hline ↦ ?_⟩
  rw [normalizeFences_line hline, normalizeLine_eq_iff]

/-- An indented fence with a language loses its blanks and what is behind the comma. -/
theorem normalizeFences_by_line_indented :
    ∃ middle, Becomes Dedents "  ```rust,no_run".toList middle ∧
      Becomes Unlabels middle "```rust".toList :=
  (normalizeFences_by_line.2.2.2 _ _ (by decide)).mp (by decide)

end Guidebook.Markdown
