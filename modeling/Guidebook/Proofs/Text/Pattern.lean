import Mathlib.Data.List.Infix
import Guidebook.Proofs.Text.Newlines
import Guidebook.Text.Pattern

/-!
# What patterns leave

A match goes on from an end of the items it started with, so an item that a pattern asks for is one
of them, and so is every item that it remembers.

A substitution puts something else in place of every match of a pattern, from the left. It works
line by line if matches start where lines start and end where they end at the latest.
-/

namespace Guidebook.Pattern

/-! ## Matches -/

section Matches

variable {α : Type} {same : α → α → Bool} {s : Progress α} {k : Progress α → Option (Progress α)}
  {r : Progress α}

/-- A match that has come so far when it started from another place. -/
structure Progress.Behind (s t : Progress α) : Prop where
  rest : t.rest <:+ s.rest
  groups : ∀ e ∈ t.groups, e ∈ s.groups ∨ e.2 ⊆ s.rest

theorem Progress.Behind.refl (s : Progress α) : Behind s s := ⟨List.suffix_refl _, fun _ ↦ .inl⟩

theorem Progress.Behind.trans {s t u : Progress α} (h : Behind s t) (h' : Behind t u) :
    Behind s u :=
  ⟨h'.rest.trans h.rest, fun e he ↦ (h'.groups e he).elim (h.groups e) fun hsub ↦
    .inr (List.Subset.trans hsub h.rest.subset)⟩

/-- A match goes on somewhere behind where it started. -/
def GoesOn (s : Progress α) (k : Progress α → Option (Progress α)) (r : Progress α) : Prop :=
  ∃ t, k t = some r ∧ s.Behind t

theorem goesOn_self (h : k s = some r) : GoesOn s k r := ⟨s, h, .refl s⟩

theorem behind_next? {p : α → Bool} {t : Progress α} (h : s.next? p = some t) : s.Behind t := by
  rw [Progress.next?] at h
  split at h
  · next a rest heq =>
    obtain ⟨-, h⟩ := Option.ite_none_right_eq_some.mp h
    obtain rfl := Option.some.inj h
    exact ⟨heq ▸ List.suffix_cons _ _, fun _ ↦ .inl⟩
  · cases h

theorem behind_nextAll? {items : List α} {t : Progress α} (h : s.nextAll? same items = some t) :
    s.Behind t := by
  induction items generalizing s with
  | nil =>
    obtain rfl := Option.some.inj h
    exact .refl s
  | cons a items ih =>
    obtain ⟨u, hu, h⟩ := Option.bind_eq_some_iff.mp h
    exact (behind_next? hu).trans (ih h)

theorem goesOn_repeated {eager : Bool}
    {step : Progress α → (Progress α → Option (Progress α)) → Option (Progress α)}
    (hstep : ∀ {s k}, step s k = some r → GoesOn s k r) (fuel least : Nat) {s : Progress α}
    {k : Progress α → Option (Progress α)}
    (h : Progress.repeated eager step fuel least s k = some r) : GoesOn s k r := by
  induction fuel generalizing least s with
  | zero =>
    cases least with
    | zero => exact goesOn_self h
    | succ least => cases h
  | succ fuel ih =>
    have hmore : ∀ {s : Progress α}, (step s fun t ↦
        if t.rest.length < s.rest.length then Progress.repeated eager step fuel (least - 1) t k
        else none) = some r → GoesOn s k r := by
      intro s h
      obtain ⟨t, ht, hbehind⟩ := hstep h
      obtain ⟨-, ht⟩ := Option.ite_none_right_eq_some.mp ht
      obtain ⟨u, hu, hrest⟩ := ih _ ht
      exact ⟨u, hu, hbehind.trans hrest⟩
    rw [Progress.repeated] at h
    dsimp only at h
    split at h
    · exact hmore h
    split at h
    · rcases Option.or_eq_some_iff.mp h with h | ⟨-, h⟩
      · exact hmore h
      · exact goesOn_self h
    · rcases Option.or_eq_some_iff.mp h with h | ⟨-, h⟩
      · exact goesOn_self h
      · exact hmore h

theorem goesOn_run {pattern : Pattern α} (h : run same pattern s k = some r) : GoesOn s k r := by
  induction pattern generalizing s k r with
  | empty => exact goesOn_self h
  | one p =>
    obtain ⟨t, ht, h⟩ := Option.bind_eq_some_iff.mp h
    exact ⟨t, h, behind_next? ht⟩
  | seq first second ihFirst ihSecond =>
    obtain ⟨t, ht, hfirst⟩ := ihFirst h
    obtain ⟨u, hu, hsecond⟩ := ihSecond ht
    exact ⟨u, hu, hfirst.trans hsecond⟩
  | alt first second ihFirst ihSecond =>
    rcases Option.or_eq_some_iff.mp h with h | ⟨-, h⟩
    · exact ihFirst h
    · exact ihSecond h
  | many eager least most body ih => exact goesOn_repeated ih _ _ h
  | group label body ih =>
    obtain ⟨t, ht, hbehind⟩ := ih h
    refine ⟨_, ht, hbehind.rest, List.forall_mem_cons.mpr ⟨.inr ?_, hbehind.groups⟩⟩
    exact List.take_subset _ _
  | again label =>
    rw [run] at h
    split at h
    · obtain ⟨t, ht, h⟩ := Option.bind_eq_some_iff.mp h
      exact ⟨t, h, behind_nextAll? ht⟩
    · cases h
  | ahead wanted body ih =>
    rw [run.eq_def] at h
    dsimp only at h
    split at h
    · next t hbody =>
      obtain ⟨u, hu, hbehind⟩ := ih hbody
      obtain rfl := Option.some.inj hu
      exact ⟨_, h, List.suffix_refl _, hbehind.groups⟩
    · exact goesOn_self h
    · cases h
  | behind wanted p =>
    obtain ⟨-, h⟩ := Option.ite_none_right_eq_some.mp h
    exact goesOn_self h
  | start =>
    obtain ⟨-, h⟩ := Option.ite_none_right_eq_some.mp h
    exact goesOn_self h
  | stop =>
    obtain ⟨-, h⟩ := Option.ite_none_right_eq_some.mp h
    exact goesOn_self h

theorem run_seq (first second : Pattern α) : run same (.seq first second) s k =
    run same first s fun t ↦ run same second t k := rfl

theorem run_one (p : α → Bool) : run same (.one p) s k = (s.next? p).bind k := rfl

/-- A pattern fails if what comes after it fails wherever it may go on. -/
theorem run_eq_none {pattern : Pattern α} (h : ∀ t : Progress α, t.rest <:+ s.rest → k t = none) :
    run same pattern s k = none := by
  cases hrun : run same pattern s k with
  | none => rfl
  | some r =>
    obtain ⟨t, ht, hbehind⟩ := goesOn_run hrun
    rw [h t hbehind.rest] at ht
    cases ht

/-- No item of a class is next where there is none. -/
theorem next?_eq_none {p : α → Bool} (h : ∀ a ∈ s.rest, p a = false) : s.next? p = none := by
  rw [Progress.next?]
  split
  · next a rest heq => exact if_neg (by simp [h a (heq ▸ .head _)])
  · rfl

/-- A pattern that matches nowhere is not found. -/
theorem find?_eq_none {pattern : Pattern α} {before rest : List α}
    (h : ∀ before tail, tail <:+ rest → matchAt? same pattern before tail = none) :
    find? same pattern before rest = none := by
  induction rest generalizing before with
  | nil =>
    rw [find?, h before [] (List.suffix_refl _)]
  | cons a rest ih =>
    rw [find?, h before _ (List.suffix_refl _)]
    exact ih fun before tail htail ↦ h before tail (htail.trans (List.suffix_cons _ _))

/-- A match that is found begins at some place and goes on behind it. -/
theorem of_find? {pattern : Pattern α} {before rest front : List α}
    (h : find? same pattern before rest = some (front, r)) : ∃ skipped tail,
      rest = skipped ++ tail ∧ front = skipped.reverse ++ before ∧
        Progress.Behind ⟨front, tail, []⟩ r := by
  induction rest generalizing before with
  | nil =>
    rw [find?] at h
    split at h
    · next found hmatch =>
      obtain ⟨rfl, rfl⟩ := Prod.mk.inj (Option.some.inj h)
      obtain ⟨t, ht, hbehind⟩ := goesOn_run hmatch
      obtain rfl := Option.some.inj ht
      exact ⟨[], [], rfl, rfl, hbehind⟩
    · cases h
  | cons a rest ih =>
    rw [find?] at h
    split at h
    · next found hmatch =>
      obtain ⟨rfl, rfl⟩ := Prod.mk.inj (Option.some.inj h)
      obtain ⟨t, ht, hbehind⟩ := goesOn_run hmatch
      obtain rfl := Option.some.inj ht
      exact ⟨[], a :: rest, rfl, rfl, hbehind⟩
    · obtain ⟨skipped, tail, rfl, rfl, hbehind⟩ := ih h
      exact ⟨a :: skipped, tail, rfl, by simp, hbehind⟩

/-- What is remembered of a match is part of what it was found in. -/
theorem group_subset {rest items : List α} {before : List α} {label : Nat}
    (h : Progress.Behind ⟨before, rest, []⟩ r) (hgroup : r.group label = some items) :
    items ⊆ rest := by
  obtain ⟨front, back, heq, -⟩ := List.lookup_eq_some_iff.mp hgroup
  exact (h.groups (label, items) (by simp [heq])).resolve_left List.not_mem_nil

end Matches

/-! ## Repetition -/

section Repetition

variable {α : Type} {same : α → α → Bool} {p : α → Bool} {s : Progress α}
  {k : Progress α → Option (Progress α)}

/-- A match some items further. -/
def Progress.advance (s : Progress α) (n : Nat) : Progress α :=
  { s with before := (s.rest.take n).reverse ++ s.before, rest := s.rest.drop n }

@[simp] theorem Progress.advance_zero (s : Progress α) : s.advance 0 = s := by simp [advance]

@[simp] theorem Progress.rest_advance (s : Progress α) (n : Nat) :
    (s.advance n).rest = s.rest.drop n := rfl

/-- A match behind the first of the items in front of it. -/
theorem Progress.advance_append {front back : List α} (h : s.rest = front ++ back) :
    s.advance front.length = ⟨front.reverse ++ s.before, back, s.groups⟩ := by
  simp [advance, h]

private theorem advance_cons {a : α} {rest : List α} (h : s.rest = a :: rest) (n : Nat) :
    (Progress.advance { s with before := a :: s.before, rest } n) = s.advance (n + 1) := by
  simp [Progress.advance, h]

/-- As many items of a class as possible are taken, if with fewer of them what comes after fails or
is not asked. -/
theorem repeated_one {m least fuel : Nat} (hm : m = min fuel (s.rest.takeWhile p).length)
    (h : ∀ n < m, k (s.advance n) = none ∨ (k (s.advance m)).isSome) :
    Progress.repeated true (run same (.one p)) fuel least s k =
      if least ≤ m then k (s.advance m) else none := by
  induction fuel generalizing s least m with
  | zero =>
    obtain rfl : m = 0 := by omega
    cases least <;> simp [Progress.repeated]
  | succ fuel ih =>
    have hnext : s.next? p = none ∧ m = 0 ∨ ∃ a rest, s.rest = a :: rest ∧
        s.next? p = some { s with before := a :: s.before, rest } ∧
        m = min fuel (rest.takeWhile p).length + 1 := by
      cases hrest : s.rest with
      | nil => exact .inl ⟨by simp [Progress.next?, hrest], by simp [hm, hrest]⟩
      | cons a rest =>
        cases hp : p a with
        | false =>
          exact .inl ⟨by simp [Progress.next?, hrest, hp], by simp [hm, hrest, hp]⟩
        | true =>
          refine .inr ⟨a, rest, rfl, by simp [Progress.next?, hrest, hp], ?_⟩
          rw [hm, hrest, List.takeWhile_cons_of_pos hp, List.length_cons]
          omega
    rw [Progress.repeated]
    rcases hnext with ⟨hnone, rfl⟩ | ⟨a, rest, hrest, hsome, hlength⟩
    · cases least <;> simp [run_one, hnone]
    · have hshorter : rest.length < s.rest.length := by simp [hrest]
      obtain ⟨n, rfl⟩ : ∃ n, m = n + 1 := ⟨_, hlength⟩
      have hmore := @ih { s with before := a :: s.before, rest } n (least - 1)
        (by simpa using hlength) fun i hi ↦ by
          simpa only [advance_cons hrest] using h (i + 1) (by omega)
      rw [advance_cons hrest] at hmore
      simp only [run_one, hsome, Option.bind_some, hshorter, if_true, hmore]
      cases least with
      | zero =>
        rcases h 0 (by omega) with hfail | hfound
        · simp only [Progress.advance_zero] at hfail
          simp [hfail]
        · obtain ⟨r, hr⟩ := Option.isSome_iff_exists.mp hfound
          simp [hr]
      | succ least => simp

/-- Items of a class between two numbers of times. -/
theorem run_between {m least most : Nat} (hm : m = min most (s.rest.takeWhile p).length)
    (h : ∀ n < m, k (s.advance n) = none ∨ (k (s.advance m)).isSome) :
    run same (between least most (.one p)) s k = if least ≤ m then k (s.advance m) else none :=
  repeated_one hm h

/-- Items of a class at least a number of times. -/
theorem run_atLeast {m least : Nat} (hm : m = (s.rest.takeWhile p).length)
    (h : ∀ n < m, k (s.advance n) = none ∨ (k (s.advance m)).isSome) :
    run same (atLeast least (.one p)) s k = if least ≤ m then k (s.advance m) else none := by
  refine repeated_one ?_ h
  rw [Option.getD_none, hm, Nat.min_eq_right (List.takeWhile_prefix p).length_le]

/-- Items of a class at least a number of times, remembered. -/
theorem run_group_atLeast {label least : Nat} {front back : List α}
    (hrest : s.rest = front ++ back)
    (hfront : front = s.rest.takeWhile p)
    (h : ∀ n < front.length,
      (∀ groups, k { s.advance n with groups } = none) ∨
        ∀ t, (k t).isSome) :
    run same (.group label (atLeast least (.one p))) s k =
      if least ≤ front.length then
        k ⟨front.reverse ++ s.before, back, (label, front) :: s.groups⟩
      else none := by
  have htake : s.rest.take (s.rest.length - back.length) = front := by simp [hrest]
  rw [run, run_atLeast (congrArg List.length hfront) fun n hn ↦ ?_,
    Progress.advance_append hrest]
  · dsimp only
    rw [htake]
  · rcases h n hn with hnone | hsome
    · exact .inl (hnone _)
    · exact .inr (hsome _)

/-- A pattern is tried before it is left out. -/
theorem run_perhaps (pattern : Pattern α) :
    run same (perhaps pattern) s k =
      (run same pattern s fun t ↦
        if t.rest.length < s.rest.length then k t else none).or (k s) := by
  have hzero : ∀ t, Progress.repeated true (run same pattern) 0 0 t k = k t := fun _ ↦ rfl
  rw [perhaps, between, run, Option.getD_some, Progress.repeated]
  simp only [Nat.zero_sub, hzero, Nat.lt_irrefl, if_false, if_true]

end Repetition

/-! ## Lines -/

/-- The start of a line. -/
def lineStart : Pattern Char := .behind false (· != '\n')

/-- The end of a line. -/
def lineEnd : Pattern Char := .ahead false (.one (· != '\n'))

/-- If there is a next character at all, it is a line feed. -/
def AtFeed (cs : List Char) : Prop := ∀ c ∈ cs.head?, c = '\n'

instance (cs : List Char) : Decidable (AtFeed cs) :=
  inferInstanceAs (Decidable (∀ c ∈ cs.head?, c = '\n'))

theorem atFeed_nil : AtFeed [] := fun _ h ↦ nomatch h

theorem atFeed_cons {c : Char} {cs : List Char} : AtFeed (c :: cs) ↔ c = '\n' := by
  simp [AtFeed]

section Lines

variable {s : Progress Char} {k : Progress Char → Option (Progress Char)}

theorem run_lineStart :
    run (· == ·) lineStart s k = if AtFeed s.before then k s else none := by
  rw [lineStart, run]
  cases s.before with
  | nil => simp [atFeed_nil]
  | cons c before => simp [atFeed_cons]

theorem run_lineEnd :
    run (· == ·) lineEnd s k = if AtFeed s.rest then k s else none := by
  rw [lineEnd, run.eq_def]
  dsimp only
  rw [run_one, Progress.next?]
  cases s.rest with
  | nil => simp [atFeed_nil]
  | cons c rest => by_cases hc : c = '\n' <;> simp [atFeed_cons, hc]

end Lines

/-! ## Substitution -/

variable {α : Type}

/-- A list in which everything that a pattern matches, from the left, has something else put in its
place. A match that takes nothing is none. -/
def replaceAll (same : α → α → Bool) (pattern : Pattern α) (put : Progress α → List α)
    (before : List α) : List α → List α
  | [] => []
  | a :: rest =>
    match matchAt? same pattern before (a :: rest) with
    | some found =>
      if found.rest.length ≤ rest.length then
        put found ++ replaceAll same pattern put found.before found.rest
      else a :: replaceAll same pattern put (a :: before) rest
    | none => a :: replaceAll same pattern put (a :: before) rest
  termination_by items => items.length

/-- A pattern with what is put in place of its matches is a rule for lines: it matches nowhere but
at the start of a line and in no more than that line, and what comes of the line is what the rule
says. -/
structure IsLineRule (pattern : Pattern Char) (put : Progress Char → List Char)
    (rule : List Char → List Char) : Prop where
  start : ∀ {before rest}, ¬ AtFeed before → matchAt? (· == ·) pattern before rest = none
  line : ∀ {before line rest}, AtFeed before → '\n' ∉ line → AtFeed rest →
    (matchAt? (· == ·) pattern before (line ++ rest) = none ∧ rule line = line) ∨
    ∃ taken left groups, taken ≠ [] ∧ line = taken ++ left ∧
      matchAt? (· == ·) pattern before (line ++ rest) =
        some ⟨taken.reverse ++ before, left ++ rest, groups⟩ ∧
      ∀ before rest, rule line = put ⟨before, rest, groups⟩ ++ left

section Rules

variable {pattern : Pattern Char} {put : Progress Char → List Char}
  {rule : List Char → List Char}

theorem replaceAll_of_none {c : Char} {before rest : List Char}
    (h : matchAt? (· == ·) pattern before (c :: rest) = none) :
    replaceAll (· == ·) pattern put before (c :: rest) =
      c :: replaceAll (· == ·) pattern put (c :: before) rest := by
  rw [replaceAll, h]

/-- Within a line everything stays. -/
private theorem replaceAll_within (h : IsLineRule pattern put rule) {front : List Char}
    (hfront : '\n' ∉ front) {before : List Char} (hbefore : ¬ AtFeed before) (rest : List Char) :
    replaceAll (· == ·) pattern put before (front ++ rest) =
      front ++ replaceAll (· == ·) pattern put (front.reverse ++ before) rest := by
  induction front generalizing before with
  | nil => rfl
  | cons c front ih =>
    rw [List.mem_cons, not_or] at hfront
    have hc : ¬ AtFeed (c :: before) := fun hfeed ↦ hfront.1 (atFeed_cons.mp hfeed).symm
    rw [List.cons_append, replaceAll_of_none (h.start hbefore), ih hfront.2 hc, List.cons_append,
      List.reverse_cons, List.append_assoc, List.singleton_append]

/-- A line becomes what the rule says. -/
private theorem replaceAll_line (h : IsLineRule pattern put rule) {before line rest : List Char}
    (hbefore : AtFeed before) (hline : '\n' ∉ line) (hrest : AtFeed rest) :
    replaceAll (· == ·) pattern put before (line ++ rest) =
      rule line ++ replaceAll (· == ·) pattern put (line.reverse ++ before) rest := by
  rcases h.line hbefore hline hrest with
    ⟨hnone, hrule⟩ | ⟨taken, left, groups, hne, rfl, hfound, hrule⟩
  · rw [hrule]
    cases line with
    | nil => rfl
    | cons c line =>
      rw [List.mem_cons, not_or] at hline
      have hc : ¬ AtFeed (c :: before) := fun hfeed ↦ hline.1 (atFeed_cons.mp hfeed).symm
      rw [List.cons_append] at hnone
      rw [List.cons_append, replaceAll_of_none hnone, replaceAll_within h hline.2 hc,
        List.cons_append, List.reverse_cons, List.append_assoc, List.singleton_append]
  · rw [List.mem_append, not_or] at hline
    obtain ⟨c, taken, rfl⟩ := List.exists_cons_of_ne_nil hne
    have hbehind : ¬ AtFeed ((c :: taken).reverse ++ before) := by
      intro hfeed
      have hlast : ((c :: taken).reverse ++ before).head? = some ((c :: taken).getLast hne) := by
        rw [List.head?_append, List.head?_reverse, List.getLast?_eq_some_getLast hne,
          Option.some_or]
      exact hline.1 (hfeed _ hlast ▸ List.getLast_mem hne)
    have hshorter : (left ++ rest).length ≤ (taken ++ (left ++ rest)).length := by simp
    rw [List.append_assoc, List.cons_append] at hfound ⊢
    rw [replaceAll, hfound]
    dsimp only
    rw [if_pos hshorter, replaceAll_within h hline.2 hbehind, ← List.append_assoc, ← hrule]
    simp

/-- Nothing is matched where a line ends. -/
private theorem matchAt?_feed (h : IsLineRule pattern put rule) (before rest : List Char) :
    matchAt? (· == ·) pattern before ('\n' :: rest) = none := by
  by_cases hstart : AtFeed before
  · -- an empty line has nothing that could be taken
    rcases h.line hstart (List.not_mem_nil : '\n' ∉ []) (atFeed_cons.mpr rfl) with
      ⟨hnone, -⟩ | ⟨taken, left, groups, hne, hempty, -⟩
    · exact hnone
    · exact absurd (List.append_eq_nil_iff.mp hempty.symm).1 hne
  · exact h.start hstart

/-- Lines become what the rule says, one after another. -/
private theorem replaceAll_joinWith (h : IsLineRule pattern put rule) {lines : List (List Char)}
    {before : List Char} (hbefore : AtFeed before) (hlines : ∀ line ∈ lines, '\n' ∉ line) :
    replaceAll (· == ·) pattern put before (Text.joinWith ['\n'] lines) =
      Text.joinWith ['\n'] (lines.map rule) := by
  induction lines generalizing before with
  | nil => rw [List.map_nil, Text.joinWith, replaceAll]
  | cons line lines ih =>
    obtain ⟨hline, hrest⟩ := List.forall_mem_cons.mp hlines
    cases lines with
    | nil =>
      have hlast := replaceAll_line h hbefore hline atFeed_nil
      rw [List.append_nil, replaceAll, List.append_nil] at hlast
      exact hlast
    | cons next rest =>
      have hfeed : AtFeed ('\n' :: Text.joinWith ['\n'] (next :: rest)) := atFeed_cons.mpr rfl
      rw [Text.joinWith_cons_cons, List.append_assoc, List.singleton_append,
        replaceAll_line h hbefore hline hfeed, replaceAll_of_none (matchAt?_feed h _ _),
        ih (atFeed_cons.mpr rfl) hrest]
      simp only [List.map_cons, Text.joinWith_cons_cons, List.append_assoc, List.singleton_append]

/-- What a rule for lines makes of a text is what it makes of its lines. -/
theorem replaceAll_eq (h : IsLineRule pattern put rule) (text : List Char) :
    replaceAll (· == ·) pattern put [] text =
      Text.joinWith ['\n'] ((Text.splitOnChar '\n' text).map rule) := by
  have hlines : ∀ line ∈ Text.splitOnChar '\n' text, '\n' ∉ line := fun _ hline ↦
    Text.not_mem_of_mem_splitOnChar hline
  have htext := replaceAll_joinWith h atFeed_nil hlines
  rwa [Text.joinWith_splitOnChar] at htext

end Rules

end Guidebook.Pattern
