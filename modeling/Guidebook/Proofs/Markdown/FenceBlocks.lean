import Mathlib.Data.List.DropRight
import Guidebook.Proofs.Markdown.Fences

/-!
# Fences and what they enclose

Which lines of a text are fences is seen from the top: the fence that opens a block decides what
closes it, and up to there every line is code, whatever it looks like. The rules for fences see one
line at a time. They keep the fences of a text with their marks, but they change any other line that
looks like a fence.
-/

namespace Guidebook.Markdown

open Text

/-! ## Blocks -/

/-- The marks that open a block. -/
structure Fence where
  mark : Char
  length : Nat
  isMark : isFenceMark mark = true
  deriving DecidableEq

/-- The fence of a line that opens a block: at most three blanks and at least three equal marks. No
backtick stands behind backticks, as in a line that starts with a span of code. -/
def opener? (line : List Char) : Option Fence :=
  match line.dropWhile (· == ' ') with
  | [] => none
  | mark :: rest =>
    let length := ((mark :: rest).takeWhile (· == mark)).length
    if h : isFenceMark mark = true ∧ (line.takeWhile (· == ' ')).length ≤ 3 ∧
        fenceLength ≤ length ∧ (mark = '`' → '`' ∉ (mark :: rest).dropWhile (· == mark)) then
      some ⟨mark, length, h.1⟩
    else none

theorem opener?_eq_some_iff {line : List Char} {fence : Fence} : opener? line = some fence ↔
    (line.dropWhile (· == ' ')).head? = some fence.mark ∧
      (line.takeWhile (· == ' ')).length ≤ 3 ∧
      fence.length = ((line.dropWhile (· == ' ')).takeWhile (· == fence.mark)).length ∧
      fenceLength ≤ fence.length ∧
      (fence.mark = '`' → '`' ∉ (line.dropWhile (· == ' ')).dropWhile (· == fence.mark)) := by
  rw [opener?.eq_def]
  cases line.dropWhile (· == ' ') with
  | nil => simp
  | cons mark rest =>
    dsimp only
    rw [List.head?_cons, Option.some_inj]
    constructor
    · intro h
      split at h
      · next hopens =>
        obtain rfl := Option.some.inj h
        exact ⟨rfl, hopens.2.1, rfl, hopens.2.2⟩
      · cases h
    · obtain ⟨found, length, isMark⟩ := fence
      dsimp only
      rintro ⟨rfl, hblanks, rfl, hlength, hbehind⟩
      exact dif_pos ⟨isMark, hblanks, hlength, hbehind⟩

/-- What a line that closes a block may have besides the marks: so many blanks in front of them, and
certain characters behind them. -/
structure Closing where
  margin : Nat
  behind : Char → Bool

namespace Closing

/-- A block is closed by as many marks as its own at least. -/
def closes (closing : Closing) (fence : Fence) (line : List Char) : Bool :=
  let inner := line.dropWhile (· == ' ')
  decide ((line.takeWhile (· == ' ')).length ≤ closing.margin) &&
    decide (fence.length ≤ (inner.takeWhile (· == fence.mark)).length) &&
    (inner.dropWhile (· == fence.mark)).all closing.behind

end Closing

/-- What a line is in its text. -/
inductive Role where
  | text
  | opening (fence : Fence)
  | code (fence : Fence)
  | closing (fence : Fence)
  deriving DecidableEq

namespace Role

/-- Whether the line opens or closes a block. -/
def isFence : Role → Bool
  | text | code _ => false
  | opening _ | closing _ => true

/-- The block in which a line of the role stands. -/
def before : Role → Option Fence
  | text | opening _ => none
  | code fence | closing fence => some fence

/-- The block in which the next line stands. -/
def after : Role → Option Fence
  | text | closing _ => none
  | opening fence | code fence => some fence

end Role

namespace Closing

variable (closing : Closing)

/-- What a line is in a block or outside of all. -/
def role (block : Option Fence) (line : List Char) : Role :=
  match block with
  | none => match opener? line with
    | none => .text
    | some fence => .opening fence
  | some fence => if closing.closes fence line then .closing fence else .code fence

/-- Lines, from the top, with what they are. -/
def scan (block : Option Fence) : List (List Char) → List (List Char × Role)
  | [] => []
  | line :: rest => (line, closing.role block line) :: scan (closing.role block line).after rest

@[simp] theorem map_fst_scan (block : Option Fence) (lines : List (List Char)) :
    (closing.scan block lines).map Prod.fst = lines := by
  induction lines generalizing block with
  | nil => rfl
  | cons line rest ih => rw [scan, List.map_cons, ih]

@[simp] theorem before_role (block : Option Fence) (line : List Char) :
    (closing.role block line).before = block := by
  cases block with
  | none =>
    rw [role.eq_def]
    dsimp only
    cases opener? line <;> rfl
  | some fence =>
    rw [role.eq_def]
    dsimp only
    split <;> rfl

/-- A line has its role in the block that it stands in. -/
theorem role_of_mem_scan {block : Option Fence} {lines : List (List Char)}
    {p : List Char × Role} (h : p ∈ closing.scan block lines) :
    closing.role p.2.before p.1 = p.2 := by
  induction lines generalizing block with
  | nil => cases h
  | cons line rest ih =>
    rcases List.mem_cons.mp h with rfl | h
    · rw [before_role]
    · exact ih h

end Closing

/-! ## Lines -/

/-- A line that has lost blanks in front of it, and an end that a comma starts. -/
structure Trims (line out : List Char) : Prop where
  blanks : (out.takeWhile (· == ' ')).length ≤ (line.takeWhile (· == ' ')).length
  cut : ∃ extra, line.dropWhile (· == ' ') = out.dropWhile (· == ' ') ++ extra ∧
    ∀ c ∈ extra.head?, c = ','

namespace Trims

variable {line middle out : List Char}

theorem refl (line : List Char) : Trims line line :=
  ⟨Nat.le_refl _, [], (List.append_nil _).symm, by simp⟩

theorem trans (h : Trims line middle) (h' : Trims middle out) : Trims line out := by
  obtain ⟨extra, hextra, hcomma⟩ := h.cut
  obtain ⟨extra', hextra', hcomma'⟩ := h'.cut
  refine ⟨h'.blanks.trans h.blanks, extra' ++ extra, by rw [hextra, hextra', List.append_assoc], ?_⟩
  cases extra' with
  | nil => exact hcomma
  | cons c extra' => exact hcomma'

theorem dropFenceIndent (line : List Char) : Trims line (dropFenceIndent line) := by
  rw [Markdown.dropFenceIndent]
  split
  · refine ⟨?_, [], ?_, by simp⟩
    · rw [takeWhile_dropWhile]
      exact Nat.zero_le _
    · rw [List.dropWhile_idempotent, List.append_nil]
  · exact .refl line

theorem dropFenceLabel (line : List Char) : Trims line (dropFenceLabel line) := by
  rcases dropFenceLabel_eq_iff.mp rfl with hlabel | ⟨-, hsame⟩
  · generalize Markdown.dropFenceLabel line = out at hlabel
    obtain ⟨hlength, hmarks, -, -, -⟩ := hlabel
    next fence language extra =>
    cases fence with
    | nil => exact absurd hlength (by decide)
    | cons mark fence =>
      -- no blank stands in front of the fence, so the end is all that the line loses
      have hmark : (mark == ' ') = false := not_blank_of_mark (hmarks mark List.mem_cons_self)
      refine ⟨by simp [hmark], ',' :: extra, by simp [hmark], ?_⟩
      rintro c ⟨⟩
      rfl
  · rw [hsame]
    exact .refl line

theorem normalizeLine (line : List Char) : Trims line (normalizeLine line) :=
  (dropFenceIndent line).trans (dropFenceLabel _)

section Marks

variable {mark : Char} (h : Trims line out) (hmark : isFenceMark mark = true)

include h hmark

/-- The marks in front of a line stay, and of what is behind them there is no more than before. -/
private theorem marks :
    (line.dropWhile (· == ' ')).takeWhile (· == mark) =
      (out.dropWhile (· == ' ')).takeWhile (· == mark) ∧
    (out.dropWhile (· == ' ')).dropWhile (· == mark) <+:
      (line.dropWhile (· == ' ')).dropWhile (· == mark) := by
  obtain ⟨extra, hextra, hcomma⟩ := h.cut
  have hother : ∀ c ∈ extra.head?, (c == mark) = false := by
    intro c hc
    rw [hcomma c hc, beq_eq_false_iff_ne]
    rintro rfl
    exact absurd hmark (by decide)
  rw [hextra, takeWhile_append_of_head hother, dropWhile_append_of_head hother]
  exact ⟨rfl, List.prefix_append _ _⟩

end Marks

/-- A line that opens a block still opens it. -/
theorem opener? {fence : Fence} (h : Trims line out) (hopens : opener? line = some fence) :
    Markdown.opener? out = some fence := by
  obtain ⟨hmarks, hbehind⟩ := h.marks fence.isMark
  obtain ⟨hhead, hblanks, hsame, hlength, hbackticks⟩ := opener?_eq_some_iff.mp hopens
  refine opener?_eq_some_iff.mpr
    ⟨?_, h.blanks.trans hblanks, hmarks ▸ hsame, hlength, fun hmark hmem ↦
      hbackticks hmark (hbehind.subset hmem)⟩
  obtain ⟨extra, hextra, hcomma⟩ := h.cut
  rw [hextra, List.head?_append] at hhead
  cases hout : (out.dropWhile (· == ' ')).head? with
  | some c => rwa [hout] at hhead
  | none =>
    -- the fence would have to be in what is cut off
    rw [hout, Option.none_or] at hhead
    exact absurd (hcomma _ hhead ▸ fence.isMark) (by decide)

/-- A line that closes a block still closes it. -/
theorem closes {closing : Closing} {fence : Fence} (h : Trims line out)
    (hcloses : closing.closes fence line = true) : closing.closes fence out = true := by
  obtain ⟨hmarks, hbehind⟩ := h.marks fence.isMark
  simp only [Closing.closes, Bool.and_eq_true, decide_eq_true_eq] at hcloses ⊢
  obtain ⟨⟨hmargin, hlength⟩, hall⟩ := hcloses
  refine ⟨⟨h.blanks.trans hmargin, hmarks ▸ hlength⟩, ?_⟩
  rw [List.all_eq_true] at hall ⊢
  exact fun c hc ↦ hall c (hbehind.subset hc)

end Trims

/-! ## Blocks in one form -/

/-- Neither rule for fences applies to a line. -/
def InForm (line : List Char) : Prop :=
  (∀ out, ¬ Dedents line out) ∧ ∀ out, ¬ Unlabels line out

theorem Dedents.length_lt {line out : List Char} (h : Dedents line out) :
    out.length < line.length := by
  obtain ⟨hblanks, -, -, rest⟩ := h
  simp only [List.length_append, List.length_replicate]
  omega

theorem Unlabels.length_lt {line out : List Char} (h : Unlabels line out) :
    out.length < line.length := by
  obtain ⟨-, -, -, -, -⟩ := h
  simp only [List.length_append, List.length_cons]
  omega

/-- A line stays as it is exactly if neither rule applies to it. -/
theorem normalizeLine_eq_self_iff {line : List Char} : normalizeLine line = line ↔ InForm line := by
  rw [normalizeLine_eq_iff]
  constructor
  · rintro ⟨middle, hindent, hlabel⟩
    rcases hindent with hdedents | ⟨hindent, rfl⟩
    all_goals rcases hlabel with hunlabels | ⟨hlabel, heq⟩
    · exact absurd (hunlabels.length_lt.trans hdedents.length_lt) (Nat.lt_irrefl _)
    · exact absurd (heq ▸ hdedents.length_lt) (Nat.lt_irrefl _)
    · exact absurd hunlabels.length_lt (Nat.lt_irrefl _)
    · exact ⟨hindent, hlabel⟩
  · intro h
    exact ⟨line, .inr ⟨h.1, rfl⟩, .inr ⟨h.2, rfl⟩⟩

instance (line : List Char) : Decidable (InForm line) :=
  decidable_of_iff (normalizeLine line = line) normalizeLine_eq_self_iff

namespace Closing

variable (closing : Closing)

/-- With its fence in one form a line is in its block what it was. -/
def Stays (p : List Char × Role) : Prop := closing.role p.2.before (normalizeLine p.1) = p.2

instance (p : List Char × Role) : Decidable (closing.Stays p) :=
  inferInstanceAs (Decidable (closing.role p.2.before (normalizeLine p.1) = p.2))

/-- A line that opens or closes a block does so in one form. -/
theorem role_normalizeLine {block : Option Fence} {line : List Char}
    (h : (closing.role block line).isFence = true) :
    closing.role block (normalizeLine line) = closing.role block line := by
  have htrims := Trims.normalizeLine line
  cases block with
  | none =>
    simp only [role] at h ⊢
    cases hopens : opener? line with
    | none =>
      rw [hopens] at h
      cases h
    | some fence => rw [htrims.opener? hopens]
  | some fence =>
    simp only [role] at h ⊢
    split at h
    · next hcloses => rw [if_pos hcloses, if_pos (htrims.closes hcloses)]
    · cases h

/-- The blocks of a text are those of its one form exactly if no line of code closes its block then
and no line of text opens one. -/
theorem scan_normalizeLine_iff (block : Option Fence) (lines : List (List Char)) :
    closing.scan block (lines.map normalizeLine) =
        (closing.scan block lines).map (fun p ↦ (normalizeLine p.1, p.2)) ↔
      ∀ p ∈ closing.scan block lines, p.2.isFence = false → closing.Stays p := by
  -- each line hands its block on, so both scans go on alike once a line stays what it was
  induction lines generalizing block with
  | nil => simp [scan]
  | cons line rest ih =>
    have hline : closing.role block (normalizeLine line) = closing.role block line ↔
        ((closing.role block line).isFence = false →
          closing.Stays (line, closing.role block line)) := by
      rw [Stays, before_role]
      refine ⟨fun h _ ↦ h, fun h ↦ ?_⟩
      cases hfence : (closing.role block line).isFence with
      | false => exact h hfence
      | true => exact closing.role_normalizeLine hfence
    rw [scan, List.forall_mem_cons, ← hline, ← ih, List.map_cons, List.map_cons, scan,
      List.cons.injEq, Prod.mk.injEq, eq_self_iff_true, true_and]
    exact and_congr_right fun hrole ↦ by rw [hrole]

end Closing

/-- A line that opens or closes a block does so when the fences of its text are in one form, too.
Nothing but such lines changes exactly if neither rule applies to any other line, and then all lines
are what they were. They also are if such other lines do change, exactly if no line of code comes to
close its block and no line of text comes to open one. -/
theorem normalizeFences_frame (closing : Closing) (text : List Char) :
    let lines := closing.scan none (splitOnChar '\n' text)
    let normal := splitOnChar '\n' (normalizeFences text)
    (∀ p ∈ lines, p.2.isFence = true → closing.Stays p) ∧
    (normal = lines.map (fun p ↦ if p.2.isFence then normalizeLine p.1 else p.1) ↔
      ∀ p ∈ lines, p.2.isFence = false → InForm p.1) ∧
    ((∀ p ∈ lines, p.2.isFence = false → InForm p.1) →
      closing.scan none normal = lines.map fun p ↦ (normalizeLine p.1, p.2)) ∧
    (closing.scan none normal = lines.map (fun p ↦ (normalizeLine p.1, p.2)) ↔
      ∀ p ∈ lines, p.2.isFence = false → closing.Stays p) := by
  intro lines normal
  have hnormal : normal = (splitOnChar '\n' text).map normalizeLine :=
    splitOnChar_normalizeFences text
  have hscan := closing.scan_normalizeLine_iff none (splitOnChar '\n' text)
  rw [← hnormal] at hscan
  refine ⟨fun p hp hfence ↦ ?_, ?_, fun hform ↦ hscan.mpr fun p hp hfence ↦ ?_, hscan⟩
  · have hrole := closing.role_of_mem_scan hp
    rw [Closing.Stays, closing.role_normalizeLine (by rwa [hrole]), hrole]
  · have hlines : normal = lines.map fun p ↦ normalizeLine p.1 := by
      rw [hnormal, ← closing.map_fst_scan none (splitOnChar '\n' text), List.map_map]
      rfl
    rw [hlines, List.map_inj_left]
    refine forall₂_congr fun p _ ↦ ?_
    cases p.2.isFence with
    | true => simp
    | false => simp [normalizeLine_eq_self_iff]
  · rw [Closing.Stays, normalizeLine_eq_self_iff.mpr (hform p hp hfence)]
    exact closing.role_of_mem_scan hp

/-- A block whose opening line loses blanks and a label, and whose closing line loses a blank. -/
def labelledBlock : List Char := "  ```rust,no_run\nf()\n ```\n".toList

/-- A block of four marks that shows how one of three is opened. -/
def nestedBlock : List Char := "````\n  ```rust,no_run\n````\n".toList

/-- The first block is put in one form by its fences only. In the second a line of code loses blanks
and a label, though it stays one block. -/
theorem normalizeFences_frame_nested :
    let closing : Closing := ⟨3, (· == ' ')⟩
    (closing.scan none (splitOnChar '\n' (normalizeFences labelledBlock)) =
      (closing.scan none (splitOnChar '\n' labelledBlock)).map
        fun p ↦ (normalizeLine p.1, p.2)) ∧
    (closing.scan none (splitOnChar '\n' (normalizeFences nestedBlock)) =
      (closing.scan none (splitOnChar '\n' nestedBlock)).map
        fun p ↦ (normalizeLine p.1, p.2)) ∧
    splitOnChar '\n' (normalizeFences nestedBlock) ≠
      (closing.scan none (splitOnChar '\n' nestedBlock)).map
        fun p ↦ if p.2.isFence then normalizeLine p.1 else p.1 := by
  intro closing
  obtain ⟨-, -, hlabelled, -⟩ := normalizeFences_frame closing labelledBlock
  obtain ⟨-, hframe, -, hnested⟩ := normalizeFences_frame closing nestedBlock
  refine ⟨hlabelled (by decide), hnested.mpr (by decide), fun hsame ↦ ?_⟩
  exact absurd (hframe.mp hsame) (by decide)

end Guidebook.Markdown
