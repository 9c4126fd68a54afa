import Guidebook.Failure

/-!
# Results that are answers

What is known of the parts of a result that is an answer: of one that goes on from another, of one
that is changed on the way, and of results asked for one after another.
-/

namespace Guidebook

variable {α β ε : Type}

/-- A result in two parts is an answer if both are. -/
theorem bind_eq_ok {r : Except ε α} {f : α → Except ε β} {b : β}
    (h : (r >>= f) = .ok b) : ∃ a, r = .ok a ∧ f a = .ok b := by
  cases r with
  | error failure => cases h
  | ok a => exact ⟨a, rfl, h⟩

theorem map_eq_ok {r : Except ε α} {f : α → β} {b : β} (h : r.map f = .ok b) :
    ∃ a, r = .ok a ∧ f a = b := by
  cases r with
  | error failure => cases h
  | ok a => exact ⟨a, rfl, Except.ok.inj h⟩

theorem mapError_eq_ok {ε' : Type} {r : Except ε α} {f : ε → ε'} {a : α}
    (h : r.mapError f = .ok a) : r = .ok a := by
  cases r with
  | error failure => cases h
  | ok answer => exact congrArg Except.ok (Except.ok.inj h)

/-- A result among results is itself. -/
@[simp] theorem ofResult_result (r : Except Failure α) : (ofResult r : Except Failure α) = r := by
  cases r <;> rfl

/-- A result that has an answer is that answer. -/
theorem eq_ok_of_toOption {r : Except ε α} {a : α} (h : r.toOption = some a) :
    r = .ok a := by
  cases r with
  | error failure => cases h
  | ok answer => exact congrArg Except.ok (Option.some.inj h)

/-- Answers are asked for one after another: the first is there, and so are the others. -/
theorem mapM_cons_eq_ok {f : α → Except ε β} {a : α} {items : List α}
    {answers : List β} (h : (a :: items).mapM f = .ok answers) :
    ∃ b others, f a = .ok b ∧ items.mapM f = .ok others ∧ answers = b :: others := by
  rw [List.mapM_cons] at h
  obtain ⟨b, hfirst, h⟩ := bind_eq_ok h
  obtain ⟨others, hothers, h⟩ := bind_eq_ok h
  exact ⟨b, others, hfirst, hothers, (Except.ok.inj h).symm⟩

/-- Every answer is that to what is asked for at its place. -/
theorem getElem?_of_mapM {f : α → Except ε β} {items : List α} {answers : List β}
    (h : items.mapM f = .ok answers) {i : Nat} {b : β} (hb : answers[i]? = some b) :
    ∃ a, items[i]? = some a ∧ f a = .ok b := by
  induction items generalizing answers i with
  | nil =>
    obtain rfl := Except.ok.inj h
    cases hb
  | cons a items ih =>
    obtain ⟨first, others, hfirst, hothers, rfl⟩ := mapM_cons_eq_ok h
    cases i with
    | zero => exact ⟨a, rfl, hfirst.trans (congrArg _ (Option.some.inj hb))⟩
    | succ i => exact ih hothers hb

theorem mem_of_mapM {f : α → Except ε β} {items : List α} {answers : List β}
    (h : items.mapM f = .ok answers) : ∀ b ∈ answers, ∃ a ∈ items, f a = .ok b := by
  intro b hb
  obtain ⟨i, hi⟩ := List.mem_iff_getElem?.mp hb
  obtain ⟨a, ha, hanswer⟩ := getElem?_of_mapM h hi
  exact ⟨a, List.mem_of_getElem? ha, hanswer⟩

/-- What has an answer each has the answers one after another. -/
theorem mapM_eq_map {f : α → Except ε β} {g : α → β} {items : List α}
    (h : ∀ item ∈ items, f item = .ok (g item)) : items.mapM f = .ok (items.map g) := by
  induction items with
  | nil => rfl
  | cons item items ih =>
    have hrest := ih fun other ho ↦ h other (List.mem_cons_of_mem _ ho)
    rw [List.mapM_cons, h item List.mem_cons_self, hrest]
    rfl

/-- What fails when answers are asked for one after another is one of the questions. -/
theorem error_of_mapM {f : α → Except ε β} {items : List α} {failure : ε}
    (h : items.mapM f = .error failure) : ∃ item ∈ items, f item = .error failure := by
  induction items with
  | nil => cases h
  | cons item items ih =>
    rw [List.mapM_cons] at h
    cases hfirst : f item with
    | error other =>
      rw [hfirst] at h
      exact ⟨item, List.mem_cons_self, hfirst.trans (congrArg _ (Except.error.inj h))⟩
    | ok b =>
      cases hrest : items.mapM f with
      | error other =>
        rw [hfirst, hrest] at h
        obtain ⟨found, hfound, hfails⟩ := ih (hrest.trans (congrArg _ (Except.error.inj h)))
        exact ⟨found, List.mem_cons_of_mem _ hfound, hfails⟩
      | ok others =>
        rw [hfirst, hrest] at h
        cases h

/-- What is asked for has its answer among the answers. -/
theorem answer_mem_of_mapM {f : α → Except ε β} {items : List α} {answers : List β}
    (h : items.mapM f = .ok answers) : ∀ item ∈ items, ∃ b ∈ answers, f item = .ok b := by
  induction items generalizing answers with
  | nil => simp
  | cons item items ih =>
    obtain ⟨b, others, hfirst, hothers, rfl⟩ := mapM_cons_eq_ok h
    intro other ho
    rcases List.mem_cons.mp ho with rfl | ho
    · exact ⟨b, List.mem_cons_self, hfirst⟩
    · obtain ⟨c, hc, hanswer⟩ := ih hothers other ho
      exact ⟨c, List.mem_cons_of_mem b hc, hanswer⟩

/-! ## Answers and failures -/

/-- A result whose answer has one property, or whose failure has another. -/
def EndsIn (r : Except ε α) (Q : α → Prop) (P : ε → Prop) : Prop :=
  (∀ a, r = .ok a → Q a) ∧ ∀ e, r = .error e → P e

namespace EndsIn

variable {Q : α → Prop} {P : ε → Prop}

theorem ok {a : α} (h : Q a) : EndsIn (.ok a : Except ε α) Q P := by
  constructor
  · rintro b heq
    exact Except.ok.inj heq ▸ h
  · rintro e heq
    cases heq

theorem error {e : ε} (h : P e) : EndsIn (.error e : Except ε α) Q P := by
  constructor
  · rintro a heq
    cases heq
  · rintro other heq
    exact Except.error.inj heq ▸ h

/-- An answer is known to be the answer. -/
theorem of_error {r : Except ε α} (h : ∀ e, r = .error e → P e) :
    EndsIn r (fun a ↦ r = .ok a) P :=
  ⟨fun _ heq ↦ heq, h⟩

theorem bind {r : Except ε α} {f : α → Except ε β} {R : β → Prop} (hr : EndsIn r Q P)
    (hf : ∀ a, Q a → EndsIn (f a) R P) : EndsIn (r >>= f) R P := by
  cases r with
  | error e => exact .error (hr.2 e rfl)
  | ok a => exact hf a (hr.1 a rfl)

theorem mono {r : Except ε α} {Q' : α → Prop} {P' : ε → Prop} (h : EndsIn r Q P)
    (hQ : ∀ a, Q a → Q' a) (hP : ∀ e, P e → P' e) : EndsIn r Q' P' :=
  ⟨fun a heq ↦ hQ a (h.1 a heq), fun e heq ↦ hP e (h.2 e heq)⟩

end EndsIn

end Guidebook
