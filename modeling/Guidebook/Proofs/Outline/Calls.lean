import Guidebook.Proofs.Outline.Placement

/-!
# Calls to a builder

A builder can be used call by call, and whoever uses it may go on after a call that was refused. A
refused entry changes nothing, so at any time the builder stands where it would stand if it had been
given the accepted entries only.

This ends when the builder gives its tree away. Nothing is open then, but entries are still accepted
and calls that fail close what they find. What stays true is that the cursor is at least as deep as
there are directories open, and from there no tree is given away again.
-/

namespace Guidebook.Outline

/-- A call to a builder that is still in use. -/
inductive Call where
  | directory (name : String) (depth : Int)
  | file (name path : String) (depth : Int)
  | push (entry : WalkEntry)
  | extend (entries : List WalkEntry)
  deriving DecidableEq, Repr

namespace Call

/-- Makes a call. -/
def on (b : Builder) : Call → Builder × Option Fault
  | directory name depth => b.pushDirectory name depth
  | file name path depth => b.pushFile name path depth
  | push entry => b.push entry
  | extend entries => b.extend entries

/-- The entries that a call offers. -/
def offered : Call → List WalkEntry
  | directory name depth => [⟨name, .directory, depth, ""⟩]
  | file name path depth => [⟨name, .file, depth, path⟩]
  | push entry => [entry]
  | extend entries => entries

/-- Whether a call offers a single entry. -/
def IsSingle : Call → Prop
  | extend _ => False
  | _ => True

end Call

namespace Builder

/-- The builder after some calls, faults or not. -/
def run (b : Builder) (calls : List Call) : Builder :=
  calls.foldl (fun b call ↦ (call.on b).1) b

/-- The entries in front of the first that is refused. -/
def taken (b : Builder) : List WalkEntry → List WalkEntry
  | [] => []
  | e :: rest =>
    match b.push e with
    | (_, some _) => []
    | (next, none) => e :: next.taken rest

/-- The entries of all calls that are accepted. -/
def accepted (b : Builder) : List Call → List WalkEntry
  | [] => []
  | call :: rest => b.taken call.offered ++ (call.on b).1.accepted rest

variable {b : Builder}

theorem extend_singleton (e : WalkEntry) : b.extend [e] = b.push e := by
  rw [extend]
  rcases b.push e with ⟨next, _ | fault⟩ <;> rfl

/-- A call adds the entries that it offers. -/
theorem on_eq (b : Builder) (call : Call) : call.on b = b.extend call.offered := by
  cases call with
  | directory name depth => exact (extend_singleton ⟨name, .directory, depth, ""⟩).symm
  | file name path depth => exact (extend_singleton ⟨name, .file, depth, path⟩).symm
  | push e => exact (extend_singleton e).symm
  | extend entries => rfl

/-- An entry is taken, or it is refused and changes nothing. -/
theorem push_cases (h : b.Level) (e : WalkEntry) :
    (∃ next, b.push e = (next, none) ∧ next.Level) ∨
      b.push e = (b, some (.orphan e.name e.depth b.cursor)) := by
  by_cases hdepth : 1 ≤ e.depth ∧ e.depth ≤ b.cursor + 1
  · obtain ⟨opened, -, hopened, hpush⟩ := push_eq h hdepth.1 hdepth.2
    exact .inl ⟨_, hpush, level_entered hdepth.1 hopened⟩
  · exact .inr (push_refused hdepth)

/-- Entries are all taken, or those in front of the first refused one are taken and the rest changes
nothing. -/
theorem extend_cases (h : b.Level) (entries : List WalkEntry) :
    ∃ next, next.Level ∧ b.extend (b.taken entries) = (next, none) ∧
      ((b.extend entries = (next, none) ∧ b.taken entries = entries) ∨
        ∃ e rest, entries = b.taken entries ++ e :: rest ∧
          next.push e = (next, some (.orphan e.name e.depth next.cursor)) ∧
          b.extend entries = (next, some (.orphan e.name e.depth next.cursor))) := by
  induction entries generalizing b with
  | nil => exact ⟨b, h, rfl, .inl ⟨rfl, rfl⟩⟩
  | cons e rest ih =>
    rcases push_cases h e with ⟨middle, hpush, hmiddle⟩ | hpush
    · have htaken : b.taken (e :: rest) = e :: middle.taken rest := by rw [taken, hpush]
      have hextend : ∀ more, b.extend (e :: more) = middle.extend more := fun more ↦ by
        rw [extend, hpush]
      obtain ⟨next, hnext, hfront, ⟨hall, heq⟩ | ⟨x, behind, heq, hx, hall⟩⟩ := ih hmiddle
      · exact ⟨next, hnext, by rw [htaken, hextend, hfront],
          .inl ⟨by rw [hextend, hall], by rw [htaken, heq]⟩⟩
      · exact ⟨next, hnext, by rw [htaken, hextend, hfront],
          .inr ⟨x, behind, by rw [htaken, List.cons_append, ← heq], hx, by rw [hextend, hall]⟩⟩
    · have htaken : b.taken (e :: rest) = [] := by rw [taken, hpush]
      exact ⟨b, h, by rw [htaken]; rfl, .inr ⟨e, rest, by rw [htaken]; rfl, hpush,
        by rw [extend, hpush]⟩⟩

/-- After any calls the builder stands where the accepted entries alone take it. -/
theorem extend_accepted (h : b.Level) (calls : List Call) :
    (b.run calls).Level ∧ b.extend (b.accepted calls) = (b.run calls, none) := by
  induction calls generalizing b with
  | nil => exact ⟨h, rfl⟩
  | cons call rest ih =>
    obtain ⟨next, hnext, hfront, hcall⟩ := extend_cases h call.offered
    have hon : (call.on b).1 = next := by
      rw [on_eq]
      rcases hcall with ⟨hall, -⟩ | ⟨_, _, -, -, hall⟩ <;> rw [hall]
    obtain ⟨hlevel, hrest⟩ := ih hnext
    have hrun : b.run (call :: rest) = next.run rest := by
      rw [← hon]
      rfl
    rw [hrun, accepted, hon]
    exact ⟨hlevel, (extend_append _ _ _ _ hfront).trans hrest⟩

theorem taken_sublist (b : Builder) (entries : List WalkEntry) :
    (b.taken entries).Sublist entries := by
  induction entries generalizing b with
  | nil => exact .slnil
  | cons e rest ih =>
    rw [taken]
    split
    · exact List.nil_sublist _
    · next next _ => exact (ih next).cons_cons e

theorem accepted_sublist (b : Builder) (calls : List Call) :
    (b.accepted calls).Sublist (calls.flatMap Call.offered) := by
  induction calls generalizing b with
  | nil => exact .slnil
  | cons call rest ih => exact (b.taken_sublist call.offered).append (ih _)

/-- What a builder has open: the directories of levels 0 up to the cursor, outermost first. -/
structure Standing (b : Builder) : Prop where
  nonneg : 0 ≤ b.cursor
  length : (b.stack.length : Int) = b.cursor + 1
  depth : ∀ (i : Nat) (d : Directory), b.stack.reverse[i]? = some d → d.depth = i

end Builder

private theorem Spine.depth_eq {all front : List WalkEntry} {opened : List (WalkEntry × Nat)}
    {stack : List Directory} (h : Spine all front opened stack) :
    ∀ (i : Nat) (d : Directory), stack.reverse[i]? = some d → d.depth = i := by
  induction h with
  | root _ atTop _ =>
    intro i d hd
    obtain ⟨hi, rfl⟩ := List.getElem?_eq_some_iff.mp hd
    simp only [List.reverse_singleton, List.length_singleton] at hi
    obtain rfl : i = 0 := by omega
    exact atTop
  | @inside _ inner outer _ _ _ _ level _ _ _ ih =>
    intro i d hd
    rw [List.reverse_cons] at hd
    by_cases hi : i < outer.reverse.length
    · rw [List.getElem?_append_left hi] at hd
      exact ih i d hd
    · have hlt := (List.getElem?_eq_some_iff.mp hd).1
      simp only [List.length_append, List.length_reverse, List.length_singleton] at hi hlt
      obtain rfl : i = outer.length := by omega
      rw [List.getElem?_append_right (by simp)] at hd
      obtain rfl : inner = d := by simpa using hd
      exact level

namespace Builder

/-- A builder that has taken some entries has the directories down to its cursor open. -/
private theorem standing_of_extend {b : Builder} {entries : List WalkEntry}
    (h : start.extend entries = (b, none)) : b.Standing := by
  have hall := (fits_iff_allAccepted entries).mp (fits_of_extend level_start h)
  obtain ⟨next, hnext, hreads⟩ := (reads_start entries).extend hall rfl
  obtain rfl : b = next := congrArg Prod.fst (h.symm.trans hnext)
  exact ⟨hreads.level.nonneg, hreads.level.length, hreads.spine.depth_eq⟩

/-- After any calls to a new builder, refused or not, the directories of levels 0 up to the cursor
are open. Whatever is called next is refused only for want of an open parent. A single entry that is
refused changes nothing, and entries of which one is refused leave the builder where those in front
of it take it. Closing the builder succeeds and gives away what the accepted entries build. -/
theorem run_standing (calls : List Call) :
    (start.run calls).Standing ∧
    (∀ (call : Call) (fault : Fault), (call.on (start.run calls)).2 = some fault →
      ∃ name depth cursor, fault = .orphan name depth cursor) ∧
    (∀ (call : Call) (fault : Fault), call.IsSingle → (call.on (start.run calls)).2 = some fault →
      (call.on (start.run calls)).1 = start.run calls) ∧
    (∀ (entries : List WalkEntry) (fault : Fault),
      ((Call.extend entries).on (start.run calls)).2 = some fault →
      ∃ front e rest, entries = front ++ e :: rest ∧
        (start.run calls).extend front = (((Call.extend entries).on (start.run calls)).1, none) ∧
        (((Call.extend entries).on (start.run calls)).1.push e).2 = some fault) ∧
    (start.accepted calls).Sublist (calls.flatMap Call.offered) ∧
    ∃ root, (start.run calls).finish.2 = .ok root ∧ build (start.accepted calls) = .ok root := by
  obtain ⟨hlevel, haccepted⟩ := extend_accepted level_start calls
  refine ⟨standing_of_extend haccepted, fun call fault hfault ↦ ?_,
    fun call fault hsingle hfault ↦ ?_, fun entries fault hfault ↦ ?_,
    start.accepted_sublist calls, ?_⟩
  · obtain ⟨next, -, -, ⟨hall, -⟩ | ⟨e, rest, -, -, hall⟩⟩ := extend_cases hlevel call.offered
    · rw [on_eq, hall] at hfault
      cases hfault
    · rw [on_eq, hall] at hfault
      exact ⟨_, _, _, (Option.some.inj hfault).symm⟩
  · obtain ⟨e, he⟩ : ∃ e, call.offered = [e] := by
      cases call with
      | extend entries => exact hsingle.elim
      | _ => exact ⟨_, rfl⟩
    rw [on_eq, he, extend_singleton] at hfault ⊢
    rcases push_cases hlevel e with ⟨next, hpush, -⟩ | hpush
    · rw [hpush] at hfault
      cases hfault
    · rw [hpush]
  · obtain ⟨next, -, hfront, ⟨hall, -⟩ | ⟨e, rest, heq, hpush, hall⟩⟩ :=
      extend_cases hlevel entries
    · rw [Call.on, hall] at hfault
      cases hfault
    · rw [Call.on, hall] at hfault ⊢
      obtain rfl := Option.some.inj hfault
      exact ⟨_, e, rest, heq, hfront, congrArg Prod.snd hpush⟩
  · obtain ⟨root, -, hfinish⟩ := finish_eq hlevel
    refine ⟨root, congrArg Prod.snd hfinish, ?_⟩
    rw [build, haccepted]
    exact congrArg Prod.snd hfinish

/-! ## Trees given away -/

/-- A use of a builder: a call, or the question for its tree. -/
inductive Use where
  | call (call : Call)
  | finish
  deriving DecidableEq, Repr

/-- What a builder answers to each question for its tree. The uses go on after a fault. -/
def answers (b : Builder) : List Use → List (Except Fault Directory)
  | [] => []
  | .call call :: rest => (call.on b).1.answers rest
  | .finish :: rest => b.finish.2 :: b.finish.1.answers rest

/-- A builder that has no tree to give away: the root is not among the open directories. -/
def Spent (b : Builder) : Prop := (b.stack.length : Int) ≤ b.cursor

/-- A fault comes when there is nothing left to close. -/
theorem closed_of_fault {n : Nat} {stack opened : List Directory} {fault : Fault}
    (h : close n stack = (opened, some fault)) : opened = [] := by
  induction n generalizing stack with
  | zero => cases congrArg Prod.snd h
  | succ n ih =>
    rcases stack with _ | ⟨inner, _ | ⟨outer, rest⟩⟩
    · exact (congrArg Prod.fst h).symm
    · exact (congrArg Prod.fst h).symm
    · have hclose : close n (outer.addDirectory inner :: rest) = (opened, some fault) := h
      exact ih hclose

/-- With no directory open a builder is spent. -/
theorem spent_nil {cursor : Int} (h : 0 ≤ cursor) : Spent ⟨[], cursor⟩ := h

namespace Spent

variable {b : Builder}

theorem nonneg (h : b.Spent) : 0 ≤ b.cursor := Int.le_trans (Int.natCast_nonneg b.stack.length) h

/-- An entry leaves a spent builder spent, accepted or not. -/
theorem push (h : b.Spent) (e : WalkEntry) : (b.push e).1.Spent := by
  by_cases hdepth : 1 ≤ e.depth ∧ e.depth ≤ b.cursor + 1
  · have hrefuses : refuses b.cursor e.depth = false := by
      simp only [refuses, Bool.or_eq_false_iff, decide_eq_false_iff_not]
      omega
    rcases hclose : close (b.cursor + 1 - e.depth).toNat b.stack with ⟨opened, _ | fault⟩
    · have hlength := length_close hclose
      have hspent : (b.stack.length : Int) ≤ b.cursor := h
      -- what is left open lies above the depth of the entry, where nothing but the root is missing
      have hopened : (opened.length : Int) ≤ e.depth - 1 := by omega
      cases hkind : e.kind with
      | directory =>
        have hpush : b.push e = (⟨.empty e.name e.depth :: opened, e.depth⟩, none) := by
          simp [Builder.push, hkind, pushDirectory, unwind, hrefuses, hclose]
        have hone : ((opened.length + 1 : Nat) : Int) ≤ e.depth := by omega
        rw [hpush]
        exact hone
      | file =>
        cases opened with
        | nil =>
          have hpush : b.push e = (⟨[], e.depth - 1⟩, some .noParent) := by
            simp [Builder.push, hkind, pushFile, unwind, hrefuses, hclose]
          rw [hpush]
          exact hopened
        | cons top rest =>
          have hpush : b.push e =
              (⟨top.addFile ⟨e.name, e.depth, e.path⟩ :: rest, e.depth - 1⟩, none) := by
            simp [Builder.push, hkind, pushFile, unwind, hrefuses, hclose]
          rw [hpush]
          exact hopened
    · obtain rfl := closed_of_fault hclose
      have hpush : b.push e = (⟨[], b.cursor⟩, some fault) := by
        cases hkind : e.kind <;>
          simp [Builder.push, hkind, pushDirectory, pushFile, unwind, hrefuses, hclose]
      rw [hpush]
      exact spent_nil h.nonneg
  · rw [push_refused hdepth]
    exact h

theorem extend (h : b.Spent) (entries : List WalkEntry) : (b.extend entries).1.Spent := by
  induction entries generalizing b with
  | nil => exact h
  | cons e rest ih =>
    have hpush := h.push e
    rw [Builder.extend]
    rcases hnext : b.push e with ⟨next, _ | fault⟩ <;> rw [hnext] at hpush
    · exact ih hpush
    · exact hpush

theorem on (h : b.Spent) (call : Call) : (call.on b).1.Spent := by
  rw [on_eq]
  exact h.extend call.offered

/-- A spent builder gives no tree away and stays spent. -/
theorem finish (h : b.Spent) : b.finish.1.Spent ∧ ∃ fault, b.finish.2 = .error fault := by
  rcases hclose : close b.cursor.toNat b.stack with ⟨opened, _ | fault⟩
  · have hlength := length_close hclose
    have hspent : (b.stack.length : Int) ≤ b.cursor := h
    obtain rfl : opened = [] := List.eq_nil_of_length_eq_zero (by omega)
    have hfinish : b.finish = (⟨[], 0⟩, .error .nothingOpen) := by simp [Builder.finish, hclose]
    rw [hfinish]
    exact ⟨spent_nil (Int.le_refl 0), _, rfl⟩
  · obtain rfl := closed_of_fault hclose
    have hfinish : b.finish = (⟨[], b.cursor⟩, .error fault) := by simp [Builder.finish, hclose]
    rw [hfinish]
    exact ⟨spent_nil h.nonneg, _, rfl⟩

/-- A spent builder answers every question with a fault, whatever is called in between. -/
theorem answers (h : b.Spent) (uses : List Use) :
    ∃ faults : List Fault, b.answers uses = faults.map .error := by
  induction uses generalizing b with
  | nil => exact ⟨[], rfl⟩
  | cons use rest ih =>
    cases use with
    | call call => exact ih (h.on call)
    | finish =>
      obtain ⟨hspent, fault, hfault⟩ := h.finish
      obtain ⟨faults, hfaults⟩ := ih hspent
      exact ⟨fault :: faults, by rw [Builder.answers, hfault, hfaults, List.map_cons]⟩

end Spent

theorem answers_calls (b : Builder) (calls : List Call) (rest : List Use) :
    b.answers (calls.map .call ++ rest) = (b.run calls).answers rest := by
  induction calls generalizing b with
  | nil => rfl
  | cons call calls ih => exact ih (call.on b).1

/-- Uses are calls only, or calls in front of a first question and any uses behind it. -/
theorem calls_or_finish (uses : List Use) :
    (∃ calls : List Call, uses = calls.map .call) ∨
      ∃ (calls : List Call) (rest : List Use), uses = calls.map .call ++ .finish :: rest := by
  induction uses with
  | nil => exact .inl ⟨[], rfl⟩
  | cons use uses ih =>
    cases use with
    | finish => exact .inr ⟨[], uses, rfl⟩
    | call call =>
      rcases ih with ⟨calls, rfl⟩ | ⟨calls, rest, rfl⟩
      · exact .inl ⟨call :: calls, rfl⟩
      · exact .inr ⟨call :: calls, rest, rfl⟩

/-- A new builder gives away one tree at most, whatever it is used for and whichever uses fail: to
the first question it answers what the entries build that were accepted until then, and to every
later one with a fault. -/
theorem answers_start (uses : List Use) :
    (∃ calls : List Call, uses = calls.map .call ∧ start.answers uses = []) ∨
    ∃ (calls : List Call) (rest : List Use) (root : Directory) (faults : List Fault),
      uses = calls.map .call ++ .finish :: rest ∧ build (start.accepted calls) = .ok root ∧
        start.answers uses = .ok root :: faults.map .error := by
  rcases calls_or_finish uses with ⟨calls, rfl⟩ | ⟨calls, rest, rfl⟩
  · refine .inl ⟨calls, rfl, ?_⟩
    rw [← List.append_nil (calls.map _), answers_calls]
    rfl
  · obtain ⟨hlevel, haccepted⟩ := extend_accepted level_start calls
    obtain ⟨root, -, hfinish⟩ := finish_eq hlevel
    obtain ⟨faults, hfaults⟩ := (spent_nil (Int.le_refl 0)).answers rest
    refine .inr ⟨calls, rest, root, faults, rfl, ?_, ?_⟩
    · rw [build, haccepted]
      exact congrArg Prod.snd hfinish
    · rw [answers_calls, answers, hfinish, hfaults]

example : start.answers [.finish, .call (.directory "a" 1), .call (.directory "b" 2), .finish] =
    [.ok (.empty "" 0), .error .noParent] := rfl

end Builder

end Guidebook.Outline
