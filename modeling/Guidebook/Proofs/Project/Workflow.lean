import Guidebook.Project.Load
import Guidebook.Proofs.Result

/-!
# Runs of workflows

What a workflow answers and what it leaves behind, step by step, and two things that are shown of a
whole workflow step by step: that it keeps a property of the world, whether or not it fails, and
that it does not depend on what was reported before.
-/

namespace Guidebook.Workflow

variable {α β : Type}

/-! ## One step -/

/-- The answer of a workflow and the world it leaves behind. -/
def on (w : Workflow α) (s : State) : Except Failure α × State := w.run.run s

@[simp] theorem on_pure (a : α) (s : State) : (pure a : Workflow α).on s = (.ok a, s) := rfl

@[simp] theorem on_throw (failure : Failure) (s : State) :
    (throw failure : Workflow α).on s = (.error failure, s) := rfl

@[simp] theorem on_get (s : State) : (get : Workflow State).on s = (.ok s, s) := rfl

@[simp] theorem on_modify (f : State → State) (s : State) :
    (modify f : Workflow Unit).on s = (.ok (), f s) := rfl

@[simp] theorem on_files (s : State) : files.on s = (.ok s.files, s) := rfl

@[simp] theorem on_setFiles (t : FileTree) (s : State) :
    (setFiles t).on s = (.ok (), { s with files := t }) := rfl

@[simp] theorem on_log (level : LogLevel) (logger message : String) (s : State) :
    (log level logger message).on s =
      (.ok (), { s with logs := s.logs ++ [⟨level, logger, message⟩] }) := rfl

/-- What follows a step starts from its answer in the world it leaves, unless it fails. -/
theorem on_bind (w : Workflow α) (f : α → Workflow β) (s : State) :
    (w >>= f).on s = match w.on s with
      | (.ok a, t) => (f a).on t
      | (.error failure, t) => (.error failure, t) := by
  simp only [on, ExceptT.run_bind, StateT.run_bind]
  cases h : StateT.run (ExceptT.run w) s with
  | mk answer t => cases answer <;> rfl

/-- What follows a step that gives an answer. -/
theorem on_bind_ok {w : Workflow α} {s t : State} {a : α} (h : w.on s = (.ok a, t))
    (f : α → Workflow β) : (w >>= f).on s = (f a).on t := by
  rw [on_bind, h]

/-- A step that fails ends the run. -/
theorem on_bind_error {w : Workflow α} {s t : State} {failure : Failure}
    (h : w.on s = (.error failure, t)) (f : α → Workflow β) :
    (w >>= f).on s = (.error failure, t) := by
  rw [on_bind, h]

/-- A run in two parts that succeeds is one after which each part has. -/
theorem on_bind_eq_ok {w : Workflow α} {f : α → Workflow β} {s t : State} {b : β}
    (h : (w >>= f).on s = (.ok b, t)) :
    ∃ a u, w.on s = (.ok a, u) ∧ (f a).on u = (.ok b, t) := by
  rw [on_bind] at h
  rcases hw : w.on s with ⟨failure | a, u⟩
  · rw [hw] at h
    cases h
  · rw [hw] at h
    exact ⟨a, u, rfl, h⟩

/-- A run that gives an answer ends in the world behind it. -/
theorem on_eq_ok {w : Workflow α} {s : State} (h : (w.on s).1.toOption.isSome = true) :
    ∃ a, w.on s = (.ok a, (w.on s).2) := by
  rcases hw : w.on s with ⟨failure | a, t⟩
  · rw [hw] at h
    cases h
  · exact ⟨a, rfl⟩

/-- A handler is asked only after a failure, in the world that the failure leaves. -/
theorem on_tryCatch (w : Workflow α) (handler : Failure → Workflow α) (s : State) :
    (tryCatch w handler).on s = match w.on s with
      | (.ok a, t) => (.ok a, t)
      | (.error failure, t) => (handler failure).on t := by
  change StateT.run (ExceptT.run (ExceptT.tryCatch w handler)) s = _
  simp only [ExceptT.tryCatch, ExceptT.run_mk, StateT.run_bind]
  rw [on]
  cases h : StateT.run (ExceptT.run w) s with
  | mk answer t =>
    have h' : StateT.run w s = (answer, t) := h
    simp only [h']
    cases answer <;> rfl

@[simp] theorem on_ofResult (r : Except Failure α) (s : State) :
    (ofResult r : Workflow α).on s = (r, s) := by
  cases r <;> rfl

/-- A result that is an answer changes nothing. -/
theorem on_ofResult_eq_ok {r : Except Failure α} {s t : State} {a : α}
    (h : (ofResult r : Workflow α).on s = (.ok a, t)) : r = .ok a ∧ s = t := by
  rw [on_ofResult] at h
  exact Prod.mk.inj h

@[simp] theorem on_onFile (path : Path) (r : Except FileProblem α) (s : State) :
    (onFile path r).on s = (r.mapError fun problem ↦ .file problem path.toString, s) := by
  rw [onFile, on_ofResult]

/-- Reading a file changes nothing. -/
@[simp] theorem on_read (path : Path) (s : State) :
    (read path).on s =
      ((s.files.read path).mapError fun problem ↦ .file problem path.toString, s) := by
  rw [read, on_bind_ok (on_files s), on_onFile]

/-- Writing a file changes the file tree or nothing. -/
theorem on_write (path : Path) (bytes : List UInt8) (s : State) :
    (write path bytes).on s = match s.files.write path bytes with
      | .ok t => (.ok (), { s with files := t })
      | .error problem => (.error (.file problem path.toString), s) := by
  rw [write, on_bind_ok (on_files s), on_bind, on_onFile]
  cases s.files.write path bytes <;> rfl

/-- A write that succeeds has changed the file tree. -/
theorem on_write_eq_ok {path : Path} {bytes : List UInt8} {s s' : State} {a : Unit}
    (h : (write path bytes).on s = (.ok a, s')) :
    ∃ t, s.files.write path bytes = .ok t ∧ s' = { s with files := t } := by
  rw [on_write] at h
  cases hwrite : s.files.write path bytes with
  | error problem =>
    rw [hwrite] at h
    cases h
  | ok t =>
    rw [hwrite] at h
    exact ⟨t, rfl, (Prod.mk.inj h).2.symm⟩

/-- Making directories changes the file tree or nothing. -/
theorem on_makeDirectories (path : Path) (s : State) :
    (makeDirectories path).on s = match s.files.makeDirectories path with
      | .ok t => (.ok (), { s with files := t })
      | .error problem => (.error (.file problem path.toString), s) := by
  rw [makeDirectories, on_bind_ok (on_files s), on_bind, on_onFile]
  cases s.files.makeDirectories path <;> rfl

/-- Directories that are made have changed the file tree. -/
theorem on_makeDirectories_eq_ok {path : Path} {s s' : State} {a : Unit}
    (h : (makeDirectories path).on s = (.ok a, s')) :
    ∃ t, s.files.makeDirectories path = .ok t ∧ s' = { s with files := t } := by
  rw [on_makeDirectories] at h
  cases hmake : s.files.makeDirectories path with
  | error problem =>
    rw [hmake] at h
    cases h
  | ok t =>
    rw [hmake] at h
    exact ⟨t, rfl, (Prod.mk.inj h).2.symm⟩

@[simp] theorem on_removeTree (path : Path) (s : State) :
    (removeTree path).on s = (.ok (), { s with files := s.files.remove path }) := rfl

/-! ## Kept properties -/

/-- A workflow keeps a property of the world, whether or not it fails, and its answers have a
property of their own. -/
def Keeps (P : State → Prop) (w : Workflow α) (Q : α → Prop) : Prop :=
  ∀ s, P s → P (w.on s).2 ∧ ∀ a, (w.on s).1 = .ok a → Q a

namespace Keeps

variable {P : State → Prop} {Q : α → Prop} {R : β → Prop}

theorem pure {a : α} (h : Q a) : Keeps P (Pure.pure a) Q :=
  fun _ hs ↦ ⟨hs, fun _ heq ↦ Except.ok.inj heq ▸ h⟩

theorem throw (failure : Failure) : Keeps P (MonadExcept.throw failure : Workflow α) Q :=
  fun _ hs ↦ ⟨hs, fun _ heq ↦ by cases heq⟩

theorem bind {w : Workflow α} {f : α → Workflow β} (hw : Keeps P w Q)
    (hf : ∀ a, Q a → Keeps P (f a) R) : Keeps P (w >>= f) R := by
  intro s hs
  obtain ⟨ht, hanswer⟩ := hw s hs
  rw [on_bind]
  rcases hr : w.on s with ⟨_ | a, t⟩
  · rw [hr] at ht
    exact ⟨ht, fun _ heq ↦ by cases heq⟩
  · rw [hr] at ht hanswer
    exact hf a (hanswer a rfl) t ht

/-- Nothing is asked of the world or of the answer. -/
theorem any (w : Workflow α) : Keeps (fun _ ↦ True) w fun _ ↦ True :=
  fun _ _ ↦ ⟨trivial, fun _ _ ↦ trivial⟩

/-- Answers are properties of a run, whatever the world is like. -/
theorem answer {w : Workflow α} (h : Keeps P w Q) {s t : State} {a : α} (hs : P s)
    (hrun : w.on s = (.ok a, t)) : Q a :=
  (h s hs).2 a (by rw [hrun])

theorem mono {w : Workflow α} {Q' : α → Prop} (hw : Keeps P w Q) (h : ∀ a, Q a → Q' a) :
    Keeps P w Q' :=
  fun s hs ↦ ⟨(hw s hs).1, fun a heq ↦ h a ((hw s hs).2 a heq)⟩

/-- A result without effects keeps everything. -/
theorem ofResult {r : Except Failure α} (h : ∀ a, r = .ok a → Q a) :
    Keeps P (Guidebook.ofResult r) Q := by
  intro s hs
  rw [on_ofResult]
  exact ⟨hs, h⟩

/-- The file tree is that of a world with the property. -/
theorem files : Keeps P files fun t ↦ ∃ s, P s ∧ s.files = t :=
  fun s hs ↦ ⟨hs, fun _ heq ↦ ⟨s, hs, Except.ok.inj heq⟩⟩

/-- What a run keeps holds behind it, however it ends. -/
theorem after {w : Workflow α} (h : Keeps P w Q) {s t : State} {answer : Except Failure α}
    (hs : P s) (hrun : w.on s = (answer, t)) : P t := by
  have hafter := (h s hs).1
  rwa [hrun] at hafter

/-- Reports keep what does not speak of reports. -/
theorem log (h : ∀ s logs, P s → P { s with logs := logs }) (level : LogLevel)
    (logger message : String) : Keeps P (Workflow.log level logger message) fun _ ↦ True :=
  fun s hs ↦ ⟨h s _ hs, fun _ _ ↦ trivial⟩

end Keeps

/-! ## What was reported -/

/-- Two worlds that differ at most in what was reported. -/
def Same (s t : State) : Prop := s.files = t.files ∧ s.repositories = t.repositories

theorem Same.refl (s : State) : Same s s := ⟨rfl, rfl⟩

/-- A workflow that goes the same way whatever was reported before. -/
def Quiet (w : Workflow α) : Prop :=
  ∀ s t, Same s t → (w.on s).1 = (w.on t).1 ∧ Same (w.on s).2 (w.on t).2

namespace Quiet

theorem pure (a : α) : Quiet (Pure.pure a) := fun _ _ h ↦ ⟨rfl, h⟩

theorem throw (failure : Failure) : Quiet (MonadExcept.throw failure : Workflow α) :=
  fun _ _ h ↦ ⟨rfl, h⟩

theorem bind {w : Workflow α} {f : α → Workflow β} (hw : Quiet w) (hf : ∀ a, Quiet (f a)) :
    Quiet (w >>= f) := by
  intro s t h
  obtain ⟨hanswer, hsame⟩ := hw s t h
  rw [on_bind, on_bind]
  rcases hs : w.on s with ⟨_ | a, s'⟩
  · rcases ht : w.on t with ⟨_ | b, t'⟩
    · rw [hs, ht] at hanswer hsame
      exact ⟨congrArg Except.error (Except.error.inj hanswer), hsame⟩
    · rw [hs, ht] at hanswer
      cases hanswer
  · rcases ht : w.on t with ⟨_ | b, t'⟩
    · rw [hs, ht] at hanswer
      cases hanswer
    · rw [hs, ht] at hanswer hsame
      obtain rfl := Except.ok.inj hanswer
      exact hf a s' t' hsame

theorem tryCatch {w : Workflow α} {handler : Failure → Workflow α} (hw : Quiet w)
    (hhandler : ∀ failure, Quiet (handler failure)) :
    Quiet (MonadExcept.tryCatch w handler) := by
  intro s t h
  obtain ⟨hanswer, hsame⟩ := hw s t h
  rw [on_tryCatch, on_tryCatch]
  rcases hs : w.on s with ⟨failure | a, s'⟩
  · rcases ht : w.on t with ⟨other | b, t'⟩
    · rw [hs, ht] at hanswer hsame
      obtain rfl := Except.error.inj hanswer
      exact hhandler failure s' t' hsame
    · rw [hs, ht] at hanswer
      cases hanswer
  · rcases ht : w.on t with ⟨_ | b, t'⟩
    · rw [hs, ht] at hanswer
      cases hanswer
    · rw [hs, ht] at hanswer hsame
      exact ⟨congrArg Except.ok (Except.ok.inj hanswer), hsame⟩

theorem ofResult (r : Except Failure α) : Quiet (Guidebook.ofResult r : Workflow α) := by
  intro s t h
  rw [on_ofResult, on_ofResult]
  exact ⟨rfl, h⟩

theorem log (level : LogLevel) (logger message : String) :
    Quiet (Workflow.log level logger message) :=
  fun _ _ h ↦ ⟨rfl, h⟩

/-- What depends on the file tree alone is quiet. -/
theorem files {f : FileTree → Workflow α} (hf : ∀ t, Quiet (f t)) :
    Quiet (Workflow.files >>= f) := by
  intro s t h
  rw [on_bind_ok (on_files s), on_bind_ok (on_files t), h.1]
  exact hf t.files s t h

theorem setFiles (t : FileTree) : Quiet (Workflow.setFiles t) :=
  fun _ _ h ↦ ⟨rfl, rfl, h.2⟩

theorem read (path : Path) : Quiet (Workflow.read path) := files fun _ ↦ ofResult _

theorem write (path : Path) (bytes : List UInt8) : Quiet (Workflow.write path bytes) :=
  files fun _ ↦ (ofResult _).bind setFiles

theorem makeDirectories (path : Path) : Quiet (Workflow.makeDirectories path) :=
  files fun _ ↦ (ofResult _).bind setFiles

theorem removeTree (path : Path) : Quiet (Workflow.removeTree path) := files fun _ ↦ setFiles _

theorem readText (path : Path) : Quiet (Workflow.readText path) := by
  refine (read path).bind fun bytes ↦ ?_
  cases Utf8.decode bytes with
  | ok text => exact pure _
  | error fault => exact throw _

theorem loadIndex (path : Path) : Quiet (Workflow.loadIndex path) := by
  refine files fun t ↦ ?_
  split
  · cases t.read path with
    | ok bytes => exact ofResult _
    | error problem => exact throw _
  · exact (log _ _ _).bind fun _ ↦ pure _

theorem saveIndex (path : Path) (index : PageIndex) : Quiet (Workflow.saveIndex path index) :=
  (makeDirectories _).bind fun _ ↦ write _ _

end Quiet

end Guidebook.Workflow
