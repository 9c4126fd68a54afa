import Guidebook.Proofs.Project.Alignment
import Guidebook.Proofs.Project.Content
import Guidebook.Proofs.Project.Saved

/-!
# Building what was saved

A save reads the text of its page, and nothing else of what it commits. A build refuses more: a page
that is taken for binary, and workspace files that are neither binary nor text. What was saved all
the same stays in the history, and no later build returns.
-/

namespace Guidebook.Workflow

open Git

variable {l : Layout} {settings : Settings} {s s' : State} {store : Store}

/-- A guide that can be built, or one without a history. -/
def Buildable (l : Layout) (settings : Settings) (s : State) : Prop :=
  (∃ written t, (build l settings).on s = (.ok written, t)) ∨
    ∀ top store, s.enclosing? l.root = some (top, store) → store.commits = []

/-- In the history of a guide that can be built everything is legible. -/
private theorem Buildable.legible (h : Buildable l settings s) {top : Path}
    (henclosing : s.enclosing? l.root = some (top, store)) (htidy : store.Tidy)
    (hstrays : ∀ commit ∈ store.commits, commit.strays = []) :
    ∀ change ∈ Sequence.additions l.pagesDir settings.extension [] store.commits,
      Legible l change := by
  rcases h with ⟨written, t, hbuild⟩ | hnone
  · have hlegible := (endsIn_build henclosing htidy).1 written (congrArg Prod.fst hbuild)
    rwa [Store.named_eq hstrays] at hlegible
  · simp [hnone top store henclosing, Sequence.additions]

/-- What the commit of a save changes. -/
def saved (l : Layout) (settings : Settings) (old : Store) (commit : Commit) :
    Commit × List Leaf :=
  (commit, Sequence.newLeaves l.pagesDir settings.extension old.head commit.snapshot)

/-- The changes of a history that goes on after a save. -/
theorem additions_saved {old new : Store} {commit : Commit}
    (h : new.commits = old.commits ++ [commit]) (l : Layout) (settings : Settings)
    (back : List Commit) :
    Sequence.additions l.pagesDir settings.extension [] (new.commits ++ back) =
      Sequence.additions l.pagesDir settings.extension [] old.commits ++
        saved l settings old commit ::
          Sequence.additions l.pagesDir settings.extension commit.snapshot back := by
  rw [h, List.append_assoc]
  exact Store.additions_commits old commit back

/-- The page of a save is text wherever it is not taken for binary. -/
private theorem Saves.isText_iff {entry : IndexEntry} {top : Path} {old new : Store}
    {commit : Commit} {path : String} {text : List Char}
    (h : Saves l settings s s' entry top old new commit path text) (htop : top = l.root)
    (hother : l.root.join (Path.ofString path) ≠ l.index) :
    ∃ leaf ∈ commit.snapshot, leaf.path = path ∧
      (IsText leaf.bytes ↔ Code.isBinary leaf.bytes = false) := by
  obtain ⟨leaf, hleaf, hpath, -, hread⟩ := h.page htop hother
  obtain ⟨bytes, raw, hbytes, hraw, -⟩ := h.reads
  obtain rfl := Except.ok.inj (hread.symm.trans hbytes)
  exact ⟨leaf, hleaf, hpath, fun htext ↦ htext.1, fun hbinary ↦ ⟨hbinary, raw, hraw⟩⟩

/-- What becomes of a guide that could be built when a save returns. Of the page that it commits
nothing can be wrong but that it is taken for binary. A build of the guide returns only if
everything in the history is legible, and complains of content only if something is not. If no
summary adds records to the log, that can only be what was saved: the build does not complain of
content if this is legible, and if it is not, no build ever returns while it is in the history. -/
theorem build_of_save (hs : s.Sound) (htidy : ∀ repository ∈ s.repositories, repository.2.Tidy)
    {root : Path} (hroot : root.Resolved) (hload : ((loadRoot root).on s).1 = .ok (l, settings))
    (hbefore : Buildable l settings s) {entry : IndexEntry}
    (hsave : (save l settings).on s = (.ok entry, s')) :
    ∃ top old new commit path text,
      Saves l settings s s' entry top old new commit path text ∧
      (top = l.root → l.root.join (Path.ofString path) ≠ l.index →
        ∃ leaf ∈ commit.snapshot, leaf.path = path ∧
          (IsText leaf.bytes ↔ Code.isBinary leaf.bytes = false)) ∧
      EndsIn ((build l settings).on s').1
        (fun _ ↦ ∀ change ∈ Sequence.additions l.pagesDir settings.extension [] new.named,
          Legible l change)
        (fun failure ↦ failure.IsContent →
          ∃ change ∈ Sequence.additions l.pagesDir settings.extension [] new.named,
            ¬ Legible l change) ∧
      ((∀ other ∈ new.commits, other.strays = []) →
        (∀ failure, ((build l settings).on s').1 = .error failure → failure.IsContent →
          ¬ Legible l (saved l settings old commit)) ∧
        ∀ u dir store, u.enclosing? l.root = some (dir, store) → store.Tidy →
          new.commits <+: store.commits → (∀ other ∈ store.commits, other.strays = []) →
          ∀ written, ((build l settings).on u).1 = .ok written →
            Legible l (saved l settings old commit)) := by
  obtain ⟨top, old, new, commit, path, text, h⟩ := save_eq_ok hs htidy hroot hload hsave
  refine ⟨top, old, new, commit, path, text, h, h.isText_iff, endsIn_build h.after h.tidy,
    fun hstrays ↦ ⟨fun failure hfailure hcontent hlegible ↦ ?_, ?_⟩⟩
  · -- what is not legible is among the changes of before or is the one that was saved
    have hold : old.Tidy := htidy _ (mem_of_lookup (State.enclosing?_eq_some h.before).2)
    have hall := hbefore.legible h.before hold fun other hother ↦
      hstrays other (h.commits ▸ List.mem_append_left _ hother)
    obtain ⟨change, hchange, hbroken⟩ :=
      (endsIn_build h.after h.tidy).2 failure hfailure hcontent
    have hadditions := additions_saved h.commits l settings []
    rw [List.append_nil] at hadditions
    rw [Store.named_eq hstrays, hadditions, List.mem_append] at hchange
    rcases hchange with hchange | hchange
    · exact hbroken (hall change hchange)
    · obtain rfl := List.mem_singleton.mp hchange
      exact hbroken hlegible
  · rintro u dir store henclosing hstore ⟨back, hback⟩ hquiet written hwritten
    have hlegible := (endsIn_build henclosing hstore).1 written hwritten
    rw [Store.named_eq hquiet, ← hback, additions_saved h.commits] at hlegible
    exact hlegible _ (List.mem_append_right _ List.mem_cons_self)

/-- A guide with an unsaved page, beside it a file that is neither binary nor text. -/
def garbledGuide : State where
  files := (unsavedGuide.files.put ["/", "guide", "workspace"] .directory).put
    ["/", "guide", "workspace", "x"] (.file [255])
  repositories := freshGuide.repositories
  logs := []

/-- Whether an answer is a complaint about content. -/
private def complains {α : Type} : Except Failure α → Bool
  | .error (.content _ _ _) => true
  | _ => false

private theorem exists_of_complains {α : Type} {answer : Except Failure α}
    (h : complains answer = true) : ∃ failure, answer = .error failure ∧ failure.IsContent := by
  rcases answer with failure | _
  · cases failure with
    | content => exact ⟨_, rfl, trivial⟩
    | _ => cases h
  · cases h

/-- A file that is neither binary nor text is saved beside a page, and then refused. -/
theorem build_of_save_garbled :
    ∃ (entry : IndexEntry) (s' : State) (failure : Failure) (old : Store) (commit : Commit),
      (save guideLayout (Settings.ofTitle "T")).on garbledGuide = (.ok entry, s') ∧
      ((build guideLayout (Settings.ofTitle "T")).on s').1 = .error failure ∧ failure.IsContent ∧
      ¬ Legible guideLayout (saved guideLayout (Settings.ofTitle "T") old commit) := by
  have hload : ((loadRoot guideLayout.root).on garbledGuide).1 =
      .ok (guideLayout, Settings.ofTitle "T") := eq_ok_of_toOption (by decide +kernel)
  obtain ⟨entry, hsave⟩ : ∃ entry, (save guideLayout (Settings.ofTitle "T")).on garbledGuide =
      (.ok entry, withSave garbledGuide) := on_eq_ok (by decide +kernel)
  have htidy : ∀ repository ∈ garbledGuide.repositories, repository.2.Tidy := by
    intro repository hrepository
    obtain rfl := List.mem_singleton.mp hrepository
    exact ((Store.gives_empty 0 "" "").withIdentity true).tidy
  have hnone : ∀ top store, garbledGuide.enclosing? guideLayout.root = some (top, store) →
      store.commits = [] := by
    intro top store henclosing
    have hcommits : (garbledGuide.enclosing? guideLayout.root).map (·.2.commits.length) =
        some 0 := by decide +kernel
    rw [henclosing] at hcommits
    exact List.length_eq_zero_iff.mp (Option.some.inj hcommits)
  obtain ⟨top, old, new, commit, path, text, hsaves, -, -, hrefused⟩ :=
    build_of_save (by decide +kernel) htidy (by decide) hload (.inr hnone) hsave
  have hstrays : ((withSave garbledGuide).enclosing? guideLayout.root).all fun found ↦
      found.2.commits.all (·.strays.isEmpty) := by decide +kernel
  rw [hsaves.after] at hstrays
  obtain ⟨failure, hfailure, hcontent⟩ : ∃ failure,
      ((build guideLayout (Settings.ofTitle "T")).on (withSave garbledGuide)).1 = .error failure ∧
        failure.IsContent := exists_of_complains (by decide +kernel)
  refine ⟨entry, _, failure, old, commit, hsave, hfailure, hcontent, ?_⟩
  refine (hrefused fun other hother ↦ ?_).1 _ hfailure hcontent
  simpa using List.all_eq_true.mp hstrays other hother

end Guidebook.Workflow
