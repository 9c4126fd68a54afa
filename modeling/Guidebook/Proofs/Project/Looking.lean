import Guidebook.Proofs.Git.Store
import Guidebook.Proofs.Project.Beside
import Guidebook.Proofs.Project.Registry

/-!
# What saves and previews look at

A save looks at the index and then at the unsaved page. A preview looks at the page, at the
workspace and only then at the index, in the world that it has prepared. Looking changes nothing, so
what is answered follows from what each of them answers alone, in the order in which it is asked.
-/

namespace Guidebook

open Git

/-- Failures of git to stage and to commit a page: git refuses, or the message cannot be handed over
to it. -/
def Failure.IsUnrecorded (entry : IndexEntry) : Failure → Prop
  | .git (.add _) _ => True
  | .git (.commit _ _ _) _ => True
  | .nullByte => '\x00' ∈ (Workflow.saveMessage entry).toList
  | _ => False

namespace Workflow

variable {α β : Type} {l : Layout} {settings : Settings} {s s' : State}

/-! ## Looking -/

/-- The text of a file is its bytes decoded, with its line ends made line feeds. -/
theorem on_readText (path : Path) (s : State) :
    (readText path).on s =
      ((s.files.read path).mapError (fun problem ↦ .file problem path.toString) >>= fun bytes ↦
        ((Utf8.decode bytes).map Text.universalNewlines).mapError .notText, s) := by
  rw [readText, on_bind, on_read]
  cases s.files.read path with
  | error problem => rfl
  | ok bytes =>
    simp only [Except.mapError, bind, Except.bind]
    cases Utf8.decode bytes <;> rfl

/-- A step that changes nothing but the reports ends a run as it would in any world of the same
files and repositories, or the run goes on with what the step answers there. -/
private theorem error_of_look {γ : Type} {w : Workflow α} {f : α → Workflow β} (hquiet : Quiet w)
    (hkeeps : ∀ s, Same (w.on s).2 s) {s t : State} (hs : Same s t) {r : α → Except Failure γ}
    {failure : Failure} (h : ((w.on t).1 >>= r) = .error failure)
    (hrest : ∀ a u, Same u t → r a = .error failure → ((f a).on u).1 = .error failure) :
    ((w >>= f).on s).1 = .error failure := by
  have hanswer := (hquiet s t hs).1
  have hafter := hkeeps s
  rcases hw : w.on s with ⟨other | a, u⟩
  · rw [← hanswer, hw] at h
    rw [on_bind_error hw]
    exact congrArg _ (Except.error.inj h)
  · rw [← hanswer, hw] at h
    rw [hw] at hafter
    rw [on_bind_ok hw]
    exact hrest a u ⟨hafter.1.trans hs.1, hafter.2.trans hs.2⟩ h

/-- A step that leaves the world as it is answers by itself. -/
private theorem answer_step {w : Workflow α} {r : Except Failure α} (h : w.on s = (r, s))
    (f : α → Workflow β) : ((w >>= f).on s).1 = (r >>= fun a ↦ ((f a).on s).1) := by
  rw [on_bind, h]
  cases r <;> rfl

/-- The code of the page that a preview finds, if all that it looks at is as it should be. -/
def previewedCode (l : Layout) (settings : Settings) (s : State) : Except Failure String := do
  let path ← ((unsavedPage (workFiles l.root) l settings).on s).1
  let _ ← ((readText (l.root.join (Path.ofString path))).on s).1
  let _ ← ((workspaceOutline (workFiles l.root) l).on s).1
  let _ ← ((loadIndex l.index).on s).1
  Page.code path settings.extension

/-- A preview that fails while it looks fails with what comes first in the world it has prepared. -/
theorem showPreview_error {theme : Theme} {failure : Failure}
    (h : previewedCode l settings s = .error failure) :
    ((showPreview l settings theme).on s).1 = .error failure := by
  refine error_of_look (quiet_unsavedPage .quiet l settings)
    (fun s ↦ (keeps_unsavedPage s .quiet l settings s (Same.refl s)).1) (Same.refl s) h
    fun path t ht h ↦ ?_
  rw [on_bind_ok (on_log _ _ _ t)]
  generalize hlogged : State.mk t.files t.repositories _ = logged
  have hs : Same logged s := hlogged ▸ ht
  refine error_of_look (Quiet.readText _) (fun s ↦ (keeps_text s _ s (Same.refl s)).1) hs h
    fun text t ht h ↦ ?_
  refine error_of_look (quiet_outline l) (fun s ↦ (keeps_outline s l s (Same.refl s)).1) ht h
    fun workspace t ht h ↦ ?_
  refine error_of_look (Quiet.loadIndex _) (fun s ↦ (keeps_loadIndex s _ s (Same.refl s)).1) ht h
    fun index t ht h ↦ ?_
  exact congrArg Prod.fst (on_bind_error ((on_ofResult _ t).trans (by rw [h])) _)

/-- A preview that prepares its directories fails as it does while it shows the page. -/
theorem preview_error {shared : List Path} {failure : Failure}
    (hprepares : ((preparePreview l settings).on s).1 = .ok shared)
    (h : previewedCode l settings (prepared l settings s) = .error failure) :
    ((preview l settings).on s).1 = .error failure := by
  have hprepare : (preparePreview l settings).on s = (.ok shared, prepared l settings s) :=
    Prod.ext hprepares rfl
  rw [preview_eq, on_bind_ok (on_themeOf l s), on_bind_ok hprepare]
  generalize (if s.files.isDirectory l.ownTheme = true then _ else _ : Theme) = theme
  have hshow : ((showPreview l settings theme).on (prepared l settings s)).1 = .error failure :=
    showPreview_error h
  rcases hrun : (showPreview l settings theme).on (prepared l settings s) with ⟨other | shown, t⟩
  · rw [hrun] at hshow
    rw [on_bind_error hrun]
    exact congrArg _ (Except.error.inj hshow)
  · rw [hrun] at hshow
    cases hshow

/-- Drafting a save answers by what the index and the unsaved page hold. -/
theorem answer_draft {index : PageIndex} {path : String} {bytes : List UInt8}
    (hindex : ((loadIndex l.index).on s).1 = .ok index)
    (hfinds : ((unsavedPage (workFiles l.root) l settings).on s).1 = .ok path)
    (hread : s.files.read (l.root.join (Path.ofString path)) = .ok bytes) :
    ((draft (workFiles l.root) l settings).on s).1 = do
      let text ← ((Utf8.decode bytes).map Text.universalNewlines).mapError .notText
      let entry ← entryFor path text settings
      let longer ← (index.append entry).mapError .index
      return ⟨entry, index.size, longer, (s.files.read l.index).toOption⟩ := by
  rcases hload : (loadIndex l.index).on s with ⟨answer, t⟩
  obtain rfl : answer = .ok index := by rw [← hindex, hload]
  have ht : Same t s := (keeps_loadIndex s l.index).after (Same.refl s) hload
  have hloads : Loads s.files l.index index :=
    (keeps_loadIndex s l.index).answer (Same.refl s) hload
  have hfind : (unsavedPage (workFiles l.root) l settings).on t = (.ok path, t) := by
    refine Prod.ext ?_ (by rw [on_unsavedPage])
    exact (quiet_unsavedPage .quiet l settings t s ht).1.trans hfinds
  have htext : (readText (l.root.join (Path.ofString path))).on t =
      (((Utf8.decode bytes).map Text.universalNewlines).mapError .notText, t) := by
    rw [on_readText, ht.1, hread]
    rfl
  rw [draft, on_bind_ok hload, on_bind_ok hfind, answer_step htext]
  refine congrArg (Bind.bind _) (funext fun text ↦ ?_)
  rw [answer_step (on_ofResult _ t)]
  refine congrArg (Bind.bind _) (funext fun entry ↦ ?_)
  rw [answer_step (on_ofResult _ t)]
  refine congrArg (Bind.bind _) (funext fun longer ↦ ?_)
  rw [on_bind_ok (on_files t), ht.1]
  rcases hloads with ⟨habsent, -⟩ | ⟨old, hold, -⟩
  · cases hold : s.files.read l.index with
    | error problem =>
      rw [habsent]
      rfl
    | ok old =>
      rw [FileTree.present_of_read hold] at habsent
      cases habsent
  · rw [FileTree.present_of_read hold, if_pos rfl, map_eq_pure_bind, bind_assoc,
      answer_step (on_read _ t), ht.1, hold]
    rfl

/-! ## Recording -/

theorem git_of_isUnrecorded {entry : IndexEntry} {failure : Failure}
    (h : failure.IsUnrecorded entry) : isGitFailure failure = true ∨ failure = .nullByte := by
  cases failure <;> first | exact .inl rfl | exact .inr rfl | exact h.elim

/-- A commit that cannot be handed over has a NUL in its message. -/
private theorem nul_of_handOver {entry : IndexEntry}
    (h : handOver (.commit (saveMessage entry) committerName committerEmail) ≠ .ok ()) :
    '\x00' ∈ (saveMessage entry).toList := by
  have hfront : ∀ word ∈ ["-c", "committer.name=" ++ committerName, "-c",
      "committer.email=" ++ committerEmail, "commit", "--quiet", "-m"], '\x00' ∉ word.toList := by
    decide
  by_contra hmessage
  refine h (handOver_eq_ok_iff.mpr fun word hword ↦ ?_)
  rcases List.mem_append.mp (show word ∈ [_, _, _, _, _, _, _] ++ [saveMessage entry] from hword)
    with hword | hword
  · exact hfront word hword
  · rwa [List.mem_singleton.mp hword]

/-- Staging and committing fail because git refuses, or because the message has a NUL in it. -/
private theorem isUnrecorded_of_record {staged : List String} {entry : IndexEntry}
    {failure : Failure} (hwords : handOver (.add staged) = .ok ())
    (h : (record (changes l.root) staged entry).on s = (.error failure, s')) :
    failure.IsUnrecorded entry := by
  rw [record] at h
  rcases changing_cases none l.root (.add staged) (fun w ↦ w.add staged) s with
    ⟨-, w, store, -, -, hadd⟩ | ⟨hno, -⟩ | ⟨-, why, hadd⟩ | ⟨-, w, store, complaint, -, -, hadd⟩
  · have hadd : ((changes l.root).add staged).on s = (.ok (), s.setAt l.root store) := hadd
    rw [on_bind_ok hadd] at h
    rcases changing_cases none l.root (.commit (saveMessage entry) committerName committerEmail)
        (fun w ↦ (w.commit (saveMessage entry) committerName committerEmail).map fun store ↦
          (store, none)) (s.setAt l.root store) with
      ⟨-, w, store, -, -, hcommit⟩ | ⟨hno, hcommit⟩ | ⟨-, why, hcommit⟩ |
      ⟨-, w, store, complaint, -, -, hcommit⟩
    · cases (Prod.mk.inj (h.symm.trans hcommit)).1
    · cases (Prod.mk.inj (h.symm.trans hcommit)).1
      exact nul_of_handOver hno
    · cases (Prod.mk.inj (h.symm.trans hcommit)).1
      trivial
    · cases (Prod.mk.inj (h.symm.trans hcommit)).1
      trivial
  · exact absurd hwords hno
  · cases (Prod.mk.inj (h.symm.trans (on_bind_error hadd _))).1
    trivial
  · cases (Prod.mk.inj (h.symm.trans (on_bind_error hadd _))).1
    trivial

/-- What can be looked for and listed can be staged. -/
private theorem handOver_add {staged : List String} {t : State}
    (hpages : handOver (.untracked l.pagesDir) = .ok ())
    (h : (stagedPaths (workFiles l.root) l).on s = (.ok staged, t)) :
    handOver (.add staged) = .ok () := by
  obtain ⟨listed, u, hlisted, hstaged⟩ := on_bind_eq_ok h
  change (asking _ _ _).on s = _ at hlisted
  rw [on_asking] at hlisted
  obtain ⟨⟨⟩, hworkspace, -⟩ := bind_eq_ok (Prod.mk.inj hlisted).1
  obtain rfl := Except.ok.inj (Prod.mk.inj hstaged).1
  rw [handOver_eq_ok_iff] at hpages hworkspace ⊢
  intro word hword
  rcases List.mem_append.mp hword with hword | hword
  · exact (by decide : ∀ word ∈ ["add", "--all", "--"], '\x00' ∉ word.toList) word hword
  rcases List.mem_append.mp hword with hword | hword
  · rcases List.mem_append.mp hword with hword | hword
    · rw [List.mem_singleton.mp hword]
      exact hpages _ (by simp [Command.arguments])
    · split at hword
      · cases hword
      · rw [List.mem_singleton.mp hword]
        exact hworkspace _ (by simp [Command.arguments])
  · rw [List.mem_singleton.mp hword]
    decide

/-- What is listed in one world can be listed in any with the same repositories. -/
theorem exists_listed {t : State} (h : t.repositories = s.repositories) {dir : String}
    {paths : List String} (hlists : (((workFiles l.root).listed dir).on s).1 = .ok paths) :
    ∃ others, ((workFiles l.root).listed dir).on t = (.ok others, t) := by
  change ((asking _ _ _).on s).1 = _ at hlists
  change ∃ others, (asking _ _ _).on t = _
  rw [on_asking] at hlists
  obtain ⟨⟨⟩, hwords, hlists⟩ := bind_eq_ok hlists
  cases hw : s.workTree? l.root with
  | none =>
    rw [hw] at hlists
    cases hlists
  | some w =>
    rw [hw] at hlists
    obtain ⟨place, hplace, -⟩ := map_eq_ok (mapError_eq_ok hlists)
    obtain ⟨files, hv⟩ := State.workTree?_of_repositories h hw
    rw [on_asking, hwords, hv]
    simp only [bind, Except.bind, WorkTree.listed, hplace, Except.map, Except.mapError]
    exact ⟨_, rfl⟩

/-- A save that cannot draft what it would write fails like that and leaves everything as it is. -/
theorem save_of_draft_error {failure : Failure} {answer : Except Failure IndexEntry}
    (hdraft : ((draft (workFiles l.root) l settings).on s).1 = .error failure)
    (hrun : (save l settings).on s = (answer, s')) : answer = .error failure ∧ Same s' s := by
  have hsame : Same ((draft (workFiles l.root) l settings).on s).2 s :=
    (keeps_draft s .quiet l settings s (Same.refl s)).1
  rw [save, savePage, on_bind_error (Prod.ext hdraft rfl)] at hrun
  obtain ⟨rfl, rfl⟩ := Prod.mk.inj hrun
  exact ⟨rfl, hsame⟩

/-- A save that has drafted what it writes gives the entry of the draft, unless git does not record
it or cannot list the workspace. -/
theorem save_of_draft (hs : s.Sound) (hroot : l.root.Resolved)
    (hmeta : s.files.find? l.metadata.parts = some .directory) {d : Draft}
    (hdraft : ((draft (workFiles l.root) l settings).on s).1 = .ok d)
    {answer : Except Failure IndexEntry} (hrun : (save l settings).on s = (answer, s')) :
    answer = .ok d.entry ∨ ∃ failure, answer = .error failure ∧
      (failure.IsUnrecorded d.entry ∨
        (failure = .nullByte ∨ ∃ path why, failure = .git (.listed path) why) ∧
          ∀ paths, (((workFiles l.root).listed l.workspaceDir).on s).1 ≠ .ok paths) := by
  have hdrafted : ∀ {answer : Except Failure Draft} {t : State},
      (draft (Outage.quiet.workFiles (workFiles l.root)) l settings).on s = (answer, t) →
        answer = .ok d := fun h ↦ (congrArg Prod.fst h).symm.trans hdraft
  have hpages : handOver (.untracked l.pagesDir) = .ok () := by
    obtain ⟨path, hfinds, -⟩ := unsavedPage_of_draft (o := .quiet) (Prod.ext hdraft rfl)
    change ((unsavedPage (workFiles l.root) l settings).on s).1 = _ at hfinds
    rw [on_unsavedPage] at hfinds
    obtain ⟨⟨⟩, hwords, -⟩ := bind_eq_ok hfinds
    exact hwords
  have hrecord : ∀ {e : Draft} {t u : State} {staged : List String} {w : WorkTree}
      {places : List (List String)} {failure : Failure},
      Attempt .quiet l settings s e t staged w places →
      (record (Outage.quiet.changes (changes l.root)) staged e.entry).on (t.written l e) =
        (.error failure, u) → failure.IsUnrecorded d.entry := by
    intro e t u staged w places failure hattempt hrecord
    obtain rfl := Except.ok.inj (hdrafted hattempt.drafts)
    exact isUnrecorded_of_record (handOver_add hpages hattempt.stages) hrecord
  cases save_outcome hs hroot hmeta hrun with
  | refused h => cases hdrafted h
  | @unlisted e t _ failure h hstaged hu hfailure =>
    refine .inr ⟨failure, rfl, .inr ⟨hfailure, fun paths hlists ↦ ?_⟩⟩
    have hrepositories : (t.written l e).repositories = s.repositories := (draft_eq_ok h).1.2
    obtain ⟨others, hlisted⟩ := exists_listed hrepositories hlists
    have hlisted : ((Outage.quiet.workFiles (workFiles l.root)).listed l.workspaceDir).on _ =
        (.ok others, _) := hlisted
    rw [stagedPaths, on_bind_ok hlisted] at hstaged
    cases hstaged
  | unasked hattempt hfails => exact .inr ⟨_, rfl, .inl (hrecord hattempt hfails)⟩
  | undone hattempt hfails => exact .inr ⟨_, rfl, .inl (hrecord hattempt hfails)⟩
  | saved hattempt =>
    obtain rfl := Except.ok.inj (hdrafted hattempt.drafts)
    exact .inl rfl

end Workflow

end Guidebook
