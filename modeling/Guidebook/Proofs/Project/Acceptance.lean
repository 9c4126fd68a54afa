import Guidebook.Proofs.Project.Looking
import Guidebook.Proofs.Project.Preview

/-!
# Pages that previews and saves accept

A preview that returns has found a page that a save accepts, with the title and the code that were
shown and under the number that was shown, unless the index has the code already: for that a preview
does not look. And what a save refuses for its pages or its index, a preview refuses as well.
-/

namespace Guidebook

open Git

/-- Failures that say what is wrong with the pages of a project: there is no unsaved page or there
are several, its code is reserved, its history or its workspace cannot be shown, or the index is
wrong. -/
def Failure.IsRefusal : Failure → Prop
  | .noUnsavedPage _ => True
  | .multipleUnsavedPages _ => True
  | .reservedCode _ _ => True
  | .multiplePages _ _ => True
  | .outline _ => True
  | .index _ => True
  | _ => False

namespace Workflow

variable {l : Layout} {settings : Settings} {s t u u' : State} {told : List Path}

/-! ## What was shown -/

/-- The page that a preview has left is that of a context, beside an index: its number is the number
of pages there are. -/
def PreviewShows (l : Layout) (settings : Settings) (t : State) (index : PageIndex)
    (context : PageContext) : Prop :=
  context.number = index.size ∧ ∃ tree theme html,
    Theme.render tree theme Theme.pageTemplate (guideContext settings index) (some context)
      (some context.code) = .ok html ∧
    t.files.find? (previewTarget l).parts = some (.file (Utf8.encode html))

/-- A preview that returns has listed the workspace. -/
theorem PreviewRun.listed (run : PreviewRun l settings s t told) :
    ∃ paths, (((workFiles l.root).listed l.workspaceDir).on (prepared l settings s)).1 =
      .ok paths := by
  obtain ⟨walk, a, hwalk, -⟩ := on_bind_eq_ok
    (Prod.ext run.outlined rfl : (workspaceOutline (workFiles l.root) l).on _ = (.ok _, _))
  obtain ⟨files, b, hfiles, -⟩ := on_bind_eq_ok hwalk
  rw [workspaceFiles, on_bind_ok (on_files _)] at hfiles
  obtain ⟨paths, c, hlisted, -⟩ := on_bind_eq_ok hfiles
  exact ⟨paths, congrArg Prod.fst hlisted⟩

/-! ## Accepted pages -/

/-- The entry that a save makes of a previewed page. -/
def PreviewRun.entry (run : PreviewRun l settings s t told) : IndexEntry :=
  ⟨Page.titleOf (Text.universalNewlines run.raw), run.code⟩

section Accepted

variable (run : PreviewRun l settings s t told) (hs : s.files.Sound) (hroot : l.root.Resolved)
  (hmeta : s.files.find? l.metadata.parts = some .directory)
  (hprepared : Spared l s (prepared l settings s)) (hu : Spared l s u)
  (hpages : PagesElsewhere s l settings)
  (hpages' : PagesElsewhere (prepared l settings s) l settings)

include hs hroot hprepared in
/-- The index that a preview shows is the one that was there. -/
theorem PreviewRun.answer_loadIndex : ((loadIndex l.index).on s).1 = .ok run.index := by
  rw [← hprepared.answer_loadIndex hs hroot, run.loads.on_loadIndex]

include hs hroot hmeta hprepared hu hpages hpages' in
/-- Wherever its page is still unsaved, a save drafts what a preview has shown, as far as the index
admits its code. -/
private theorem PreviewRun.answer_draft (hpages'' : PagesElsewhere u l settings) :
    ((draft (workFiles l.root) l settings).on u).1 =
      (run.index.append run.entry).mapError .index >>= fun longer ↦
        .ok ⟨run.entry, run.index.size, longer, (u.files.read l.index).toOption⟩ := by
  have hindex : ((loadIndex l.index).on u).1 = .ok run.index := by
    rw [hu.answer_loadIndex hs hroot, run.answer_loadIndex hs hroot hprepared]
  have hfinds : ((unsavedPage (workFiles l.root) l settings).on s).1 = .ok run.path := by
    rw [← hprepared.answer_unsavedPage hs hroot hpages hpages', run.finds]
  have hfinds' : ((unsavedPage (workFiles l.root) l settings).on u).1 = .ok run.path := by
    rw [hu.answer_unsavedPage hs hroot hpages hpages'', hfinds]
  -- both worlds have the bytes that the world before the preview has
  obtain ⟨bytes, hread, hshown⟩ := hprepared.read_unsaved hs hroot hmeta hpages hfinds
  obtain ⟨bytes', hread', hthere⟩ := hu.read_unsaved hs hroot hmeta hpages hfinds
  obtain rfl : bytes = bytes' := Except.ok.inj (hread.symm.trans hread')
  obtain rfl : run.bytes = bytes := Except.ok.inj (run.reads.symm.trans hshown)
  have hentry : entryFor run.path (Text.universalNewlines run.raw) settings = .ok run.entry := by
    rw [entryFor, run.coded]
    rfl
  rw [Workflow.answer_draft hindex hfinds' hthere, run.text]
  simp only [Except.map, Except.mapError, bind, Except.bind, hentry]
  rfl

include hmeta hprepared hu hpages hpages' in
/-- Wherever its page is still unsaved, a save gives the entry of a page that a preview has shown,
and adds it to the index, unless the index has its code or git does not record it. -/
private theorem PreviewRun.save (hsound : s.Sound) {root : Path} (hroot : root.Resolved)
    (hload : ((loadRoot root).on s).1 = .ok (l, settings)) (hpages'' : PagesElsewhere u l settings)
    {answer : Except Failure IndexEntry} (hrun : (Workflow.save l settings).on u = (answer, u')) :
    (run.code ∈ run.index.codes → answer = .error (.index (.duplicate run.code)) ∧ Same u' u) ∧
    (run.code ∉ run.index.codes →
      answer = .ok run.entry ∧
          (loadIndex l.index).on u' = (.ok ⟨run.index.entries ++ [run.entry]⟩, u') ∨
        ∃ failure, answer = .error failure ∧ failure.IsUnrecorded run.entry) := by
  have hat := hroot
  obtain ⟨rfl, -⟩ := metadata_of_loadRoot hsound.files hroot hload
  have hs := hsound.files
  have hdraft := run.answer_draft hs hroot hmeta hprepared hu hpages hpages' hpages''
  rw [PageIndex.append_eq] at hdraft
  constructor
  · intro hcode
    rw [if_pos (show run.entry.code ∈ _ from hcode)] at hdraft
    exact save_of_draft_error hdraft hrun
  · intro hcode
    rw [if_neg (show run.entry.code ∉ _ from hcode)] at hdraft
    have husound : u.Sound := hsound.congr hu.sound hu.repositories
    have huload : ((loadRoot l.root).on u).1 = .ok (l, settings) := by
      rw [hu.answer_loadRoot hs hroot, hload]
    obtain ⟨paths, hlisted⟩ := run.listed
    obtain ⟨others, hlists⟩ :=
      exists_listed (hu.repositories.trans hprepared.repositories.symm) hlisted
    refine (save_of_draft husound hroot (hu.find?_metadata_self hmeta) hdraft hrun).imp ?_
      fun ⟨failure, hanswer, hwhy⟩ ↦ ⟨failure, hanswer, hwhy.resolve_right fun hunlisted ↦
        hunlisted.2 others (congrArg Prod.fst hlists)⟩
    rintro rfl
    obtain ⟨index, hindex, hafter⟩ := loadIndex_of_save husound hroot huload hrun
    rw [hu.answer_loadIndex hs hroot, run.answer_loadIndex hs hroot hprepared] at hindex
    obtain rfl := Except.ok.inj hindex
    exact ⟨rfl, hafter⟩

end Accepted

/-! ## Refused pages -/

/-- What keeps a preview from coming to what is wrong with the pages: its directories cannot be
prepared, git does not list what it does not know, the page is not text, or the workspace cannot be
outlined. -/
def Hindered (l : Layout) (settings : Settings) (s : State) (failure : Failure) : Prop :=
  ((preparePreview l settings).on s).1 = .error failure ∨
    (((workFiles l.root).untracked l.pagesDir).on s).1 = .error failure ∨
    (∃ fault, failure = .notText fault) ∨
    ((workspaceOutline (workFiles l.root) l).on (prepared l settings s)).1 = .error failure

/-- Looking for the unsaved page fails because of what there is, or because git does not list it. -/
private theorem refusal_of_unsavedPage {failure : Failure}
    (h : ((unsavedPage (workFiles l.root) l settings).on s).1 = .error failure) :
    failure.IsRefusal ∨ (((workFiles l.root).untracked l.pagesDir).on s).1 = .error failure := by
  rw [unsavedPage] at h
  rcases huntracked : ((workFiles l.root).untracked l.pagesDir).on s with ⟨other | paths, v⟩
  · rw [on_bind_error huntracked] at h
    exact .inr (congrArg _ (Except.error.inj h))
  · rw [on_bind_ok huntracked] at h
    simp only at h
    split at h
    · exact .inl (Except.error.inj h ▸ trivial)
    · cases h
    · exact .inl (Except.error.inj h ▸ trivial)

section Refused

variable (hs : s.files.Sound) (hroot : l.root.Resolved)
  (hmeta : s.files.find? l.metadata.parts = some .directory)
  (hprepared : Spared l s (prepared l settings s)) (hpages : PagesElsewhere s l settings)
  (hpages' : PagesElsewhere (prepared l settings s) l settings)

include hs hroot hmeta hprepared hpages hpages'

/-- A preview refuses what is refused of every page that it may find, unless it does not come that
far. -/
private theorem preview_refuses
    (h : ∀ path, ((unsavedPage (workFiles l.root) l settings).on s).1 = .ok path →
      ∃ failure, (do
        let _ ← ((loadIndex l.index).on s).1
        Page.code path settings.extension : Except Failure String) = .error failure ∧
          failure.IsRefusal) :
    ∃ failure, ((preview l settings).on s).1 = .error failure ∧
      (failure.IsRefusal ∨ Hindered l settings s failure) := by
  cases hprepares : ((preparePreview l settings).on s).1 with
  | error failure =>
    refine ⟨failure, ?_, .inr (.inl hprepares)⟩
    rw [preview_eq, on_bind_ok (on_themeOf l s)]
    exact congrArg Prod.fst (on_bind_error (Prod.ext hprepares rfl) _)
  | ok shared =>
    suffices hlooks : ∃ failure,
        previewedCode l settings (prepared l settings s) = .error failure ∧
          (failure.IsRefusal ∨ Hindered l settings s failure) by
      obtain ⟨failure, hfails, hwhy⟩ := hlooks
      exact ⟨failure, preview_error hprepares hfails, hwhy⟩
    rw [previewedCode, hprepared.answer_unsavedPage hs hroot hpages hpages',
      hprepared.answer_loadIndex hs hroot]
    cases hfinds : ((unsavedPage (workFiles l.root) l settings).on s).1 with
    | error failure =>
      exact ⟨failure, rfl, (refusal_of_unsavedPage hfinds).imp_right fun h ↦ .inr (.inl h)⟩
    | ok path =>
      obtain ⟨last, hlast, hrefusal⟩ := h path hfinds
      obtain ⟨bytes, -, hread⟩ := hprepared.read_unsaved hs hroot hmeta hpages hfinds
      have htext : ((readText (l.root.join (Path.ofString path))).on (prepared l settings s)).1 =
          ((Utf8.decode bytes).map Text.universalNewlines).mapError .notText := by
        rw [on_readText, hread]
        rfl
      simp only [bind, Except.bind, htext]
      cases Utf8.decode bytes with
      | error fault => exact ⟨_, rfl, .inr (.inr (.inr (.inl ⟨fault, rfl⟩)))⟩
      | ok raw =>
        simp only [Except.map, Except.mapError]
        cases houtline : ((workspaceOutline (workFiles l.root) l).on (prepared l settings s)).1 with
        | error failure => exact ⟨failure, rfl, .inr (.inr (.inr (.inr houtline)))⟩
        | ok workspace => exact ⟨last, hlast, .inl hrefusal⟩

/-- What a save refuses, a preview refuses as well, unless it does not come that far or the index
has the code. -/
private theorem preview_of_save (hsound : s.Sound) {failure : Failure}
    (hsave : ((Workflow.save l settings).on s).1 = .error failure) (hrefusal : failure.IsRefusal) :
    (∃ code, failure = .index (.duplicate code)) ∨
      ∃ other, ((preview l settings).on s).1 = .error other ∧
        (other.IsRefusal ∨ Hindered l settings s other) := by
  have hdraft : ((draft (workFiles l.root) l settings).on s).1 = .error failure := by
    cases save_outcome hsound hroot hmeta (Prod.ext hsave rfl) with
    | refused h => exact congrArg Prod.fst h
    | unlisted _ _ _ hfailure =>
      rcases hfailure with rfl | ⟨path, why, rfl⟩ <;> exact hrefusal.elim
    | unasked => exact hrefusal.elim
    | undone _ _ hgit =>
      cases failure <;> first | exact hrefusal.elim | cases hgit
  have hrefuses := preview_refuses hs hroot hmeta hprepared hpages hpages'
  cases hindex : ((loadIndex l.index).on s).1 with
  | error other =>
    have hload : (loadIndex l.index).on s = (.error other, ((loadIndex l.index).on s).2) :=
      Prod.ext hindex rfl
    rw [draft, on_bind_error hload] at hdraft
    obtain rfl := Except.error.inj hdraft
    rw [hindex] at hrefuses
    exact .inr (hrefuses fun path _ ↦ ⟨other, rfl, hrefusal⟩)
  | ok index =>
    rw [hindex] at hrefuses
    cases hfinds : ((unsavedPage (workFiles l.root) l settings).on s).1 with
    | error other => exact .inr (hrefuses fun path hpath ↦ by rw [hfinds] at hpath; cases hpath)
    | ok path =>
      obtain ⟨bytes, hread, -⟩ := hprepared.read_unsaved hs hroot hmeta hpages hfinds
      rw [answer_draft hindex hfinds hread] at hdraft
      cases hcode : Page.code path settings.extension with
      | error other =>
        refine .inr (hrefuses fun found hfound ↦ ?_)
        obtain rfl := Except.ok.inj (hfinds.symm.trans hfound)
        refine ⟨other, hcode, ?_⟩
        rw [Page.code] at hcode
        split at hcode
        · exact Except.error.inj hcode ▸ trivial
        · cases hcode
      | ok code =>
        -- all that remains to refuse is the code, by the index
        simp only [entryFor, hcode, Except.map, bind, Except.bind] at hdraft
        cases hdecode : Utf8.decode bytes with
        | error fault =>
          rw [hdecode] at hdraft
          obtain rfl := Except.error.inj hdraft
          exact hrefusal.elim
        | ok raw =>
          simp only [hdecode, Except.mapError, PageIndex.append_eq] at hdraft
          by_cases hregistered : code ∈ index.codes
          · rw [if_pos hregistered] at hdraft
            exact .inl ⟨code, (Except.error.inj hdraft).symm⟩
          · rw [if_neg hregistered] at hdraft
            cases hdraft

end Refused

/-- A save is of the page that a preview has shown, wherever that page is still unsaved: it gives
the title and the code that were shown, and the entry comes behind the pages that were there, so
under the number that was shown, unless git does not record it. Only if the index has the code
already, for which a preview does not look, the save refuses the page and leaves everything as it
is. Whatever else a save refuses, a preview refuses as well, unless it does not come that far. -/
theorem save_of_preview (hs : s.Sound) (htidy : ∀ repository ∈ s.repositories, repository.2.Tidy)
    {root : Path} (hroot : root.Resolved) (hload : ((loadRoot root).on s).1 = .ok (l, settings))
    (hstyle : '/' ∉ settings.style.toList) (hpages : PagesElsewhere s l settings)
    (hpages' : PagesElsewhere (prepared l settings s) l settings) :
    (∀ told t, (preview l settings).on s = (.ok told, t) → Spared l s t ∧ ∃ index context,
      PreviewShows l settings t index context ∧ ((loadIndex l.index).on s).1 = .ok index ∧
      ∀ u answer u', Spared l s u → PagesElsewhere u l settings →
        (save l settings).on u = (answer, u') →
        (context.code ∈ index.codes →
          answer = .error (.index (.duplicate context.code)) ∧ Same u' u) ∧
        (context.code ∉ index.codes →
          answer = .ok ⟨context.title, context.code⟩ ∧ (loadIndex l.index).on u' =
              (.ok ⟨index.entries ++ [⟨context.title, context.code⟩]⟩, u') ∨
            ∃ failure, answer = .error failure ∧
              failure.IsUnrecorded ⟨context.title, context.code⟩)) ∧
    (∀ failure, ((save l settings).on s).1 = .error failure → failure.IsRefusal →
      (∃ code, failure = .index (.duplicate code)) ∨
        ∃ other, ((preview l settings).on s).1 = .error other ∧
          (other.IsRefusal ∨ Hindered l settings s other)) := by
  obtain ⟨rfl, hmeta⟩ := metadata_of_loadRoot hs.files hroot hload
  have hprepared : Spared l s (prepared l settings s) := spared_prepared hs.files hroot hstyle
  refine ⟨fun told t hrun ↦ ⟨spared_preview hs.files htidy hroot hstyle hrun, ?_⟩,
    fun failure ↦ preview_of_save hs.files hroot hmeta hprepared hpages hpages' hs⟩
  obtain ⟨run⟩ := previewRun hrun
  obtain ⟨content, -, hrendered, hshown⟩ :=
    run.shows hs.files hroot (namedAt_of_tidy htidy l.root)
  refine ⟨run.index, previewContext settings run.index.size run.code
    (Text.universalNewlines run.raw) content run.workspace,
    ⟨rfl, _, _, _, hrendered, hshown⟩, run.answer_loadIndex hs.files hroot hprepared, ?_⟩
  intro u answer u' hu hpages'' hsave
  exact run.save hmeta hprepared hu hpages hpages' hs hroot hload hpages'' hsave

/-- A guide whose unsaved page has the code of a page in the index. -/
def listedGuide : State where
  files := unsavedGuide.files.put ["/", "guide", ".codasai", "index.toml"]
    (.file (Utf8.encode (PageIndex.write ⟨[⟨"A", "a"⟩]⟩)))
  repositories := unsavedGuide.repositories
  logs := []

/-- The page is previewed, and a save refuses it and leaves everything as it is. -/
theorem save_of_preview_listed :
    ∃ (told : List Path) (t : State) (failure : Failure) (u' : State),
      (preview guideLayout (Settings.ofTitle "T")).on listedGuide = (.ok told, t) ∧
      (save guideLayout (Settings.ofTitle "T")).on listedGuide = (.error failure, u') ∧
      failure.IsRefusal ∧ Same u' listedGuide := by
  have hroot : guideLayout.root.Resolved := by decide
  have helsewhere : ∀ s, PagesElsewhere s guideLayout (Settings.ofTitle "T") :=
    pagesElsewhere_of_first hroot (by decide : _ = ["pages"]) (by decide) (by decide)
  have htidy : ∀ repository ∈ listedGuide.repositories, repository.2.Tidy := by
    intro repository hrepository
    obtain rfl := List.mem_singleton.mp hrepository
    exact Store.tidy_empty 0
  obtain ⟨told, hpreview⟩ : ∃ told, (preview guideLayout (Settings.ofTitle "T")).on listedGuide =
      (.ok told, ((preview guideLayout (Settings.ofTitle "T")).on listedGuide).2) :=
    on_eq_ok (by decide +kernel)
  obtain ⟨-, index, context, -, hindex, hsaves⟩ :=
    (save_of_preview (by decide +kernel) htidy hroot (eq_ok_of_toOption (by decide +kernel))
      (by decide) (helsewhere _) (helsewhere _)).1 told _ hpreview
  have hsaid : ((save guideLayout (Settings.ofTitle "T")).on listedGuide).1.mapError
      (fun failure ↦ (isGitFailure failure, failure.message)) =
        .error (false, duplicateMessage "a") := by decide +kernel
  rcases hsave : (save guideLayout (Settings.ofTitle "T")).on listedGuide with ⟨answer, u'⟩
  rw [hsave] at hsaid
  obtain ⟨hregistered, hfree⟩ :=
    hsaves _ answer u' (.refl (by decide)) (helsewhere _) hsave
  by_cases hcode : context.code ∈ index.codes
  · obtain ⟨rfl, hsame⟩ := hregistered hcode
    exact ⟨told, _, _, u', hpreview, rfl, trivial, hsame⟩
  · rcases hfree hcode with ⟨rfl, -⟩ | ⟨failure, rfl, hunrecorded⟩
    · cases hsaid
    · obtain ⟨hgit, hmessage⟩ := Prod.mk.inj (Except.error.inj hsaid)
      rcases git_of_isUnrecorded hunrecorded with hfails | rfl
      · exact absurd (hgit.symm.trans hfails) (by decide)
      · exact absurd hmessage (by decide)

end Workflow

end Guidebook
