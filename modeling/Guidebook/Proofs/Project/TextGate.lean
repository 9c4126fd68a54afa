import Guidebook.Proofs.Project.Looking
import Guidebook.Proofs.Project.Content

/-!
# What bytes a page may have

Three readers decide whether the bytes of a page are text. A save and a preview take whatever can be
decoded and complain of a file that is not text. The history is stricter: it does not take bytes
that look binary, and it complains of content.
-/

namespace Guidebook

open Git

/-- A failure that a preview may have whatever the bytes of its page are: of content it complains in
the workspace only, and of a file that is not text only in a theme of the project's own. -/
def Failure.IsElsewhere (own : Prop) : Failure → Prop
  | .content problem _ _ => problem = .workspaceFileNotText
  | .notText _ => own
  | _ => True

private theorem isElsewhere_of_not_aboutBytes {own : Prop} (failure : Failure)
    (h : ¬ failure.IsAboutBytes) : failure.IsElsewhere own := by
  cases failure <;> first | exact absurd trivial h | trivial

namespace Workflow

variable {l : Layout} {settings : Settings} {s : State}

/-! ## What a preview complains of -/

section Neutral

variable {P : Failure → Prop} (hP : ∀ failure, ¬ failure.IsAboutBytes → P failure)

include hP

private theorem ends_asking {α : Type} (dir : Path) (command : Command)
    (answer : WorkTree → Except String α) :
    Ends (asking dir command answer) (fun _ ↦ True) P := by
  intro s
  rcases asking_cases none dir command answer s with ⟨w, a, -, -, hon⟩ | hon | ⟨why, hon⟩
  · change (asking dir command answer).on s = _ at hon
    rw [hon]
    exact .ok trivial
  · change (asking dir command answer).on s = _ at hon
    rw [hon]
    exact .error (hP _ False.elim)
  · change (asking dir command answer).on s = _ at hon
    rw [hon]
    exact .error (hP _ False.elim)

/-- Outlining the workspace does not complain of bytes. -/
private theorem ends_outline (l : Layout) :
    Ends (workspaceOutline (workFiles l.root) l) (fun _ ↦ True) P := by
  have hfiles : Ends (workspaceFiles (workFiles l.root) l) (fun _ ↦ True) P := by
    refine Ends.files.bind fun tree _ ↦ (ends_asking hP _ _ _).bind fun paths _ ↦ .ofResult ?_
    refine ⟨fun _ _ ↦ trivial, fun failure hfailure ↦ ?_⟩
    obtain ⟨path, -, hpath⟩ := error_of_mapM hfailure
    rw [Path.namesBelow] at hpath
    split at hpath
    · cases hpath
    · obtain rfl := Except.error.inj hpath
      exact hP _ False.elim
  refine (hfiles.bind fun paths _ ↦ ?_ : Ends (workspaceWalk (workFiles l.root) l)
    (fun _ ↦ True) P).bind fun walk _ ↦ .ofResult ?_
  · split
    · exact .pure trivial
    · exact .throw (hP _ False.elim)
  · cases Outline.build walk with
    | ok outline => exact .ok trivial
    | error fault => exact .error (hP _ False.elim)

end Neutral

/-- Mirroring complains of bytes of the workspace only. -/
private theorem ends_previewFiles {own : Prop} (l : Layout) (out : Path) (paths : List String) :
    Ends (previewFiles l out paths) (fun _ ↦ True) (Failure.IsElsewhere own) := by
  have hfile : ∀ problem path, (Failure.file problem path).IsElsewhere own := fun _ _ ↦ trivial
  induction paths with
  | nil => exact .pure trivial
  | cons path rest ih =>
    refine (Ends.files.bind fun _ _ ↦ Ends.onFile hfile _ _ :
      Ends (read _) (fun _ ↦ True) _).bind fun bytes _ ↦ ?_
    refine ((Ends.makeDirectories hfile _).bind fun _ _ ↦ (Ends.write hfile _ _).bind fun _ _ ↦ ?_ :
      Ends (writeMirrored bytes _ none _) (fun _ ↦ True) _).bind fun _ _ ↦
        ih.bind fun _ _ ↦ .pure trivial
    refine (Ends.ofResult ?_ : Ends _ (fun _ ↦ True) _).bind fun _ _ ↦
      (Ends.write hfile _ _).bind fun _ _ ↦ .pure trivial
    rw [companionOf]
    split
    · exact .ok trivial
    · split
      · exact .ok trivial
      · exact .error rfl

/-- Once the page of a preview is read, bytes are complained of elsewhere only. -/
private theorem showPreview_isElsewhere {theme : Theme} {own : Prop}
    (htheme : ∀ dir, theme = .own dir → own) {path : String} {bytes : List UInt8} {raw : List Char}
    (hfinds : ((unsavedPage (workFiles l.root) l settings).on s).1 = .ok path)
    (hread : s.files.read (l.root.join (Path.ofString path)) = .ok bytes)
    (hraw : Utf8.decode bytes = .ok raw) {failure : Failure}
    (hfails : ((showPreview l settings theme).on s).1 = .error failure) :
    failure.IsElsewhere own := by
  have hP : ∀ failure : Failure, ¬ failure.IsAboutBytes → failure.IsElsewhere own :=
    isElsewhere_of_not_aboutBytes
  have hfile : ∀ problem path, (Failure.file problem path).IsElsewhere own := fun _ _ ↦ trivial
  have hfind : (unsavedPage (workFiles l.root) l settings).on s = (.ok path, s) :=
    Prod.ext hfinds (by rw [on_unsavedPage])
  rw [showPreview, on_bind_ok hfind, on_bind_ok (on_log _ _ _ s)] at hfails
  generalize hlogged : State.mk s.files s.repositories _ = logged at hfails
  have htext : (readText (l.root.join (Path.ofString path))).on logged =
      (.ok (Text.universalNewlines raw), logged) := by
    rw [on_readText, ← hlogged, hread]
    simp only [Except.mapError, bind, Except.bind, hraw, Except.map]
  rw [on_bind_ok htext] at hfails
  refine ((?_ : Ends _ (fun _ ↦ True) (Failure.IsElsewhere own)) logged).2 failure hfails
  refine (ends_outline hP l).bind fun workspace _ ↦ (ends_loadIndex hP _).bind fun index _ ↦ ?_
  have hcode : EndsIn (Page.code path settings.extension) (fun _ ↦ True)
      (Failure.IsElsewhere own) := by
    rw [Page.code]
    split
    · exact .error trivial
    · exact .ok trivial
  refine (Ends.ofResult hcode).bind fun code _ ↦ Ends.files.bind fun tree _ ↦ ?_
  have hpage : EndsIn (previewPage tree theme settings index code (Text.universalNewlines raw)
      workspace) (fun _ ↦ True) (Failure.IsElsewhere own) := by
    rw [previewPage]
    split
    · exact .error trivial
    · exact endsIn_render hP tree (fun dir hdir _ ↦ htheme dir hdir) ..
  exact (Ends.ofResult hpage).bind fun html _ ↦ (Ends.makeDirectories hfile _).bind fun _ _ ↦
    (Ends.write hfile _ _).bind fun _ _ ↦ (ends_previewFiles l _ _).bind fun _ _ ↦ .pure trivial

/-- A preview that has prepared its directories and read its page complains of bytes elsewhere
only. -/
private theorem preview_isElsewhere {shared : List Path}
    (hprepares : ((preparePreview l settings).on s).1 = .ok shared) {path : String}
    {bytes : List UInt8} {raw : List Char}
    (hfinds : ((unsavedPage (workFiles l.root) l settings).on (prepared l settings s)).1 = .ok path)
    (hread : (prepared l settings s).files.read (l.root.join (Path.ofString path)) = .ok bytes)
    (hraw : Utf8.decode bytes = .ok raw) {failure : Failure}
    (hfails : ((preview l settings).on s).1 = .error failure) :
    failure.IsElsewhere (s.files.isDirectory l.ownTheme = true) := by
  have hprepare : (preparePreview l settings).on s = (.ok shared, prepared l settings s) :=
    Prod.ext hprepares rfl
  rw [preview_eq, on_bind_ok (on_themeOf l s), on_bind_ok hprepare] at hfails
  rcases hshow : (showPreview l settings
      (if s.files.isDirectory l.ownTheme then .own l.ownTheme else .packaged)).on
      (prepared l settings s) with ⟨other | shown, t⟩
  · rw [on_bind_error hshow] at hfails
    obtain rfl := Except.error.inj hfails
    refine showPreview_isElsewhere (fun dir hdir ↦ ?_) hfinds hread hraw (congrArg Prod.fst hshow)
    by_contra hpackaged
    rw [if_neg hpackaged] at hdir
    cases hdir
  · rw [on_bind_ok hshow] at hfails
    cases hfails

/-! ## Three gates -/

/-- Whether the bytes of an unsaved page with a new code are taken. A save and a preview take them
if they can be decoded, and otherwise complain of a file that is not text: the save leaves
everything as it is, the preview all but its own directories. A history that goes on with a commit
that adds them as its only page takes them if they can be decoded and do not look binary, and
otherwise complains of content, by the commit and the path. So the three agree on all bytes but
those that can be decoded and look binary. -/
theorem page_gates (hs : s.Sound) (htidy : ∀ repository ∈ s.repositories, repository.2.Tidy)
    {root : Path} (hroot : root.Resolved) (hload : ((loadRoot root).on s).1 = .ok (l, settings))
    (hstyle : '/' ∉ settings.style.toList) (hpages : PagesElsewhere s l settings)
    (hpages' : PagesElsewhere (prepared l settings s) l settings) {shared : List Path}
    (hprepares : ((preparePreview l settings).on s).1 = .ok shared) {index : PageIndex}
    (hindex : ((loadIndex l.index).on s).1 = .ok index) {path code : String} {bytes : List UInt8}
    (hfinds : ((unsavedPage (workFiles l.root) l settings).on s).1 = .ok path)
    (hread : s.files.read (l.root.join (Path.ofString path)) = .ok bytes)
    (hcode : Page.code path settings.extension = .ok code) (hnew : code ∉ index.codes) :
    (∀ answer s', (save l settings).on s = (answer, s') →
      (∀ fault, Utf8.decode bytes = .error fault → answer = .error (.notText fault) ∧ Same s' s) ∧
      ∀ raw, Utf8.decode bytes = .ok raw →
        answer = .ok ⟨Page.titleOf (Text.universalNewlines raw), code⟩ ∨
          ∃ failure, answer = .error failure ∧
            (isGitFailure failure = true ∨ failure = .nullByte)) ∧
    (∀ answer t, (preview l settings).on s = (answer, t) → Spared l s t ∧
      (∀ fault, Utf8.decode bytes = .error fault → answer = .error (.notText fault)) ∧
      ∀ raw, Utf8.decode bytes = .ok raw → ∀ failure, answer = .error failure →
        failure.IsElsewhere (s.files.isDirectory l.ownTheme = true)) ∧
    (∀ (old new : Store) (commit : Commit) (leaf : Leaf) (top : String) before, new.Tidy →
      new.commits = old.commits ++ [commit] → (∀ other ∈ new.commits, other.strays = []) →
      Sequence.specified settings.extension
        (Sequence.additions l.pagesDir settings.extension [] old.commits) = .ok before →
      Sequence.newLeaves l.pagesDir settings.extension old.head commit.snapshot = [leaf] →
      Page.code leaf.path settings.extension = .ok code → leaf.bytes = bytes →
        (IsText bytes → ∃ page, page.page.path = leaf.path ∧
          Sequence.pages (new.repository top) l.pagesDir settings.extension =
            .ok (before ++ [page])) ∧
        (¬ IsText bytes → ∃ problem, (problem = .binaryPage ∨ problem = .pageNotText) ∧
          Sequence.pages (new.repository top) l.pagesDir settings.extension =
            .error (.content problem (some commit.oid) leaf.path))) ∧
    (((∃ raw, Utf8.decode bytes = .ok raw) ↔ IsText bytes) ↔
      ¬ ((bytes.take 8000).contains 0 = true ∧ ∃ raw, Utf8.decode bytes = .ok raw)) := by
  obtain ⟨rfl, hmeta⟩ := metadata_of_loadRoot hs.files hroot hload
  have hprepared : Spared l s (prepared l settings s) := spared_prepared hs.files hroot hstyle
  have hdraft := answer_draft hindex hfinds hread
  have hfinds' : ((unsavedPage (workFiles l.root) l settings).on (prepared l settings s)).1 =
      .ok path := by
    rw [hprepared.answer_unsavedPage hs.files hroot hpages hpages', hfinds]
  obtain ⟨found, hfound, hread'⟩ := hprepared.read_unsaved hs.files hroot hmeta hpages hfinds
  obtain rfl : bytes = found := Except.ok.inj (hread.symm.trans hfound)
  refine ⟨fun answer s' hrun ↦ ⟨fun fault hfault ↦ ?_, fun raw hraw ↦ ?_⟩,
    fun answer t hrun ↦ ⟨spared_preview hs.files htidy hroot hstyle hrun, fun fault hfault ↦ ?_,
      fun raw hraw failure hfails ↦ ?_⟩, ?_, ?_⟩
  · rw [hfault] at hdraft
    exact save_of_draft_error hdraft hrun
  · rw [hraw] at hdraft
    simp only [Except.map, Except.mapError, entryFor, hcode, PageIndex.append_eq, if_neg hnew,
      bind, Except.bind, pure, Except.pure] at hdraft
    rcases save_of_draft hs hroot hmeta hdraft hrun with rfl | ⟨failure, rfl, hwhy⟩
    · exact .inl rfl
    · refine .inr ⟨failure, rfl, ?_⟩
      rcases hwhy with hunrecorded | ⟨rfl | ⟨path, why, rfl⟩, -⟩
      · exact git_of_isUnrecorded hunrecorded
      · exact .inr rfl
      · exact .inl rfl
  · refine (congrArg Prod.fst hrun).symm.trans (preview_error hprepares ?_)
    simp only [previewedCode, hfinds', bind, Except.bind, on_readText, hread', hfault, Except.map,
      Except.mapError]
  · subst hfails
    exact preview_isElsewhere hprepares hfinds' hread' hraw (congrArg Prod.fst hrun)
  · rintro old new commit leaf top before hnew hcommits hstrays hbefore hone hcode' rfl
    rw [hnew.pages_concat hcommits hstrays hbefore hone hcode' top, Sequence.pageText, IsText]
    cases hbinary : Code.isBinary leaf.bytes with
    | true =>
      refine ⟨fun htext ↦ ?_, fun _ ↦ ⟨_, .inl rfl, rfl⟩⟩
      cases htext.1
    | false =>
      cases hdecode : Utf8.decode leaf.bytes with
      | error fault =>
        refine ⟨fun htext ↦ ?_, fun _ ↦ ⟨_, .inr rfl, rfl⟩⟩
        obtain ⟨-, raw, hraw⟩ := htext
        cases hraw
      | ok raw => exact ⟨fun _ ↦ ⟨_, rfl, rfl⟩, fun htext ↦ absurd ⟨rfl, raw, rfl⟩ htext⟩
  · rw [IsText, ← Bool.not_eq_true]
    change (_ ↔ ¬ (bytes.take 8000).contains 0 = true ∧ _) ↔ _
    constructor
    · rintro hagree ⟨hnul, hdecodes⟩
      exact (hagree.mp hdecodes).1 hnul
    · intro hno
      exact ⟨fun hdecodes ↦ ⟨fun hnul ↦ hno ⟨hnul, hdecodes⟩, hdecodes⟩, And.right⟩

/-- A guide whose unsaved page is not text. -/
def undecodableGuide : State where
  files := unsavedGuide.files.put ["/", "guide", "pages", "a.md"] (.file [255])
  repositories := unsavedGuide.repositories
  logs := []

/-- The repository of the guide, with a commit of the page. -/
def undecodableStore : Store where
  number := 0
  commits := [⟨commitId 0 0, "a", "", [⟨"pages/a.md", .regular, [255]⟩]⟩]
  staged := []
  hasIdentity := true

/-- A save and a preview of the page complain of a file that is not text, and the history that has
the page complains of content. -/
theorem page_gates_undecodable :
    ∃ (fault : Utf8.Fault) (s' : State) (problem : ContentProblem) (oid : Option String),
      (save guideLayout (Settings.ofTitle "T")).on undecodableGuide =
        (.error (.notText fault), s') ∧ Same s' undecodableGuide ∧
      ((preview guideLayout (Settings.ofTitle "T")).on undecodableGuide).1 =
        .error (.notText fault) ∧
      Sequence.pages (undecodableStore.repository "/guide") "pages" ".md" =
        .error (.content problem oid "pages/a.md") := by
  have hroot : guideLayout.root.Resolved := by decide
  have helsewhere : ∀ s, PagesElsewhere s guideLayout (Settings.ofTitle "T") :=
    pagesElsewhere_of_first hroot (by decide : _ = ["pages"]) (by decide) (by decide)
  have htidy : ∀ repository ∈ undecodableGuide.repositories, repository.2.Tidy := by
    intro repository hrepository
    obtain rfl := List.mem_singleton.mp hrepository
    exact Store.tidy_empty 0
  have hload : ((loadRoot guideLayout.root).on undecodableGuide).1 =
      .ok (guideLayout, Settings.ofTitle "T") := eq_ok_of_toOption (by decide +kernel)
  obtain ⟨shared, hprepares⟩ : ∃ shared, (preparePreview guideLayout (Settings.ofTitle "T")).on
      undecodableGuide = (.ok shared, prepared guideLayout (Settings.ofTitle "T") undecodableGuide) :=
    on_eq_ok (by decide +kernel)
  have hindex : ((loadIndex guideLayout.index).on undecodableGuide).1 = .ok ⟨[]⟩ :=
    eq_ok_of_toOption (by decide +kernel)
  have hfinds : ((unsavedPage (workFiles guideLayout.root) guideLayout (Settings.ofTitle "T")).on
      undecodableGuide).1 = .ok "pages/a.md" := eq_ok_of_toOption (by decide +kernel)
  have hread : undecodableGuide.files.read
      (guideLayout.root.join (Path.ofString "pages/a.md")) = .ok [255] :=
    eq_ok_of_toOption (by decide +kernel)
  have hcode : Page.code "pages/a.md" ".md" = .ok "a" := eq_ok_of_toOption (by decide +kernel)
  obtain ⟨fault, hfault⟩ : ∃ fault, Utf8.decode [255] = .error fault := by
    have hnone : (Utf8.decode [255]).toOption = none := by decide +kernel
    cases hdecode : Utf8.decode [255] with
    | error fault => exact ⟨fault, rfl⟩
    | ok raw => rw [hdecode] at hnone; cases hnone
  have hnotText : ¬ IsText [255] := by
    rintro ⟨-, raw, hraw⟩
    rw [hfault] at hraw
    cases hraw
  obtain ⟨hsave, hpreview, hhistory, -⟩ :=
    page_gates (by decide +kernel) htidy hroot hload (by decide) (helsewhere _) (helsewhere _)
      (congrArg Prod.fst hprepares) hindex hfinds hread hcode (by decide)
  obtain ⟨hrefused, hsame⟩ := (hsave _ _ rfl).1 fault hfault
  obtain ⟨problem, -, hcomplains⟩ := (hhistory (Store.empty 0) undecodableStore _ _ "/guide" []
    ⟨by decide, by decide +kernel, rfl⟩ rfl (by decide +kernel) rfl rfl hcode rfl).2 hnotText
  exact ⟨fault, _, problem, _, Prod.ext hrefused rfl, hsame, (hpreview _ _ rfl).2.1 fault hfault,
    hcomplains⟩

end Workflow

end Guidebook
