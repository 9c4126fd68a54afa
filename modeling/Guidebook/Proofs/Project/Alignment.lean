import Guidebook.Proofs.Git.Pages
import Guidebook.Proofs.Project.Save
import Guidebook.Proofs.Project.Scaffold

/-!
# The index and the history

The index lists pages as they are saved; the sequence finds them again in the history, and neither
looks at the other. Over every run of a project the index lists, in order, the codes of the pages
that the commits add. The sequence gives the same codes, unless the log names other commits than
there are.
-/

namespace Guidebook.Workflow

open Git

variable {l : Layout} {settings : Settings} {s s' : State} {store : Store} {index : PageIndex}

/-! ## Runs of a project -/

/-- The ways in which a save may end in a run: it returns, it fails before the index is written, or
git refuses to stage or to commit. -/
inductive Settled (o : Outage) (l : Layout) (settings : Settings) (s : State) :
    Except Failure IndexEntry → Prop where
  | returned (entry : IndexEntry) : Settled o l settings s (.ok entry)
  | early {failure : Failure} {t : State} :
    (draft (o.workFiles (workFiles l.root)) l settings).on s = (.error failure, t) →
    Settled o l settings s (.error failure)
  | unstaged (paths : List String) (problem : Problem) :
    Settled o l settings s (.error (.git (.add paths) problem))
  | uncommitted (message name email : String) (problem : Problem) :
    Settled o l settings s (.error (.git (.commit message name email) problem))

/-- What may happen to a project. -/
inductive Event (l : Layout) (settings : Settings) (s : State) : State → Prop where
  /-- Anything changes but the index file and the repository of the project. -/
  | edit {s' : State} : s'.Sound →
    s'.files.find? l.index.parts = s.files.find? l.index.parts →
    s'.repositories.lookup l.root = s.repositories.lookup l.root → Event l settings s s'
  /-- Git is told who commits, or told to forget it. -/
  | identify {store : Store} (known : Bool) : s.repositories.lookup l.root = some store →
    Event l settings s (s.setAt l.root { store with hasIdentity := known })
  /-- Everything is staged and committed, and no page is new to the current commit. -/
  | commit {w : WorkTree} (message committer : String) : s.workTree? l.root = some w →
    Sequence.newLeaves l.pagesDir settings.extension w.store.head (w.stage [[]]) = [] →
    Event l settings s
      (s.setAt l.root ((w.store.withStaged (w.stage [[]])).record message committer))
  /-- The same, but git refuses to commit what is staged. -/
  | stage {w : WorkTree} : s.workTree? l.root = some w →
    Sequence.newLeaves l.pagesDir settings.extension w.store.head (w.stage [[]]) = [] →
    Event l settings s (s.setAt l.root (w.store.withStaged (w.stage [[]])))
  /-- The guide is built, successfully or not. -/
  | build {s' : State} {answer : Except Failure (List Path)} :
    (build l settings).on s = (answer, s') → Event l settings s s'
  /-- The unsaved page is previewed, successfully or not. -/
  | preview {s' : State} {answer : Except Failure (List Path)} :
    (preview l settings).on s = (answer, s') → Event l settings s s'
  /-- The unsaved page is saved, whichever commands fail. -/
  | save {s' : State} {o : Outage} {answer : Except Failure IndexEntry} :
    (savePage (o.workFiles (workFiles l.root)) (o.changes (changes l.root)) l settings).on s =
      (answer, s') → Settled o l settings s answer → Event l settings s s'

/-- What a project may come to that is started in a directory without an index, in a repository
without pages if there is one. -/
inductive Reachable (l : Layout) (settings : Settings) : State → Prop where
  | start {s₀ s : State} {title : String} {made : Layout} : s₀.Sound →
    s₀.files.present l.index = false →
    (∀ store, s₀.repositories.lookup l.root = some store →
      store.Gives l.pagesDir settings.extension []) →
    (initProject title l.root).on s₀ = (.ok made, s) → Reachable l settings s
  | step {s s' : State} : Reachable l settings s → Event l settings s s' → Reachable l settings s'

/-! ## What a run keeps -/

/-- A world in which the index of a project lists the codes that the history of its repository
gives. -/
structure Aligned (l : Layout) (settings : Settings) (s : State) (store : Store)
    (index : PageIndex) : Prop where
  sound : s.Sound
  lookup : s.repositories.lookup l.root = some store
  loads : ∃ bytes, s.files.find? l.index.parts = some (.file bytes) ∧
    PageIndex.ofBytes l.index.toString bytes = .ok index
  gives : store.Gives l.pagesDir settings.extension index.codes

/-- Reports do not matter. -/
theorem Aligned.of_same (h : Aligned l settings s store index) (hsame : Same s' s) :
    Aligned l settings s' store index := by
  refine ⟨h.sound.congr ?_ hsame.2, ?_, ?_, h.gives⟩
  · rw [hsame.1]
    exact h.sound.files
  · rw [hsame.2, h.lookup]
  · rw [hsame.1]
    exact h.loads

/-- Replacing the repository by one that gives the same codes keeps the alignment. -/
theorem Aligned.setAt (h : Aligned l settings s store index) {new : Store}
    (hstaged : new.staged.Sound) (hhead : new.head.Sound)
    (hgives : new.Gives l.pagesDir settings.extension index.codes) :
    Aligned l settings (s.setAt l.root new) new index where
  sound := h.sound.setAt l.root hstaged hhead
  lookup := State.lookup_setAt h.lookup new
  loads := by
    rw [State.files_setAt]
    exact h.loads
  gives := hgives

private theorem Aligned.staged (h : Aligned l settings s store index) : store.staged.Sound :=
  h.sound.staged _ ((lookup_eq_some_iff h.sound.nodup).mp h.lookup)

private theorem Aligned.head (h : Aligned l settings s store index) : store.head.Sound :=
  h.sound.head _ ((lookup_eq_some_iff h.sound.nodup).mp h.lookup)

/-- A run that keeps the index file and the repositories keeps the alignment. -/
theorem Aligned.keeps {α : Type} (h : Aligned l settings s store index) {run : Workflow α}
    (hkeeps : ∀ bytes repositories, repositories.lookup l.root = some store →
      Keeps (Holds l bytes repositories) run fun _ ↦ True) {answer : Except Failure α}
    (hrun : run.on s = (answer, s')) : Aligned l settings s' store index := by
  obtain ⟨bytes, hfound, hloads⟩ := h.loads
  have hs' := (hkeeps bytes s.repositories h.lookup).after ⟨h.sound.files, hfound, rfl⟩ hrun
  refine ⟨h.sound.congr hs'.files hs'.repositories, ?_, ⟨bytes, hs'.found, hloads⟩, h.gives⟩
  rw [hs'.repositories, h.lookup]

/-- A project starts with its index and its history empty. -/
theorem aligned_initProject (hroot : l.root.Resolved) (hs : s.Sound)
    (hmissing : s.files.present l.index = false)
    (hgives : ∀ store, s.repositories.lookup l.root = some store →
      store.Gives l.pagesDir settings.extension []) {title : String} {made : Layout}
    (hrun : (initProject title l.root).on s = (.ok made, s')) :
    ∃ store, Aligned l settings s' store PageIndex.empty := by
  have hnone : s.files.find? (Layout.ofRoot l.root).index.parts = none := by
    rw [FileTree.present, hs.files.node?_eq (resolved_index hroot), Option.isSome_eq_false_iff,
      Option.isNone_iff_eq_none] at hmissing
    exact hmissing
  obtain ⟨rfl, hholds⟩ := initProject_eq_ok hs.files hroot hnone hrun
  refine ⟨(s.repositories.lookup l.root).getD (Store.empty s.repositories.length),
    sound_withRepository hs hholds.files hholds.repositories, ?_,
    ⟨_, hholds.found, PageIndex.ofBytes_write PageIndex.sound_empty _⟩, ?_⟩
  · rw [hholds.repositories]
    exact lookup_withRepository _ _
  · cases hlookup : s.repositories.lookup l.root with
    | some store => exact hgives store hlookup
    | none => exact Store.gives_empty _ _ _

/-! ## Saves -/

/-- A drafted index is the index of the file with one more page. -/
private theorem Aligned.append (h : Aligned l settings s store index) (hroot : l.root.Resolved)
    {d : Draft} (hdrafted : Drafted s l settings d) : index.append d.entry = .ok d.longer := by
  obtain ⟨bytes, hfound, hbytes⟩ := h.loads
  obtain ⟨found, hloads, happend⟩ := hdrafted.index
  rcases hloads with ⟨habsent, -⟩ | ⟨bytes', hread, hbytes'⟩
  · rw [FileTree.present, h.sound.files.node?_eq (resolved_index hroot), hfound] at habsent
    cases habsent
  · rw [(h.sound.files.read_eq_ok_iff (resolved_index hroot)).mpr hfound] at hread
    obtain rfl := Except.ok.inj hread
    obtain rfl := Except.ok.inj (hbytes.symm.trans hbytes')
    exact happend

/-- The work tree that a save gives paths to is that of the draft but for the index. -/
private theorem Aligned.tree (h : Aligned l settings s store index) (hroot : l.root.Resolved)
    {o : Outage} {d : Draft} {t : State} {staged : List String} {w : WorkTree}
    {places : List (List String)} (hattempt : Attempt o l settings s d t staged w places) :
    w.Sound ∧ w.place = [] ∧ w.store = store ∧
      ∃ v, s.workTree? l.root = some v ∧ w.Alike v := by
  obtain ⟨hsame, -⟩ := draft_eq_ok hattempt.drafts
  obtain ⟨bytes, hfound, -⟩ := h.loads
  have hne : l.index.parts ≠ [] := (resolved_index hroot).parts_ne_nil
  have ht : t.files.Sound := hsame.1 ▸ h.sound.files
  have hold : t.files.find? l.index.parts = some (.file bytes) := hsame.1 ▸ hfound
  have hself := State.workTree?_self h.lookup
  have hname : l.index.parts.getLast? ≠ some ".gitignore" := by
    rw [Layout.index, Layout.parts_child, List.getLast?_concat]
    decide
  obtain ⟨w', hw', halike⟩ := State.workTree?_put ht hne hold hname
    ((hsame.workTree?_eq l.root).trans hself) (Utf8.encode d.longer.write)
  have htree := hattempt.tree
  rw [State.written, hw'] at htree
  obtain rfl := Option.some.inj htree
  exact ⟨State.sound_workTree (ht.put_file hne hold _) hroot hw', halike.place, halike.store, _,
    hself, halike⟩

/-- A page that is saved is the next of the index and of the history. -/
private theorem Aligned.saved (h : Aligned l settings s store index) (hroot : l.root.Resolved)
    {o : Outage} {d : Draft} {t u : State} {staged : List String} {w : WorkTree}
    {places : List (List String)} (hattempt : Attempt o l settings s d t staged w places)
    {message committer : String} (hfiles : u.files = (t.written l d).files)
    (hrepositories : u.repositories = (s.setAt l.root
      ((w.store.withStaged (w.stage places)).record message committer)).repositories) :
    Aligned l settings u ((w.store.withStaged (w.stage places)).record message committer)
      d.longer := by
  obtain ⟨hsame, hdrafted⟩ := draft_eq_ok hattempt.drafts
  obtain ⟨hw, htop, hstore, v, hv, halike⟩ := h.tree hroot hattempt
  obtain ⟨bytes, hfound, hbytes⟩ := h.loads
  obtain ⟨v', paths, path, hv', hpaths, hone, hcode⟩ := hdrafted.page
  obtain rfl := Option.some.inj (hv.symm.trans hv')
  have happend := h.append hroot hdrafted
  have hslug : d.entry.code = Page.slug path settings.extension :=
    (Page.code_eq_ok_iff.mp hcode).2
  obtain ⟨hlonger, hentries⟩ :=
    (PageIndex.sound_of_ofBytes hbytes).append hdrafted.code_ne_empty happend
  have hcodes : d.longer.codes = index.codes ++ [Page.slug path settings.extension] := by
    rw [PageIndex.codes, hentries, List.map_append, List.map_singleton, hslug]
    rfl
  have hnew : Page.slug path settings.extension ∉ index.codes := by
    intro hmem
    have hnodup := hlonger.nodup
    rw [hcodes] at hnodup
    exact List.disjoint_of_nodup_append hnodup hmem (List.mem_singleton_self _)
  have hgives : w.store.Gives l.pagesDir settings.extension index.codes := hstore ▸ h.gives
  have hstagedSound : w.store.staged.Sound := hstore ▸ h.staged
  have hplaces : ∃ place ∈ places, pathspec [] l.pagesDir = .ok place := htop ▸ hattempt.pages
  have hleaves := hw.newLeaves_stage hstagedSound hgives htop
    ((halike.untracked l.pagesDir).trans hpaths) hone hnew hplaces
  have hstage := WorkTree.sound_stage hstagedSound places
  have hne : l.index.parts ≠ [] := (resolved_index hroot).parts_ne_nil
  have hold : s.files.find? l.index.parts = some (.file bytes) := hfound
  have hput : u.files = s.files.put l.index.parts (.file (Utf8.encode d.longer.write)) := by
    rw [hfiles, State.written, hsame.1]
  refine ⟨(h.sound.setAt l.root hstage ?_).congr ?_ hrepositories, ?_,
    ⟨_, ?_, PageIndex.ofBytes_write hlonger _⟩, ?_⟩
  · rw [Store.head_record]
    exact hstage
  · rw [hput]
    exact h.sound.files.put_file hne hold _
  · rw [hrepositories]
    exact State.lookup_setAt h.lookup _
  · rw [hput, h.sound.files.find?_put hne, if_pos rfl]
  · rw [hcodes, ← hleaves]
    exact hgives.record (hw.named_stage hgives.tidy.staged places)
      (fun leaf hleaf hpage ↦ hw.page_stage hgives hleaf hpage) message committer

/-- A save that is undone leaves the index and the history as long as they were. -/
private theorem Aligned.undone (h : Aligned l settings s store index) (hroot : l.root.Resolved)
    {o : Outage} {d : Draft} {t u : State} {staged : List String} {w : WorkTree}
    {places : List (List String)} (hattempt : Attempt o l settings s d t staged w places)
    {snapshot : Snapshot} (hsnapshot : snapshot = w.store.staged ∨ snapshot = w.stage places)
    (hfiles : u.files = s.files)
    (hrepositories : u.repositories = (s.setAt l.root
      ((w.store.withStaged snapshot).unstage (WorkTree.covers places))).repositories) :
    Aligned l settings u ((w.store.withStaged snapshot).unstage (WorkTree.covers places))
      index := by
  obtain ⟨hw, htop, hstore, -⟩ := h.tree hroot hattempt
  have hgives : w.store.Gives l.pagesDir settings.extension index.codes := hstore ▸ h.gives
  have hstagedSound : w.store.staged.Sound := hstore ▸ h.staged
  have hheadSound : w.store.head.Sound := hstore ▸ h.head
  have hplaces : ∃ place ∈ places, pathspec [] l.pagesDir = .ok place := htop ▸ hattempt.pages
  have hboth : snapshot.Named ∧ snapshot.Sound := by
    rcases hsnapshot with rfl | rfl
    · exact ⟨hgives.tidy.staged, hstagedSound⟩
    · exact ⟨hw.named_stage hgives.tidy.staged places, WorkTree.sound_stage hstagedSound places⟩
  have hpages : ∀ leaf ∈ snapshot,
      Page.isPagePath leaf.path l.pagesDir settings.extension = true →
        WorkTree.covers places leaf.path = true := by
    intro leaf hleaf hpage
    obtain ⟨names, hnames, heq⟩ := hboth.1 leaf hleaf
    rw [heq] at hpage ⊢
    exact WorkTree.covers_page hnames hplaces hpage
  refine Aligned.of_same (h.setAt (Store.sound_unstage hboth.2) hheadSound
    (hgives.unstage hboth.1 hpages)) ⟨?_, hrepositories⟩
  rw [hfiles, State.files_setAt]

/-- A save that ends as it may in a run keeps an alignment. -/
theorem Aligned.save (h : Aligned l settings s store index) (hroot : l.root.Resolved) {o : Outage}
    {answer : Except Failure IndexEntry}
    (hrun : (savePage (o.workFiles (workFiles l.root)) (o.changes (changes l.root)) l settings).on s =
      (answer, s')) (hsettled : Settled o l settings s answer) :
    ∃ store index, Aligned l settings s' store index := by
  obtain ⟨bytes, hfound, -⟩ := h.loads
  have hmeta : s.files.find? l.metadata.parts = some .directory := by
    refine h.sound.files.find?_parent hfound ?_ ?_
    · rw [Layout.index, Layout.parts_child]
      exact List.prefix_append _ _
    · rw [Layout.index, Layout.parts_child]
      simp
  have houtcome : Outcome o l settings s answer s' := by
    have houtcome : Outcome o l settings s _ _ := savePage_outcome h.sound hroot hmeta
    rwa [hrun] at houtcome
  cases houtcome with
  | refused hdraft =>
    have hsame := (keeps_draft s o l settings).after (Same.refl s) hdraft
    exact ⟨store, index, h.of_same hsame⟩
  | unlisted hdraft hstages hwritten hfailure =>
    cases hsettled with
    | early hearly =>
      rw [hdraft] at hearly
      cases hearly
    | unstaged paths problem => rcases hfailure with hfailure | ⟨_, _, hfailure⟩ <;> cases hfailure
    | uncommitted message name email problem =>
      rcases hfailure with hfailure | ⟨_, _, hfailure⟩ <;> cases hfailure
  | unasked hattempt hrecord hleft =>
    cases hsettled with
    | early hearly =>
      rw [hattempt.drafts] at hearly
      cases hearly
  | undone hattempt hrecord hgit hsnapshot hfiles hrepositories =>
    exact ⟨_, index, h.undone hroot hattempt hsnapshot hfiles hrepositories⟩
  | saved hattempt _ hfiles hrepositories =>
    exact ⟨_, _, h.saved hroot hattempt hfiles hrepositories⟩

/-! ## Whole runs -/

/-- Committing everything keeps what the history gives, if no page is new. -/
private theorem Aligned.pages_stage (h : Aligned l settings s store index) (hroot : l.root.Resolved)
    {w : WorkTree} (hw : s.workTree? l.root = some w)
    (hnone : Sequence.newLeaves l.pagesDir settings.extension w.store.head (w.stage [[]]) = []) :
    w.store = store ∧ (w.stage [[]]).Named ∧ (w.stage [[]]).Sound ∧
      ∀ leaf ∈ w.stage [[]], Page.isPagePath leaf.path l.pagesDir settings.extension = true →
        ∃ other ∈ w.store.head, other.path = leaf.path := by
  have hsound := State.sound_workTree h.sound.files hroot hw
  have hself := State.workTree?_self h.lookup
  obtain rfl : _ = w := Option.some.inj (hself.symm.trans hw)
  refine ⟨rfl, hsound.named_stage h.gives.tidy.staged _, WorkTree.sound_stage h.staged _, ?_⟩
  intro leaf hleaf hpage
  rcases hsound.page_stage h.gives hleaf hpage with hfile | hold
  · by_contra hnew
    rw [not_exists] at hnew
    have hmem : leaf ∈ Sequence.newLeaves l.pagesDir settings.extension _ _ :=
      Sequence.mem_newLeaves_iff.mpr ⟨hleaf, hfile, fun other hother heq ↦ hnew other ⟨hother, heq⟩,
        hpage⟩
    rw [hnone] at hmem
    cases hmem
  · exact hold

/-- Whatever happens keeps an alignment. -/
theorem Aligned.event (h : Aligned l settings s store index) (hroot : l.root.Resolved)
    (hevent : Event l settings s s') : ∃ store index, Aligned l settings s' store index := by
  cases hevent with
  | edit hsound hindex hrepository =>
    obtain ⟨bytes, hfound, hbytes⟩ := h.loads
    exact ⟨store, index, hsound, hrepository.trans h.lookup, ⟨bytes, hindex.trans hfound, hbytes⟩,
      h.gives⟩
  | identify known hlookup =>
    obtain rfl := Option.some.inj (h.lookup.symm.trans hlookup)
    exact ⟨_, index, h.setAt h.staged h.head (h.gives.withIdentity known)⟩
  | commit message committer hw hnone =>
    obtain ⟨rfl, hnamed, hsound, hpages⟩ := h.pages_stage hroot hw hnone
    refine ⟨_, index, h.setAt hsound ?_ ?_⟩
    · rw [Store.head_record]
      exact hsound
    · have hgives := h.gives.record hnamed (fun leaf hleaf hpage ↦ .inr (hpages leaf hleaf hpage))
        message committer
      rwa [hnone, List.map_nil, List.append_nil] at hgives
  | stage hw hnone =>
    obtain ⟨rfl, hnamed, hsound, hpages⟩ := h.pages_stage hroot hw hnone
    exact ⟨_, index, h.setAt hsound h.head (h.gives.withStaged hnamed hpages)⟩
  | build hrun =>
    exact ⟨store, index, h.keeps (fun _ _ hstore ↦
      keeps_build hroot hstore h.gives.tidy settings) hrun⟩
  | preview hrun =>
    exact ⟨store, index, h.keeps (fun _ _ hstore ↦
      keeps_preview hroot hstore h.gives.tidy settings) hrun⟩
  | save hrun hsettled => exact h.save hroot hrun hsettled

/-- A project that is started with an empty index stays aligned. -/
theorem Reachable.aligned (hroot : l.root.Resolved) (h : Reachable l settings s) :
    ∃ store index, Aligned l settings s store index := by
  induction h with
  | start hs hmissing hgives hrun =>
    obtain ⟨store, haligned⟩ := aligned_initProject hroot hs hmissing hgives hrun
    exact ⟨store, _, haligned⟩
  | step _ hevent ih =>
    obtain ⟨store, index, haligned⟩ := ih
    exact haligned.event hroot hevent

/-- In every world that a project comes to, the index lists the codes of the pages that the commits
add, in order and each once. If the sequence finds pages at all, they have these codes exactly if
the commits that the log names add the same codes as the commits there are, and so they have if no
summary adds a record to the log. -/
theorem map_code_pages_eq_iff (hroot : l.root.Resolved) (h : Reachable l settings s) :
    ∃ store index, s.repositories.lookup l.root = some store ∧
      (history l.root).on s = (.ok (store.repository l.root.toString), s) ∧
      (loadIndex l.index).on s = (.ok index, s) ∧
      index.codes.Nodup ∧
      index.codes = Sequence.codesFrom l.pagesDir settings.extension [] store.commits ∧
      ∀ pages, Sequence.pages (store.repository l.root.toString) l.pagesDir settings.extension =
          .ok pages →
        (pages.map (·.page.code) = index.codes ↔
          Sequence.codesFrom l.pagesDir settings.extension [] store.named =
            Sequence.codesFrom l.pagesDir settings.extension [] store.commits) ∧
        ((∀ commit ∈ store.commits, commit.strays = []) →
          pages.map (·.page.code) = index.codes) := by
  obtain ⟨store, index, haligned⟩ := h.aligned hroot
  obtain ⟨bytes, hfound, hbytes⟩ := haligned.loads
  have hread := (haligned.sound.files.read_eq_ok_iff (resolved_index hroot)).mpr hfound
  have hpresent : s.files.present l.index = true := by
    rw [FileTree.present, haligned.sound.files.node?_eq (resolved_index hroot), hfound]
    rfl
  have hcodes := haligned.gives.added
  refine ⟨store, index, haligned.lookup, ?_, ?_, (PageIndex.sound_of_ofBytes hbytes).nodup,
    hcodes.symm, fun pages hpages ↦ ?_⟩
  · rw [on_history, historyIn_of_lookup haligned.lookup]
  · rw [loadIndex, on_bind_ok (on_files s), hpresent, if_pos rfl, hread]
    change on (ofResult (PageIndex.ofBytes l.index.toString bytes)) s = _
    rw [hbytes, on_ofResult]
  · have hnamed := haligned.gives.tidy.map_code_pages hpages
    rw [hnamed, ← hcodes]
    exact ⟨Iff.rfl, fun hstrays ↦ by rw [Store.named_eq hstrays]⟩

/-- A directory with a repository that knows who commits. -/
def freshGuide : State where
  files := ⟨[(["/"], .directory), (["/", "guide"], .directory)]⟩
  repositories := [(⟨"/", ["guide"]⟩, { Store.empty 0 with hasIdentity := true })]
  logs := []

/-- A world with a page of one blank line written into its guide. -/
def withPage (s : State) (name : String) : State :=
  { s with files := s.files.put ["/", "guide", "pages", name] (.file [10]) }

/-- A world with the unsaved page of its guide saved. -/
def withSave (s : State) : State := ((save guideLayout (Settings.ofTitle "T")).on s).2

/-- A guide that is just started. -/
def startedGuide : State := ((initProject "T" guideLayout.root).on freshGuide).2

/-- A guide of two pages. -/
def savedGuide : State := withSave (withPage (withSave (withPage startedGuide "a.md")) "b.md")

private theorem Reachable.withPage (h : Reachable guideLayout settings s) (name : String)
    (hsound : (Workflow.withPage s name).Sound)
    (hindex : (Workflow.withPage s name).files.find? guideLayout.index.parts =
      s.files.find? guideLayout.index.parts) :
    Reachable guideLayout settings (Workflow.withPage s name) :=
  h.step (.edit hsound hindex rfl)

private theorem Reachable.withSave (h : Reachable guideLayout (Settings.ofTitle "T") s)
    (hsaves : ((save guideLayout (Settings.ofTitle "T")).on s).1.toOption.isSome = true) :
    Reachable guideLayout (Settings.ofTitle "T") (withSave s) := by
  obtain ⟨entry, hrun⟩ := on_eq_ok hsaves
  exact h.step (.save (o := ⟨none, none, none, none⟩) hrun (.returned entry))

private theorem reachable_savedGuide :
    Reachable guideLayout (Settings.ofTitle "T") savedGuide := by
  obtain ⟨made, hrun⟩ : ∃ made, (initProject "T" guideLayout.root).on freshGuide =
      (.ok made, startedGuide) := on_eq_ok (by decide +kernel)
  have hstart : Reachable guideLayout (Settings.ofTitle "T") startedGuide := by
    refine .start (by decide +kernel) (by decide +kernel) (fun store hstore ↦ ?_) hrun
    obtain rfl : { Store.empty 0 with hasIdentity := true } = store := Option.some.inj hstore
    exact (Store.gives_empty 0 _ _).withIdentity true
  have hfirst := (hstart.withPage "a.md" (by decide +kernel) (by decide +kernel)).withSave
    (by decide +kernel)
  exact (hfirst.withPage "b.md" (by decide +kernel) (by decide +kernel)).withSave
    (by decide +kernel)

/-- Two pages that are saved one after the other. -/
theorem map_code_pages_eq_iff_saved :
    guideLayout.root.Resolved ∧ Reachable guideLayout (Settings.ofTitle "T") savedGuide ∧
      ∃ index, (loadIndex guideLayout.index).on savedGuide = (.ok index, savedGuide) ∧
        index.codes = ["a", "b"] := by
  refine ⟨by decide, reachable_savedGuide, ?_⟩
  obtain ⟨store, index, hlookup, -, hloads, -, hcodes, -⟩ :=
    map_code_pages_eq_iff (by decide) reachable_savedGuide
  have hadded : (savedGuide.repositories.lookup guideLayout.root).map (fun store ↦
      Sequence.codesFrom "pages" ".md" [] store.commits) = some ["a", "b"] := by decide +kernel
  rw [hlookup] at hadded
  exact ⟨index, hloads, hcodes.trans (Option.some.inj hadded)⟩

end Guidebook.Workflow
