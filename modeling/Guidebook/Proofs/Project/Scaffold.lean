import Guidebook.Project.Scaffold
import Guidebook.Proofs.Project.Export

/-!
# New projects

A project that is started where there was no index has an empty one, and the repository that was
there or a fresh one.
-/

namespace Guidebook.Workflow

open Git

variable {l : Layout} {repositories : List (Path × Store)} {s s' : State}

/-- Worlds in which a project has no index yet. -/
private structure Lacks (l : Layout) (repositories : List (Path × Store)) (s : State) : Prop where
  files : s.files.Sound
  missing : s.files.find? l.index.parts = none
  repositories : s.repositories = repositories

private theorem lacks_eq_within :
    Lacks l repositories = Within (· ≠ l.index.parts) (fun _ ↦ none) repositories := by
  ext s
  rw [within_index_iff]
  exact ⟨fun h ↦ ⟨h.files, h.missing, h.repositories⟩, fun h ↦ ⟨h.1, h.2.1, h.2.2⟩⟩

private theorem keeps_lacks_makeDirectories {path : Path} (hpath : path.Resolved)
    (houtside : ¬ l.index.parts <+: path.parts) :
    Keeps (Lacks l repositories) (makeDirectories path) fun _ ↦ True := by
  rw [lacks_eq_within]
  apply keeps_makeDirectories hpath.plain
  intro front hfront
  left
  rw [Path.normalizeNames_eq fun hup ↦ hpath.not_up (hfront.mem hup), List.nil_append]
  rintro rfl
  exact houtside hfront

private theorem keeps_lacks_write {path : Path} (hpath : path.Plain)
    (hother : path.place ≠ l.index.parts) (content : List UInt8) :
    Keeps (Lacks l repositories) (write path content) fun _ ↦ True := by
  rw [lacks_eq_within]
  exact keeps_write hpath hother content

private theorem index_outside {path : Path} (h : path.parts.length ≤ l.metadata.parts.length) :
    ¬ l.index.parts <+: path.parts := by
  intro hprefix
  have hlength := hprefix.length_le
  rw [Layout.index, Layout.parts_child, List.length_append, List.length_singleton] at hlength
  omega

private theorem keeps_lacks_writeSettings (hroot : l.root.Resolved) (title : String) :
    Keeps (Lacks l repositories) (writeSettings l.settings title) fun _ ↦ True := by
  have hsettings : l.settings.Resolved :=
    Layout.resolved_child (resolved_metadata hroot) (by decide)
  have hparent : parent l.settings = l.metadata := Layout.parent_child _ _
  rw [writeSettings, hparent]
  refine (keeps_lacks_makeDirectories (resolved_metadata hroot)
    (index_outside le_rfl)).bind fun _ _ ↦ ?_
  exact keeps_lacks_write hsettings.plain
    (place_ne_of_name (Layout.parts_child _ _) (by decide) (by decide)) _

/-- An index that is saved is there. -/
private theorem Lacks.saveIndex (hs : Lacks l repositories s) (hroot : l.root.Resolved)
    {index : PageIndex} (hrun : (saveIndex l.index index).on s = (.ok (), s')) :
    Holds l (Utf8.encode index.write) repositories s' := by
  have hparent : parent l.index = l.metadata := Layout.parent_child _ _
  rw [Workflow.saveIndex, hparent] at hrun
  obtain ⟨_, t, hmake, hrun⟩ := on_bind_eq_ok hrun
  have ht : Lacks l repositories t := (keeps_lacks_makeDirectories (resolved_metadata hroot)
    (index_outside le_rfl)).after hs hmake
  obtain ⟨written, hwrite, rfl⟩ := on_write_eq_ok hrun
  refine ⟨ht.files.write (resolved_index hroot).plain hwrite, ?_, ht.repositories⟩
  rw [← (resolved_index hroot).place_eq]
  exact ht.files.find?_write_self hwrite

private theorem keeps_writeMissing {bytes : List UInt8} (hroot : l.root.Resolved) {name : String}
    (hname : Path.IsPart name) (hother : name ≠ Layout.indexFile) (text : List Char) :
    Keeps (Holds l bytes repositories) (writeMissing (Layout.child l.metadata name) text)
      fun _ ↦ True := by
  refine Keeps.files.bind fun t _ ↦ ?_
  split
  · exact Keeps.pure trivial
  · exact Holds.keeps_write (Layout.resolved_child (resolved_metadata hroot) hname).plain
      (place_ne_of_name (Layout.parts_child _ _) hname.notUp hother) _

/-- The repositories once a directory has one. -/
def withRepository (repositories : List (Path × Store)) (dir : Path) : List (Path × Store) :=
  match repositories.lookup dir with
  | some _ => repositories
  | none => (dir, Store.empty repositories.length) :: repositories

theorem lookup_withRepository (repositories : List (Path × Store)) (dir : Path) :
    (withRepository repositories dir).lookup dir =
      some ((repositories.lookup dir).getD (Store.empty repositories.length)) := by
  rw [withRepository]
  split
  · next store hlookup => rw [hlookup, Option.getD_some]
  · next hlookup => rw [hlookup, Option.getD_none, List.lookup_cons_self]

/-- A world stays possible if a directory gets a repository. -/
theorem sound_withRepository (hs : s.Sound) (hfiles : s'.files.Sound) {dir : Path}
    (hrepositories : s'.repositories = withRepository s.repositories dir) : s'.Sound := by
  rw [withRepository] at hrepositories
  cases hlookup : s.repositories.lookup dir with
  | some store =>
    rw [hlookup] at hrepositories
    exact hs.congr hfiles hrepositories
  | none =>
    rw [hlookup] at hrepositories
    refine ⟨hfiles, ?_, ?_, ?_⟩
    · rw [hrepositories, List.map_cons, List.nodup_cons]
      refine ⟨fun hmem ↦ ?_, hs.nodup⟩
      obtain ⟨⟨top, store⟩, hold, heq⟩ := List.mem_map.mp hmem
      obtain rfl : top = dir := heq
      rw [(lookup_eq_some_iff hs.nodup).mpr hold] at hlookup
      cases hlookup
    · rw [hrepositories]
      exact List.forall_mem_cons.mpr ⟨Snapshot.sound_nil, hs.staged⟩
    · rw [hrepositories]
      exact List.forall_mem_cons.mpr ⟨Snapshot.sound_nil, hs.head⟩

/-- Starting a project makes the repository of its directory, unless there is one. -/
theorem on_initRepository (dir : Path) (s : State) :
    (initRepository dir).on s =
      (.ok (), { s with repositories := withRepository s.repositories dir }) := by
  rw [initRepository, on_modify, withRepository]
  cases hlookup : s.repositories.lookup dir with
  | some store => rfl
  | none =>
    have hnew : s.repositories.any (·.1 == dir) = false := by
      rw [← Bool.not_eq_true]
      intro hany
      obtain ⟨⟨top, store⟩, hmem, heq⟩ := List.any_eq_true.mp hany
      rw [List.lookup_eq_none_iff] at hlookup
      have := hlookup _ hmem
      simp_all
    simp only [State.setStore, hnew, Bool.false_eq_true, if_false]

private theorem Lacks.init (hs : Lacks l repositories s) {dir : Path}
    (hrun : (initRepository dir).on s = (.ok (), s')) :
    Lacks l (withRepository repositories dir) s' := by
  rw [on_initRepository] at hrun
  obtain rfl := (Prod.mk.inj hrun).2
  exact ⟨hs.files, hs.missing, congrArg (withRepository · dir) hs.repositories⟩

/-- A new project has an empty index and a repository. -/
theorem initProject_eq_ok (hs : s.files.Sound) {dir : Path} (hdir : dir.Resolved)
    (hmissing : s.files.find? (Layout.ofRoot dir).index.parts = none) {title : String}
    (hrun : (initProject title dir).on s = (.ok l, s')) :
    l = Layout.ofRoot dir ∧
      Holds l (Utf8.encode PageIndex.empty.write) (withRepository s.repositories dir) s' := by
  have hroot : (Layout.ofRoot dir).root.Resolved := hdir
  have hnormal : dir.normalize = dir := by
    have hup : ".." ∉ dir.names := fun hm ↦ (hdir.parts _ hm).notUp rfl
    rw [Path.normalize, Path.normalizeNames_eq hup, List.nil_append]
  have hhere : dir.parts.length ≤ (Layout.ofRoot dir).metadata.parts.length := by
    change _ ≤ (Layout.child dir Layout.metaDir).parts.length
    rw [Layout.parts_child, List.length_append]
    omega
  have hjoin : ∀ name, (dir.join (Path.ofString name)).Plain :=
    fun name ↦ hdir.plain.join (Path.plain_ofString name)
  rw [initProject] at hrun
  obtain ⟨_, s1, h1, hrun⟩ := on_bind_eq_ok hrun
  rw [hnormal] at hrun
  obtain ⟨_, s2, h2, hrun⟩ := on_bind_eq_ok hrun
  obtain ⟨_, s3, h3, hrun⟩ := on_bind_eq_ok hrun
  have hs1 : Lacks (Layout.ofRoot dir) s.repositories s1 :=
    (keeps_lacks_makeDirectories hdir (index_outside hhere)).after ⟨hs, hmissing, rfl⟩ h1
  have hs2 : Lacks (Layout.ofRoot dir) (withRepository s.repositories dir) s2 := hs1.init h2
  have hs3 := (keeps_lacks_writeSettings hroot title).after hs2 h3
  obtain ⟨_, s4, h4, hrun⟩ := on_bind_eq_ok hrun
  cases h4
  have habsent : s3.files.present (Layout.ofRoot dir).index = false := by
    rw [FileTree.present, hs3.files.node?_eq (resolved_index hroot), hs3.missing]
    rfl
  simp only [habsent] at hrun
  obtain ⟨_, s5, h5, hrun⟩ := on_bind_eq_ok hrun
  obtain ⟨_, s6, h6, hrun⟩ := on_bind_eq_ok hrun
  obtain ⟨_, s7, h7, hrun⟩ := on_bind_eq_ok hrun
  obtain ⟨_, s8, h8, hrun⟩ := on_bind_eq_ok hrun
  have hs6 := (keeps_writeMissing hroot (by decide) (by decide) _).after (hs3.saveIndex hroot h5) h6
  have hs7 := (Holds.keeps_makeDirectories (hjoin _)).after hs6 h7
  have hs8 := (Holds.keeps_makeDirectories (hjoin _)).after hs7 h8
  obtain ⟨hl, rfl⟩ := Prod.mk.inj hrun
  obtain rfl := Except.ok.inj hl
  exact ⟨rfl, hs8⟩

end Guidebook.Workflow
