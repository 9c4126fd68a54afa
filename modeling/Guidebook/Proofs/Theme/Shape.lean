import Mathlib.Data.List.Forall2
import Guidebook.Theme.Render

/-!
# Markup of the packaged theme

The packaged theme adds markup of its own to the texts of a guide. Which markup that is hangs on the
shape of what is shown alone: on how many directories, files and pages there are and on which links
a page has. No text adds a character that markup is made of.
-/

namespace Guidebook

namespace Outline

mutual

/-- Directories of one shape: they hold as many files, and their subdirectories are of one shape in
turn. Names and paths may be any. -/
def Directory.SameShape : Directory → Directory → Prop
  | .node _ _ directories files, .node _ _ directories' files' =>
    files.length = files'.length ∧ SameShapes directories directories'

/-- Lists of directories of one shape. -/
def SameShapes : List Directory → List Directory → Prop
  | [], [] => True
  | d :: rest, d' :: rest' => d.SameShape d' ∧ SameShapes rest rest'
  | _, _ => False

end

/-- Directories of one shape are empty together. -/
theorem Directory.SameShape.isEmpty_eq {d d' : Directory} (h : d.SameShape d') :
    d.isEmpty = d'.isEmpty := by
  obtain ⟨_, _, directories, files⟩ := d
  obtain ⟨_, _, directories', files'⟩ := d'
  obtain ⟨hfiles, hdirectories⟩ := h
  have hnone : directories.isEmpty = directories'.isEmpty := by
    cases directories <;> cases directories' <;> simp_all [SameShapes]
  have hempty : files.isEmpty = files'.isEmpty := by
    rw [Bool.eq_iff_iff, List.isEmpty_iff_length_eq_zero, List.isEmpty_iff_length_eq_zero, hfiles]
  rw [isEmpty, isEmpty, Directory.directories, Directory.directories, hnone, Directory.files,
    Directory.files, hempty]

end Outline

namespace Theme

open Outline

/-! ## Marks -/

/-- Whether a character is one that markup is made of. -/
def isMark (c : Char) : Bool := ['<', '>', '"', '\''].contains c

/-- The marks of a text in their order. -/
def marks (cs : List Char) : List Char := cs.filter isMark

/-- Text in markup has no marks. -/
theorem marks_escape (text : List Char) : marks (escape text) = [] := by
  have hchar (c : Char) : marks (escapeChar c) = [] := by
    unfold escapeChar
    split
    next => decide +kernel
    next => decide +kernel
    next => decide +kernel
    next => decide +kernel
    next => decide +kernel
    next hamp hless hgreater hquote hapostrophe => simp_all [marks, isMark]
  rw [marks, escape, List.filter_flatMap, List.flatMap_eq_nil_iff]
  exact fun c _ ↦ hchar c

/-- Two pieces that stand in one place: the same markup, the same finished HTML, or any texts. -/
inductive Piece.Matches : Piece → Piece → Prop where
  | fixed (markup : String) : Matches (.fixed markup) (.fixed markup)
  | shown (text text' : List Char) : Matches (.shown text) (.shown text')
  | trusted (html : List Char) : Matches (.trusted html) (.trusted html)

attribute [simp] Piece.Matches.fixed Piece.Matches.shown Piece.Matches.trusted

/-- Pieces that stand in the same places, one by one. -/
abbrev Matching : List Piece → List Piece → Prop := List.Forall₂ Piece.Matches

/-- Matching pieces have the same marks. -/
theorem Matching.marks_eq {pieces pieces' : List Piece} (h : Matching pieces pieces') :
    marks (writePieces pieces) = marks (writePieces pieces') := by
  induction h with
  | nil => rfl
  | @cons piece piece' rest rest' hpiece _ ih =>
    have hhere : marks piece.write = marks piece'.write := by
      cases hpiece with
      | fixed markup => rfl
      | shown text text' => exact (marks_escape text).trans (marks_escape text').symm
      | trusted html => rfl
    simp only [marks, writePieces, List.flatMap_cons, List.filter_append] at hhere ih ⊢
    rw [hhere, ih]

/-- Lists of one length are written with matching pieces if any two of their items are. -/
private theorem matching_flatMap {α : Type} {f g : α → List Piece}
    (h : ∀ a b, Matching (f a) (g b)) {items items' : List α}
    (hlength : items.length = items'.length) : Matching (items.flatMap f) (items'.flatMap g) := by
  induction items generalizing items' with
  | nil =>
    obtain rfl := List.length_eq_zero_iff.mp hlength.symm
    exact .nil
  | cons a rest ih =>
    obtain ⟨b, rest', rfl⟩ := List.exists_cons_of_length_eq_add_one hlength.symm
    rw [List.flatMap_cons, List.flatMap_cons]
    exact List.rel_append (h a b) (ih (Nat.succ.inj hlength))

/-! ## Pages -/

variable {guide guide' : GuideContext} {page page' : PageContext}

private theorem matching_filePieces (file file' : File) :
    Matching (filePieces page file) (filePieces page' file') := by
  simp [filePieces, say]

mutual

/-- Outlines of one shape are written with the same markup. -/
theorem matching_outlinePieces : ∀ {d d' : Directory}, d.SameShape d' →
    Matching (outlinePieces page d) (outlinePieces page' d')
  | .node _ _ directories files, .node _ _ directories' files', h => by
    obtain ⟨hfiles, hdirectories⟩ := h
    rw [outlinePieces, outlinePieces]
    refine List.rel_append (List.rel_append (.cons (.fixed _) ?_) ?_) (by simp)
    · exact matching_directoryPieces hdirectories
    · exact matching_flatMap matching_filePieces hfiles

/-- Subdirectories of one shape are written with the same markup. -/
theorem matching_directoryPieces : ∀ {ds ds' : List Directory}, SameShapes ds ds' →
    Matching (directoryPieces page ds) (directoryPieces page' ds')
  | [], [], _ => by simp [directoryPieces]
  | d :: rest, d' :: rest', h => by
    obtain ⟨hd, hrest⟩ := h
    rw [directoryPieces, directoryPieces]
    refine List.rel_append (List.rel_append (by simp [say]) ?_) (.cons (.fixed _) ?_)
    · exact matching_outlinePieces hd
    · exact matching_directoryPieces hrest

end

/-- Whether a page has a link to a code. -/
def hasLink (code : Option String) : Bool := code.any (· != "")

/-- A link to a neighbour is written exactly if there is a code to link to. -/
theorem neighbour_eq (guide : GuideContext) (relation label : String) (code : Option String) :
    neighbour guide relation label code = if hasLink code then
        [.fixed ("        <a class=\"" ++ relation ++ "\" rel=\"" ++ relation ++ "\" href=\""),
          say guide.baseUrl, say (code.getD ""), .fixed ("/\">" ++ label ++ "</a>\n")]
      else [] := by
  unfold neighbour
  split
  · rfl
  · rfl
  · next code hcode => simp_all [hasLink]

private theorem matching_neighbour (relation label : String) {code code' : Option String}
    (h : hasLink code = hasLink code') :
    Matching (neighbour guide relation label code) (neighbour guide' relation label code') := by
  rw [neighbour_eq, neighbour_eq, h]
  split <;> simp [say]

/-- Pages of one shape: with the same content, workspaces of one shape, and links to the same sides.
Titles, codes, addresses and numbers may be any. -/
structure PageShape (page page' : PageContext) : Prop where
  content : page.content = page'.content
  workspace : page.workspace.SameShape page'.workspace
  previous : hasLink page.previous = hasLink page'.previous
  next : hasLink page.next = hasLink page'.next

private theorem matching_pageWorkspace (h : page.workspace.SameShape page'.workspace) :
    Matching (pageWorkspace page) (pageWorkspace page') := by
  rw [pageWorkspace, pageWorkspace, h.isEmpty_eq]
  refine List.rel_append (.cons (.fixed _) ?_) (by simp)
  split
  · simp
  · exact List.rel_append (.cons (.fixed _) (matching_outlinePieces h)) (by simp)

private theorem matching_pagePieces (h : PageShape page page') :
    Matching (pagePieces guide page) (pagePieces guide' page') := by
  refine List.rel_append (List.rel_append (List.rel_append (List.rel_append ?_ ?_) ?_)
    (matching_pageWorkspace h.workspace)) (by simp [say])
  · simp [pageHead, say]
  · simp [pageBar, say]
  · rw [pageArticle, pageArticle, h.content]
    exact List.rel_append (List.rel_append (List.rel_append (by simp)
      (matching_neighbour _ _ h.previous)) (matching_neighbour _ _ h.next)) (by simp)

private theorem matching_landingPieces (h : guide.index.length = guide'.index.length) :
    Matching (landingPieces guide) (landingPieces guide') := by
  refine List.rel_append (List.rel_append (by simp [say]) ?_) (by simp)
  have hnone : guide.index.isEmpty = guide'.index.isEmpty := by
    rw [Bool.eq_iff_iff, List.isEmpty_iff_length_eq_zero, List.isEmpty_iff_length_eq_zero, h]
  rw [listPieces, listPieces, hnone]
  split
  · simp
  · refine List.rel_append (.cons (.fixed _) (matching_flatMap (fun entry entry' ↦ ?_) h)) (by simp)
    simp [entryPieces, say]

/-! ## Renderings -/

theorem render_page (tree : FileTree) (guide : GuideContext) (page : PageContext)
    (slug : Option String) :
    render tree .packaged pageTemplate guide (some page) slug =
      .ok (writePieces (pagePieces guide page)) := rfl

theorem render_landing (tree : FileTree) (guide : GuideContext) (page : Option PageContext)
    (slug : Option String) :
    render tree .packaged guideTemplate guide page slug =
      .ok (writePieces (landingPieces guide)) := by
  cases page <;> rfl

/-- The packaged theme renders every page and every landing page. Two pages of one shape are
rendered with the same marks in the same order, whatever their texts are, and so are the landing
pages of two guides with as many pages. -/
theorem marks_render (tree tree' : FileTree) (slug slug' : Option String)
    (hguide : guide.index.length = guide'.index.length) (hpage : PageShape page page') :
    (∃ html html', render tree .packaged pageTemplate guide (some page) slug = .ok html ∧
      render tree' .packaged pageTemplate guide' (some page') slug' = .ok html' ∧
      marks html = marks html') ∧
    ∀ shown shown' : Option PageContext, ∃ html html',
      render tree .packaged guideTemplate guide shown slug = .ok html ∧
      render tree' .packaged guideTemplate guide' shown' slug' = .ok html' ∧
      marks html = marks html' := by
  refine ⟨⟨_, _, render_page .., render_page .., ?_⟩, fun shown shown' ↦
    ⟨_, _, render_landing .., render_landing .., ?_⟩⟩
  · exact (matching_pagePieces hpage).marks_eq
  · exact (matching_landingPieces hguide).marks_eq

/-- A guide and a page whose texts are plain words. -/
def plainTexts : GuideContext × PageContext :=
  (⟨"T", "/", "monokai", [⟨"A", "a"⟩]⟩, ⟨0, "A", "a", ['A'],
    .node "" 0 [.node "src" 1 [] [⟨"main", 2, "src/main"⟩]] [], "/a/", none, some "b"⟩)

/-- A guide and a page of the same shapes whose texts are markup. -/
def hostileTexts : GuideContext × PageContext :=
  (⟨"<T>", "'/", "\">", [⟨"</a>", "\"<"⟩]⟩, ⟨1, "</title><script>", "\" onload=\"x", ['A'],
    .node "" 0 [.node "<b>" 1 [] [⟨"'>", 2, "<b>/'>"⟩]] [], "\"><script>", some "",
    some "'><script>"⟩)

/-- The texts that are markup add no mark to those that are plain words. -/
theorem marks_render_hostile :
    plainTexts.1.index.length = hostileTexts.1.index.length ∧
    PageShape plainTexts.2 hostileTexts.2 ∧
    ∃ html html', render ⟨[]⟩ .packaged pageTemplate plainTexts.1 (some plainTexts.2) none =
        .ok html ∧
      render ⟨[]⟩ .packaged pageTemplate hostileTexts.1 (some hostileTexts.2) none = .ok html' ∧
      marks html = marks html' := by
  have hguide : plainTexts.1.index.length = hostileTexts.1.index.length := rfl
  have hpage : PageShape plainTexts.2 hostileTexts.2 :=
    ⟨rfl, ⟨rfl, ⟨rfl, trivial⟩, trivial⟩, by decide, by decide⟩
  exact ⟨hguide, hpage, (marks_render ⟨[]⟩ ⟨[]⟩ none none hguide hpage).1⟩

end Theme

end Guidebook
