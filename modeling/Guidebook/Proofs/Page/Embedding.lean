import Mathlib
import Guidebook.Page.Content
import Guidebook.Proofs.Html.Sanitized
import Guidebook.Proofs.Markdown.Written

/-!
# Embedding pages

The content of a page stands in the guide as it is. A reader finds nothing in it but text and
elements that may be embedded; and if no fence brings markup of its own, each of the elements is one
of the page's tree or of a display of code.
-/

namespace Guidebook

namespace Html

/-! ## What is read of marked text -/

/-- An element as it is read of text whose start tags some marks account for. -/
def ReadFor (marks : List (String × List String)) (tag : String) (attributes : List Attribute) :
    Prop :=
  tag ∈ bareTags ∧ attributes = [] ∨ ∃ written, IsMarked marks tag written ∧
    ∀ a ∈ attributes, ∃ b ∈ written, a = ⟨b.1, valueOf (Text.universalNewlines b.2)⟩

variable {marks : List (String × List String)}

theorem parse_marked {html : List Char} (h : Marked (WrittenFor marks) html) :
    ∀ node ∈ parse html, node.MadeOf fun vocabulary tag attributes ↦
      vocabulary = .html ∧ ReadFor marks tag attributes := by
  refine h.parse (fun tag htag ↦ .inl ⟨htag, rfl⟩) ?_
  rintro t ⟨written, hmarked, hsub⟩
  have hspecial : ∀ mark ∈ Markdown.vocabulary ++ Code.displayMarks, mark.1 ∉ specialTags := by
    decide +kernel
  obtain ⟨names, hknown, -⟩ := hmarked.isKnown
  refine ⟨hspecial _ hknown, .inr ⟨written, hmarked, fun a ha ↦ ?_⟩⟩
  obtain ⟨name, value, hmem, rfl⟩ := StartTag.mem_attributes ha
  obtain ⟨b, hb, heq⟩ := List.mem_map.mp hmem
  obtain ⟨rfl, rfl⟩ := Prod.mk.inj heq
  exact ⟨b, hsub hb, rfl⟩

end Html

namespace Page

open Html Markdown

/-! ## Elements of a page -/

/-- The attributes of HTML whose values are addresses. -/
def addressNames : List String :=
  ["action", "archive", "background", "cite", "classid", "codebase", "data", "formaction", "href",
    "icon", "imagesrcset", "itemid", "itemtype", "longdesc", "manifest", "ping", "poster",
    "profile", "src", "srcset", "usemap", "xlink:href"]

/-- The styles that a cell may have: they say where its text stands. -/
def alignments : List String := ["text-align:left", "text-align:center", "text-align:right"]

/-- An element of a page's content that the marks of the page account for. -/
structure IsOwn (marks : List (String × List String)) (tag : String)
    (attributes : List Attribute) : Prop where
  /-- It was left out of the markup, or it is one of the page with attributes that this one has; a
  link also says how it leads on. -/
  isMarked : tag ∈ bareTags ∧ attributes = [] ∨ ∃ names, (tag, names) ∈ marks ∧
    ∀ a ∈ attributes, a.name ∈ names ∨ tag = "a" ∧ a = linkRelation
  /-- Of its attributes none but links and sources are addresses. -/
  areAddresses : ∀ a ∈ attributes, a.name ∈ addressNames → isAddress a.name = true
  /-- A style does nothing but align. -/
  isAligned : ∀ a ∈ attributes, a.name = "style" → String.ofList a.value ∈ alignments

variable {marks : List (String × List String)}

/-- What is read of a style that was written for a cell and cleaned. -/
theorem mem_alignments {style : List Char} (h : String.ofList style ∈ cellStyles) :
    String.ofList (Attribute.reread ⟨"style",
      cleanStyle (valueOf (Text.universalNewlines style))⟩).value ∈ alignments := by
  have hstyles : ∀ style ∈ cellStyles, String.ofList (Attribute.reread ⟨"style",
      cleanStyle (valueOf (Text.universalNewlines style.toList))⟩).value ∈ alignments := by
    decide +kernel
  simpa using hstyles _ h

/-- What cleaning keeps of an element is the page's own. -/
theorem isOwn_of_readFor {tag : String} {given attributes : List Attribute}
    (h : ReadFor marks tag given)
    (hkept : ∀ a ∈ attributes, ∃ b ∈ cleanAttributes tag given, a = b.reread) :
    IsOwn marks tag attributes := by
  rcases h with ⟨hbare, rfl⟩ | ⟨written, hmarked, hread⟩
  · have hlink : tag ≠ "a" := by
      rintro rfl
      exact absurd hbare (by decide)
    have hnone : attributes = [] := List.eq_nil_iff_forall_not_mem.mpr fun a ha ↦ by
      obtain ⟨b, hb, -⟩ := hkept a ha
      rcases mem_cleanAttributes hb with ⟨htag, -⟩ | ⟨c, hc, -⟩
      · exact hlink htag
      · cases hc
    subst hnone
    exact ⟨.inl ⟨hbare, rfl⟩, nofun, nofun⟩
  · -- an attribute is the link's relation or stems from one that was written
    have hcases : ∀ a ∈ attributes, tag = "a" ∧ a = linkRelation ∨
        ∃ b ∈ written, a.name = b.1 ∧ (a.name = "style" → tag ∈ ["td", "th"] ∧
          a = Attribute.reread ⟨"style", cleanStyle (valueOf (Text.universalNewlines b.2))⟩) := by
      intro a ha
      obtain ⟨kept, hkept, rfl⟩ := hkept a ha
      rcases mem_cleanAttributes hkept with ⟨htag, rfl⟩ | ⟨c, hc, hclean⟩
      · exact .inl ⟨htag, reread_linkRelation⟩
      · obtain ⟨b, hb, rfl⟩ := hread c hc
        obtain ⟨hallowed, hname, -, hvalue⟩ := of_cleanAttribute? hclean
        refine .inr ⟨b, hb, hname, fun hstyle ↦ ?_⟩
        have hstyle : kept.name = "style" := hstyle
        rw [if_pos hstyle] at hvalue
        refine ⟨?_, ?_⟩
        · rcases tag_of_style (hstyle ▸ hallowed) with rfl | rfl <;> decide
        · rw [← hvalue, ← hstyle]
    obtain ⟨names, hmem, hnames⟩ := hmarked.isNamed
    obtain ⟨known, hknown, hknownNames⟩ := hmarked.isKnown
    have haddresses : ∀ mark ∈ Markdown.vocabulary ++ Code.displayMarks, ∀ name ∈ mark.2,
        name ∈ addressNames → isAddress name = true := by decide
    refine ⟨.inr ⟨names, hmem, fun a ha ↦ ?_⟩, fun a ha hname ↦ ?_, fun a ha hstyle ↦ ?_⟩
    · rcases hcases a ha with hlink | ⟨b, hb, hname, -⟩
      · exact .inr hlink
      · exact .inl (hname ▸ hnames b hb)
    · rcases hcases a ha with ⟨-, rfl⟩ | ⟨b, hb, heq, -⟩
      · exact absurd hname (by decide)
      · exact haddresses _ hknown _ (heq ▸ hknownNames b hb) hname
    · rcases hcases a ha with ⟨-, rfl⟩ | ⟨b, hb, heq, hvalue⟩
      · exact absurd hstyle (by decide)
      · obtain ⟨hcell, rfl⟩ := hvalue hstyle
        exact mem_alignments (hmarked.isAligned hcell b hb (heq.symm.trans hstyle))

/-! ## Pages -/

/-- A page with a tag in its text and one in its code. -/
def taggedPage : List Char := "<b>\n\n```\n<b>\n```\n".toList

/-- The content of the page with tags. -/
def taggedHtml : List Char :=
  ("<p>&lt;b&gt;</p>\n<div class=\"codehilite\"><pre><span></span><code>&lt;b&gt;\n" ++
    "</code></pre></div>").toList

theorem content_taggedPage : content "monokai" taggedPage = .ok taggedHtml := by
  have hwritten : toHtml "monokai" taggedPage = .ok taggedHtml := by cbv
  have hclean : sanitize taggedHtml = taggedHtml := by decide +kernel
  rw [content, hwritten]
  exact congrArg Except.ok hclean

end Page

end Guidebook
