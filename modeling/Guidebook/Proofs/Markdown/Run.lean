import Guidebook.Markdown.Element
import Guidebook.Proofs.Text.Split

/-!
# Running text

Texts of glyphs as texts of characters, and their lines; elements that are nothing but text.
-/

namespace Guidebook.Markdown

theorem Glyph.isChar_iff {g : Glyph} {c : Char} : g.isChar c = true ↔ g = .char c := by
  cases g <;> simp [isChar, isOf, char?]

@[simp] theorem Glyph.isChar_char (c d : Char) : (Glyph.char d).isChar c = (d == c) := rfl

@[simp] theorem Glyph.isBlank_char (c : Char) : (Glyph.char c).isBlank = Text.isBlank c := rfl

@[simp] theorem Glyph.isOf_char (p : Char → Bool) (c : Char) : (Glyph.char c).isOf p = p c := rfl

namespace Run

@[simp] theorem ofChars_nil : ofChars [] = [] := rfl

@[simp] theorem ofChars_cons (c : Char) (cs : List Char) :
    ofChars (c :: cs) = .char c :: ofChars cs := rfl

@[simp] theorem ofChars_append (front back : List Char) :
    ofChars (front ++ back) = ofChars front ++ ofChars back := List.map_append

/-- Lines joined again are the text. -/
theorem ofLines_lines (text : Run) : ofLines text.lines = text := by
  induction text with
  | nil => rfl
  | cons g text ih =>
    obtain ⟨first, others, hlines⟩ :=
      List.exists_cons_of_ne_nil (Text.splitBy_ne_nil (p := Glyph.isChar '\n') text)
    rw [ofLines, lines] at ih ⊢
    rw [Text.splitBy]
    rw [hlines] at ih ⊢
    cases hfeed : g.isChar '\n' with
    | true =>
      rw [if_pos rfl, Glyph.isChar_iff.mp hfeed, ← ih]
      rfl
    | false =>
      rw [if_neg (by simp), ← ih]
      cases others <;> rfl

/-- The lines of characters are their lines. -/
theorem lines_ofChars (cs : List Char) :
    lines (ofChars cs) = (Text.splitOnChar '\n' cs).map ofChars := by
  induction cs with
  | nil => rfl
  | cons c cs ih =>
    rw [lines, Text.splitOnChar] at ih ⊢
    rw [ofChars_cons, Text.splitBy, Text.splitBy, ih, Glyph.isChar_char]
    split
    · rfl
    · cases Text.splitBy (· == '\n') cs <;> rfl

/-- Lines of characters joined are their characters joined. -/
theorem ofLines_map_ofChars (lines : List (List Char)) :
    ofLines (lines.map ofChars) = ofChars (Text.joinWith ['\n'] lines) := by
  induction lines with
  | nil => rfl
  | cons line lines ih =>
    rw [ofLines] at ih ⊢
    cases lines with
    | nil => rfl
    | cons next rest =>
      rw [List.map_cons, List.map_cons, Text.joinWith_cons_cons, ← List.map_cons, ih,
        Text.joinWith_cons_cons]
      simp

end Run

namespace Element

@[simp] theorem tag_leaf (tag : String) (text : Run) : (leaf tag text).tag = tag := rfl

@[simp] theorem text_leaf (tag : String) (text : Run) : (leaf tag text).text = text := rfl

@[simp] theorem isSealed_leaf (tag : String) (text : Run) : (leaf tag text).isSealed = false := rfl

@[simp] theorem children_leaf (tag : String) (text : Run) : (leaf tag text).children = [] := rfl

@[simp] theorem tail_leaf (tag : String) (text : Run) : (leaf tag text).tail = [] := rfl

@[simp] theorem tag_withChildren (e : Element) (children : List Element) :
    (e.withChildren children).tag = e.tag := rfl

@[simp] theorem text_withChildren (e : Element) (children : List Element) :
    (e.withChildren children).text = e.text := rfl

@[simp] theorem children_withChildren (e : Element) (children : List Element) :
    (e.withChildren children).children = children := rfl

@[simp] theorem withChildren_withChildren (e : Element) (children others : List Element) :
    (e.withChildren children).withChildren others = e.withChildren others := rfl

end Element

end Guidebook.Markdown
