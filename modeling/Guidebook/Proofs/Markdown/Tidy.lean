import Guidebook.Markdown.Table
import Guidebook.Proofs.Markdown.Run

/-!
# Tidy trees

Trees of the elements that Markdown has, in which nothing else can become an element: what their
text holds as finished is no tag, and whatever else they hold is escaped when it is written.
-/

namespace Guidebook.Markdown

/-! ## Definitions -/

/-- Characters among which no tag begins and no attribute ends. -/
def IsQuiet (cs : List Char) : Prop := '<' ∉ cs ∧ '"' ∉ cs

/-- The elements of Markdown with the attributes each may have. -/
def vocabulary : List (String × List String) :=
  [("div", []), ("p", []), ("h1", []), ("h2", []), ("h3", []), ("h4", []), ("h5", []), ("h6", []),
    ("hr", []), ("blockquote", []), ("ul", []), ("ol", ["start"]), ("li", []), ("pre", []),
    ("code", []), ("table", []), ("thead", []), ("tbody", []), ("tr", []), ("th", ["style"]),
    ("td", ["style"]), ("em", []), ("strong", []), ("a", ["href", "title"]),
    ("img", ["src", "title", "alt"]), ("br", [])]

/-- An element of Markdown; the style of a cell says where its text stands. -/
structure IsKnown (tag : String) (attributes : List (String × Run)) : Prop where
  isNamed : ∃ names, (tag, names) ∈ vocabulary ∧ ∀ a ∈ attributes, a.1 ∈ names
  isAligned : ∀ a ∈ attributes, a.1 = "style" →
    ∃ (column : Table.Alignment) (style : String), column.style? = some style ∧
      a.2 = Run.ofString style

mutual

/-- What is finished in a glyph is no markup but its own elements. -/
inductive Glyph.IsTidy : Glyph → Prop
  | char (c : Char) : Glyph.IsTidy (.char c)
  | kept (c : Char) : Glyph.IsTidy (.kept c)
  | held {text : List Char} (h : IsQuiet text) : Glyph.IsTidy (.held text)
  | amp : Glyph.IsTidy .amp
  | raw {html : List Char} (h : IsQuiet html) : Glyph.IsTidy (.raw html)
  | node {element : Element} (h : Element.IsTidy element) : Glyph.IsTidy (.node element)

/-- An element of Markdown with tidy parts. -/
inductive Element.IsTidy : Element → Prop
  | mk {tag : String} {attributes : List (String × List Glyph)} {text : List Glyph}
    {isSealed : Bool} {children : List Element} {tail : List Glyph}
    (isKnown : IsKnown tag attributes) (areTidy : ∀ a ∈ attributes, ∀ g ∈ a.2, Glyph.IsTidy g)
    (htext : ∀ g ∈ text, Glyph.IsTidy g) (hchildren : ∀ child ∈ children, Element.IsTidy child)
    (htail : ∀ g ∈ tail, Glyph.IsTidy g) :
    Element.IsTidy (.mk tag attributes text isSealed children tail)

end

/-- Text of tidy glyphs. -/
def Run.IsTidy (text : Run) : Prop := ∀ g ∈ text, g.IsTidy

/-! ## Text -/

namespace Run.IsTidy

variable {text part : Run}

theorem subset (h : text.IsTidy) (hpart : part ⊆ text) : part.IsTidy := fun g hg ↦ h g (hpart hg)

theorem nil : Run.IsTidy [] := fun _ h ↦ absurd h List.not_mem_nil

theorem cons {g : Glyph} (hg : g.IsTidy) (h : text.IsTidy) : Run.IsTidy (g :: text) :=
  List.forall_mem_cons.mpr ⟨hg, h⟩

theorem append (h : text.IsTidy) (hpart : part.IsTidy) : Run.IsTidy (text ++ part) :=
  List.forall_mem_append.mpr ⟨h, hpart⟩

theorem ofChars (cs : List Char) : (Run.ofChars cs).IsTidy := fun g hg ↦ by
  obtain ⟨c, -, rfl⟩ := List.mem_map.mp hg
  exact .char c

theorem take (h : text.IsTidy) (n : Nat) : Run.IsTidy (text.take n) :=
  h.subset (List.take_subset _ _)

theorem drop (h : text.IsTidy) (n : Nat) : Run.IsTidy (text.drop n) :=
  h.subset (List.drop_subset _ _)

theorem takeWhile (h : text.IsTidy) (p : Glyph → Bool) : Run.IsTidy (text.takeWhile p) :=
  h.subset (List.takeWhile_prefix p).subset

theorem dropWhile (h : text.IsTidy) (p : Glyph → Bool) : Run.IsTidy (text.dropWhile p) :=
  h.subset (List.dropWhile_suffix p).subset

theorem reverse (h : text.IsTidy) : Run.IsTidy text.reverse :=
  fun g hg ↦ h g (List.mem_reverse.mp hg)

theorem stripBy (h : text.IsTidy) (p : Glyph → Bool) : Run.IsTidy (Text.stripBy p text) :=
  fun g hg ↦ h g (Text.mem_of_mem_stripBy hg)

theorem stripEnd (h : text.IsTidy) (p : Glyph → Bool) : Run.IsTidy (Text.stripEnd p text) :=
  (h.reverse.dropWhile p).reverse

theorem lines (h : text.IsTidy) : ∀ line ∈ text.lines, Run.IsTidy line := fun _ hline g hg ↦
  h g (Text.of_mem_splitBy hline hg).2

theorem ofLines {lines : List Run} (h : ∀ line ∈ lines, line.IsTidy) :
    (Run.ofLines lines).IsTidy := by
  intro g hg
  rcases Text.mem_joinWith hg with hfeed | ⟨line, hline, hg⟩
  · rw [List.mem_singleton.mp hfeed]
    exact .char '\n'
  · exact h line hline g hg

end Run.IsTidy

/-! ## Elements -/

theorem isKnown_nil {tag : String} (h : tag ∈ vocabulary.map (·.1)) : IsKnown tag [] := by
  obtain ⟨⟨_, names⟩, hmem, rfl⟩ := List.mem_map.mp h
  exact ⟨⟨names, hmem, nofun⟩, nofun⟩

/-- An element that is no cell, with attributes that it may have. -/
theorem isKnown_of_mem {tag : String} {names : List String} (h : (tag, names) ∈ vocabulary)
    (hstyle : "style" ∉ names) {attributes : List (String × Run)}
    (hnames : ∀ a ∈ attributes, a.1 ∈ names) : IsKnown tag attributes :=
  ⟨⟨names, h, hnames⟩, fun a ha heq ↦ absurd (heq ▸ hnames a ha) hstyle⟩

/-- An element of Markdown with tidy text, whose children are such as a predicate tells. -/
structure Element.IsFrame (q : Element → Prop) (e : Element) : Prop where
  isKnown : IsKnown e.tag e.attributes
  areTidy : ∀ a ∈ e.attributes, Run.IsTidy a.2
  text : Run.IsTidy e.text
  children : ∀ child ∈ e.children, q child
  tail : Run.IsTidy e.tail

namespace Element

variable {q : Element → Prop} {e child last : Element}

theorem isTidy_iff : e.IsTidy ↔ e.IsFrame IsTidy := by
  refine ⟨fun h ↦ ?_, fun h ↦ ?_⟩
  · obtain ⟨isKnown, areTidy, text, children, tail⟩ := h
    exact ⟨isKnown, areTidy, text, children, tail⟩
  · cases e
    exact .mk h.isKnown h.areTidy h.text h.children h.tail

namespace IsFrame

theorem mono {r : Element → Prop} (h : e.IsFrame q) (hqr : ∀ e, q e → r e) : e.IsFrame r :=
  ⟨h.isKnown, h.areTidy, h.text, fun child hchild ↦ hqr child (h.children child hchild), h.tail⟩

theorem leaf {tag : String} (hknown : tag ∈ vocabulary.map (·.1)) {text : Run}
    (htext : text.IsTidy) :
    (leaf tag text).IsFrame q :=
  ⟨isKnown_nil hknown, nofun, htext, nofun, .nil⟩

theorem bare {tag : String} (hknown : tag ∈ vocabulary.map (·.1)) : (bare tag).IsFrame q :=
  .leaf hknown .nil

theorem withText (h : e.IsFrame q) {text : Run} (htext : text.IsTidy) :
    (e.withText text).IsFrame q :=
  { h with text := htext }

theorem withTail (h : e.IsFrame q) {tail : Run} (htail : tail.IsTidy) :
    (e.withTail tail).IsFrame q :=
  { h with tail := htail }

theorem withChildren {r : Element → Prop} (h : e.IsFrame q) {children : List Element}
    (hchildren : ∀ child ∈ children, r child) : (e.withChildren children).IsFrame r :=
  { h with children := hchildren }

theorem sealText (h : e.IsFrame q) : e.sealText.IsFrame q := { h with }

/-- An attribute of an element that has it. -/
theorem withAttribute (h : e.IsFrame q) {name : String} {value : Run} (hvalue : value.IsTidy)
    (hknown : IsKnown e.tag (e.attributes ++ [(name, value)])) :
    (e.withAttribute name value).IsFrame q :=
  { h with
    isKnown := hknown
    areTidy := List.forall_mem_append.mpr ⟨h.areTidy, List.forall_mem_singleton.mpr hvalue⟩ }

theorem push (h : e.IsFrame q) (hchild : q child) : (e.push child).IsFrame q :=
  h.withChildren (List.forall_mem_append.mpr ⟨h.children, List.forall_mem_singleton.mpr hchild⟩)

theorem setLast (h : e.IsFrame q) (hchild : q child) : (e.setLast child).IsFrame q :=
  h.withChildren (List.forall_mem_append.mpr
    ⟨fun _ hmem ↦ h.children _ (List.dropLast_subset _ hmem), List.forall_mem_singleton.mpr hchild⟩)

theorem lastChild? (h : e.IsFrame q) (hlast : e.lastChild? = some last) : q last :=
  h.children last (List.mem_of_getLast? hlast)

end IsFrame

end Element

/-! ## Displays -/

/-- A tidy tree in which displays of code stand, each in a paragraph of its own. -/
inductive Element.Shows (displays : List Char → Prop) : Element → Prop
  | display {html : List Char} (feeds : Nat) (h : displays html) :
    Element.Shows displays (.leaf "p" (.raw html :: List.replicate feeds (.char '\n')))
  | mk {tag : String} {attributes : List (String × List Glyph)} {text : List Glyph}
    {isSealed : Bool} {children : List Element} {tail : List Glyph}
    (isKnown : IsKnown tag attributes) (areTidy : ∀ a ∈ attributes, Run.IsTidy a.2)
    (htext : Run.IsTidy text) (hchildren : ∀ child ∈ children, Element.Shows displays child)
    (htail : Run.IsTidy tail) :
    Element.Shows displays (.mk tag attributes text isSealed children tail)

namespace Element

variable {displays : List Char → Prop} {e : Element}

theorem shows_iff : e.Shows displays ↔ (∃ html feeds, displays html ∧
    e = .leaf "p" (.raw html :: List.replicate feeds (.char '\n'))) ∨
      e.IsFrame (Shows displays) := by
  refine ⟨fun h ↦ ?_, fun h ↦ ?_⟩
  · cases h with
    | display feeds h => exact .inl ⟨_, feeds, h, rfl⟩
    | mk isKnown areTidy htext hchildren htail =>
      exact .inr ⟨isKnown, areTidy, htext, hchildren, htail⟩
  · rcases h with ⟨html, feeds, h, rfl⟩ | h
    · exact .display feeds h
    · cases e
      exact .mk h.isKnown h.areTidy h.text h.children h.tail

theorem Shows.of_frame (h : e.IsFrame (Shows displays)) : e.Shows displays := shows_iff.mpr (.inr h)

/-- A tidy tree shows nothing. -/
theorem IsTidy.shows {e : Element} : e.IsTidy → e.Shows displays
  | .mk isKnown areTidy htext hchildren htail =>
    .mk isKnown areTidy htext (fun child hchild ↦ (hchildren child hchild).shows) htail

end Element

/-! ## Words -/

theorem glyphWords_eq (text : Run) : glyphWords text = text.flatMap wordsOf := by
  induction text with
  | nil => rfl
  | cons g rest ih => rw [glyphWords, ih, List.flatMap_cons]

theorem childWords_eq (children : List Element) :
    childWords children = children.flatMap fun e ↦ e.words ++ glyphWords e.tail := by
  induction children with
  | nil => rfl
  | cons e rest ih =>
    cases e
    rw [childWords, ih, List.flatMap_cons, Element.words]
    rfl

mutual

theorem Glyph.IsTidy.words {g : Glyph} : g.IsTidy → Run.IsTidy (wordsOf g)
  | .char c => .cons (.char c) .nil
  | .kept c => .cons (.kept c) .nil
  | .held _ => .ofChars _
  | .amp => .cons .amp .nil
  | .raw h => .cons (.raw h) .nil
  | .node h => h.words.1

theorem Element.IsTidy.words {e : Element} :
    e.IsTidy → Run.IsTidy e.words ∧ Run.IsTidy (glyphWords e.tail)
  | .mk _ _ text children tail => by
    rw [Element.words, glyphWords_eq, glyphWords_eq, childWords_eq]
    refine ⟨.append (List.forall_mem_flatMap.mpr fun g hg ↦ (text g hg).words)
      (List.forall_mem_flatMap.mpr fun child hchild ↦ ?_),
      List.forall_mem_flatMap.mpr fun g hg ↦ (tail g hg).words⟩
    exact Run.IsTidy.append (children child hchild).words.1 (children child hchild).words.2

end

end Guidebook.Markdown
