import Mathlib.Data.Nat.Digits.Lemmas
import Guidebook.Markdown.CodeBlock
import Guidebook.Proofs.Code.Companion
import Guidebook.Proofs.Html.Marked
import Guidebook.Proofs.Markdown.Tidy
import Guidebook.Proofs.Result

/-!
# Displays of code

The HTML of a block of code is made of a few start tags whatever the code is: what is shown of it is
escaped. The settings of a block go into the HTML as they are, so this holds of settings in which
nothing is markup.
-/

namespace Guidebook

open Markdown (IsQuiet)

/-- The elements of a display with the names of their attributes. -/
def Code.displayMarks : List (String × List String) :=
  [("div", ["class", "style"]), ("pre", ["id", "class", "style"]), ("code", ["class"]),
    ("span", ["class"]), ("a", ["href", "id", "name"]), ("table", ["class"]), ("tr", []),
    ("th", ["colspan", "class"]), ("td", ["class"])]

namespace Html

/-- The styles of cells as they are written. -/
def cellStyles : List String := ["text-align: left;", "text-align: center;", "text-align: right;"]

/-- An element of a page as it is written, which some marks account for: each is a tag with the
names of attributes. The style of a cell says where its text stands. -/
structure IsMarked (marks : List (String × List String)) (tag : String)
    (written : List (String × List Char)) : Prop where
  isKnown : ∃ names, (tag, names) ∈ Markdown.vocabulary ++ Code.displayMarks ∧
    ∀ a ∈ written, a.1 ∈ names
  isNamed : ∃ names, (tag, names) ∈ marks ∧ ∀ a ∈ written, a.1 ∈ names
  isAligned : tag ∈ ["td", "th"] → ∀ a ∈ written, a.1 = "style" → String.ofList a.2 ∈ cellStyles

/-- Start tags of elements that some marks account for. -/
def WrittenFor (marks : List (String × List String)) (t : StartTag) : Prop :=
  ∃ written, IsMarked marks t.name written ∧ t.attributes ⊆ written

variable {marks more : List (String × List String)}

theorem IsMarked.mono {tag : String} {written : List (String × List Char)}
    (h : IsMarked marks tag written) (hsub : marks ⊆ more) : IsMarked more tag written := by
  obtain ⟨names, hmem, hnames⟩ := h.isNamed
  exact ⟨h.isKnown, ⟨names, hsub hmem, hnames⟩, h.isAligned⟩

theorem WrittenFor.mono {t : StartTag} (h : WrittenFor marks t) (hsub : marks ⊆ more) :
    WrittenFor more t := by
  obtain ⟨written, hmarked, hwritten⟩ := h
  exact ⟨written, hmarked.mono hsub, hwritten⟩

/-- What is known of elements goes for their names. -/
private theorem isName_known : ∀ mark ∈ Markdown.vocabulary ++ Code.displayMarks,
    isName mark.1 = true ∧ ∀ name ∈ mark.2, isName name = true := by decide

theorem IsMarked.isName {tag : String} {written : List (String × List Char)}
    (h : IsMarked marks tag written) :
    Html.isName tag = true ∧ ∀ a ∈ written, Html.isName a.1 = true := by
  obtain ⟨names, hmem, hnames⟩ := h.isKnown
  exact ⟨(isName_known _ hmem).1, fun a ha ↦ (isName_known _ hmem).2 _ (hnames a ha)⟩

end Html

namespace Markdown

theorem IsQuiet.nil : IsQuiet [] := ⟨List.not_mem_nil, List.not_mem_nil⟩

theorem IsQuiet.append {front back : List Char} (h : IsQuiet front) (h' : IsQuiet back) :
    IsQuiet (front ++ back) := ⟨by simp [h.1, h'.1], by simp [h.2, h'.2]⟩

theorem IsQuiet.cons {c : Char} {cs : List Char} (h : IsQuiet cs) (hopen : c ≠ '<' := by decide)
    (hquote : c ≠ '"' := by decide) : IsQuiet (c :: cs) :=
  ⟨List.not_mem_cons_of_ne_of_not_mem hopen.symm h.1,
    List.not_mem_cons_of_ne_of_not_mem hquote.symm h.2⟩

theorem isQuiet_joinWith {words : List (List Char)} (h : ∀ word ∈ words, IsQuiet word) :
    IsQuiet (Text.joinWith [' '] words) := by
  refine ⟨fun hmem ↦ ?_, fun hmem ↦ ?_⟩ <;>
    rcases Text.mem_joinWith hmem with hblank | ⟨word, hword, hmem⟩
  · exact absurd hblank (by decide)
  · exact (h word hword).1 hmem
  · exact absurd hblank (by decide)
  · exact (h word hword).2 hmem

theorem isQuiet_number (n : Nat) : IsQuiet (toString n).toList := by
  have hdigit : ∀ c ∈ (toString n).toList, c.isDigit = true := fun c hc ↦ by
    rw [Nat.toString_eq_repr, Nat.repr_eq_ofList_toDigits, String.toList_ofList] at hc
    exact Nat.isDigit_of_mem_toDigits (by decide) (by decide) hc
  exact ⟨fun h ↦ absurd (hdigit _ h) (by decide), fun h ↦ absurd (hdigit _ h) (by decide)⟩

end Markdown

namespace Code

open Html Markdown

/-! ## Tags -/

/-- HTML with the tags of displays. -/
abbrev IsDisplay (html : List Char) : Prop := Marked (WrittenFor displayMarks) html

/-- A start tag as text. -/
def tagText (tag : String) (attributes : List (String × List Char)) : List Char :=
  '<' :: tag.toList ++ attributes.flatMap attributeHtml ++ ['>']

theorem isDisplay_tagText {tag : String} {attributes : List (String × List Char)}
    (hknown : ∃ names, (tag, names) ∈ displayMarks ∧ ∀ a ∈ attributes, a.1 ∈ names)
    (hquiet : ∀ a ∈ attributes, IsQuiet a.2) : IsDisplay (tagText tag attributes) := by
  obtain ⟨names, hmem, hnames⟩ := hknown
  have hplain : ∀ mark ∈ displayMarks, mark.1 ∈ ["td", "th"] → "style" ∉ mark.2 := by decide
  have hmarked : IsMarked displayMarks tag attributes :=
    ⟨⟨names, List.mem_append_right _ hmem, hnames⟩, ⟨names, hmem, hnames⟩, fun htag a ha hstyle ↦
      absurd (hstyle ▸ hnames a ha) (hplain _ hmem htag)⟩
  let t : StartTag := {
    name := tag
    attributes := attributes
    selfClosing := false
    isName := hmarked.isName.1
    areNames := hmarked.isName.2
    areQuoted := fun a ha ↦ (hquiet a ha).2 }
  exact Marked.of_start (t := t) ⟨attributes, hmarked, List.Subset.refl _⟩

/-- An element of a display around HTML of a display. -/
theorem isDisplay_element {tag : String} {attributes : List (String × List Char)}
    (hknown : ∃ names, (tag, names) ∈ displayMarks ∧ ∀ a ∈ attributes, a.1 ∈ names)
    (hquiet : ∀ a ∈ attributes, IsQuiet a.2) {inner : List Char} (hinner : IsDisplay inner) :
    IsDisplay (tagText tag attributes ++ inner ++ endTag tag) := by
  refine ((isDisplay_tagText hknown hquiet).append hinner).append (.of_stop ?_)
  obtain ⟨names, hmem, -⟩ := hknown
  exact (by decide : ∀ mark ∈ displayMarks, isName mark.1 = true) _ hmem

/-- An element of a display without attributes. -/
theorem isDisplay_bare {tag : String} (htag : tag ∈ displayMarks.map (·.1)) {inner : List Char}
    (hinner : IsDisplay inner) : IsDisplay (tagText tag [] ++ inner ++ endTag tag) := by
  obtain ⟨⟨_, names⟩, hmem, rfl⟩ := List.mem_map.mp htag
  exact isDisplay_element ⟨names, hmem, List.forall_mem_nil _⟩ (List.forall_mem_nil _) hinner

/-- An attribute, if it has a value. -/
def given (name : String) (value : List Char) : List (String × List Char) :=
  if value.isEmpty then [] else [(name, value)]

theorem attributeText_eq (name : String) (value : List Char) :
    attributeText name value = (given name value).flatMap attributeHtml := by
  rw [attributeText, given]
  split
  · rfl
  · simp [shown, attributeHtml]

theorem forall_given {name : String} {value : List Char} {p : String × List Char → Prop}
    (h : p (name, value)) : ∀ a ∈ given name value, p a := by
  rw [given]
  split
  · exact nofun
  · exact List.forall_mem_singleton.mpr h

theorem isDisplay_joinWith {pieces : List (List Char)} (h : ∀ piece ∈ pieces, IsDisplay piece) :
    IsDisplay (Text.joinWith ['\n'] pieces) := by
  induction pieces with
  | nil => exact .nil
  | cons piece pieces ih =>
    obtain ⟨hpiece, hpieces⟩ := List.forall_mem_cons.mp h
    cases pieces with
    | nil => exact hpiece
    | cons next rest =>
      rw [Text.joinWith_cons_cons]
      exact (hpiece.append (.of_text (by decide))).append (ih hpieces)

/-! ## Lines -/

theorem open_not_mem_escaped (code : List Char) : '<' ∉ code.flatMap escapeHighlighted := fun h ↦ by
  obtain ⟨c, -, hc⟩ := List.mem_flatMap.mp h
  exact bracket_not_mem_escapeHighlighted (.inl rfl) c hc

/-- A display in whose parts nothing is markup. -/
structure Display.IsTame (d : Display) : Prop where
  frameClass : IsQuiet d.frameClass
  frameStyle : IsQuiet d.frameStyle
  blockStyle : IsQuiet d.blockStyle
  fileName : IsQuiet d.fileName
  lineEnd : IsQuiet d.lineEnd
  anchors : IsQuiet d.anchors
  targets : IsQuiet d.targets

namespace Display

variable {d : Display}

theorem isQuiet_numberText (d : Display) (count n : Nat) : IsQuiet (d.numberText count n) := by
  have hblank : ∀ k, IsQuiet (List.replicate k ' ') := fun k ↦
    ⟨fun h ↦ absurd (List.eq_of_mem_replicate h) (by decide),
      fun h ↦ absurd (List.eq_of_mem_replicate h) (by decide)⟩
  refine (hblank _).append ?_
  split
  · exact isQuiet_number n
  · exact .nil

/-- The name of a line's anchor behind its start. -/
theorem isQuiet_anchorName {start : List Char} (h : IsQuiet start) (n : Nat) :
    IsQuiet (start ++ '-' :: (toString n).toList) := h.append (isQuiet_number n).cons

theorem isDisplay_numberLink (h : d.IsTame) (n : Nat) {text : List Char} (htext : IsQuiet text) :
    IsDisplay (d.numberLink n text) := by
  have heq : d.numberLink n text =
      tagText "a" [("href", '#' :: (d.targets ++ '-' :: (toString n).toList))] ++ text ++
        endTag "a" := by
    simp [numberLink, tagText, attributeHtml, endTag, shown]
  rw [heq]
  exact isDisplay_element
    ⟨["href", "id", "name"], by decide, List.forall_mem_singleton.mpr (.head _)⟩
    (List.forall_mem_singleton.mpr (isQuiet_anchorName h.targets n).cons) (.of_text htext.1)

theorem isDisplay_anchor (h : d.IsTame) (n : Nat) : IsDisplay (d.anchor n) := by
  have hname := isQuiet_anchorName h.anchors n
  have hstart :
      d.anchors ++ shown ("-" ++ toString n) = d.anchors ++ '-' :: (toString n).toList := by
    simp [shown]
  rw [anchor, hstart]
  generalize d.anchors ++ '-' :: (toString n).toList = name at hname
  have hlink : ∃ link : List (String × List Char),
      (if d.numbering == .none then attributeText "href" ('#' :: name) else []) =
        link.flatMap attributeHtml ∧ (∀ a ∈ link, a.1 ∈ ["href", "id", "name"]) ∧
          ∀ a ∈ link, IsQuiet a.2 := by
    split
    · exact ⟨_, attributeText_eq _ _, forall_given (.head _), forall_given hname.cons⟩
    · exact ⟨[], rfl, nofun, nofun⟩
  obtain ⟨link, hlink, hnames, hquiet⟩ := hlink
  have heq : shown "<a id=\"" ++ name ++ shown "\" name=\"" ++ name ++ shown "\"" ++
      link.flatMap attributeHtml ++ shown "></a>" =
        tagText "a" (("id", name) :: ("name", name) :: link) ++ [] ++ endTag "a" := by
    simp [tagText, attributeHtml, endTag, shown]
  rw [hlink, heq]
  refine isDisplay_element ⟨_, by decide, List.forall_mem_cons.mpr ⟨?_, List.forall_mem_cons.mpr
    ⟨?_, hnames⟩⟩⟩ (List.forall_mem_cons.mpr ⟨hname, List.forall_mem_cons.mpr ⟨hname, hquiet⟩⟩) .nil
  · exact .tail _ (.head _)
  · exact .tail _ (.tail _ (.head _))

theorem isDisplay_lineHtml (h : d.IsTame) (count : Nat) (line : Nat × List Char) :
    IsDisplay (d.lineHtml count line) := by
  obtain ⟨n, line⟩ := line
  have htext : IsDisplay (line.flatMap escapeHighlighted ++ d.lineEnd) :=
    (Marked.of_text (open_not_mem_escaped line)).append (.of_text h.lineEnd.1)
  have hnumber : IsQuiet (if d.numbering == .inline then d.numberText count n else []) := by
    split
    · exact isQuiet_numberText d count n
    · exact .nil
  rw [lineHtml]
  dsimp only
  split
  · exact htext
  refine (Marked.append ?_ ?_).append htext
  · split
    · exact .nil
    · exact isDisplay_anchor h n
  · split
    · exact isDisplay_numberLink h n hnumber
    · exact .of_text hnumber.1

/-! ## Blocks -/

theorem isDisplay_lines (h : d.IsTame) (count : Nat) (lines : List (Nat × List Char)) :
    IsDisplay (lines.flatMap (d.lineHtml count)) :=
  .flatMap fun line _ ↦ isDisplay_lineHtml h count line

/-- A file name in its own element. -/
theorem isDisplay_fileName (h : d.IsTame) :
    IsDisplay (tagText "span" [("class", "filename".toList)] ++ d.fileName ++ endTag "span") :=
  isDisplay_element ⟨["class"], by decide, by decide⟩
    (List.forall_mem_singleton.mpr ⟨by decide, by decide⟩) (.of_text h.fileName.1)

theorem isDisplay_blockHtml (h : d.IsTame) (lines : List (List Char)) :
    IsDisplay (d.blockHtml lines) := by
  have hinner : IsDisplay (if d.marksCode then
      shown "<code>" ++ (d.numbered lines).flatMap (d.lineHtml lines.length) ++ shown "</code>"
      else (d.numbered lines).flatMap (d.lineHtml lines.length)) := by
    have hlines := isDisplay_lines h lines.length (d.numbered lines)
    split
    · change IsDisplay (tagText "code" [] ++ _ ++ endTag "code")
      exact isDisplay_bare (by decide) hlines
    · exact hlines
  have hname : IsDisplay (if d.fileName.isEmpty || d.numbering == .column then []
      else shown "<span class=\"filename\">" ++ d.fileName ++ shown "</span>") := by
    split
    · exact .nil
    · have heq : shown "<span class=\"filename\">" ++ d.fileName ++ shown "</span>" =
          tagText "span" [("class", "filename".toList)] ++ d.fileName ++ endTag "span" := by
        simp [tagText, attributeHtml, endTag, shown]
      exact heq ▸ isDisplay_fileName h
  rw [blockHtml]
  generalize (if d.marksCode then _ else _ : List Char) = inner at hinner
  have heq : shown "<pre" ++ attributeText "style" d.blockStyle ++ shown "><span></span>" ++
      inner ++ shown "</pre>" = tagText "pre" (given "style" d.blockStyle) ++
        (tagText "span" [] ++ [] ++ endTag "span" ++ inner) ++ endTag "pre" := by
    simp [tagText, attributeText_eq, endTag, shown]
  have hpre : IsDisplay (tagText "pre" (given "style" d.blockStyle) ++
      (tagText "span" [] ++ [] ++ endTag "span" ++ inner) ++ endTag "pre") :=
    isDisplay_element ⟨["id", "class", "style"], by decide,
      forall_given (.tail _ (.tail _ (.head _)))⟩ (forall_given h.blockStyle)
      ((isDisplay_bare (by decide) .nil).append hinner)
  simp only [List.append_assoc] at heq hpre hname ⊢
  rw [heq]
  exact hname.append hpre

theorem isDisplay_numberColumn (h : d.IsTame) (count : Nat) : IsDisplay (d.numberColumn count) := by
  refine isDisplay_joinWith fun number hnumber ↦ ?_
  obtain ⟨i, -, rfl⟩ := List.mem_map.mp hnumber
  dsimp only
  split
  · exact isDisplay_numberLink h _ (isQuiet_numberText d _ _)
  · exact .of_text (isQuiet_numberText d _ _).1

theorem isDisplay_tableHtml (h : d.IsTame) (count : Nat) {block : List Char}
    (hblock : IsDisplay block) : IsDisplay (d.tableHtml count block) := by
  have hrow : ∀ {cells : List Char}, IsDisplay cells →
      IsDisplay (tagText "tr" [] ++ cells ++ endTag "tr") :=
    fun hcells ↦ isDisplay_bare (by decide) hcells
  have hcell : ∀ {word inner : List Char}, IsQuiet word → IsDisplay inner →
      IsDisplay (tagText "td" [("class", word)] ++ inner ++ endTag "td") := fun hword hinner ↦
    isDisplay_element ⟨["class"], by decide, List.forall_mem_singleton.mpr (.head _)⟩
      (List.forall_mem_singleton.mpr hword) hinner
  have hname : IsDisplay (if d.fileName.isEmpty then []
      else shown "<tr><th colspan=\"2\" class=\"filename\"><span class=\"filename\">" ++
        d.fileName ++ shown "</span></th></tr>") := by
    split
    · exact .nil
    · have heq : shown "<tr><th colspan=\"2\" class=\"filename\"><span class=\"filename\">" ++
          d.fileName ++ shown "</span></th></tr>" =
          tagText "tr" [] ++
            (tagText "th" [("colspan", "2".toList), ("class", "filename".toList)] ++
              (tagText "span" [("class", "filename".toList)] ++ d.fileName ++ endTag "span") ++
                endTag "th") ++ endTag "tr" := by
        simp [tagText, attributeHtml, endTag, shown]
      rw [heq]
      refine hrow (isDisplay_element ⟨["colspan", "class"], by decide, by decide⟩ ?_
        (isDisplay_fileName h))
      exact List.forall_mem_cons.mpr ⟨⟨by decide, by decide⟩,
        List.forall_mem_singleton.mpr ⟨by decide, by decide⟩⟩
  have hnumbers : IsDisplay (tagText "td" [("class", "linenos".toList)] ++
      (tagText "div" [("class", "linenodiv".toList)] ++
        (tagText "pre" [] ++ d.numberColumn count ++ endTag "pre") ++ endTag "div") ++
          endTag "td") := by
    refine hcell ⟨by decide, by decide⟩ (isDisplay_element ⟨["class", "style"], by decide,
      by decide⟩ (List.forall_mem_singleton.mpr ⟨by decide, by decide⟩) ?_)
    exact isDisplay_bare (by decide) (isDisplay_numberColumn h count)
  have hcode : IsDisplay (tagText "td" [("class", "code".toList)] ++
      (tagText "div" [] ++ block ++ endTag "div") ++ endTag "td") :=
    hcell ⟨by decide, by decide⟩ (isDisplay_bare (by decide) hblock)
  have hclass : IsQuiet (d.frameClass ++ "table".toList) :=
    h.frameClass.append ⟨by decide, by decide⟩
  have hknown : ∃ names, ("table", names) ∈ displayMarks ∧
      ∀ a ∈ [("class", d.frameClass ++ "table".toList)], a.1 ∈ names :=
    ⟨["class"], by decide, List.forall_mem_singleton.mpr (.head _)⟩
  have htable := isDisplay_element hknown (List.forall_mem_singleton.mpr hclass)
    (hname.append (hrow (hnumbers.append hcode)))
  rw [tableHtml]
  generalize (if d.fileName.isEmpty then _ else _ : List Char) = name at htable
  refine cast (congrArg IsDisplay ?_) htable
  simp [tagText, attributeHtml, endTag, shown]

theorem isDisplay_html (h : d.IsTame) {lines : List (List Char)} {html : List Char}
    (hhtml : d.html lines = .ok html) : IsDisplay html := by
  rw [Display.html] at hhtml
  dsimp only at hhtml
  split at hhtml
  · cases hhtml
  split at hhtml
  · obtain rfl := Except.ok.inj hhtml
    exact isDisplay_lines h _ _
  · have hblock : IsDisplay (if d.numbering == .column then
        d.tableHtml lines.length (d.blockHtml lines) else d.blockHtml lines) := by
      split
      · exact isDisplay_tableHtml h _ (isDisplay_blockHtml h lines)
      · exact isDisplay_blockHtml h lines
    generalize (if d.numbering == .column then _ else _ : List Char) = block at hhtml hblock
    obtain rfl := Except.ok.inj hhtml
    have heq : shown "<div" ++ attributeText "class" d.frameClass ++
        attributeText "style" d.frameStyle ++ '>' :: block ++ shown "</div>\n" =
        tagText "div" (given "class" d.frameClass ++ given "style" d.frameStyle) ++ block ++
          endTag "div" ++ ['\n'] := by
      simp [tagText, attributeText_eq, endTag, shown]
    rw [heq]
    refine (isDisplay_element ⟨["class", "style"], by decide, List.forall_mem_append.mpr
      ⟨forall_given (.head _), forall_given (.tail _ (.head _))⟩⟩ (List.forall_mem_append.mpr
        ⟨forall_given h.frameClass, forall_given h.frameStyle⟩) hblock).append
          (.of_text (by decide))

end Display

/-! ## Settings -/

/-- Settings in which nothing is markup and that do not ask for the code as it is. -/
structure Settings.IsTame (settings : Settings) : Prop where
  areQuiet : ∀ s ∈ settings, IsQuiet s.2.toList
  isHtml : settings.get? "pygments_formatter" ∉ [some "text", some "null"]

variable {settings : Settings}

theorem Settings.IsTame.get? (h : settings.IsTame) {name value : String}
    (hget : settings.get? name = some value) : IsQuiet value.toList := by
  obtain ⟨front, back, heq, -⟩ := List.lookup_eq_some_iff.mp hget
  exact h.areQuiet (name, value) (List.mem_reverse.mp (by simp [heq]))

theorem Settings.IsTame.getD (h : settings.IsTame) (name : String) {default : String}
    (hdefault : IsQuiet default.toList) : IsQuiet ((settings.get? name).getD default).toList := by
  cases hget : settings.get? name with
  | none => exact hdefault
  | some value => exact h.get? hget

theorem Settings.IsTame.text (h : settings.IsTame) (name : String) : IsQuiet (settings.text name) :=
  h.getD name ⟨by decide, by decide⟩

theorem Display.isTame_ofSettings (h : settings.IsTame) {style frameClass : String}
    (hframe : IsQuiet frameClass.toList) {d : Display}
    (hd : Display.ofSettings style frameClass settings = .ok d) : d.IsTame := by
  have hfeed : IsQuiet "\n".toList := ⟨by decide, by decide⟩
  rw [Display.ofSettings] at hd
  split at hd
  · cases hd
  obtain ⟨isBare, -, hd⟩ := bind_eq_ok hd
  dsimp only at hd
  split at hd
  · cases hd
  obtain ⟨_, -, hd⟩ := bind_eq_ok hd
  obtain ⟨marksCode, -, hd⟩ := bind_eq_ok hd
  obtain ⟨_, -, hd⟩ := bind_eq_ok hd
  split at hd
  · cases hd
  obtain ⟨firstNumber, -, hd⟩ := bind_eq_ok hd
  obtain ⟨numberStep, -, hd⟩ := bind_eq_ok hd
  obtain ⟨_, -, hd⟩ := bind_eq_ok hd
  obtain ⟨_, -, hd⟩ := bind_eq_ok hd
  obtain ⟨linksNumbers, -, hd⟩ := bind_eq_ok hd
  obtain rfl := Except.ok.inj hd
  refine ⟨h.getD _ hframe, h.text _, h.text _, h.text _, h.getD _ hfeed, h.text _, ?_⟩
  dsimp only
  split
  · exact h.text _
  · exact h.text _

/-- Code is displayed in HTML with nothing in it but the tags of displays. -/
theorem isDisplay_displayed (h : settings.IsTame) {style frameClass : String}
    (hframe : IsQuiet frameClass.toList) {code html : List Char}
    (hhtml : displayed style frameClass settings code = .ok html) : IsDisplay html := by
  rw [displayed] at hhtml
  obtain ⟨trimming, -, hhtml⟩ := bind_eq_ok hhtml
  have hformat : ["text", "null"].contains ((settings.get? "pygments_formatter").getD "") =
      false := by
    have hnone := h.isHtml
    cases hget : settings.get? "pygments_formatter" with
    | none => rfl
    | some format => simpa [hget] using hnone
  dsimp only at hhtml
  rw [hformat, if_neg Bool.false_ne_true] at hhtml
  obtain ⟨d, hd, hhtml⟩ := bind_eq_ok hhtml
  exact Display.isDisplay_html (Display.isTame_ofSettings h hframe hd) hhtml

end Code

/-! ## Blocks of code -/

namespace Markdown

open Code Html

/-- A fence that brings no markup: nothing is markup in its classes and settings. -/
structure FenceInfo.IsTame (info : FenceInfo) : Prop where
  settings : info.settings.IsTame
  classes : ∀ word ∈ info.classes, IsQuiet word

theorem isTame_plain : FenceInfo.plain.IsTame := ⟨⟨nofun, by decide⟩, nofun⟩

theorem isDisplay_styledCode {style : String} {info : FenceInfo} (h : info.IsTame)
    {code html : List Char} (hhtml : styledCode style info code = .ok html) : IsDisplay html := by
  rw [styledCode] at hhtml
  dsimp only at hhtml
  split at hhtml
  · cases hhtml
  · cases hhtml
  · refine isDisplay_displayed h.settings ?_ hhtml
    rw [String.toList_ofList]
    refine isQuiet_joinWith (List.forall_mem_append.mpr
      ⟨h.classes, List.forall_mem_singleton.mpr ?_⟩)
    exact h.settings.getD _ ⟨by decide, by decide⟩

theorem isQuiet_bare (code : List Char) : IsQuiet (code.flatMap escapeBare) := by
  have hchar : ∀ c, IsQuiet (escapeBare c) := by
    intro c
    rw [escapeBare]
    split
    · exact ⟨by decide, by decide⟩
    · next hquote =>
      refine ⟨bracket_not_mem_escapeHighlighted (.inl rfl) c, fun hmem ↦ hquote ?_⟩
      rw [escapeHighlighted.eq_def] at hmem
      split at hmem
      · exact absurd hmem (by decide)
      · exact absurd hmem (by decide)
      · exact absurd hmem (by decide)
      · simpa using (List.mem_singleton.mp hmem).symm
  refine ⟨fun h ↦ ?_, fun h ↦ ?_⟩ <;> obtain ⟨c, -, hc⟩ := List.mem_flatMap.mp h
  · exact (hchar c).1 hc
  · exact (hchar c).2 hc

/-- The element of code that is not highlighted, in its block with some classes. -/
theorem isDisplay_bareBlock (id language code : List Char) {classes : List (String × List Char)}
    (hnames : ∀ a ∈ classes, a.1 ∈ ["id", "class", "style"]) (hquiet : ∀ a ∈ classes, IsQuiet a.2) :
    IsDisplay ("<pre".toList ++ attributeText "id" (id.flatMap escapeBare) ++
      classes.flatMap attributeHtml ++ "><code".toList ++
      attributeText "class" (language.flatMap escapeBare) ++ '>' :: code.flatMap escapeBare ++
      "</code></pre>".toList) := by
  have heq : "<pre".toList ++ attributeText "id" (id.flatMap escapeBare) ++
      classes.flatMap attributeHtml ++ "><code".toList ++
      attributeText "class" (language.flatMap escapeBare) ++ '>' :: code.flatMap escapeBare ++
      "</code></pre>".toList =
      tagText "pre" (given "id" (id.flatMap escapeBare) ++ classes) ++
        (tagText "code" (given "class" (language.flatMap escapeBare)) ++ code.flatMap escapeBare ++
          endTag "code") ++ endTag "pre" := by
    simp [tagText, attributeText_eq, endTag]
  rw [heq]
  refine isDisplay_element ⟨["id", "class", "style"], by decide, List.forall_mem_append.mpr
    ⟨forall_given (.head _), hnames⟩⟩ (List.forall_mem_append.mpr
      ⟨forall_given (isQuiet_bare _), hquiet⟩) ?_
  exact isDisplay_element ⟨["class"], by decide, forall_given (.head _)⟩
    (forall_given (isQuiet_bare _)) (.of_text (isQuiet_bare _).1)

theorem isDisplay_bareCode (info : FenceInfo) (code : List Char) :
    IsDisplay (bareCode info code) := by
  unfold bareCode
  extract_lets _ language classes
  have hclasses : ∃ written : List (String × List Char), classes = written.flatMap attributeHtml ∧
      (∀ a ∈ written, a.1 ∈ ["id", "class", "style"]) ∧ ∀ a ∈ written, IsQuiet a.2 := by
    unfold classes
    split
    · exact ⟨[], rfl, List.forall_mem_nil _, List.forall_mem_nil _⟩
    · refine ⟨[("class", (Text.joinWith [' '] info.classes).flatMap escapeBare)], ?_,
        List.forall_mem_singleton.mpr (.tail _ (.head _)),
        List.forall_mem_singleton.mpr (isQuiet_bare _)⟩
      simp [attributeHtml]
  obtain ⟨written, hwritten, hnames, hquiet⟩ := hclasses
  rw [hwritten]
  exact isDisplay_bareBlock info.id language code hnames hquiet

theorem isDisplay_fencedCode {style : String} {info : FenceInfo} (h : info.IsTame)
    {code html : List Char} (hhtml : fencedCode style info code = .ok html) : IsDisplay html := by
  rw [fencedCode] at hhtml
  split at hhtml
  · exact isDisplay_styledCode h hhtml
  · exact Except.ok.inj hhtml ▸ isDisplay_bareCode info code

end Markdown

end Guidebook
