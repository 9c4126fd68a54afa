import Guidebook.Markdown.Inline
import Guidebook.Proofs.Markdown.TidyBlocks
import Guidebook.Proofs.Markdown.Words

/-!
# Tidy lines

Rules for text inside a line put tidy glyphs in the place of tidy ones: the text of links, images
and emphasis is part of the tidy text they are found in, code and addresses are escaped, an entity
is finished as it was written, and no rule of the full dialect reads HTML. So the tree of a page
stays tidy when the text in it is read.
-/

namespace Guidebook.Markdown

open Text

section Links

variable {text : Run}

theorem Run.IsTidy.flatten (h : text.IsTidy) : (Link.flatten text).IsTidy := by
  rw [Link.flatten, glyphWords_eq]
  exact List.forall_mem_flatMap.mpr fun g hg ↦ (h g hg).words

/-! ## Links -/

namespace Link

/-- A target with tidy text. -/
def Target.IsTidy (t : Target) : Prop :=
  Run.IsTidy t.link ∧ ∀ title, t.title = some title → Run.IsTidy title

theorem bracketed?_subset {depth : Nat} {text inner after : Run}
    (h : bracketed? depth text = some (inner, after)) : inner ⊆ text ∧ after ⊆ text := by
  induction text generalizing depth inner with
  | nil => cases h
  | cons g rest ih =>
    rw [bracketed?] at h
    split at h
    · obtain ⟨rfl, rfl⟩ := Prod.mk.inj (Option.some.inj h)
      exact ⟨List.nil_subset _, List.subset_cons_self _ _⟩
    · obtain ⟨⟨front, back⟩, hfound, heq⟩ := Option.map_eq_some_iff.mp h
      obtain ⟨rfl, rfl⟩ := Prod.mk.inj heq
      obtain ⟨hfront, hback⟩ := ih hfound
      exact ⟨List.cons_subset_cons _ hfront, List.subset_cons_of_subset _ hback⟩

theorem tidy_cleanTitle (h : text.IsTidy) : (cleanTitle text).IsTidy := by
  intro g hg
  obtain ⟨d, hd, rfl⟩ := List.mem_map.mp hg
  have htitle : Run.IsTidy (unquoteTitle (flatten text.strip)) := by
    have hflat : Run.IsTidy (flatten text.strip) := Run.IsTidy.flatten (h.stripBy _)
    rw [unquoteTitle]
    split
    · exact (hflat.drop 1).subset (List.dropLast_subset _)
    · exact hflat
  split
  · exact .char ' '
  · exact htitle d hd

theorem tidy_plainTarget? {after : Run} {t : Target} (h : text.IsTidy)
    (hfound : plainTarget? text = some (t, after)) : t.IsTidy ∧ after.IsTidy := by
  have htitled : ∀ (q : Quotation) (m n : Nat), Target.IsTidy
      ⟨(flatten (text.take m)).strip, some (cleanTitle (slice text q.opened n))⟩ := fun q m n ↦
    ⟨(h.take m).flatten.stripBy _, fun title htitle ↦
      Option.some.inj htitle ▸ tidy_cleanTitle ((h.take n).drop _)⟩
  have hbare : ∀ n, Target.IsTidy ⟨(flatten (text.take n)).strip, none⟩ := fun n ↦
    ⟨(h.take n).flatten.stripBy _, nofun⟩
  rw [plainTarget?] at hfound
  dsimp only at hfound
  split at hfound
  · split at hfound <;> obtain ⟨rfl, rfl⟩ := Prod.mk.inj (Option.some.inj hfound)
    · exact ⟨htitled _ _ _, h.drop _⟩
    · exact ⟨htitled _ _ _, h.drop _⟩
    · exact ⟨hbare _, h.drop _⟩
  · obtain ⟨-, hfound⟩ := Option.ite_none_right_eq_some.mp hfound
    obtain ⟨rfl, rfl⟩ := Prod.mk.inj (Option.some.inj hfound)
    exact ⟨hbare _, h.drop _⟩

theorem tidy_quotedTitle? {title after : Run} (h : text.IsTidy)
    (hfound : quotedTitle? text = some (title, after)) : title.IsTidy ∧ after.IsTidy := by
  rw [quotedTitle?.eq_def] at hfound
  split at hfound
  · next g rest =>
    have hrest : Run.IsTidy rest := h.subset (List.subset_cons_self _ _)
    obtain ⟨-, hfound⟩ := Option.ite_none_right_eq_some.mp hfound
    split at hfound
    · next behind hdrop =>
      obtain ⟨rfl, rfl⟩ := Prod.mk.inj (Option.some.inj hfound)
      have hbehind : Run.IsTidy behind :=
        (hrest.dropWhile (!Glyph.sameChar g ·)).subset (hdrop ▸ List.subset_cons_self _ _)
      exact ⟨hrest.takeWhile _, hbehind.dropWhile _⟩
    · cases hfound
  · cases hfound

theorem tidy_angledTarget? {after : Run} {t : Target} (h : text.IsTidy)
    (hfound : angledTarget? text = some (t, after)) : t.IsTidy ∧ after.IsTidy := by
  rw [angledTarget?.eq_def] at hfound
  split at hfound
  · next g rest =>
    have hrest : Run.IsTidy rest := h.subset (List.subset_cons_self _ _)
    dsimp only at hfound
    split at hfound
    · next close behind _ hdrop =>
      have hbehind : Run.IsTidy behind :=
        (hrest.drop _).subset (hdrop ▸ List.subset_cons_self _ _)
      obtain ⟨-, hfound⟩ := Option.ite_none_left_eq_some.mp hfound
      have hinside := ((hrest.takeWhile fun g ↦ !g.isChar '<' && !g.isChar '>').stripBy
        Glyph.isBlank).flatten.stripBy Glyph.isBlank
      split at hfound
      · next title tail htitle =>
        obtain ⟨hquoted, htail⟩ := tidy_quotedTitle? (hbehind.dropWhile _) htitle
        split at hfound
        · obtain ⟨-, hfound⟩ := Option.ite_none_right_eq_some.mp hfound
          obtain ⟨rfl, rfl⟩ := Prod.mk.inj (Option.some.inj hfound)
          exact ⟨⟨hinside, fun words hwords ↦ Option.some.inj hwords ▸ tidy_cleanTitle hquoted⟩,
            htail.subset (List.subset_cons_self _ _)⟩
        · cases hfound
      · split at hfound
        · next heq =>
          obtain ⟨-, hfound⟩ := Option.ite_none_right_eq_some.mp hfound
          obtain ⟨rfl, rfl⟩ := Prod.mk.inj (Option.some.inj hfound)
          refine ⟨⟨hinside, fun words hwords ↦ absurd hwords.symm (Option.some_ne_none words)⟩, ?_⟩
          exact (hbehind.dropWhile _).subset (heq ▸ List.subset_cons_self _ _)
        · cases hfound
    · cases hfound
  · cases hfound

theorem tidy_target? {after : Run} {t : Target} (h : text.IsTidy)
    (hfound : target? text = some (t, after)) : t.IsTidy ∧ after.IsTidy := by
  rw [target?.eq_def] at hfound
  split at hfound
  · next g rest =>
    have hinside : Run.IsTidy (Run.dropBlanks rest) :=
      (h.subset (List.subset_cons_self _ _)).dropWhile _
    obtain ⟨-, hfound⟩ := Option.ite_none_right_eq_some.mp hfound
    rcases Option.or_eq_some_iff.mp hfound with hfound | ⟨-, hfound⟩
    · exact tidy_angledTarget? hinside hfound
    · exact tidy_plainTarget? hinside hfound
  · cases hfound

theorem tidy_linkElement (h : text.IsTidy) {t : Target} (ht : t.IsTidy) :
    (linkElement text t).IsTidy := by
  have hnames : ∀ attributes : List (String × Run), (∀ a ∈ attributes, a.1 ∈ ["href", "title"]) →
      IsKnown "a" attributes := fun _ ↦
    isKnown_of_mem (by decide : ("a", ["href", "title"]) ∈ vocabulary) (by decide)
  have hlink := (Element.isTidy_iff.mp (.leaf (by decide : "a" ∈ vocabulary.map (·.1)) h)).withAttribute
    ht.1 (hnames [("href", t.link)] (by simp))
  rw [linkElement]
  split
  · next title htitle =>
    exact Element.isTidy_iff.mpr (hlink.withAttribute (ht.2 title htitle)
      (hnames [("href", t.link), ("title", title)] (by simp)))
  · exact Element.isTidy_iff.mpr hlink

theorem tidy_imageElement (h : text.IsTidy) {t : Target} (ht : t.IsTidy) :
    (imageElement text t).IsTidy := by
  have hnames : ∀ attributes : List (String × Run),
      (∀ a ∈ attributes, a.1 ∈ ["src", "title", "alt"]) → IsKnown "img" attributes := fun _ ↦
    isKnown_of_mem (by decide : ("img", ["src", "title", "alt"]) ∈ vocabulary) (by decide)
  have himage := (Element.isTidy_iff.mp (.bare (by decide : "img" ∈ vocabulary.map (·.1)))).withAttribute
    ht.1 (hnames [("src", t.link)] (by simp))
  rw [imageElement]
  refine Element.isTidy_iff.mpr ?_
  split
  · next title htitle =>
    exact (himage.withAttribute (ht.2 title htitle)
      (hnames [("src", t.link), ("title", title)] (by simp))).withAttribute h.flatten
        (hnames [("src", t.link), ("title", title), ("alt", flatten text)] (by simp))
  · exact himage.withAttribute h.flatten (hnames [("src", t.link), ("alt", flatten text)] (by simp))

theorem tidy_lookup? {references : References} (h : References.IsTidy references) {label : Run}
    {t : Target} (hfound : lookup? references label = some t) : t.IsTidy := by
  rw [lookup?] at hfound
  split at hfound
  · obtain ⟨r, hlookup, rfl⟩ := Option.map_eq_some_iff.mp hfound
    obtain ⟨front, back, heq, -⟩ := List.lookup_eq_some_iff.mp hlookup
    exact h _ (heq ▸ List.mem_append_right _ (.head _))
  · cases hfound

end Link

end Links

/-! ## Emphasis -/

namespace Emphasis

theorem tidy_element (size : Nat) {inner : Run} (h : inner.IsTidy) :
    (element size inner).IsTidy := by
  refine .leaf ?_ h
  split <;> decide

theorem tidy_inside (s : Span) {text : Run} (h : text.IsTidy) : (s.inside text).IsTidy :=
  (h.take _).drop _

theorem tidy_overlay {mark : Char} (fuel : Nat) (before text : Run) {shown : Run}
    (h : shown.IsTidy) : (overlay mark fuel before text shown).IsTidy := by
  induction fuel generalizing before text shown with
  | zero => exact h
  | succ fuel ih =>
    cases text with
    | nil => exact .nil
    | cons g rest =>
      rw [overlay]
      split
      · exact (h.take _).append (.cons (.node (tidy_element _ (ih _ _ (tidy_inside _ h))))
          (ih _ _ (h.drop _)))
      · exact (h.take 1).append (ih _ _ (h.drop 1))

theorem tidy_resume? {mark : Char} {before text : Run} (h : text.IsTidy) {e : Element}
    {length : Nat}
    (hfound : resume? mark before text = some (e, length)) : e.IsTidy := by
  obtain ⟨s, -, hfound⟩ := Option.bind_eq_some_iff.mp hfound
  obtain ⟨-, hfound⟩ := Option.ite_none_left_eq_some.mp hfound
  obtain ⟨rfl, -⟩ := Prod.mk.inj (Option.some.inj hfound)
  exact tidy_element _ (tidy_overlay _ _ _ (tidy_inside _ h))

theorem tidy_find? {mark : Char} {before text glyphs : Run} {length : Nat} (h : text.IsTidy)
    (hfound : find? mark before text = some (glyphs, length)) : glyphs.IsTidy := by
  rw [find?] at hfound
  obtain ⟨-, hfound⟩ := Option.ite_none_left_eq_some.mp hfound
  obtain ⟨s, -, hfound⟩ := Option.bind_eq_some_iff.mp hfound
  have hspan : Run.IsTidy (text.take s.spare ++ [.node (element s.size (s.inside text))]) :=
    (h.take _).append (.cons (.node (tidy_element _ (tidy_inside s h))) .nil)
  dsimp only at hfound
  split at hfound
  · next more length hmore =>
    obtain ⟨rfl, -⟩ := Prod.mk.inj (Option.some.inj hfound)
    exact hspan.append (.cons (.node (tidy_resume? (h.drop _) hmore)) .nil)
  · obtain ⟨rfl, -⟩ := Prod.mk.inj (Option.some.inj hfound)
    exact hspan

end Emphasis

namespace Inline

/-! ## Rules -/

/-- A rule that puts tidy glyphs in the place of tidy text. -/
def Rule.IsTidy (rule : Rule) : Prop := ∀ before text n glyphs, Run.IsTidy text →
  rule.find? before text = some (.put n glyphs) → Run.IsTidy glyphs

theorem tidy_escapeCode {code : Run} (h : code.IsTidy) : (escapeCode code).IsTidy := by
  refine List.forall_mem_flatMap.mpr fun g hg ↦ ?_
  split
  · exact Run.IsTidy.ofChars _
  · exact Run.IsTidy.ofChars _
  · exact Run.IsTidy.ofChars _
  · exact Run.IsTidy.cons (h _ hg) .nil

theorem tidy_codeRule : codeRule.IsTidy := by
  intro before text n glyphs h hfound
  rw [codeRule] at hfound
  dsimp only at hfound
  obtain ⟨-, hfound⟩ := Option.ite_none_left_eq_some.mp hfound
  split at hfound
  · obtain ⟨-, hfound⟩ := Option.ite_none_right_eq_some.mp hfound
    obtain ⟨-, rfl⟩ := Found.put.inj (Option.some.inj hfound)
    intro g hg
    exact List.eq_of_mem_replicate hg ▸ .kept '\\'
  · rw [codeFrom?] at hfound
    split at hfound
    · cases hfound
    · obtain ⟨-, hfound⟩ := Option.ite_none_left_eq_some.mp hfound
      dsimp only at hfound
      split at hfound
      · cases hfound
      · obtain ⟨-, rfl⟩ := Found.put.inj (Option.some.inj hfound)
        exact .cons (.node (.sealText (.leaf (by decide)
          (tidy_escapeCode (((h.take _).drop _).stripBy _))))) .nil

theorem tidy_escapeRule (dialect : Dialect) : (escapeRule dialect).IsTidy := by
  intro before text n glyphs h hfound
  rw [escapeRule] at hfound
  dsimp only at hfound
  split at hfound
  · obtain ⟨-, hfound⟩ := Option.ite_none_left_eq_some.mp hfound
    split at hfound
    · split at hfound
      · obtain ⟨-, rfl⟩ := Found.put.inj (Option.some.inj hfound)
        exact .cons (.kept _) .nil
      · cases hfound
    · cases hfound
  · cases hfound

theorem opened?_subset {image : Bool} {before text inner after : Run}
    (h : opened? image before text = some (inner, after)) : inner ⊆ text ∧ after ⊆ text := by
  have hrest : ∀ {cs : List Char} {rest : Run}, Run.dropPrefix? cs text = some rest → rest ⊆ text :=
    fun hdrop ↦ dropPrefix?_eq_some hdrop ▸ List.subset_append_right _ _
  rw [opened?] at h
  split at h
  · split at h
    · next rest hdrop =>
      obtain ⟨hinner, hafter⟩ := Link.bracketed?_subset h
      exact ⟨List.Subset.trans hinner (hrest hdrop), List.Subset.trans hafter (hrest hdrop)⟩
    · cases h
  · split at h
    · next rest hdrop =>
      obtain ⟨-, h⟩ := Option.ite_none_left_eq_some.mp h
      obtain ⟨hinner, hafter⟩ := Link.bracketed?_subset h
      exact ⟨List.Subset.trans hinner (hrest hdrop), List.Subset.trans hafter (hrest hdrop)⟩
    · cases h

theorem tidy_linked (image : Bool) {text : Run} (h : text.IsTidy) {t : Link.Target}
    (ht : t.IsTidy) :
    (linked image text t).IsTidy := by
  refine .cons (.node ?_) .nil
  split
  · exact Link.tidy_imageElement h ht
  · exact Link.tidy_linkElement h ht

theorem tidy_linkRule (image : Bool) : (linkRule image).IsTidy := by
  intro before text n glyphs h hfound
  obtain ⟨⟨inner, after⟩, hopened, hfound⟩ := Option.bind_eq_some_iff.mp hfound
  obtain ⟨⟨target, behind⟩, htarget, hfound⟩ := Option.bind_eq_some_iff.mp hfound
  obtain ⟨-, rfl⟩ := Found.put.inj (Option.some.inj hfound)
  obtain ⟨hinner, hafter⟩ := opened?_subset hopened
  exact tidy_linked image (h.subset hinner) (Link.tidy_target? (h.subset hafter) htarget).1

theorem tidy_referenceRule (image short : Bool) {references : References}
    (hreferences : references.IsTidy) : (referenceRule image short references).IsTidy := by
  intro before text n glyphs h hfound
  obtain ⟨⟨inner, after⟩, hopened, hfound⟩ := Option.bind_eq_some_iff.mp hfound
  have hinner := h.subset (opened?_subset hopened).1
  have hlinked : ∀ {label : Run} {target : Link.Target},
      Link.lookup? references label = some target → Run.IsTidy (linked image inner target) :=
    fun htarget ↦ tidy_linked image hinner (Link.tidy_lookup? hreferences htarget)
  dsimp only at hfound
  split at hfound
  · replace hfound := (Option.bind_some ..).symm.trans hfound
    split at hfound
    · next target htarget =>
      obtain ⟨-, rfl⟩ := Found.put.inj (Option.some.inj hfound)
      exact hlinked htarget
    · cases hfound
  · obtain ⟨⟨label, behind⟩, -, hfound⟩ := Option.bind_eq_some_iff.mp hfound
    dsimp only at hfound
    split at hfound
    · next target htarget =>
      obtain ⟨-, rfl⟩ := Found.put.inj (Option.some.inj hfound)
      exact hlinked htarget
    · cases hfound

theorem angled?_subset {text inner after : Run} (h : angled? text = some (inner, after)) :
    inner ⊆ text := by
  rw [angled?.eq_def] at h
  split at h
  · dsimp only at h
    split at h
    · obtain ⟨-, h⟩ := Option.ite_none_right_eq_some.mp h
      obtain ⟨rfl, -⟩ := Prod.mk.inj (Option.some.inj h)
      exact List.Subset.trans (List.takeWhile_prefix _).subset (List.subset_cons_self _ _)
    · cases h
  · cases h

/-- A link whose only attribute says where it leads. -/
theorem tidy_plainLink {text link : Run} (htext : text.IsTidy) (hlink : link.IsTidy) :
    ((Element.leaf "a" text).withAttribute "href" link).IsTidy :=
  Link.tidy_linkElement (t := ⟨link, none⟩) htext ⟨hlink, nofun⟩

theorem tidy_addressRule : addressRule.IsTidy := by
  intro before text n glyphs h hfound
  obtain ⟨⟨inner, after⟩, hangled, hfound⟩ := Option.bind_eq_some_iff.mp hfound
  obtain ⟨-, hfound⟩ := Option.ite_none_right_eq_some.mp hfound
  obtain ⟨-, rfl⟩ := Found.put.inj (Option.some.inj hfound)
  have hinner := h.subset (angled?_subset hangled)
  exact .cons (.node (.sealText (tidy_plainLink hinner hinner.flatten))) .nil

theorem tidy_numbered (c : Char) : (numbered c).IsTidy := .cons .amp (.ofChars _)

theorem tidy_veiled (c : Char) : (veiled c).IsTidy := by
  have hnamed : ∀ name : String, Run.IsTidy (.amp :: Run.ofString (name ++ ";")) := fun _ ↦
    .cons .amp (.ofChars _)
  rw [veiled]
  dsimp only
  split
  · exact hnamed _
  split
  · exact hnamed _
  split
  · exact hnamed _
  split
  · exact hnamed _
  split
  · exact tidy_numbered c
  split
  · exact hnamed _
  · exact tidy_numbered c

theorem tidy_mailRule : mailRule.IsTidy := by
  intro before text n glyphs h hfound
  obtain ⟨⟨inner, after⟩, -, hfound⟩ := Option.bind_eq_some_iff.mp hfound
  obtain ⟨-, hfound⟩ := Option.ite_none_left_eq_some.mp hfound
  obtain ⟨-, rfl⟩ := Found.put.inj (Option.some.inj hfound)
  exact .cons (.node (.sealText (tidy_plainLink
    (List.forall_mem_flatMap.mpr fun c _ ↦ tidy_veiled c)
    (List.forall_mem_flatMap.mpr fun c _ ↦ tidy_numbered c)))) .nil

theorem tidy_breakRule : breakRule.IsTidy := by
  intro before text n glyphs h hfound
  obtain ⟨_, -, heq⟩ := Option.map_eq_some_iff.mp hfound
  obtain ⟨-, rfl⟩ := Found.put.inj heq
  exact .cons (.node (.bare (by decide))) .nil

/-- Text of characters that are no markup. -/
def IsQuietRun (text : Run) : Prop := ∀ g ∈ text, ∃ c, g = .char c ∧ c ≠ '<' ∧ c ≠ '"'

theorem isQuiet_written {text : Run} (h : IsQuietRun text) : IsQuiet (written text) := by
  refine ⟨fun hmem ↦ ?_, fun hmem ↦ ?_⟩ <;> obtain ⟨g, hg, hc⟩ := List.mem_flatMap.mp hmem <;>
    obtain ⟨c, rfl, hopen, hquote⟩ := h g hg
  · exact hopen (List.mem_singleton.mp hc).symm
  · exact hquote (List.mem_singleton.mp hc).symm

theorem of_startsWith {c : Char} {text : Run} (h : Run.startsWith c text = true) :
    ∃ rest, text = .char c :: rest := by
  cases text with
  | nil => cases h
  | cons g rest => exact ⟨rest, by rw [Glyph.isChar_iff.mp h]⟩

/-- The name or number of an entity, with what stands before it and the semicolon behind it. -/
theorem isQuietRun_take {p : Char → Bool} (hp : ∀ c, p c = true → c ≠ '<' ∧ c ≠ '"') {text : Run}
    {start : Nat} (hstart : IsQuietRun (text.take start))
    (hend : Run.startsWith ';'
      (text.drop (start + ((text.drop start).takeWhile (Glyph.isOf p)).length)) = true) :
    IsQuietRun (text.take (start + ((text.drop start).takeWhile (Glyph.isOf p)).length + 1)) := by
  have hname : (text.drop start).take ((text.drop start).takeWhile (Glyph.isOf p)).length =
      (text.drop start).takeWhile (Glyph.isOf p) :=
    (List.prefix_iff_eq_take.mp (List.takeWhile_prefix _)).symm
  obtain ⟨rest, hrest⟩ := of_startsWith hend
  rw [List.take_add, List.take_add, hname, hrest]
  refine List.forall_mem_append.mpr ⟨List.forall_mem_append.mpr ⟨hstart, fun g hg ↦ ?_⟩,
    List.forall_mem_singleton.mpr ⟨';', rfl, by decide, by decide⟩⟩
  obtain ⟨c, rfl, hc⟩ : ∃ c, g = .char c ∧ p c = true := by
    have hof := List.mem_takeWhile_imp hg
    cases g with
    | char c => exact ⟨c, rfl, hof⟩
    | kept c => cases hof
    | held text => cases hof
    | amp => cases hof
    | raw html => cases hof
    | node e => cases hof
  exact ⟨c, rfl, hp c hc⟩

theorem isQuietRun_entity {text : Run} {n : Nat} (h : entityLength? text = some n) :
    IsQuietRun (text.take n) := by
  have hclosed : ∀ (p : Char → Bool) (start : Nat), p '<' = false → p '"' = false →
      IsQuietRun (text.take start) →
      (if !((text.drop start).takeWhile (Glyph.isOf p)).isEmpty && Run.startsWith ';'
          (text.drop (start + ((text.drop start).takeWhile (Glyph.isOf p)).length)) then
        some (start + ((text.drop start).takeWhile (Glyph.isOf p)).length + 1) else none) = some n →
      IsQuietRun (text.take n) := by
    intro p start hopen hquote hstart h
    obtain ⟨hend, h⟩ := Option.ite_none_right_eq_some.mp h
    rw [← Option.some.inj h]
    refine isQuietRun_take (fun c hc ↦ ⟨?_, ?_⟩) hstart ((Bool.and_eq_true _ _).mp hend).2
    · rintro rfl
      simp [hopen] at hc
    · rintro rfl
      simp [hquote] at hc
  have hquiet : ∀ cs : List Char, IsQuiet cs → IsQuietRun (Run.ofChars cs) := by
    intro cs hcs g hg
    obtain ⟨c, hc, rfl⟩ := List.mem_map.mp hg
    exact ⟨c, rfl, ne_of_mem_of_not_mem hc hcs.1, ne_of_mem_of_not_mem hc hcs.2⟩
  rw [entityLength?] at h
  obtain ⟨hamp, h⟩ := Option.ite_none_right_eq_some.mp h
  obtain ⟨rest, rfl⟩ := of_startsWith hamp
  rcases Option.or_eq_some_iff.mp h with h | ⟨-, h⟩
  · exact hclosed _ 1 (by decide) (by decide) (hquiet ['&'] ⟨by decide, by decide⟩) h
  · obtain ⟨hhash, h⟩ := Option.ite_none_right_eq_some.mp h
    obtain ⟨rest, rfl⟩ := of_startsWith hhash
    rcases Option.or_eq_some_iff.mp h with h | ⟨-, h⟩
    · exact hclosed _ 2 (by decide) (by decide) (hquiet ['&', '#'] ⟨by decide, by decide⟩) h
    · obtain ⟨hx, h⟩ := Option.ite_none_right_eq_some.mp h
      obtain ⟨rest, rfl⟩ := of_startsWith hx
      exact hclosed _ 3 (by decide) (by decide) (hquiet ['&', '#', 'x'] ⟨by decide, by decide⟩) h

theorem tidy_entityRule : entityRule.IsTidy := by
  intro before text n glyphs h hfound
  obtain ⟨m, hlength, heq⟩ := Option.map_eq_some_iff.mp hfound
  obtain ⟨-, rfl⟩ := Found.put.inj heq
  exact .cons (.raw (isQuiet_written (isQuietRun_entity hlength))) .nil

theorem tidy_loneMarksRule : loneMarksRule.IsTidy := by
  intro before text n glyphs h hfound
  rw [loneMarksRule] at hfound
  dsimp only at hfound
  split at hfound
  · next g rest =>
    obtain ⟨hmarks, hfound⟩ := Option.ite_none_right_eq_some.mp hfound
    obtain ⟨-, rfl⟩ := Found.put.inj (Option.some.inj hfound)
    obtain ⟨mark, rfl, hmark⟩ : ∃ mark, g = .char mark ∧ (mark = '*' ∨ mark = '_') := by
      simp only [Bool.and_eq_true, Bool.or_eq_true] at hmarks
      rcases hmarks.1.1 with hg | hg
      · exact ⟨'*', Glyph.isChar_iff.mp hg, .inl rfl⟩
      · exact ⟨'_', Glyph.isChar_iff.mp hg, .inr rfl⟩
    have hsame : ∀ c ∈ (((Glyph.char mark :: rest).takeWhile (Glyph.sameChar (.char mark))).filterMap
        Glyph.char?), c = mark := by
      intro c hc
      obtain ⟨d, hd, hchar⟩ := List.mem_filterMap.mp hc
      have hsame := List.mem_takeWhile_imp hd
      cases d with
      | char d =>
        obtain rfl := Option.some.inj hchar
        exact (eq_of_beq hsame).symm
      | kept d => cases hchar
      | held text => cases hchar
      | amp => cases hchar
      | raw html => cases hchar
      | node e => cases hchar
    refine .cons (.held ⟨fun hmem ↦ ?_, fun hmem ↦ ?_⟩) .nil <;> have heq := hsame _ hmem <;>
      rcases hmark with rfl | rfl <;> exact absurd heq (by decide)
  · cases hfound

theorem tidy_emphasisRule (mark : Char) : (emphasisRule mark).IsTidy := by
  intro before text n glyphs h hfound
  obtain ⟨-, hfound⟩ := Option.ite_none_right_eq_some.mp hfound
  obtain ⟨⟨found, length⟩, hfind, heq⟩ := Option.map_eq_some_iff.mp hfound
  obtain ⟨-, rfl⟩ := Found.put.inj heq
  exact Emphasis.tidy_find? h hfind

/-- No rule of the full dialect reads HTML. -/
theorem tidy_rules {references : References} (h : references.IsTidy) :
    ∀ rule ∈ rules .full references, rule.IsTidy := by
  intro rule hrule
  rw [rules, List.mem_append, List.mem_append] at hrule
  rcases hrule with (hrule | hrule) | hrule
  · simp only [List.mem_cons, List.not_mem_nil, or_false] at hrule
    rcases hrule with rfl | rfl | rfl | rfl | rfl | rfl | rfl | rfl | rfl | rfl | rfl
    · exact tidy_codeRule
    · exact tidy_escapeRule .full
    · exact tidy_referenceRule _ _ h
    · exact tidy_linkRule _
    · exact tidy_linkRule _
    · exact tidy_referenceRule _ _ h
    · exact tidy_referenceRule _ _ h
    · exact tidy_referenceRule _ _ h
    · exact tidy_addressRule
    · exact tidy_mailRule
    · exact tidy_breakRule
  · cases hrule
  · simp only [List.mem_cons, List.not_mem_nil, or_false] at hrule
    rcases hrule with rfl | rfl | rfl | rfl
    · exact tidy_entityRule
    · exact tidy_loneMarksRule
    · exact tidy_emphasisRule '_'
    · exact tidy_emphasisRule '*'

/-! ## Applying rules -/

variable {rules : List Rule}

theorem of_search? {rule : Rule} {before text front rest : Run} {found : Found}
    (h : search? rule before text = some (front, found, rest)) :
    ∃ skipped, text = skipped ++ rest ∧ front = skipped.reverse ++ before ∧
      rule.find? front rest = some found := by
  induction text generalizing before with
  | nil => cases h
  | cons g text ih =>
    rw [search?] at h
    split at h
    · next here hhere =>
      obtain ⟨rfl, rfl, rfl⟩ : before = front ∧ here = found ∧ g :: text = rest := by simpa using h
      exact ⟨[], rfl, rfl, hhere⟩
    · obtain ⟨skipped, rfl, rfl, hfound⟩ := ih h
      exact ⟨g :: skipped, rfl, by simp, hfound⟩

theorem tidy_apply (hrules : ∀ rule ∈ rules, rule.IsTidy) (fuel : Nat) {before rest : Run}
    (hbefore : before.IsTidy) (hrest : rest.IsTidy) : (apply fuel rules before rest).IsTidy := by
  induction fuel generalizing rules before rest with
  | zero =>
    rw [apply]
    exact hbefore.reverse.append hrest
  | succ fuel ih =>
    cases rules with
    | nil =>
      rw [apply]
      · exact hbefore.reverse.append hrest
      · exact Nat.succ_ne_zero fuel
    | cons rule later =>
      obtain ⟨hrule, hlater⟩ := List.forall_mem_cons.mp hrules
      rw [apply]
      split
      · exact ih hlater .nil (hbefore.reverse.append hrest)
      · next front n behind hfound =>
        obtain ⟨skipped, rfl, rfl, -⟩ := of_search? hfound
        obtain ⟨hskipped, hbehind⟩ := List.forall_mem_append.mp hrest
        exact ih hrules ((Run.IsTidy.take hbehind n).reverse.append
          ((Run.IsTidy.reverse hskipped).append hbefore)) (Run.IsTidy.drop hbehind n)
      · next front n glyphs behind hfound =>
        obtain ⟨skipped, rfl, rfl, hput⟩ := of_search? hfound
        obtain ⟨hskipped, hbehind⟩ := List.forall_mem_append.mp hrest
        have hfront := (Run.IsTidy.reverse hskipped).append hbefore
        have hnode : ∀ {inside : List Rule} {e : Element}, (∀ inner ∈ inside, inner.IsTidy) →
            e.IsTidy →
            (if e.isSealed then e else e.withText (apply fuel inside [] e.text)).IsTidy := by
          intro inside e hinside he
          split
          · exact he
          · exact he.withText (ih hinside .nil (Element.isTidy_iff.mp he).text)
        have hinside : ∀ inner ∈ if rule.nests then rule :: later else later, inner.IsTidy := by
          split
          · exact hrules
          · exact hlater
        have hafter := Run.IsTidy.drop hbehind n
        dsimp only
        generalize hmap : glyphs.map _ = mapped
        have hmapped : Run.IsTidy mapped := by
          rw [← hmap]
          refine List.forall_mem_map.mpr fun g hg ↦ ?_
          cases hrule _ _ _ _ hbehind hput g hg with
          | node he => exact .node (hnode hinside he)
          | char c => exact .char c
          | kept c => exact .kept c
          | held h => exact .held h
          | amp => exact .amp
          | raw h => exact .raw h
        split
        · exact ih hrules .nil ((hfront.reverse.append hmapped).append hafter)
        · exact ih hrules (hmapped.reverse.append hfront) hafter

theorem tidy_applyAll (hrules : ∀ rule ∈ rules, rule.IsTidy) {text : Run} (h : text.IsTidy) :
    (applyAll rules text).IsTidy := tidy_apply hrules _ .nil h

/-! ## Settling -/

mutual

theorem tidy_settle : ∀ {text : List Glyph}, Run.IsTidy text →
    Run.IsTidy (settle text).1 ∧ ∀ e ∈ (settle text).2, e.IsTidy
  | [], _ => ⟨.nil, nofun⟩
  | g :: rest, h => by
    obtain ⟨hg, hrest⟩ := List.forall_mem_cons.mp h
    obtain ⟨htext, helements⟩ := tidy_settle hrest
    rw [settle.eq_def]
    dsimp only
    cases hg with
    | node he =>
      exact ⟨.nil, List.forall_mem_cons.mpr ⟨(tidy_settleElement he).withTail htext, helements⟩⟩
    | held _ => exact ⟨(Run.IsTidy.ofChars _).append htext, helements⟩
    | char c => exact ⟨.cons (.char c) htext, helements⟩
    | kept c => exact ⟨.cons (.kept c) htext, helements⟩
    | amp => exact ⟨.cons .amp htext, helements⟩
    | raw hquiet => exact ⟨.cons (.raw hquiet) htext, helements⟩

theorem tidy_settleElement : ∀ {e : Element}, e.IsTidy → (settleElement e).IsTidy
  | .mk tag attributes text isSealed children tail, h => by
    obtain ⟨isKnown, areTidy, htext, hchildren, htail⟩ := h
    obtain ⟨hbefore, helements⟩ := tidy_settle htext
    rw [settleElement]
    exact .mk isKnown areTidy hbefore
      (List.forall_mem_append.mpr ⟨helements, tidy_settleChildren hchildren⟩) htail

theorem tidy_settleChildren : ∀ {children : List Element}, (∀ e ∈ children, e.IsTidy) →
    ∀ e ∈ settleChildren children, e.IsTidy
  | [], _ => nofun
  | .mk tag attributes text isSealed children tail :: rest, h => by
    obtain ⟨⟨isKnown, areTidy, htext, hchildren, htail⟩, hrest⟩ := List.forall_mem_cons.mp h
    obtain ⟨hbefore, helements⟩ := tidy_settle htext
    obtain ⟨hbehind, hsiblings⟩ := tidy_settle htail
    rw [settleChildren]
    exact List.forall_mem_cons.mpr ⟨.mk isKnown areTidy hbefore
      (List.forall_mem_append.mpr ⟨helements, tidy_settleChildren hchildren⟩) hbehind,
      List.forall_mem_append.mpr ⟨hsiblings, tidy_settleChildren hrest⟩⟩

end

/-! ## Elements -/

theorem isWords_display (html : List Char) (feeds : Nat) :
    IsWords (.raw html :: List.replicate feeds (.char '\n')) := by
  have hfeed : ∀ g ∈ List.replicate feeds (Glyph.char '\n'), g = .char '\n' := fun g ↦
    List.eq_of_mem_replicate
  refine ⟨List.forall_mem_cons.mpr ⟨fun _ _ ↦ rfl, fun g hg mark hmark ↦ ?_⟩, fun hbreak ↦ ?_⟩
  · rw [hfeed g hg, Glyph.isChar_char, beq_eq_false_iff_ne]
    exact (ne_of_mem_of_not_mem hmark (by decide)).symm
  · have hblank : Glyph.char ' ' ∈ .raw html :: List.replicate feeds (Glyph.char '\n') :=
      hbreak.subset (.head _)
    rcases List.mem_cons.mp hblank with heq | hblank
    · cases heq
    · exact absurd (Glyph.char.inj (hfeed _ hblank)) (by decide)

theorem settle_display (html : List Char) (feeds : Nat) :
    settle (.raw html :: List.replicate feeds (.char '\n')) =
      (.raw html :: List.replicate feeds (.char '\n'), []) := by
  have hfeeds := settle_ofChars (List.replicate feeds '\n')
  rw [Run.ofChars, List.map_replicate] at hfeeds
  rw [settle, hfeeds]

variable {displays : List Char → Prop} {references : References}

/-- The text of a page in which displays of code stand is read without touching these. -/
theorem shows_readElement (hreferences : references.IsTidy) (fuel : Nat) {e : Element}
    (h : e.Shows displays) :
    ∀ found ∈ readElement (Inline.rules .full references) fuel e, found.Shows displays := by
  have hrules := tidy_rules hreferences
  induction fuel generalizing e with
  | zero => exact List.forall_mem_singleton.mpr h
  | succ fuel ih =>
    rcases Element.shows_iff.mp h with ⟨html, feeds, hdisplay, rfl⟩ | hparts
    · rw [readElement_of_words (isWords_display html feeds) (settle_display html feeds)]
      exact List.forall_mem_singleton.mpr (.display feeds hdisplay)
    have hread : ∀ (isDone : Bool) {asIs text : Run}, asIs.IsTidy → text.IsTidy →
        Run.IsTidy (if isDone then (asIs, []) else
          settle (applyAll (Inline.rules .full references) text)).1 ∧
          ∀ e ∈ (if isDone then (asIs, []) else
            settle (applyAll (Inline.rules .full references) text)).2, e.IsTidy := by
      intro isDone asIs text hasIs htext
      split
      · exact ⟨hasIs, nofun⟩
      · exact tidy_settle (tidy_applyAll hrules htext)
    obtain ⟨htext, hinner⟩ := hread (e.text.isEmpty || e.isSealed) hparts.text hparts.text
    obtain ⟨htail, hbehind⟩ := hread e.tail.isEmpty .nil hparts.tail
    have hall : ∀ {elements : List Element}, (∀ e ∈ elements, e.Shows displays) →
        ∀ found ∈ elements.flatMap (readElement (Inline.rules .full references) fuel),
          found.Shows displays :=
      fun helements ↦ List.forall_mem_flatMap.mpr fun e he ↦ ih (helements e he)
    rw [readElement]
    dsimp only
    refine List.forall_mem_cons.mpr ⟨.of_frame
      (((hparts.withText htext).withChildren ?_).withTail htail), hall fun e he ↦
        (hbehind e he).shows⟩
    split
    · intro child hchild
      obtain ⟨found, hfound, rfl⟩ := List.mem_map.mp hchild
      have htidy := Element.isTidy_iff.mp (hinner found hfound)
      exact .of_frame (htidy.withChildren (hall fun e he ↦ (htidy.children e he).shows))
    · exact hall (List.forall_mem_append.mpr
        ⟨fun e he ↦ (hinner e he).shows, hparts.children⟩)

theorem shows_readPage (hreferences : references.IsTidy) {page : Element}
    (h : page.IsFrame (Element.Shows displays)) :
    (readPage .full references page).IsFrame (Element.Shows displays) :=
  h.withChildren (List.forall_mem_flatMap.mpr fun e he ↦
    shows_readElement hreferences deepest (h.children e he))

end Inline

end Guidebook.Markdown
