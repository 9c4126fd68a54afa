import Guidebook.Html.Clean
import Guidebook.Proofs.Html.Marked

/-!
# Clean HTML stays clean

What the cleaning leaves of HTML is written with every markup character escaped, so it is read again
as elements that may be embedded, whatever the HTML was: the tree that a reader of the written text
builds is safe, not only the tree it was written from.
-/

namespace Guidebook

/-- Characters of a class within a wider class may be left out before or after stripping. -/
theorem Text.filter_stripBy {α : Type} {p q : α → Bool} (h : ∀ c, q c = true → p c = true)
    (cs : List α) : (stripBy p cs).filter (!q ·) = stripBy p (cs.filter (!q ·)) := by
  have hdrop : ∀ cs : List α, (cs.dropWhile p).filter (!q ·) = (cs.filter (!q ·)).dropWhile p := by
    intro cs
    induction cs with
    | nil => rfl
    | cons c cs ih =>
      by_cases hp : p c = true
      · rw [List.dropWhile_cons_of_pos hp, ih, List.filter_cons]
        split
        · rw [List.dropWhile_cons_of_pos hp]
        · rfl
      · have hq : (!q c) = true := by simpa using fun hq ↦ hp (h c hq)
        rw [List.dropWhile_cons_of_neg hp, List.filter_cons_of_pos (p := (!q ·)) hq,
          List.dropWhile_cons_of_neg hp]
  rw [stripBy, stripBy, List.filter_reverse, hdrop, List.filter_reverse, hdrop]

namespace Html

/-! ## Values -/

/-- The characters that are written by name in attributes, with their names. -/
def escapes : List (Char × List Char) :=
  [('&', "amp".toList), ('\u00a0', "nbsp".toList), ('<', "lt".toList), ('>', "gt".toList),
    ('"', "quot".toList)]

theorem escapeChar_cases (c : Char) :
    (∃ name, (c, name) ∈ escapes ∧ escapeChar true c = '&' :: name ++ [';']) ∨
      (∀ e ∈ escapes, c ≠ e.1) ∧ escapeChar true c = [c] := by
  rw [escapeChar.eq_def]
  split
  · exact .inl ⟨_, .head _, rfl⟩
  · exact .inl ⟨_, .tail _ (.head _), rfl⟩
  · exact .inl ⟨_, .tail _ (.tail _ (.head _)), rfl⟩
  · exact .inl ⟨_, .tail _ (.tail _ (.tail _ (.head _))), rfl⟩
  · exact .inl ⟨_, .tail _ (.tail _ (.tail _ (.tail _ (.head _)))), rfl⟩
  · refine .inr ⟨fun e he ↦ ?_, rfl⟩
    simp only [escapes, List.mem_cons, List.not_mem_nil, or_false] at he
    rcases he with rfl | rfl | rfl | rfl | rfl <;> assumption

theorem open_not_mem_escapeChar (inAttribute : Bool) (c : Char) :
    '<' ∉ escapeChar inAttribute c := by
  rw [escapeChar.eq_def]
  split
  · decide
  · decide
  · decide
  · decide
  · cases inAttribute <;> decide
  · simpa [eq_comm]

theorem open_not_mem_escaped (inAttribute : Bool) (cs : List Char) :
    '<' ∉ cs.flatMap (escapeChar inAttribute) := fun h ↦ by
  obtain ⟨c, -, hc⟩ := List.mem_flatMap.mp h
  exact open_not_mem_escapeChar inAttribute c hc

theorem quote_not_mem_escaped (cs : List Char) : '"' ∉ cs.flatMap (escapeChar true) := fun h ↦ by
  obtain ⟨c, -, hc⟩ := List.mem_flatMap.mp h
  rcases escapeChar_cases c with ⟨name, hname, heq⟩ | ⟨hne, heq⟩ <;> rw [heq] at hc
  · exact absurd hc ((by decide : ∀ e ∈ escapes, '"' ∉ '&' :: e.2 ++ [';']) _ hname)
  · exact hne ('"', "quot".toList) (by decide) (List.mem_singleton.mp hc).symm

/-- A character that is written by name is read back. -/
theorem reference?_escape {c : Char} {name : List Char} (h : (c, name) ∈ escapes)
    (rest : List Char) : reference? true (name ++ ';' :: rest) = some ([c], rest) := by
  have hnamed : ∀ e ∈ escapes, namedCharacters? e.2 = some [e.1] := by decide +kernel
  have hletters : ∀ e ∈ escapes, e.2.head? ≠ some '#' ∧
      e.2.all (fun d ↦ Text.isLetter d || Text.isDigit d) = true := by decide
  obtain ⟨hhash, hletters⟩ := hletters _ h
  have hword :
      (name ++ ';' :: rest).takeWhile (fun d ↦ Text.isLetter d || Text.isDigit d) = name := by
    rw [List.takeWhile_append_of_pos (List.all_eq_true.mp hletters),
      List.takeWhile_cons_of_neg (by decide), List.append_nil]
  have hread : readName? (name ++ ';' :: rest) = some ([c], true, rest) := by
    rw [readName?, hword, List.drop_left]
    simp [hnamed _ h]
  rw [reference?.eq_def]
  split
  · next heq =>
    cases name with
    | nil => simp at heq
    | cons d name => exact absurd (congrArg some (List.cons.inj heq).1) hhash
  · simp [hread]

/-- What is escaped is read back. -/
theorem decode_escaped (cs : List Char) {fuel : Nat}
    (hfuel : (cs.flatMap (escapeChar true)).length ≤ fuel) :
    decode true fuel (cs.flatMap (escapeChar true)) = cs := by
  induction cs generalizing fuel with
  | nil => cases fuel <;> rfl
  | cons c cs ih =>
    rw [List.flatMap_cons] at hfuel ⊢
    rcases escapeChar_cases c with ⟨name, hname, heq⟩ | ⟨hne, heq⟩
    · rw [heq] at hfuel ⊢
      obtain ⟨fuel, rfl⟩ : ∃ n, fuel = n + 1 :=
        ⟨fuel - 1, by simp at hfuel; omega⟩
      have hread := reference?_escape hname (cs.flatMap (escapeChar true))
      rw [show '&' :: name ++ [';'] ++ cs.flatMap (escapeChar true) =
        '&' :: (name ++ ';' :: cs.flatMap (escapeChar true)) by simp, decode, hread]
      simp only [List.cons_append, List.nil_append, List.cons.injEq, true_and]
      refine ih ?_
      simp only [List.length_append, List.length_cons] at hfuel
      omega
    · rw [heq] at hfuel ⊢
      obtain ⟨fuel, rfl⟩ : ∃ n, fuel = n + 1 :=
        ⟨fuel - 1, by simp at hfuel; omega⟩
      have hamp : c ≠ '&' := hne ('&', "amp".toList) (by decide)
      rw [List.singleton_append, decode]
      · rw [ih (by simpa using hfuel)]
      · exact hamp

theorem valueOf_escaped {cs : List Char} (h : '\x00' ∉ cs) :
    valueOf (cs.flatMap (escapeChar true)) = cs := by
  rw [valueOf, decode_escaped cs (Nat.le_refl _)]
  conv_rhs => rw [← List.map_id cs]
  exact List.map_congr_left fun c hc ↦ if_neg (by simpa using ne_of_mem_of_not_mem hc h)

/-- Line ends may be unified before or after escaping. -/
theorem universalNewlines_escaped (cs : List Char) :
    Text.universalNewlines (cs.flatMap (escapeChar true)) =
      (Text.universalNewlines cs).flatMap (escapeChar true) := by
  have hfeed : escapeChar true '\n' = ['\n'] := rfl
  have hreturn : escapeChar true '\r' = ['\r'] := rfl
  induction cs using Text.universalNewlines.induct with
  | case1 => rfl
  | case2 rest ih =>
    rw [List.flatMap_cons, List.flatMap_cons, hfeed, hreturn, Text.universalNewlines,
      List.flatMap_cons, hfeed, ← ih]
    simp [Text.universalNewlines]
  | case3 rest hpair ih =>
    have hhead : rest.head? ≠ some '\n' := by
      cases rest with
      | nil => simp
      | cons c rest => exact fun heq ↦ hpair rest (by rw [Option.some.inj heq])
    have hescaped : (rest.flatMap (escapeChar true)).head? ≠ some '\n' := by
      cases rest with
      | nil => simp
      | cons c rest =>
        rcases escapeChar_cases c with ⟨name, -, heq⟩ | ⟨-, heq⟩
        · simp [heq]
        · simpa [heq] using hhead
    rw [Text.universalNewlines_return hhead, List.flatMap_cons, hreturn, List.singleton_append,
      Text.universalNewlines_return hescaped, ih, List.flatMap_cons, hfeed, List.singleton_append]
  | case4 c rest _ hc ih =>
    have hc : c ≠ '\r' := fun heq ↦ hc heq
    have hescaped : '\r' ∉ escapeChar true c := by
      rcases escapeChar_cases c with ⟨name, hname, heq⟩ | ⟨-, heq⟩ <;> rw [heq]
      · exact (by decide : ∀ e ∈ escapes, '\r' ∉ '&' :: e.2 ++ [';']) _ hname
      · simpa using hc.symm
    rw [Text.universalNewlines_cons hc, List.flatMap_cons, List.flatMap_cons,
      Text.universalNewlines_append _ fun hlast ↦ absurd (List.mem_of_getLast? hlast) hescaped,
      Text.universalNewlines_eq_self hescaped, ih]

/-! ## Addresses -/

/-- Line ends of an address do not count. -/
theorem Url.clean_universalNewlines (cs : List Char) :
    clean (Text.universalNewlines cs) = clean cs := by
  have hmargin : ∀ c, isIgnored c = true → isMargin c = true := by
    intro c hc
    simp only [isIgnored, Bool.or_eq_true, beq_iff_eq] at hc
    rcases hc with (rfl | rfl) | rfl <;> decide
  have hfeed : isIgnored '\n' = true := rfl
  have hreturn : isIgnored '\r' = true := rfl
  have hfilter : (Text.universalNewlines cs).filter (!isIgnored ·) = cs.filter (!isIgnored ·) := by
    induction cs using Text.universalNewlines.induct with
    | case1 => rfl
    | case2 rest ih => simp [Text.universalNewlines, ih, hfeed, hreturn]
    | case3 rest hpair ih =>
      rw [Text.universalNewlines]
      · simp [ih, hfeed, hreturn]
      · exact hpair
    | case4 c rest hpair hreturn ih =>
      rw [Text.universalNewlines]
      · rw [List.filter_cons, List.filter_cons, ih]
      · exact hpair
      · exact hreturn
  rw [clean, clean, Text.filter_stripBy hmargin, hfilter, ← Text.filter_stripBy hmargin]

/-- An address that is kept has no other scheme than the allowed ones. -/
theorem mem_allowedSchemes {value rest : List Char} {scheme : String}
    (h : isAllowedAddress value = true)
    (hscheme : Url.scheme? (Url.clean value) = some (scheme, rest)) : scheme ∈ allowedSchemes := by
  rw [isAllowedAddress, Url.kind, hscheme] at h
  dsimp only at h
  split at h
  · next hkind =>
    split at hkind
    · split at hkind <;> cases hkind
    · cases hkind
  · next found hkind =>
    have hfound : scheme = found := by
      split at hkind
      · split at hkind <;> cases hkind
        rfl
      · cases hkind
        rfl
    exact hfound ▸ List.contains_iff_mem.mp h
  · cases h

/-! ## Cleaning -/

variable {p : Vocabulary → String → List Attribute → Prop}

/-- An element of a clean tree: an allowed one with what is kept of the attributes of an element. -/
def CleanedFrom (p : Vocabulary → String → List Attribute → Prop) (vocabulary : Vocabulary)
    (tag : String) (attributes : List Attribute) : Prop :=
  vocabulary = .html ∧ tag ∈ allowedTags ∧
    ∃ from' given, p from' tag given ∧ attributes = cleanAttributes tag given

theorem mem_cleanAll {nodes : List Node} {node : Node} :
    node ∈ cleanAll nodes ↔ ∃ dirty ∈ nodes, node ∈ dirty.clean := by
  induction nodes with
  | nil => simp [cleanAll]
  | cons first rest ih => simp [cleanAll, ih]

theorem Node.MadeOf.clean {dirty : Node} (h : dirty.MadeOf p) :
    ∀ node ∈ dirty.clean, node.MadeOf (CleanedFrom p) := by
  induction h with
  | text content =>
    intro node hnode
    rw [Node.clean] at hnode
    exact List.mem_singleton.mp hnode ▸ .text content
  | @element vocabulary tag attributes children hp _ ih =>
    have hinner : ∀ node ∈ cleanAll children, node.MadeOf (CleanedFrom p) := fun node hnode ↦ by
      obtain ⟨child, hchild, hnode⟩ := mem_cleanAll.mp hnode
      exact ih child hchild node hnode
    intro node hnode
    rw [Node.clean] at hnode
    split at hnode
    · cases hnode
    · split at hnode
      · next hallowed =>
        obtain rfl := List.mem_singleton.mp hnode
        exact .element ⟨rfl, List.contains_iff_mem.mp hallowed, vocabulary, attributes, hp, rfl⟩
          hinner
      · exact hinner node hnode

theorem madeOf_cleanAll {nodes : List Node} (h : ∀ node ∈ nodes, node.MadeOf p) :
    ∀ node ∈ cleanAll nodes, node.MadeOf (CleanedFrom p) := fun node hnode ↦ by
  obtain ⟨dirty, hdirty, hnode⟩ := mem_cleanAll.mp hnode
  exact (h dirty hdirty).clean node hnode

/-! ## Writing -/

/-- An attribute as it is written: its name and what stands between the quotes. -/
def Attribute.written (a : Attribute) : String × List Char :=
  (a.name, a.value.flatMap (escapeChar true))

/-- What is read of an attribute that was written. -/
def Attribute.reread (a : Attribute) : Attribute :=
  ⟨a.name, valueOf (Text.universalNewlines (a.value.flatMap (escapeChar true)))⟩

/-- Of a value nothing changes but its line ends. -/
theorem Attribute.reread_eq {a : Attribute} (h : '\x00' ∉ a.value) :
    a.reread = ⟨a.name, Text.universalNewlines a.value⟩ := by
  have hnull : '\x00' ∉ Text.universalNewlines a.value := fun hmem ↦
    h ((Text.mem_universalNewlines hmem).resolve_left (by decide))
  rw [reread, universalNewlines_escaped, valueOf_escaped hnull]

theorem writeAttributes_eq (attributes : List Attribute) :
    writeAttributes attributes = (attributes.map Attribute.written).flatMap attributeHtml := by
  rw [writeAttributes, List.flatMap_map]
  rfl

/-- Elements that a predicate tells are written with names that are read as they are. -/
def IsNamed (p : Vocabulary → String → List Attribute → Prop) : Prop :=
  ∀ vocabulary tag attributes, p vocabulary tag attributes →
    isName tag = true ∧ ∀ a ∈ attributes, isName a.name = true

/-- The start tag of an element that a predicate tells. -/
def Stems (p : Vocabulary → String → List Attribute → Prop) (t : StartTag) : Prop :=
  ∃ vocabulary attributes, p vocabulary t.name attributes ∧
    t.attributes = attributes.map Attribute.written

theorem writeAll_eq (nodes : List Node) : writeAll nodes = nodes.flatMap Node.write := by
  induction nodes with
  | nil => rfl
  | cons node rest ih => rw [writeAll, ih, List.flatMap_cons]

theorem Node.MadeOf.marked (hnames : IsNamed p) {node : Node} (h : node.MadeOf p) :
    Marked (Stems p) node.write := by
  induction h with
  | text content =>
    rw [Node.write]
    exact .of_text (open_not_mem_escaped false content)
  | @element vocabulary tag attributes children hp _ ih =>
    obtain ⟨htag, hattributes⟩ := hnames _ _ _ hp
    let t : StartTag := {
      name := tag
      attributes := attributes.map Attribute.written
      selfClosing := false
      isName := htag
      areNames := fun a ha ↦ by
        obtain ⟨b, hb, rfl⟩ := List.mem_map.mp ha
        exact hattributes b hb
      areQuoted := fun a ha ↦ by
        obtain ⟨b, -, rfl⟩ := List.mem_map.mp ha
        exact quote_not_mem_escaped b.value }
    have htext : (Node.element vocabulary tag attributes children).write = t.html ++
        (if voidTags.contains tag then [] else writeAll children ++ endTag tag) := by
      rw [Node.write, writeAttributes_eq]
      simp [t, StartTag.html, tagEnd, endTag]
    rw [htext]
    refine .start ⟨vocabulary, attributes, hp, rfl⟩ ?_
    split
    · exact .nil
    · rw [writeAll_eq]
      exact (Marked.flatMap ih).append (.of_stop htag)

/-- What is read of the attributes of a start tag. -/
theorem Stems.reread {t : StartTag} {attributes : List Attribute}
    (ht : t.attributes = attributes.map Attribute.written) {a : Attribute}
    (ha : a ∈ t.unified.tag.attributes) : ∃ b ∈ attributes, a = b.reread := by
  obtain ⟨name, value, hmem, rfl⟩ := StartTag.mem_attributes ha
  obtain ⟨⟨name', value'⟩, hmem', heq⟩ := List.mem_map.mp hmem
  obtain ⟨rfl, rfl⟩ := Prod.mk.inj heq
  rw [ht] at hmem'
  obtain ⟨b, hb, heq'⟩ := List.mem_map.mp hmem'
  obtain ⟨rfl, rfl⟩ := Prod.mk.inj heq'
  exact ⟨b, hb, rfl⟩

/-! ## What cleaning keeps -/

/-- The names of the attributes that a table lists for an element. -/
theorem mem_ownAttributes {tag name : String}
    (h : ((ownAttributes.lookup tag).getD []).contains name = true) :
    ∃ names, (tag, names) ∈ ownAttributes ∧ name ∈ names := by
  cases hlookup : ownAttributes.lookup tag with
  | none => simp [hlookup] at h
  | some names =>
    obtain ⟨front, back, heq, -⟩ := List.lookup_eq_some_iff.mp hlookup
    exact ⟨names, by simp [heq], by simpa [hlookup] using h⟩

theorem isAllowedAttribute_cases {tag name : String} (h : isAllowedAttribute tag name = true) :
    name ∈ commonAttributes ∨ ∃ names, (tag, names) ∈ ownAttributes ∧ name ∈ names := by
  rw [isAllowedAttribute, Bool.or_eq_true] at h
  exact h.imp List.contains_iff_mem.mp mem_ownAttributes

/-- Attributes that an element keeps have names that are written as they are. -/
theorem isName_of_isAllowedAttribute {tag name : String} (h : isAllowedAttribute tag name = true) :
    isName name = true := by
  rcases isAllowedAttribute_cases h with h | ⟨names, hnames, h⟩
  · exact (by decide : ∀ name ∈ commonAttributes, isName name = true) name h
  · exact (by decide : ∀ e ∈ ownAttributes, ∀ name ∈ e.2, isName name = true) _ hnames name h

/-- Cells alone may have a style. -/
theorem tag_of_style {tag : String} (h : isAllowedAttribute tag "style" = true) :
    tag = "td" ∨ tag = "th" := by
  rcases isAllowedAttribute_cases h with h | ⟨names, hnames, h⟩
  · exact absurd h (by decide)
  · exact (by decide : ∀ e ∈ ownAttributes, "style" ∈ e.2 → e.1 = "td" ∨ e.1 = "th") _ hnames h

/-- An attribute that is kept is as it was given, but for a style. -/
theorem mem_cleanAttributes {tag : String} {attributes : List Attribute} {a : Attribute}
    (h : a ∈ cleanAttributes tag attributes) :
    tag = "a" ∧ a = linkRelation ∨ ∃ b ∈ attributes, cleanAttribute? tag b = some a := by
  rw [cleanAttributes] at h
  split at h
  · next htag =>
    rcases List.mem_append.mp h with h | h
    · exact .inr (List.mem_filterMap.mp h)
    · exact .inl ⟨eq_of_beq htag, List.mem_singleton.mp h⟩
  · exact .inr (List.mem_filterMap.mp h)

/-- What an attribute that is kept has to be. -/
theorem of_cleanAttribute? {tag : String} {a b : Attribute} (h : cleanAttribute? tag b = some a) :
    isAllowedAttribute tag a.name = true ∧ a.name = b.name ∧
      (isAddress a.name = true → isAllowedAddress b.value = true) ∧
      a.value = if a.name = "style" then cleanStyle b.value else b.value := by
  rw [cleanAttribute?] at h
  obtain ⟨hallowed, h⟩ := Option.ite_none_left_eq_some.mp h
  obtain ⟨haddress, h⟩ := Option.ite_none_left_eq_some.mp h
  have hname : a.name = b.name := by
    split at h <;> cases h <;> rfl
  rw [hname]
  refine ⟨by simpa using hallowed, rfl, fun hb ↦ by simpa [hb] using haddress, ?_⟩
  split at h
  · next hstyle =>
    cases h
    rw [if_pos (eq_of_beq hstyle)]
  · next hstyle =>
    cases h
    rw [if_neg (by simpa using hstyle)]

theorem isName_of_mem_allowedTags {tag : String} (h : tag ∈ allowedTags) : isName tag = true :=
  (by decide +kernel : ∀ tag ∈ allowedTags, isName tag = true) tag h

theorem not_mem_specialTags {tag : String} (h : tag ∈ allowedTags) : tag ∉ specialTags :=
  (by decide +kernel : ∀ tag ∈ allowedTags, tag ∉ specialTags) tag h

theorem mem_allowedTags {tag : String} (h : tag ∈ bareTags) : tag ∈ allowedTags :=
  (by decide +kernel : ∀ tag ∈ bareTags, tag ∈ allowedTags) tag h

theorem isNamed_cleanedFrom : IsNamed (CleanedFrom p) := by
  rintro _ tag _ ⟨-, htag, _, given, -, rfl⟩
  refine ⟨isName_of_mem_allowedTags htag, fun a ha ↦ ?_⟩
  rcases mem_cleanAttributes ha with ⟨-, rfl⟩ | ⟨b, -, hb⟩
  · decide
  · exact isName_of_isAllowedAttribute (of_cleanAttribute? hb).1

/-- An element that is read of clean HTML: it was left out, or it stems from an element of the HTML
before it was cleaned. -/
def RereadFrom (p : Vocabulary → String → List Attribute → Prop) (tag : String)
    (attributes : List Attribute) : Prop :=
  tag ∈ bareTags ∧ attributes = [] ∨ tag ∈ allowedTags ∧ ∃ from' given, p from' tag given ∧
    ∀ a ∈ attributes, ∃ b ∈ cleanAttributes tag given, a = b.reread

theorem parse_sanitize {html : List Char} (h : ∀ node ∈ parse html, node.MadeOf p) :
    ∀ node ∈ parse (sanitize html), node.MadeOf fun vocabulary tag attributes ↦
      vocabulary = .html ∧ RereadFrom p tag attributes := by
  have hmarked : Marked (Stems (CleanedFrom p)) (sanitize html) := by
    rw [sanitize, writeAll_eq]
    exact .flatMap fun node hnode ↦ (madeOf_cleanAll h node hnode).marked isNamed_cleanedFrom
  refine hmarked.parse (fun tag htag ↦ .inl ⟨htag, rfl⟩) ?_
  rintro t ⟨_, _, ⟨-, htag, from', given, hgiven, rfl⟩, ht⟩
  exact ⟨not_mem_specialTags htag,
    .inr ⟨htag, from', given, hgiven, fun a ha ↦ Stems.reread ht ha⟩⟩

/-! ## Safe elements -/

/-- An element that may be embedded. -/
structure IsEmbeddable (tag : String) (attributes : List Attribute) : Prop where
  /-- It is of an allowed kind. -/
  isAllowed : tag ∈ allowedTags
  /-- Its attributes are allowed for it; a link also says how it leads on. -/
  areAllowed : ∀ a ∈ attributes,
    isAllowedAttribute tag a.name = true ∨ tag = "a" ∧ a = linkRelation
  /-- What it leads to and what it shows is relative or has one of the allowed schemes. -/
  isSafe : ∀ a ∈ attributes, isAddress a.name = true →
    ∀ scheme rest, Url.scheme? (Url.clean a.value) = some (scheme, rest) → scheme ∈ allowedSchemes
  /-- Only a cell has a style. -/
  isCell : ∀ a ∈ attributes, a.name = "style" → tag = "td" ∨ tag = "th"

theorem reread_linkRelation : linkRelation.reread = linkRelation := by decide +kernel

theorem isEmbeddable_of_reread {tag : String} (htag : tag ∈ allowedTags)
    {given attributes : List Attribute} (hgiven : HasNoNulls given)
    (h : ∀ a ∈ attributes, ∃ b ∈ cleanAttributes tag given, a = b.reread) :
    IsEmbeddable tag attributes := by
  have hcases : ∀ a ∈ attributes, tag = "a" ∧ a = linkRelation ∨
      ∃ b ∈ given, ∃ c, cleanAttribute? tag b = some c ∧ a = c.reread := by
    intro a ha
    obtain ⟨c, hc, rfl⟩ := h a ha
    rcases mem_cleanAttributes hc with ⟨htag, rfl⟩ | ⟨b, hb, hkept⟩
    · exact .inl ⟨htag, reread_linkRelation⟩
    · exact .inr ⟨b, hb, c, hkept, rfl⟩
  refine ⟨htag, fun a ha ↦ ?_, fun a ha haddress scheme rest hscheme ↦ ?_, fun a ha hstyle ↦ ?_⟩
  · rcases hcases a ha with hlink | ⟨b, -, c, hkept, rfl⟩
    · exact .inr hlink
    · exact .inl (of_cleanAttribute? hkept).1
  · rcases hcases a ha with ⟨-, rfl⟩ | ⟨b, hb, c, hkept, rfl⟩
    · exact absurd haddress (by decide)
    · obtain ⟨-, -, hsafe, hvalue⟩ := of_cleanAttribute? hkept
      have hname : c.name ≠ "style" := fun heq ↦ by
        rw [Attribute.reread, heq] at haddress
        exact absurd haddress (by decide)
      rw [if_neg hname] at hvalue
      rw [Attribute.reread_eq (hvalue ▸ hgiven b hb), Url.clean_universalNewlines, hvalue] at hscheme
      exact mem_allowedSchemes (hsafe haddress) hscheme
  · rcases hcases a ha with ⟨-, rfl⟩ | ⟨b, -, c, hkept, rfl⟩
    · exact absurd hstyle (by decide)
    · have hname : c.name = "style" := hstyle
      exact tag_of_style (hname ▸ (of_cleanAttribute? hkept).1)

/-- Whatever HTML is cleaned, what a reader finds in the result may be embedded. -/
theorem isEmbeddable_sanitize (html : List Char) :
    ∀ node ∈ parse (sanitize html), node.MadeOf fun vocabulary tag attributes ↦
      vocabulary = .html ∧ IsEmbeddable tag attributes := by
  refine fun node hnode ↦ (parse_sanitize (madeOf_parse html) node hnode).mono ?_
  rintro vocabulary tag attributes ⟨hhtml, ⟨hbare, rfl⟩ | ⟨htag, _, given, hgiven, hread⟩⟩
  · exact ⟨hhtml, mem_allowedTags hbare, nofun, nofun, nofun⟩
  · exact ⟨hhtml, isEmbeddable_of_reread htag hgiven hread⟩

end Html
end Guidebook
