import Guidebook.Proofs.Html.Reading
import Guidebook.Proofs.Text.Newlines

/-!
# Trees of markup

HTML that is nothing but text, start tags and end tags, without special tags among them, is read
into a tree whose elements all stem from its start tags, or were left out and have no attributes.
-/

namespace Guidebook.Html

/-! ## Trees -/

/-- The elements of a node are such as a predicate tells. -/
inductive Node.MadeOf (p : Vocabulary → String → List Attribute → Prop) : Node → Prop
  | text (content : List Char) : MadeOf p (.text content)
  | element {vocabulary : Vocabulary} {tag : String} {attributes : List Attribute}
    {children : List Node} (h : p vocabulary tag attributes)
    (hchildren : ∀ child ∈ children, MadeOf p child) :
    MadeOf p (.element vocabulary tag attributes children)

theorem Node.MadeOf.mono {p q : Vocabulary → String → List Attribute → Prop}
    (h : ∀ vocabulary tag attributes, p vocabulary tag attributes → q vocabulary tag attributes)
    {node : Node} (hnode : node.MadeOf p) : node.MadeOf q := by
  induction hnode with
  | text content => exact .text content
  | element hp _ ih => exact .element (h _ _ _ hp) ih

/-- Trees may be built of the elements that a predicate tells. -/
def Policy.tree (reads : Tag → Prop) (opens : Vocabulary → String → List Attribute → Prop)
    (awaits : Prop) (opens_tag : ∀ {tag : Tag}, reads tag → opens .html tag.name tag.attributes)
    (opens_bare : ∀ tag ∈ bareTags, opens .html tag [])
    (opens_html : ∀ {vocabulary tag attributes}, opens vocabulary tag attributes →
      opens .html tag attributes)
    (opens_inner : ∀ {vocabulary tag attributes} {inner : Tag}, opens vocabulary tag attributes →
      reads inner → opens vocabulary inner.name inner.attributes)
    (special : ∀ {tag : Tag}, reads tag → tag.name ∈ specialTags →
      awaits ∧ ∀ vocabulary name, opens vocabulary name tag.attributes) : Policy where
  reads := reads
  opens := opens
  holds := Node.MadeOf opens
  root children := ∀ node ∈ children, node.MadeOf opens
  awaits := awaits
  opens_tag := opens_tag
  opens_bare := opens_bare
  opens_html := opens_html
  opens_inner := opens_inner
  special := special
  holds_text := .text
  holds_element := .element
  root_add hroot hnode other hother := by
    rcases Open.mem_children_add hother with rfl | ⟨content, rfl⟩ | hother
    · exact hnode
    · exact .text content
    · exact hroot other hother

namespace Builder

/-- Nothing read yet keeps to every policy for trees. -/
theorem holds_start {policy : Policy} (h : policy.root []) : Builder.start.Holds policy :=
  ⟨⟨rfl, rfl, h⟩, nofun, Nat.one_ne_zero, nofun⟩

end Builder

/-! ## Attributes of any text -/

/-- Values of attributes hold no null character. -/
def HasNoNulls (attributes : List Attribute) : Prop := ∀ a ∈ attributes, '\x00' ∉ a.value

theorem hasNoNulls_nil : HasNoNulls [] := fun _ h ↦ absurd h List.not_mem_nil

theorem null_not_mem_valueOf (cs : List Char) : '\x00' ∉ valueOf cs := by
  intro hmem
  obtain ⟨c, -, heq⟩ := List.mem_map.mp hmem
  split at heq
  · exact absurd heq (by decide)
  · next hne => exact hne (by simp [heq])

theorem HasNoNulls.addAttribute {attributes : List Attribute} (h : HasNoNulls attributes)
    {a : Attribute} (ha : '\x00' ∉ a.value) : HasNoNulls (addAttribute attributes a) := by
  rw [Html.addAttribute]
  split
  · exact h
  · exact List.forall_mem_append.mpr ⟨h, List.forall_mem_singleton.mpr ha⟩

theorem null_not_mem_readValue? {cs after value : List Char}
    (h : readValue? cs = some (value, after)) : '\x00' ∉ value := by
  rw [readValue?.eq_def] at h
  split at h
  · cases h
  · obtain ⟨rfl, -⟩ := Prod.mk.inj (Option.some.inj h)
    exact List.not_mem_nil
  · split at h
    · split at h
      · obtain ⟨rfl, -⟩ := Prod.mk.inj (Option.some.inj h)
        exact null_not_mem_valueOf _
      · cases h
    · obtain ⟨rfl, -⟩ := Prod.mk.inj (Option.some.inj h)
      exact null_not_mem_valueOf _

theorem hasNoNulls_readAttributes? {fuel : Nat} {found attributes : List Attribute}
    {cs after : List Char} {selfClosing : Bool} (hfound : HasNoNulls found)
    (h : readAttributes? fuel found cs = some (attributes, selfClosing, after)) :
    HasNoNulls attributes := by
  induction fuel generalizing found cs with
  | zero => cases h
  | succ fuel ih =>
    rw [readAttributes?.eq_def] at h
    dsimp only at h
    split at h
    · cases h
    · obtain ⟨rfl, -⟩ := Prod.mk.inj (Option.some.inj h)
      exact hfound
    · obtain ⟨rfl, -⟩ := Prod.mk.inj (Option.some.inj h)
      exact hfound
    · exact ih hfound h
    · split at h
      · split at h
        · next hvalue => exact ih (hfound.addAttribute (null_not_mem_readValue? hvalue)) h
        · cases h
      · exact ih (hfound.addAttribute List.not_mem_nil) h

/-- The attributes of any start tag hold no null character. -/
theorem hasNoNulls_of_nextTokens {foreign : Bool} {cs : List Char} {tag : Tag}
    (h : .start tag ∈ (nextTokens foreign cs).1) : HasNoNulls tag.attributes := by
  have hchars : ∀ found : List Char, .start tag ∉ found.map Token.char := fun found hmem ↦ by
    obtain ⟨c, -, heq⟩ := List.mem_map.mp hmem
    cases heq
  rw [nextTokens.eq_def] at h
  split at h
  · cases h
  · split at h
    · split at h <;> simp at h
    · split at h <;> simp at h
  · split at h
    · simp at h
    · split at h
      · exact absurd h (hchars _)
      · split at h <;> simp at h
  · simp at h
  · split at h
    · split at h
      · next found after hread =>
        obtain rfl := Token.start.inj (List.mem_singleton.mp h)
        obtain ⟨⟨attributes, selfClosing, after⟩, hattributes, heq⟩ := Option.map_eq_some_iff.mp hread
        obtain ⟨rfl, -⟩ := Prod.mk.inj heq
        exact hasNoNulls_readAttributes? hasNoNulls_nil hattributes
      · simp at h
    · simp at h
  · split at h
    · exact absurd h (hchars _)
    · simp at h
  · simp at h

/-- No element of a tree has a null character in its attributes. -/
theorem madeOf_parse (text : List Char) :
    ∀ node ∈ parse text, node.MadeOf fun _ _ attributes ↦ HasNoNulls attributes := by
  let policy := Policy.tree (fun tag ↦ HasNoNulls tag.attributes)
    (fun _ _ attributes ↦ HasNoNulls attributes) True id (fun _ _ ↦ hasNoNulls_nil) id (fun _ h ↦ h)
    (fun h _ ↦ ⟨trivial, fun _ _ ↦ h⟩)
  have hstart : Builder.start.Holds policy := Builder.holds_start nofun
  have hread : ∀ fuel cs, (Builder.readText fuel .start cs).Holds policy := fun fuel cs ↦
    hstart.readText fuel cs fun foreign cs token htoken ↦ by
      cases token with
      | start tag => exact hasNoNulls_of_nextTokens htoken
      | stop name => trivial
      | char c => trivial
      | comment => trivial
  exact fun node hnode ↦ (hread _ _).finish node (List.mem_reverse.mpr hnode)

/-! ## Written tags -/

/-- A character of the names that are written: a small letter or a digit. -/
def isNameChar (c : Char) : Bool := ('a' ≤ c && c ≤ 'z') || Text.isDigit c

/-- A name as tags and attributes are written with. -/
def isName (name : String) : Bool :=
  name.toList.head?.any Text.isLetter && name.toList.all isNameChar

/-- What a character of a name is not. -/
structure IsInName (c : Char) : Prop where
  space : isSpace c = false
  lower : lowerLetter c = c
  ne_mark : ∀ mark ∈ ['\x00', '\r', '/', '>', '=', '<'], c ≠ mark

theorem isInName {c : Char} (h : isNameChar c = true) : IsInName c := by
  have hne : ∀ mark, isNameChar mark = false → c ≠ mark := by
    rintro mark hmark rfl
    simp [h] at hmark
  refine ⟨?_, if_neg ?_, fun mark hmark ↦ hne mark ?_⟩
  · simp [isSpace, hne ' ' (by decide), hne '\n' (by decide), hne '\t' (by decide),
      hne '\x0c' (by decide), hne '\r' (by decide)]
  · simp only [isNameChar, Text.isDigit, Bool.or_eq_true, Bool.and_eq_true, decide_eq_true_eq,
      Char.le_def, UInt32.le_iff_toNat_le] at h ⊢
    simp at h ⊢
    omega
  · have hall : ['\x00', '\r', '/', '>', '=', '<'].all (!isNameChar ·) = true := by decide
    simpa using List.all_eq_true.mp hall mark hmark

theorem isName_cases {name : String} (h : isName name = true) :
    ∃ c rest, name.toList = c :: rest ∧ Text.isLetter c = true ∧ IsInName c ∧
      ∀ d ∈ rest, IsInName d := by
  rw [isName, Bool.and_eq_true] at h
  cases hname : name.toList with
  | nil => simp [hname] at h
  | cons c rest =>
    simp only [hname, List.head?_cons, Option.any_some, List.all_cons, Bool.and_eq_true,
      List.all_eq_true] at h
    exact ⟨c, rest, rfl, h.1, isInName h.2.1, fun d hd ↦ isInName (h.2.2 d hd)⟩

theorem nameOf_toList {name : String} (h : isName name = true) : nameOf name.toList = name := by
  obtain ⟨c, rest, hname, -, hc, hrest⟩ := isName_cases h
  have hsame : ∀ d ∈ name.toList, (if d == '\x00' then replacement else lowerLetter d) = d := by
    intro d hd
    rw [hname] at hd
    have hd : IsInName d := (List.forall_mem_cons.mpr ⟨hc, hrest⟩) d hd
    rw [if_neg (by simpa using hd.ne_mark '\x00' (by decide)), hd.lower]
  rw [nameOf, List.map_congr_left hsame, List.map_id']
  exact String.ofList_toList

/-- A start tag as it is written: each attribute with what stands between its quotes. -/
structure StartTag where
  name : String
  attributes : List (String × List Char)
  selfClosing : Bool
  isName : isName name = true
  areNames : ∀ a ∈ attributes, Html.isName a.1 = true
  areQuoted : ∀ a ∈ attributes, '"' ∉ a.2

/-- An attribute as it is written. -/
def attributeHtml (a : String × List Char) : List Char :=
  ' ' :: a.1.toList ++ '=' :: '"' :: a.2 ++ ['"']

/-- The end of a start tag. -/
def tagEnd (selfClosing : Bool) : List Char := if selfClosing then [' ', '/', '>'] else ['>']

/-- A start tag as text. -/
def StartTag.html (t : StartTag) : List Char :=
  '<' :: t.name.toList ++ t.attributes.flatMap attributeHtml ++ tagEnd t.selfClosing

/-- An end tag as text. -/
def endTag (name : String) : List Char := '<' :: '/' :: name.toList ++ ['>']

/-- What a start tag is read as. -/
def StartTag.tag (t : StartTag) : Tag :=
  ⟨t.name, (t.attributes.map fun a ↦ ⟨a.1, valueOf a.2⟩).foldl addAttribute [], t.selfClosing⟩

theorem mem_foldl_addAttribute {found attributes : List Attribute} {a : Attribute}
    (h : a ∈ attributes.foldl addAttribute found) : a ∈ found ∨ a ∈ attributes := by
  induction attributes generalizing found with
  | nil => exact .inl h
  | cons b attributes ih =>
    rcases ih h with h | h
    · rw [addAttribute] at h
      split at h
      · exact .inl h
      · rcases List.mem_append.mp h with h | h
        · exact .inl h
        · exact .inr (List.mem_singleton.mp h ▸ .head _)
    · exact .inr (.tail _ h)

theorem StartTag.mem_attributes {t : StartTag} {a : Attribute} (h : a ∈ t.tag.attributes) :
    ∃ name value, (name, value) ∈ t.attributes ∧ a = ⟨name, valueOf value⟩ := by
  obtain ⟨⟨name, value⟩, hmem, rfl⟩ :=
    List.mem_map.mp ((mem_foldl_addAttribute h).resolve_left List.not_mem_nil)
  exact ⟨name, value, hmem, rfl⟩

/-- A name is read up to the character that ends it. -/
private theorem takeWhile_name (inName : Char → Bool) {cs : List Char} (rest : List Char)
    (hcs : ∀ c ∈ cs, inName c = true) (hrest : rest.head?.any inName = false) :
    (cs ++ rest).takeWhile inName = cs ∧ (cs ++ rest).dropWhile inName = rest := by
  rw [List.takeWhile_append_of_pos hcs, List.dropWhile_append_of_pos hcs]
  cases rest with
  | nil => simp
  | cons d rest => simp_all

theorem readAttributes?_attributeHtml {a : String × List Char} (hname : isName a.1 = true)
    (hquoted : '"' ∉ a.2) (fuel : Nat) (found : List Attribute) (rest : List Char) :
    readAttributes? (fuel + 1) found (attributeHtml a ++ rest) =
      readAttributes? fuel (addAttribute found ⟨a.1, valueOf a.2⟩) rest := by
  obtain ⟨name, value⟩ := a
  obtain ⟨c, cs, hcs, -, hc, hrest⟩ := isName_cases hname
  have hvalue : readValue? ('"' :: value ++ '"' :: rest) = some (valueOf value, rest) := by
    have hinner : ∀ d ∈ value, (d != '"') = true := fun d hd ↦ by
      simpa using ne_of_mem_of_not_mem hd hquoted
    obtain ⟨htake, hdrop⟩ := takeWhile_name (· != '"') ('"' :: rest) hinner rfl
    rw [readValue?, List.cons_append, List.dropWhile_cons_of_neg (by decide)]
    simp [htake, hdrop]
  have hinName : ∀ d ∈ cs, (!isSpace d && d != '/' && d != '>' && d != '=') = true := fun d hd ↦ by
    have hd := hrest d hd
    simp [hd.space, hd.ne_mark '/' (by decide), hd.ne_mark '>' (by decide),
      hd.ne_mark '=' (by decide)]
  obtain ⟨htake, hdrop⟩ := takeWhile_name
    (fun d ↦ !isSpace d && d != '/' && d != '>' && d != '=')
    ('=' :: '"' :: value ++ '"' :: rest) hinName rfl
  have htext : attributeHtml (name, value) ++ rest =
      ' ' :: c :: (cs ++ ('=' :: '"' :: value ++ '"' :: rest)) := by
    simp [attributeHtml, hcs]
  have hblank : (' ' :: c :: (cs ++ ('=' :: '"' :: value ++ '"' :: rest))).dropWhile isSpace =
      c :: (cs ++ ('=' :: '"' :: value ++ '"' :: rest)) := by
    rw [List.dropWhile_cons_of_pos (by decide), List.dropWhile_cons_of_neg (by simp [hc.space])]
  have hequals : ('=' :: '"' :: value ++ '"' :: rest).dropWhile isSpace =
      '=' :: ('"' :: value ++ '"' :: rest) := List.dropWhile_cons_of_neg (by decide)
  rw [htext, readAttributes?.eq_def]
  dsimp only
  rw [hblank]
  split
  · next heq => cases heq
  · next heq => exact absurd (List.cons.inj heq).1 (hc.ne_mark '>' (by decide))
  · next heq => exact absurd (List.cons.inj heq).1 (hc.ne_mark '/' (by decide))
  · next heq => exact absurd (List.cons.inj heq).1 (hc.ne_mark '/' (by decide))
  · next d ds _ _ heq =>
    obtain ⟨rfl, rfl⟩ := List.cons.inj heq
    rw [hdrop, hequals, htake, ← hcs, nameOf_toList hname]
    simp only [List.cons_append] at hvalue ⊢
    rw [hvalue]

theorem readAttributes?_flatMap {attributes : List (String × List Char)} {selfClosing : Bool}
    (hnames : ∀ a ∈ attributes, isName a.1 = true) (hquoted : ∀ a ∈ attributes, '"' ∉ a.2)
    {fuel : Nat} (hfuel : attributes.length < fuel) (found : List Attribute) (rest : List Char) :
    readAttributes? fuel found (attributes.flatMap attributeHtml ++ tagEnd selfClosing ++ rest) =
      some ((attributes.map fun a ↦ ⟨a.1, valueOf a.2⟩).foldl addAttribute found, selfClosing,
        rest) := by
  induction attributes generalizing fuel found with
  | nil =>
    obtain ⟨fuel, rfl⟩ := Nat.exists_eq_succ_of_ne_zero (Nat.ne_zero_of_lt hfuel)
    cases selfClosing <;> rfl
  | cons a attributes ih =>
    obtain ⟨hname, hnames⟩ := List.forall_mem_cons.mp hnames
    obtain ⟨hquote, hquoted⟩ := List.forall_mem_cons.mp hquoted
    obtain ⟨fuel, rfl⟩ := Nat.exists_eq_succ_of_ne_zero (Nat.ne_zero_of_lt hfuel)
    rw [List.flatMap_cons, List.append_assoc, List.append_assoc,
      readAttributes?_attributeHtml hname hquote, ← List.append_assoc,
      ih hnames hquoted (by simpa using hfuel)]
    rfl

private theorem length_le_flatMap (attributes : List (String × List Char)) :
    attributes.length ≤ (attributes.flatMap attributeHtml).length := by
  induction attributes with
  | nil => exact Nat.le_refl 0
  | cons a attributes ih =>
    simp [attributeHtml] at ih ⊢
    omega

/-- What stands behind the name of a tag ends it. -/
private theorem head?_attributes (attributes : List (String × List Char)) (selfClosing : Bool)
    (rest : List Char) :
    ((attributes.flatMap attributeHtml ++ tagEnd selfClosing ++ rest).head?.any
      fun c ↦ !isSpace c && c != '/' && c != '>') = false := by
  cases attributes with
  | nil => cases selfClosing <;> rfl
  | cons a attributes => rfl

private theorem readTag?_name {name : String} (hname : isName name = true)
    (attributes : List (String × List Char)) (selfClosing : Bool)
    (hnames : ∀ a ∈ attributes, isName a.1 = true) (hquoted : ∀ a ∈ attributes, '"' ∉ a.2)
    (rest : List Char) :
    readTag? (name.toList ++ (attributes.flatMap attributeHtml ++ tagEnd selfClosing ++ rest)) =
      some (⟨name, (attributes.map fun a ↦ ⟨a.1, valueOf a.2⟩).foldl addAttribute [], selfClosing⟩,
        rest) := by
  obtain ⟨c, cs, hcs, -, hc, hrest⟩ := isName_cases hname
  have hin : ∀ d ∈ name.toList, (!isSpace d && d != '/' && d != '>') = true := fun d hd ↦ by
    rw [hcs] at hd
    have hd : IsInName d := (List.forall_mem_cons.mpr ⟨hc, hrest⟩) d hd
    simp [hd.space, hd.ne_mark '/' (by decide), hd.ne_mark '>' (by decide)]
  obtain ⟨htake, hdrop⟩ := takeWhile_name _ _ hin (head?_attributes attributes selfClosing rest)
  have hlength := length_le_flatMap attributes
  rw [readTag?]
  dsimp only
  rw [htake, hdrop, nameOf_toList hname,
    readAttributes?_flatMap hnames hquoted (by simp only [List.length_append]; omega)]
  rfl

theorem StartTag.nextTokens_html (t : StartTag) (foreign : Bool) (rest : List Char) :
    nextTokens foreign (t.html ++ rest) = ([.start t.tag], rest) := by
  obtain ⟨c, cs, hcs, hletter, hc, -⟩ := isName_cases t.isName
  have hread := readTag?_name t.isName t.attributes t.selfClosing t.areNames t.areQuoted rest
  have htext : t.html ++ rest = '<' :: c ::
      (cs ++ (t.attributes.flatMap attributeHtml ++ tagEnd t.selfClosing ++ rest)) := by
    simp [html, hcs]
  have hne : ∀ mark, Text.isLetter mark = false → c ≠ mark := by
    rintro mark hmark rfl
    simp [hletter] at hmark
  rw [hcs, List.cons_append] at hread
  rw [htext, nextTokens.eq_def]
  split
  · next heq => cases heq
  · next heq => exact absurd (List.cons.inj (List.cons.inj heq).2).1 (hne '/' (by decide))
  · next heq => exact absurd (List.cons.inj (List.cons.inj heq).2).1 (hne '!' (by decide))
  · next heq => exact absurd (List.cons.inj (List.cons.inj heq).2).1 (hne '?' (by decide))
  · next heq =>
    obtain ⟨rfl, rfl⟩ := List.cons.inj (List.cons.inj heq).2
    rw [if_pos hletter, hread]
    rfl
  · next heq => exact absurd (List.cons.inj heq).1 (by decide)
  · next d ds _ _ _ hopen _ heq =>
    obtain ⟨rfl, rfl⟩ := List.cons.inj heq
    exact (hopen _ _ rfl rfl).elim

theorem nextTokens_endTag {name : String} (hname : isName name = true) (foreign : Bool)
    (rest : List Char) : nextTokens foreign (endTag name ++ rest) = ([.stop name], rest) := by
  obtain ⟨c, cs, hcs, hletter, -⟩ := isName_cases hname
  have hread := readTag?_name hname [] false nofun nofun rest
  have htext : endTag name ++ rest = '<' :: '/' :: c :: (cs ++ '>' :: rest) := by
    simp [endTag, hcs]
  rw [hcs] at hread
  rw [htext, nextTokens, if_pos hletter]
  change readTag? (c :: (cs ++ '>' :: rest)) = _ at hread
  rw [hread]

end Guidebook.Html
