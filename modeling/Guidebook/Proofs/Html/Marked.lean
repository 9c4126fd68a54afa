import Guidebook.Proofs.Html.Markup
import Guidebook.Proofs.Text.Split

/-!
# Marked text

Text in which an opening bracket only ever begins a start tag or an end tag. Whatever its references
stand for, reading it finds exactly these tags.
-/

namespace Guidebook

theorem Text.mem_universalNewlines {c : Char} {cs : List Char} (h : c ∈ universalNewlines cs) :
    c = '\n' ∨ c ∈ cs := by
  induction cs using universalNewlines.induct with
  | case1 => cases h
  | case2 rest ih =>
    rw [universalNewlines] at h
    rcases List.mem_cons.mp h with rfl | h
    · exact .inl rfl
    · exact (ih h).imp_right fun h ↦ .tail _ (.tail _ h)
  | case3 rest hpair ih =>
    rw [universalNewlines] at h
    · rcases List.mem_cons.mp h with rfl | h
      · exact .inl rfl
      · exact (ih h).imp_right (.tail _)
    · exact hpair
  | case4 d rest hpair hreturn ih =>
    rw [universalNewlines] at h
    · rcases List.mem_cons.mp h with rfl | h
      · exact .inr (.head _)
      · exact (ih h).imp_right (.tail _)
    · exact hpair
    · exact hreturn

namespace Html

/-! ## References -/

/-- What follows some characters of a text that are no opening brackets. -/
def Skips (cs after : List Char) : Prop := ∃ used, used ++ after = cs ∧ '<' ∉ used

theorem Skips.drop {p : Char → Bool} (hp : p '<' = false) {cs : List Char} {n : Nat}
    (hn : n ≤ (cs.takeWhile p).length) : Skips cs (cs.drop n) := by
  refine ⟨cs.take n, List.take_append_drop n cs, fun hmem ↦ ?_⟩
  have hword : cs.takeWhile p = cs.take (cs.takeWhile p).length :=
    List.prefix_iff_eq_take.mp (List.takeWhile_prefix p)
  have hin : '<' ∈ cs.takeWhile p := by
    rw [hword]
    exact List.take_subset_take_left cs hn hmem
  simp [List.mem_takeWhile_imp hin] at hp

theorem Skips.trans {cs middle after : List Char} (h : Skips cs middle) (h' : Skips middle after) :
    Skips cs after := by
  obtain ⟨used, rfl, hused⟩ := h
  obtain ⟨used', rfl, hused'⟩ := h'
  exact ⟨used ++ used', List.append_assoc .., by simp [hused, hused']⟩

theorem Skips.cons {c : Char} (cs : List Char) (hc : c ≠ '<' := by decide) : Skips (c :: cs) cs :=
  ⟨[c], rfl, by simpa using hc.symm⟩

theorem skips_dropSemicolon (cs : List Char) : Skips cs (dropSemicolon cs) := by
  rw [dropSemicolon.eq_def]
  split
  · exact .cons _
  · exact ⟨[], rfl, List.not_mem_nil⟩

theorem skips_readNumber? {cs after : List Char} {n : Nat} (h : readNumber? cs = some (n, after)) :
    Skips cs after := by
  have hdigits : ∀ {p : Char → Bool} {base : Nat} {cs : List Char}, p '<' = false →
      (if (cs.takeWhile p).isEmpty then none
        else some (numberOf base (cs.takeWhile p), dropSemicolon (cs.drop (cs.takeWhile p).length))) =
        some (n, after) → Skips cs after := by
    intro p base cs hp h
    obtain ⟨-, h⟩ := Option.ite_none_left_eq_some.mp h
    obtain ⟨-, rfl⟩ := Prod.mk.inj (Option.some.inj h)
    exact (Skips.drop hp (Nat.le_refl _)).trans (skips_dropSemicolon _)
  rw [readNumber?.eq_def] at h
  dsimp only at h
  split at h
  · exact (Skips.cons _).trans (hdigits (by decide) h)
  · exact (Skips.cons _).trans (hdigits (by decide) h)
  · exact hdigits (by decide) h

theorem barePrefix?_le {word : List Char} {n m : Nat} (h : barePrefix? word n = some m) :
    m ≤ n := by
  induction n with
  | zero => cases h
  | succ n ih =>
    rw [barePrefix?] at h
    split at h
    · exact (Option.some.inj h).ge
    · exact (ih h).trans (Nat.le_succ n)

theorem skips_readName? {cs found after : List Char} {closed : Bool}
    (h : readName? cs = some (found, closed, after)) : Skips cs after := by
  rw [readName?] at h
  rcases Option.or_eq_some_iff.mp h with h | ⟨-, h⟩
  · split at h
    · next rest heq =>
      obtain ⟨characters, -, heq'⟩ := Option.map_eq_some_iff.mp h
      obtain ⟨-, -, rfl⟩ : characters = found ∧ true = closed ∧ rest = after := by simpa using heq'
      have hskip : Skips cs
          (cs.drop (cs.takeWhile fun c ↦ Text.isLetter c || Text.isDigit c).length) :=
        .drop (by decide) (Nat.le_refl _)
      rw [heq] at hskip
      exact hskip.trans (.cons _)
    · cases h
  · obtain ⟨n, hn, h⟩ := Option.bind_eq_some_iff.mp h
    obtain ⟨characters, -, h⟩ := Option.bind_eq_some_iff.mp h
    obtain ⟨-, -, rfl⟩ : characters = found ∧ false = closed ∧ cs.drop n = after := by simpa using h
    exact .drop (p := fun c ↦ Text.isLetter c || Text.isDigit c) (by decide)
      ((barePrefix?_le hn).trans (Nat.min_le_left _ _))

theorem skips_reference? {inAttribute : Bool} {cs found after : List Char}
    (h : reference? inAttribute cs = some (found, after)) : Skips cs after := by
  rw [reference?.eq_def] at h
  split at h
  · obtain ⟨⟨n, rest⟩, hread, heq⟩ := Option.map_eq_some_iff.mp h
    obtain ⟨-, rfl⟩ := Prod.mk.inj heq
    exact (Skips.cons _).trans (skips_readNumber? hread)
  · obtain ⟨⟨characters, closed, rest⟩, hread, h⟩ := Option.bind_eq_some_iff.mp h
    obtain ⟨-, h⟩ := Option.ite_none_left_eq_some.mp h
    obtain ⟨-, rfl⟩ := Prod.mk.inj (Option.some.inj h)
    exact skips_readName? hread

/-! ## Text with tags -/

/-- Text with start tags of a kind and end tags; no other opening bracket is in it. -/
inductive Marked (p : StartTag → Prop) : List Char → Prop
  | nil : Marked p []
  | char {c : Char} {rest : List Char} (hc : c ≠ '<') (hrest : Marked p rest) : Marked p (c :: rest)
  | start {t : StartTag} {rest : List Char} (ht : p t) (hrest : Marked p rest) :
    Marked p (t.html ++ rest)
  | stop {name : String} {rest : List Char} (hname : isName name = true) (hrest : Marked p rest) :
    Marked p (endTag name ++ rest)

variable {p q : StartTag → Prop} {html : List Char}

theorem Marked.mono (h : Marked p html) (hpq : ∀ t, p t → q t) : Marked q html := by
  induction h with
  | nil => exact .nil
  | char hc _ ih => exact .char hc ih
  | start ht _ ih => exact .start (hpq _ ht) ih
  | stop hname _ ih => exact .stop hname ih

theorem Marked.append {front back : List Char} (h : Marked p front) (h' : Marked p back) :
    Marked p (front ++ back) := by
  induction h with
  | nil => exact h'
  | char hc _ ih => exact .char hc ih
  | start ht _ ih =>
    rw [List.append_assoc]
    exact .start ht ih
  | stop hname _ ih =>
    rw [List.append_assoc]
    exact .stop hname ih

theorem Marked.of_text {cs : List Char} (h : '<' ∉ cs) : Marked p cs := by
  induction cs with
  | nil => exact .nil
  | cons c cs ih =>
    rw [List.mem_cons, not_or] at h
    exact .char (Ne.symm h.1) (ih h.2)

theorem Marked.of_start {t : StartTag} (ht : p t) : Marked p t.html := by
  simpa using Marked.start ht .nil

theorem Marked.of_stop {name : String} (hname : isName name = true) : Marked p (endTag name) := by
  simpa using Marked.stop hname .nil

theorem Marked.flatMap {α : Type} {f : α → List Char} {items : List α}
    (h : ∀ a ∈ items, Marked p (f a)) : Marked p (items.flatMap f) := by
  induction items with
  | nil => exact .nil
  | cons a items ih =>
    obtain ⟨ha, hitems⟩ := List.forall_mem_cons.mp h
    exact ha.append (ih hitems)

theorem Marked.of_cons {c : Char} {rest : List Char} (h : Marked p (c :: rest)) (hc : c ≠ '<') :
    Marked p rest := by
  generalize htext : c :: rest = text at h
  cases h with
  | nil => cases htext
  | char _ hrest =>
    obtain ⟨-, rfl⟩ := List.cons.inj htext
    exact hrest
  | start ht _ => exact absurd (List.cons.inj htext).1 hc
  | stop hname _ => exact absurd (List.cons.inj htext).1 hc

theorem Marked.of_skips {after : List Char} (h : Marked p html) (hskips : Skips html after) :
    Marked p after := by
  obtain ⟨used, rfl, hused⟩ := hskips
  induction used with
  | nil => exact h
  | cons c used ih =>
    rw [List.mem_cons, not_or] at hused
    exact ih hused.2 (h.of_cons (Ne.symm hused.1))

theorem StartTag.html_concat (t : StartTag) : ∃ front, t.html = front ++ ['>'] := by
  cases hself : t.selfClosing with
  | true =>
    exact ⟨'<' :: t.name.toList ++ t.attributes.flatMap attributeHtml ++ [' ', '/'], by
      simp [html, tagEnd, hself]⟩
  | false =>
    exact ⟨'<' :: t.name.toList ++ t.attributes.flatMap attributeHtml, by
      simp [html, tagEnd, hself]⟩

private theorem exists_concat {front tag rest : List Char} {c : Char} (hc : c ≠ '>')
    (htag : ∃ before, tag = before ++ ['>']) (heq : front ++ [c] = tag ++ rest) :
    ∃ rest', rest = rest' ++ [c] ∧ front = tag ++ rest' := by
  obtain ⟨before, rfl⟩ := htag
  rcases List.eq_nil_or_concat' rest with rfl | ⟨rest', d, rfl⟩
  · rw [List.append_nil] at heq
    exact absurd (List.append_inj' heq rfl).2 (by simpa using hc)
  · rw [← List.append_assoc] at heq
    obtain ⟨rfl, hlast⟩ := List.append_inj' heq rfl
    exact ⟨rest', by rw [hlast], rfl⟩

/-- The last character of marked text may be left out if it ends no tag. -/
theorem Marked.of_concat {front : List Char} {c : Char} (h : Marked p (front ++ [c]))
    (hc : c ≠ '>') : Marked p front := by
  generalize htext : front ++ [c] = text at h
  induction h generalizing front with
  | nil => simp at htext
  | char hd _ ih =>
    cases front with
    | nil => exact .nil
    | cons e front =>
      obtain ⟨rfl, heq⟩ := List.cons.inj htext
      exact .char hd (ih heq)
  | @start t rest ht _ ih =>
    obtain ⟨rest', hrest, rfl⟩ := exists_concat hc t.html_concat htext
    exact .start ht (ih hrest.symm)
  | @stop name rest hname _ ih =>
    obtain ⟨rest', hrest, rfl⟩ := exists_concat hc ⟨'<' :: '/' :: name.toList, rfl⟩ htext
    exact .stop hname (ih hrest.symm)

/-- Marked text without white space around it. -/
theorem Marked.strip (h : Marked p html) : Marked p (Text.strip html) := by
  have hleft : Marked p (html.dropWhile Text.isBlank) := by
    induction html with
    | nil => exact .nil
    | cons c cs ih =>
      rw [List.dropWhile_cons]
      split
      · next hblank => exact ih (h.of_cons (by rintro rfl; exact absurd hblank (by decide)))
      · exact h
  have hright : ∀ back : List Char, Marked p back.reverse →
      Marked p (back.dropWhile Text.isBlank).reverse := by
    intro back hback
    induction back with
    | nil => exact .nil
    | cons c cs ih =>
      rw [List.dropWhile_cons]
      split
      · next hblank =>
        rw [List.reverse_cons] at hback
        exact ih (hback.of_concat (by rintro rfl; exact absurd hblank (by decide)))
      · exact hback
  exact hright _ (by rwa [List.reverse_reverse])

/-! ## Line ends -/

/-- A start tag with one kind of line end in its attributes. -/
def StartTag.unified (t : StartTag) : StartTag where
  name := t.name
  attributes := t.attributes.map fun a ↦ (a.1, Text.universalNewlines a.2)
  selfClosing := t.selfClosing
  isName := t.isName
  areNames a ha := by
    obtain ⟨b, hb, rfl⟩ := List.mem_map.mp ha
    exact t.areNames b hb
  areQuoted a ha hquote := by
    obtain ⟨b, hb, rfl⟩ := List.mem_map.mp ha
    exact t.areQuoted b hb ((Text.mem_universalNewlines hquote).resolve_left (by decide))

/-- Text without carriage returns and the text behind it come apart. -/
private theorem universalNewlines_of_not_mem {front : List Char} (h : '\r' ∉ front)
    (back : List Char) :
    Text.universalNewlines (front ++ back) = front ++ Text.universalNewlines back := by
  rw [Text.universalNewlines_append back fun hlast ↦ absurd (List.mem_of_getLast? hlast) h,
    Text.universalNewlines_eq_self h]

theorem return_not_mem_name {name : String} (h : isName name = true) : '\r' ∉ name.toList := by
  obtain ⟨c, cs, hcs, -, hc, hrest⟩ := isName_cases h
  intro hmem
  rw [hcs] at hmem
  exact ((List.forall_mem_cons.mpr ⟨hc, hrest⟩ : ∀ d ∈ c :: cs, IsInName d) _ hmem).ne_mark '\r'
    (by decide) rfl

private theorem universalNewlines_attributes {attributes : List (String × List Char)}
    (hnames : ∀ a ∈ attributes, isName a.1 = true) (back : List Char) :
    Text.universalNewlines (attributes.flatMap attributeHtml ++ back) =
      (attributes.map fun a ↦ (a.1, Text.universalNewlines a.2)).flatMap attributeHtml ++
        Text.universalNewlines back := by
  induction attributes with
  | nil => rfl
  | cons a attributes ih =>
    obtain ⟨hname, hnames⟩ := List.forall_mem_cons.mp hnames
    have hfront : '\r' ∉ ' ' :: a.1.toList ++ ['=', '"'] := by
      simpa using return_not_mem_name hname
    have htext : (a :: attributes).flatMap attributeHtml ++ back =
        (' ' :: a.1.toList ++ ['=', '"']) ++
          (a.2 ++ ('"' :: (attributes.flatMap attributeHtml ++ back))) := by
      simp [attributeHtml]
    rw [htext, universalNewlines_of_not_mem hfront, Text.universalNewlines_append _ fun _ ↦ by simp,
      Text.universalNewlines_cons (by decide), ih hnames]
    simp [attributeHtml]

theorem StartTag.universalNewlines_html (t : StartTag) (rest : List Char) :
    Text.universalNewlines (t.html ++ rest) = t.unified.html ++ Text.universalNewlines rest := by
  have hname : '\r' ∉ '<' :: t.name.toList := by simpa using return_not_mem_name t.isName
  have hend : '\r' ∉ tagEnd t.selfClosing := by cases t.selfClosing <;> decide
  have htext : t.html ++ rest = ('<' :: t.name.toList) ++
      (t.attributes.flatMap attributeHtml ++ (tagEnd t.selfClosing ++ rest)) := by
    simp [html]
  rw [htext, universalNewlines_of_not_mem hname, universalNewlines_attributes t.areNames,
    universalNewlines_of_not_mem hend]
  simp [html, unified]

/-- Marked text with one kind of line end. -/
theorem Marked.universalNewlines (h : Marked p html) :
    Marked (fun t ↦ ∃ s, p s ∧ t = s.unified) (Text.universalNewlines html) := by
  induction h with
  | nil => exact .nil
  | @char c rest hc _ ih =>
    rcases eq_or_ne c '\r' with rfl | hreturn
    · cases rest with
      | nil => exact .char (by decide) .nil
      | cons d rest =>
        rcases eq_or_ne d '\n' with rfl | hd
        · rw [Text.universalNewlines]
          rwa [Text.universalNewlines_cons (by decide)] at ih
        · rw [Text.universalNewlines_return (by simpa using hd)]
          exact .char (by decide) ih
    · rw [Text.universalNewlines_cons hreturn]
      exact .char hc ih
  | start ht _ ih =>
    rw [StartTag.universalNewlines_html]
    exact .start ⟨_, ht, rfl⟩ ih
  | @stop name rest hname _ ih =>
    have hend : '\r' ∉ endTag name := by simpa [endTag] using return_not_mem_name hname
    rw [universalNewlines_of_not_mem hend]
    exact .stop hname ih

/-! ## Reading -/

/-- Reading goes on behind a token, which is a start tag of the text if it is one. -/
theorem Marked.nextTokens (h : Marked p html) :
    (∀ tag, .start tag ∈ (nextTokens false html).1 → ∃ t, p t ∧ tag = t.tag) ∧
      Marked p (nextTokens false html).2 := by
  cases h with
  | nil => exact ⟨fun _ h ↦ absurd h List.not_mem_nil, .nil⟩
  | start ht hrest =>
    rw [StartTag.nextTokens_html]
    exact ⟨fun tag htag ↦ ⟨_, ht, Token.start.inj (List.mem_singleton.mp htag)⟩, hrest⟩
  | stop hname hrest =>
    rw [nextTokens_endTag hname]
    exact ⟨by simp, hrest⟩
  | @char c rest hc hrest =>
    rw [nextTokens.eq_def]
    split
    · exact ⟨fun _ h ↦ absurd h List.not_mem_nil, .nil⟩
    all_goals try next heq => exact absurd (List.cons.inj heq).1 hc
    · next after heq =>
      obtain ⟨-, rfl⟩ := List.cons.inj heq
      split
      · next found after hread => exact ⟨by simp, hrest.of_skips (skips_reference? hread)⟩
      · exact ⟨by simp, hrest⟩
    · next heq =>
      obtain ⟨-, rfl⟩ := List.cons.inj heq
      exact ⟨by simp, hrest⟩

/-- A tree of markup consists of what stems from start tags and of elements that were left out. -/
def Policy.marked (p : String → List Attribute → Prop) (hbare : ∀ tag ∈ bareTags, p tag []) :
    Policy :=
  .tree (fun tag ↦ tag.name ∉ specialTags ∧ p tag.name tag.attributes)
    (fun vocabulary tag attributes ↦ vocabulary = .html ∧ p tag attributes) False
    (fun h ↦ ⟨rfl, h.2⟩) (fun tag htag ↦ ⟨rfl, hbare tag htag⟩) (fun h ↦ ⟨rfl, h.2⟩)
    (fun h htag ↦ ⟨h.1, htag.2⟩) (fun h hspecial ↦ absurd hspecial h.1)

namespace Builder

variable {r : String → List Attribute → Prop} {hbare : ∀ tag ∈ bareTags, r tag []} {b : Builder}

/-- A tree of markup is all HTML, and nothing in it is read as text. -/
theorem Holds.isPlain (h : b.Holds (.marked r hbare)) :
    b.awaited = none ∧ b.current?.any (·.vocabulary != .html) = false := by
  refine ⟨Option.eq_none_iff_forall_ne_some.mpr fun name hname ↦ h.awaited (by simp [hname]), ?_⟩
  have hstack := h.stack
  rw [current?]
  cases heq : b.stack with
  | nil => rfl
  | cons o rest =>
    rw [heq] at hstack
    have hhtml : o.vocabulary = .html := hstack.head.elim id fun hadmits ↦ hadmits.opens.1
    simp [hhtml]

theorem Holds.readMarked (h : b.Holds (.marked r hbare)) (hhtml : Marked p html)
    (hp : ∀ t, p t → t.name ∉ specialTags ∧ r t.name t.tag.attributes) (fuel : Nat) :
    (Builder.readText fuel b html).Holds (.marked r hbare) := by
  induction fuel generalizing b html with
  | zero => exact h
  | succ fuel ih =>
    cases html with
    | nil => exact h
    | cons c cs =>
      obtain ⟨hawaited, hcurrent⟩ := h.isPlain
      obtain ⟨htokens, hrest⟩ := hhtml.nextTokens
      rw [Builder.readText, hawaited]
      dsimp only
      rw [hcurrent]
      refine ih (h.foldl fun token htoken _ hb ↦ hb.accept ?_) hrest
      cases token with
      | start tag =>
        obtain ⟨t, ht, rfl⟩ := htokens tag htoken
        exact hp t ht
      | stop name => trivial
      | char c => trivial
      | comment => trivial

end Builder

/-- Marked text is read as a tree of HTML whose elements stem from its start tags, or were left out.
Their attributes have one kind of line end. -/
theorem Marked.parse {r : String → List Attribute → Prop} (h : Marked p html)
    (hbare : ∀ tag ∈ bareTags, r tag [])
    (hp : ∀ t, p t → t.name ∉ specialTags ∧ r t.name t.unified.tag.attributes) :
    ∀ node ∈ Html.parse html,
      node.MadeOf fun vocabulary tag attributes ↦ vocabulary = .html ∧ r tag attributes := by
  have hmark : Marked p ((Text.dropPrefix? ['\ufeff'] html).getD html) := by
    cases hdrop : Text.dropPrefix? ['\ufeff'] html with
    | none => exact h
    | some rest =>
      obtain rfl := Text.dropPrefix?_eq_some_iff.mp hdrop
      exact h.of_cons (by decide)
  have hstart : Builder.start.Holds (.marked r hbare) := Builder.holds_start nofun
  have hread : ∀ fuel, (Builder.readText fuel .start
      (Text.universalNewlines ((Text.dropPrefix? ['\ufeff'] html).getD html))).Holds
        (.marked r hbare) :=
    hstart.readMarked hmark.universalNewlines (by
      rintro _ ⟨t, ht, rfl⟩
      exact hp t ht)
  exact fun node hnode ↦ (hread _).finish node (List.mem_reverse.mpr hnode)

end Html
end Guidebook
