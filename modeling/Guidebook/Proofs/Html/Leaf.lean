import Guidebook.Html.Clean
import Guidebook.Proofs.Html.Reading
import Guidebook.Proofs.Text.Newlines
import Guidebook.Proofs.Text.Split

/-!
# Paragraphs and headings of plain words

A paragraph or a heading in whose words nothing is markup reads back as it was written, whatever
HTML follows it, and it passes the cleaning as it is.
-/

namespace Guidebook

/-- Characters that may be markup in a page or in HTML, or that are read as others. -/
def Text.markup : List Char :=
  ['\x00', '\x02', '\x03', '\t', '\n', '\r', '\u00a0', '`', '\\', '*', '_', '[', '<', '>', '&', '#',
    '|']

/-- Whether a character stands for itself wherever it is. -/
def Text.IsPlain (c : Char) : Prop := c ∉ Text.markup

instance : DecidablePred Text.IsPlain := fun _ ↦ inferInstanceAs (Decidable (_ ∉ _))

theorem Text.IsPlain.ne {c mark : Char} (h : IsPlain c) (hmark : mark ∈ markup) : c ≠ mark := by
  rintro rfl
  exact h hmark

theorem Text.isPlain_of_all {words : List Char} (h : words.all (· ∉ markup) = true) :
    ∀ c ∈ words, IsPlain c := by
  simpa [IsPlain] using h

namespace Html

/-- A paragraph or a heading of plain words, perhaps over several lines. -/
structure Leaf where
  tag : String
  words : List Char
  isKnown : tag ∈ "p" :: Builder.headingTags
  hasWords : words ≠ []
  isPlain : ∀ c ∈ words, c = '\n' ∨ Text.IsPlain c

namespace Leaf

/-- The node of a leaf. -/
def node (l : Leaf) : Node := .element .html l.tag [] [.text l.words]

/-- A leaf as HTML. -/
def html (l : Leaf) : List Char :=
  '<' :: l.tag.toList ++ '>' :: l.words ++ '<' :: '/' :: l.tag.toList ++ ['>']

/-- The nodes of leaves on lines of their own. -/
def nodes : List Leaf → List Node
  | [] => []
  | [l] => [l.node]
  | l :: m :: rest => l.node :: .text ['\n'] :: nodes (m :: rest)

/-- Leaves as HTML, on lines of their own. -/
def htmlOf (leaves : List Leaf) : List Char := Text.joinWith ['\n'] (leaves.map html)

variable {l : Leaf} {leaves : List Leaf}

theorem ne_of_mem_words {c mark : Char} (hc : c ∈ l.words) (hmark : mark ∈ Text.markup)
    (hfeed : mark ≠ '\n') : c ≠ mark := by
  rcases l.isPlain c hc with rfl | hplain
  · exact hfeed.symm
  · exact hplain.ne hmark

end Leaf

namespace Builder

/-! ## Reading leaves -/

/-- A builder that has read some nodes, the newest first, and the number of the next element. -/
def reading (children : List Node) (fresh : Nat) : Builder :=
  { start with stack := [⟨0, .html, "html", [], children, false, false⟩], fresh }

/-- A builder that is reading the words of a leaf. -/
def inLeaf (tag : String) (words : List Node) (children : List Node) (fresh : Nat) : Builder :=
  { start with
    stack := [⟨fresh, .html, tag, [], words, false, false⟩,
      ⟨0, .html, "html", [], children, false, false⟩]
    fresh := fresh + 1 }

/-- Reading a text leads from one builder to another, whatever follows the text. -/
def Reads (b : Builder) (text : List Char) (b' : Builder) : Prop :=
  ∀ fuel rest, text.length + rest.length < fuel →
    ∃ fuel', rest.length < fuel' ∧ readText fuel b (text ++ rest) = readText fuel' b' rest

variable {b b' b'' : Builder} {text more : List Char}

theorem Reads.nil : Reads b [] b := fun fuel _ h ↦ ⟨fuel, by simpa using h, rfl⟩

theorem Reads.append (h : Reads b text b') (h' : Reads b' more b'') : Reads b (text ++ more) b'' := by
  intro fuel rest hfuel
  obtain ⟨fuel₁, hfuel₁, heq₁⟩ := h fuel (more ++ rest) (by simp at hfuel ⊢; omega)
  obtain ⟨fuel₂, hfuel₂, heq₂⟩ := h' fuel₁ rest (by simpa using hfuel₁)
  exact ⟨fuel₂, hfuel₂, by rw [List.append_assoc, heq₁, heq₂]⟩

/-- A text that is one token is read in one step. -/
theorem Reads.token (b : Builder) (token : Token) (htext : text ≠ []) (hopen : b.awaited = none)
    (hhtml : b.current?.any (·.vocabulary != .html) = false)
    (hnext : ∀ rest, nextTokens false (text ++ rest) = ([token], rest)) :
    Reads b text (b.accept token) := by
  intro fuel rest hfuel
  obtain ⟨c, text, rfl⟩ := List.exists_cons_of_ne_nil htext
  obtain ⟨fuel, rfl⟩ := Nat.exists_eq_succ_of_ne_zero (Nat.ne_zero_of_lt hfuel)
  refine ⟨fuel, by simp at hfuel; omega, ?_⟩
  rw [List.cons_append, readText, hopen]
  dsimp only
  rw [hhtml, ← List.cons_append, hnext]
  rfl

theorem nextTokens_char {c : Char} (hopen : c ≠ '<') (hamp : c ≠ '&') (rest : List Char) :
    nextTokens false (c :: rest) = ([.char c], rest) := by
  rw [nextTokens.eq_def]
  split <;> simp_all

theorem accept_char {tag : String} {words children : List Node} {fresh : Nat} {c : Char}
    (hnull : c ≠ '\x00') : (inLeaf tag words children fresh).accept (.char c) =
      (inLeaf tag words children fresh).addNode (.text [c]) := by
  have hread : ∀ b : Builder, b = inLeaf tag words children fresh →
      Builder.read (2 * 2 + 16) b (.char c) = b.addNode (.text [c]) := by
    rintro _ rfl
    exact if_neg (by simpa using hnull)
  rw [Builder.accept.eq_def]
  dsimp only
  split
  · contradiction
  · exact hread _ rfl
  · exact hread _ rfl

/-- The words of a leaf are read one by one. -/
theorem reads_words (tag : String) (children : List Node) (fresh : Nat) {words : List Char}
    (hplain : ∀ c ∈ words, c ≠ '<' ∧ c ≠ '&' ∧ c ≠ '\x00') (before : List Char) :
    Reads (inLeaf tag [.text before] children fresh) words
      (inLeaf tag [.text (before ++ words)] children fresh) := by
  induction words generalizing before with
  | nil => simpa using Reads.nil
  | cons c words ih =>
    obtain ⟨⟨hopen, hamp, hnull⟩, hplain⟩ := List.forall_mem_cons.mp hplain
    have hfirst : Reads (inLeaf tag [.text before] children fresh) [c]
        (inLeaf tag [.text (before ++ [c])] children fresh) := by
      have htoken := Reads.token (inLeaf tag [.text before] children fresh) (.char c)
        (List.cons_ne_nil c []) rfl rfl (nextTokens_char hopen hamp)
      rwa [accept_char hnull] at htoken
    simpa using hfirst.append (ih hplain (before ++ [c]))

/-- What the tags of leaves do, wherever they stand. -/
structure IsLeafTag (tag : String) : Prop where
  starts : ∀ rest, nextTokens false ('<' :: tag.toList ++ '>' :: rest) =
    ([.start ⟨tag, [], false⟩], rest)
  stops : ∀ rest, nextTokens false ('<' :: '/' :: tag.toList ++ '>' :: rest) = ([.stop tag], rest)
  opens : ∀ children fresh, (reading children fresh).accept (.start ⟨tag, [], false⟩) =
    inLeaf tag [] children fresh
  closes : ∀ words children fresh, (inLeaf tag [.text words] children fresh).accept (.stop tag) =
    reading (.element .html tag [] [.text words] :: children) (fresh + 1)

theorem isLeafTag {tag : String} (h : tag ∈ "p" :: headingTags) : IsLeafTag tag := by
  simp only [headingTags, List.mem_cons, List.not_mem_nil, or_false] at h
  rcases h with rfl | rfl | rfl | rfl | rfl | rfl | rfl <;>
    exact ⟨fun _ ↦ rfl, fun _ ↦ rfl, fun _ _ ↦ rfl, fun _ _ _ ↦ rfl⟩

theorem reads_leaf (l : Leaf) (children : List Node) (fresh : Nat) :
    Reads (reading children fresh) l.html (reading (l.node :: children) (fresh + 1)) := by
  have htag := isLeafTag l.isKnown
  obtain ⟨c, words, hwords⟩ := List.exists_cons_of_ne_nil l.hasWords
  have hplain : ∀ c ∈ l.words, c ≠ '<' ∧ c ≠ '&' ∧ c ≠ '\x00' := fun c hc ↦
    ⟨l.ne_of_mem_words hc (by decide) (by decide), l.ne_of_mem_words hc (by decide) (by decide),
      l.ne_of_mem_words hc (by decide) (by decide)⟩
  have hstart : Reads (reading children fresh) ('<' :: l.tag.toList ++ ['>'])
      (inLeaf l.tag [] children fresh) := by
    have htoken := Reads.token (reading children fresh) (.start ⟨l.tag, [], false⟩)
      (List.cons_ne_nil '<' (l.tag.toList ++ ['>'])) rfl rfl
      (fun rest ↦ by simpa using htag.starts rest)
    rwa [htag.opens] at htoken
  have hstop : Reads (inLeaf l.tag [.text l.words] children fresh)
      ('<' :: '/' :: l.tag.toList ++ ['>']) (reading (l.node :: children) (fresh + 1)) := by
    have htoken := Reads.token (inLeaf l.tag [.text l.words] children fresh) (.stop l.tag)
      (List.cons_ne_nil '<' ('/' :: l.tag.toList ++ ['>'])) rfl rfl
      (fun rest ↦ by simpa using htag.stops rest)
    rwa [htag.closes] at htoken
  have hinner : Reads (inLeaf l.tag [] children fresh) l.words
      (inLeaf l.tag [.text l.words] children fresh) := by
    rw [hwords] at hplain ⊢
    obtain ⟨⟨hopen, hamp, hnull⟩, hplain⟩ := List.forall_mem_cons.mp hplain
    have htoken := Reads.token (inLeaf l.tag [] children fresh) (.char c)
      (List.cons_ne_nil c []) rfl rfl (nextTokens_char hopen hamp)
    rw [accept_char hnull] at htoken
    exact htoken.append (reads_words l.tag children fresh hplain [c])
  simpa [Leaf.html] using (hstart.append hinner).append hstop

/-- Leaves are read one after another. -/
theorem reads_leaves (leaves : List Leaf) (children : List Node) (fresh : Nat) :
    Reads (reading children fresh) (Leaf.htmlOf leaves)
      (reading ((Leaf.nodes leaves).reverse ++ children) (fresh + leaves.length)) := by
  induction leaves generalizing children fresh with
  | nil => exact Reads.nil
  | cons l rest ih =>
    cases rest with
    | nil => simpa [Leaf.htmlOf, Text.joinWith, Leaf.nodes] using reads_leaf l children fresh
    | cons m rest =>
      have hfeed := Reads.token (reading (l.node :: children) (fresh + 1)) (.char '\n')
        (List.cons_ne_nil '\n' []) rfl rfl (nextTokens_char (by decide) (by decide))
      have hall := ((reads_leaf l children fresh).append hfeed).append (ih _ (fresh + 1))
      simpa [Leaf.htmlOf, Text.joinWith, Leaf.nodes, Nat.add_assoc, Nat.add_comm 1] using hall

end Builder

/-! ## Pages that begin with leaves -/

theorem Leaf.return_not_mem_htmlOf (leaves : List Leaf) : '\r' ∉ htmlOf leaves := by
  intro hmem
  rcases Text.mem_joinWith hmem with hfeed | ⟨html, hhtml, hmem⟩
  · exact absurd hfeed (by decide)
  · obtain ⟨l, -, rfl⟩ := List.mem_map.mp hhtml
    have htag : '\r' ∉ l.tag.toList :=
      (by decide : ∀ tag ∈ "p" :: Builder.headingTags, '\r' ∉ tag.toList) l.tag l.isKnown
    have hwords : '\r' ∉ l.words := fun hmem ↦
      l.ne_of_mem_words hmem (by decide : '\r' ∈ Text.markup) (by decide) rfl
    simp [Leaf.html, htag, hwords] at hmem

/-- Leaves as HTML stand between brackets. -/
theorem Leaf.htmlOf_eq {leaves : List Leaf} (hne : leaves ≠ []) :
    ∃ inner, htmlOf leaves = '<' :: inner ++ ['>'] := by
  induction leaves with
  | nil => exact absurd rfl hne
  | cons l rest ih =>
    cases rest with
    | nil =>
      exact ⟨l.tag.toList ++ '>' :: l.words ++ '<' :: '/' :: l.tag.toList, by
        simp [htmlOf, Text.joinWith, html]⟩
    | cons m rest =>
      obtain ⟨inner, hinner⟩ := ih (List.cons_ne_nil _ _)
      refine ⟨l.tag.toList ++ '>' :: l.words ++ '<' :: '/' :: l.tag.toList ++ '>' :: '\n' :: '<' ::
        inner, ?_⟩
      rw [htmlOf, List.map_cons, Text.joinWith, ← htmlOf, hinner]
      · simp [html]
      · simp

/-- The last of the nodes is a leaf. -/
theorem Leaf.nodes_concat (leaves : List Leaf) (l : Leaf) :
    ∃ front, nodes (leaves ++ [l]) = front ++ [l.node] := by
  induction leaves with
  | nil => exact ⟨[], rfl⟩
  | cons m rest ih =>
    obtain ⟨front, hfront⟩ := ih
    cases rest with
    | nil => exact ⟨[m.node, .text ['\n']], rfl⟩
    | cons m' rest => 
      refine ⟨m.node :: .text ['\n'] :: front, ?_⟩
      rw [List.cons_append, List.cons_append, nodes, ← List.cons_append, hfront]
      rfl

private theorem parse_htmlOf_append {leaves : List Leaf} (hne : leaves ≠ []) (tail : List Char) :
    ∃ fuel, parse (Leaf.htmlOf leaves ++ tail) =
      (Builder.readText (fuel + 1) (Builder.reading (Leaf.nodes leaves).reverse (1 + leaves.length))
        (Text.universalNewlines tail)).finish := by
  have hreturn := Leaf.return_not_mem_htmlOf leaves
  have hlines : Text.universalNewlines (Leaf.htmlOf leaves ++ tail) =
      Leaf.htmlOf leaves ++ Text.universalNewlines tail := by
    rw [Text.universalNewlines_append _ fun h ↦ absurd (List.mem_of_getLast? h) hreturn,
      Text.universalNewlines_eq_self hreturn]
  have hmark : Text.dropPrefix? ['\ufeff'] (Leaf.htmlOf leaves ++ tail) = none := by
    obtain ⟨inner, hinner⟩ := Leaf.htmlOf_eq hne
    rw [hinner]
    rfl
  obtain ⟨fuel, hfuel, heq⟩ := Builder.reads_leaves leaves [] 1
    ((Leaf.htmlOf leaves ++ Text.universalNewlines tail).length + 1) (Text.universalNewlines tail)
    (by simp)
  obtain ⟨fuel, rfl⟩ := Nat.exists_eq_succ_of_ne_zero (Nat.ne_zero_of_lt hfuel)
  refine ⟨fuel, ?_⟩
  rw [parse, hmark, Option.getD_none, hlines, ← List.append_nil (Leaf.nodes leaves).reverse, ← heq]
  rfl

/-- Whatever HTML follows leaves, they are read as what they are. -/
theorem parse_leaves {leaves : List Leaf} (hne : leaves ≠ []) (tail : List Char) :
    Leaf.nodes leaves <+: parse (Leaf.htmlOf leaves ++ tail) := by
  obtain ⟨fuel, hparse⟩ := parse_htmlOf_append hne tail
  have hfinished : Finished (Leaf.nodes leaves).reverse := by
    obtain ⟨front, l, rfl⟩ := (List.eq_nil_or_concat' leaves).resolve_left hne
    obtain ⟨before, hbefore⟩ := Leaf.nodes_concat front l
    exact ⟨_, _, _, _, before.reverse, by rw [hbefore]; simp; rfl⟩
  have hreading : (Builder.reading (Leaf.nodes leaves).reverse (1 + leaves.length)).Holds
      (.keeping _ hfinished) :=
    ⟨⟨rfl, rfl, List.suffix_refl _⟩, nofun, by simp [Builder.reading], nofun⟩
  have hkept := (hreading.readText (fuel + 1) (Text.universalNewlines tail)
    fun _ _ token _ ↦ Policy.accepts_keeping hfinished token).finish
  rw [← hparse] at hkept
  simpa using List.reverse_prefix.mpr hkept

theorem parse_htmlOf (leaves : List Leaf) : parse (Leaf.htmlOf leaves) = Leaf.nodes leaves := by
  rcases eq_or_ne leaves [] with rfl | hne
  · rfl
  · obtain ⟨fuel, hparse⟩ := parse_htmlOf_append hne []
    rw [← List.append_nil (Leaf.htmlOf leaves), hparse]
    exact List.reverse_reverse _

@[simp] theorem cleanAll_append (front back : List Node) :
    cleanAll (front ++ back) = cleanAll front ++ cleanAll back := by
  induction front with
  | nil => simp [cleanAll]
  | cons node front ih => simp [cleanAll, ih]

@[simp] theorem writeAll_append (front back : List Node) :
    writeAll (front ++ back) = writeAll front ++ writeAll back := by
  induction front with
  | nil => simp [writeAll]
  | cons node front ih => simp [writeAll, ih]

theorem Leaf.clean_node (l : Leaf) : l.node.clean = [l.node] := by
  obtain ⟨tag, words, isKnown, hasWords, isPlain⟩ := l
  simp only [Builder.headingTags, List.mem_cons, List.not_mem_nil, or_false] at isKnown
  rcases isKnown with rfl | rfl | rfl | rfl | rfl | rfl | rfl <;> rfl

theorem Leaf.write_node (l : Leaf) : l.node.write = l.html := by
  have hwords : l.words.flatMap (escapeChar false) = l.words := by
    rw [List.flatMap_congr (g := fun c ↦ [c])]
    · simp
    · intro c hc
      have hne : ∀ mark ∈ Text.markup, mark ≠ '\n' → c ≠ mark := fun _ ↦ l.ne_of_mem_words hc
      rw [escapeChar.eq_def]
      split
      · exact absurd rfl (hne _ (by decide) (by decide))
      · exact absurd rfl (hne _ (by decide) (by decide))
      · exact absurd rfl (hne _ (by decide) (by decide))
      · exact absurd rfl (hne _ (by decide) (by decide))
      · rfl
      · rfl
  have hvoid : l.tag ∉ voidTags :=
    (by decide : ∀ tag ∈ "p" :: Builder.headingTags, tag ∉ voidTags) l.tag l.isKnown
  simp [Leaf.node, Leaf.html, Node.write, writeAll, hwords, hvoid, writeAttributes]

theorem cleanAll_nodes (leaves : List Leaf) : cleanAll (Leaf.nodes leaves) = Leaf.nodes leaves := by
  induction leaves using Leaf.nodes.induct with
  | case1 => rfl
  | case2 l => simp [Leaf.nodes, cleanAll, l.clean_node]
  | case3 l m rest ih => simp [Leaf.nodes, cleanAll, l.clean_node, ih, Node.clean]

theorem writeAll_nodes (leaves : List Leaf) : writeAll (Leaf.nodes leaves) = Leaf.htmlOf leaves := by
  induction leaves using Leaf.nodes.induct with
  | case1 => rfl
  | case2 l => simp [Leaf.nodes, writeAll, l.write_node, Leaf.htmlOf, Text.joinWith]
  | case3 l m rest ih =>
    rw [Leaf.nodes, writeAll, writeAll, ih, l.write_node]
    simp [Leaf.htmlOf, Text.joinWith, Node.write, escapeChar]

theorem sanitize_leaves {leaves : List Leaf} (hne : leaves ≠ []) (tail : List Char) :
    ∃ rest, sanitize (Leaf.htmlOf leaves ++ tail) = Leaf.htmlOf leaves ++ rest := by
  obtain ⟨more, hmore⟩ := parse_leaves hne tail
  exact ⟨writeAll (cleanAll more), by
    rw [sanitize, ← hmore, cleanAll_append, writeAll_append, cleanAll_nodes, writeAll_nodes]⟩

theorem sanitize_htmlOf (leaves : List Leaf) : sanitize (Leaf.htmlOf leaves) = Leaf.htmlOf leaves := by
  rw [sanitize, parse_htmlOf, cleanAll_nodes, writeAll_nodes]

/-! ## Headings -/

mutual

/-- The characters in a node. -/
def Node.words : Node → List Char
  | .text content => content
  | .element _ _ _ children => wordsAll children

/-- The characters in nodes. -/
def wordsAll : List Node → List Char
  | [] => []
  | node :: rest => node.words ++ wordsAll rest

end

mutual

/-- The words of the first heading with any in a node, without surrounding white space. -/
def Node.heading? : Node → Option (List Char)
  | .text _ => none
  | .element _ tag _ children =>
    let words := Text.strip (wordsAll children)
    if Builder.headingTags.contains tag && !words.isEmpty then some words else headingAmong? children

/-- The words of the first heading with any among nodes. -/
def headingAmong? : List Node → Option (List Char)
  | [] => none
  | node :: rest => node.heading?.or (headingAmong? rest)

end

/-- The words of a leaf that is a heading, if there are any. -/
def Leaf.heading? (l : Leaf) : Option (List Char) :=
  if Builder.headingTags.contains l.tag && Text.hasInk l.words then some (Text.strip l.words) else none

theorem headingAmong?_append (front back : List Node) :
    headingAmong? (front ++ back) = (headingAmong? front).or (headingAmong? back) := by
  induction front with
  | nil => simp [headingAmong?]
  | cons node front ih => simp [headingAmong?, ih, Option.or_assoc]

theorem Leaf.heading?_node (l : Leaf) : l.node.heading? = l.heading? := by
  have hnone : headingAmong? [.text l.words] = none := rfl
  have hwords : wordsAll [.text l.words] = l.words := List.append_nil _
  rw [node, Node.heading?, hnone, hwords, Text.isEmpty_strip, Bool.not_not, heading?]

theorem headingAmong?_nodes (leaves : List Leaf) :
    headingAmong? (Leaf.nodes leaves) = leaves.findSome? Leaf.heading? := by
  induction leaves using Leaf.nodes.induct with
  | case1 => rfl
  | case2 l => simp [Leaf.nodes, headingAmong?, l.heading?_node]
  | case3 l m rest ih =>
    have hfeed : (Node.text ['\n']).heading? = none := rfl
    rw [Leaf.nodes, headingAmong?, headingAmong?, ih, l.heading?_node, hfeed, Option.none_or]
    conv_rhs => rw [List.findSome?_cons]
    cases l.heading? <;> rfl

end Html
end Guidebook
