import Guidebook.Proofs.Markdown.TidyBlocks

/-!
# Reading tidy blocks

Whatever the blocks of a page say, what is read of them is a tidy tree. A display of code is a block
of its own that no rule fits but the one for paragraphs, so it stands in a paragraph right below the
page, and nothing else ever holds one.
-/

namespace Guidebook.Markdown.Block

open Text

variable {displays : List Char → Prop} {dialect : Dialect} {fuel : Nat} {context : Context}
  {parent : Element} {block : Run}

/-! ## Readers -/

/-- A reader that keeps references tidy and gives an element such as a predicate tells. -/
def Yields (post : Element → Prop) (m : StateM References Element) : Prop :=
  ∀ references, References.IsTidy references →
    post (m.run references).1 ∧ References.IsTidy (m.run references).2

namespace Yields

variable {pre post : Element → Prop} {m n : StateM References Element}

theorem pure {e : Element} (h : post e) : Yields post (Pure.pure e) := fun _ hreferences ↦
  ⟨h, hreferences⟩

theorem bind {f : Element → StateM References Element} (hm : Yields pre m)
    (hf : ∀ e, pre e → Yields post (f e)) : Yields post (m >>= f) := fun references hreferences ↦
  hf _ (hm references hreferences).1 _ (hm references hreferences).2

theorem mono (hm : Yields pre m) (h : ∀ e, pre e → post e) : Yields post m :=
  fun references hreferences ↦ (hm references hreferences).imp_left (h _)

theorem ite {p : Prop} [Decidable p] (hm : p → Yields post m) (hn : ¬ p → Yields post n) :
    Yields post (if p then m else n) := by
  split
  · next hp => exact hm hp
  · next hp => exact hn hp

theorem readLast {change : Element → StateM References Element} (hnone : post parent)
    (hchange : ∀ last, parent.lastChild? = some last →
      Yields (fun e ↦ post (parent.setLast e)) (change last)) :
    Yields post (readLast change parent) := by
  rw [Block.readLast]
  split
  · next last hlast => exact (hchange last hlast).bind fun e he ↦ .pure he
  · exact .pure hnone

/-- Further references that are tidy. -/
theorem define {found : References} (hfound : found.IsTidy) (hm : Yields post m) :
    Yields post (modify (found ++ ·) >>= fun _ ↦ m) := fun references hreferences ↦
  hm (found ++ references) (List.forall_mem_append.mpr ⟨hfound, hreferences⟩)

end Yields

/-- A reader of tidy blocks into tidy elements. -/
def ReadsTidy (dialect : Dialect) (fuel : Nat) : Prop :=
  ∀ (context : Context) (e : Element) (blocks : List Run), e.IsTidy →
    (∀ block ∈ blocks, block.IsTidy) → Yields Element.IsTidy (read dialect fuel context e blocks)

theorem ReadsTidy.single (hread : ReadsTidy dialect fuel) (context : Context) {e : Element}
    (he : e.IsTidy) {text : Run} (htext : text.IsTidy) :
    Yields Element.IsTidy (read dialect fuel context e [text]) :=
  hread context e [text] he (List.forall_mem_singleton.mpr htext)

theorem yields_readDeep {change : Element → StateM References Element}
    (hchange : ∀ e, e.IsTidy → Yields Element.IsTidy (change e)) (n : Nat) {e : Element}
    (he : e.IsTidy) : Yields Element.IsTidy (readDeep change n e) := by
  induction n generalizing e with
  | zero => exact hchange e he
  | succ n ih =>
    exact .readLast he fun last hlast ↦ (ih (he.lastChild? hlast)).mono fun _ ↦ he.setLast

/-! ## Lists -/

theorem none_of_isItem (h : parent.Stands displays) (hitem : parent.isItem = true) :
    ∀ html, ¬ displays html := fun html hdisplay ↦ by
  have htag : parent.tag = "li" := eq_of_beq hitem
  exact absurd (htag ▸ h.isPage html hdisplay) (by decide)

theorem none_of_isList (h : parent.Stands displays) (hlist : parent.isList = true) :
    ∀ html, ¬ displays html := fun html hdisplay ↦ by
  have hdiv := h.isPage html hdisplay
  rcases Element.tag_of_isList hlist with htag | htag <;> rw [htag] at hdiv <;>
    exact absurd hdiv (by decide)

/-- Reads an indented text into the element that its indent leads to. -/
def readInside (dialect : Dialect) (fuel : Nat) (text : Run) (e : Element) :
    StateM References Element := do
  if e.isItem then read dialect fuel .detached e [text]
  else if e.lastChild?.any Element.isItem then
    readLast (fun item ↦ read dialect fuel .detached (wrapText item) (chunks text)) e
  else return e.push (← read dialect fuel .detached (Element.bare "li") [text])

theorem yields_readInside (hread : ReadsTidy dialect fuel) {e : Element} (h : e.Stands displays)
    {text : Run} (htext : text.IsTidy) :
    Yields (Element.Stands displays) (readInside dialect fuel text e) := by
  refine .ite (fun hitem ↦ ?_) fun _ ↦ .ite (fun hlast ↦ ?_) fun _ ↦ ?_
  · have hnone := none_of_isItem h hitem
    exact (hread.single _ ((Element.stands_iff hnone).mp h) htext).mono fun _ ↦
      (Element.stands_iff hnone).mpr
  · refine .readLast h fun last hsome ↦ ?_
    rw [hsome, Option.any_some] at hlast
    have hitem := h.lastChild? hsome (eq_of_beq hlast ▸ (by decide : "li" ≠ "p"))
    exact (hread _ _ _ (tidy_wrapText hitem) (tidy_chunks htext)).mono fun _ ↦ h.setLast
  · exact (hread.single _ (.bare (by decide)) htext).bind fun item hitem ↦ .pure (h.push hitem)

theorem yields_readNested (hread : ReadsTidy dialect fuel) (h : parent.Stands displays)
    (hblock : block.IsTidy) (hlist : continuesList context parent block = true) :
    Yields (Element.Stands displays) (read.readNested dialect fuel context parent block) := by
  rw [read.readNested.eq_def]
  dsimp only
  generalize hnesting : nesting (block.indent / tabWidth) fuel (if context == .item then 1 else 0)
    parent = nested
  obtain ⟨depth, level⟩ := nested
  have htext : (dedentAll level block).IsTidy := tidy_dedentAll hblock level
  refine .ite (fun hitem ↦ ?_) fun hitem ↦ ?_
  · have hnone := none_of_isItem h hitem
    have htidy := (Element.stands_iff hnone).mp h
    refine (?_ : Yields Element.IsTidy _).mono fun e ↦ (Element.stands_iff hnone).mpr
    refine .ite (fun _ ↦ ?_) fun _ ↦ hread.single _ htidy htext
    exact .readLast htidy fun last hlast ↦
      (hread.single _ (htidy.lastChild? hlast) htext).mono fun _ ↦ htidy.setLast
  · cases depth with
    | zero => exact yields_readInside hread h htext
    | succ depth =>
      refine .readLast h fun last hlast ↦ ?_
      have hisList : last.isList = true := by
        rw [continuesList, eq_false_of_ne_true hitem, hlast] at hlist
        simp at hlist
        exact hlist.2
      refine (yields_readDeep (fun e he ↦ ?_) depth
        (h.lastChild? hlast (Element.ne_p_of_isList hisList))).mono fun _ ↦ h.setLast
      exact (yields_readInside hread (Element.stands_nowhere.mpr he) htext).mono fun _ ↦
        Element.stands_nowhere.mp

/-- Reads texts into a list as its items. -/
def addItems (dialect : Dialect) (fuel : Nat) (list : Element) (texts : List Run) :
    StateM References Element :=
  texts.foldlM (fun list text ↦ do
    if isNested text then readLast (fun item ↦ read dialect fuel .item item [text]) list
    else return list.push (← read dialect fuel .item (Element.bare "li") [text])) list

theorem ReadsTidy.newItem (hread : ReadsTidy dialect fuel) (context : Context) {text : Run}
    (htext : text.IsTidy) :
    Yields Element.IsTidy (read dialect fuel context (Element.bare "li") [text]) :=
  hread.single context (.bare (by decide)) htext

theorem yields_addItems (hread : ReadsTidy dialect fuel) {texts : List Run}
    (htexts : ∀ text ∈ texts, text.IsTidy) {list : Element} (hlist : list.IsTidy) :
    Yields Element.IsTidy (addItems dialect fuel list texts) := by
  induction texts generalizing list with
  | nil => exact .pure hlist
  | cons text texts ih =>
    obtain ⟨htext, htexts⟩ := List.forall_mem_cons.mp htexts
    rw [addItems, List.foldlM_cons]
    refine .bind (.ite (fun _ ↦ ?_) fun _ ↦ ?_) fun list hlist ↦ ih htexts hlist
    · exact .readLast hlist fun last hlast ↦
        (hread.single _ (hlist.lastChild? hlast) htext).mono fun _ ↦ hlist.setLast
    · exact (hread.newItem .item htext).bind fun item hitem ↦ .pure (hlist.push hitem)

/-- Items that do not go on with the list before them. -/
theorem yields_newList (hread : ReadsTidy dialect fuel) (h : parent.Stands displays)
    (bullet : Bullet) {texts : List Run} (htexts : ∀ text ∈ texts, text.IsTidy) :
    Yields (Element.Stands displays) (do
      if parent.isList then addItems dialect fuel parent texts
      else return parent.push (← addItems dialect fuel (newList dialect bullet) texts)) := by
  refine .ite (fun hlist ↦ ?_) fun _ ↦ ?_
  · have hnone := none_of_isList h hlist
    exact (yields_addItems hread htexts ((Element.stands_iff hnone).mp h)).mono fun _ ↦
      (Element.stands_iff hnone).mpr
  · exact (yields_addItems hread htexts (tidy_newList dialect bullet)).bind fun list hlist ↦
      .pure (h.push hlist)

theorem yields_readList (hread : ReadsTidy dialect fuel) (h : parent.Stands displays)
    (bullet : Bullet) (hblock : block.IsTidy) :
    Yields (Element.Stands displays) (read.readList dialect fuel parent bullet block) := by
  have hall : ∀ item ∈ items dialect bullet.tag block, item.IsTidy := tidy_items hblock
  have hnew := yields_newList hread h bullet hall
  rw [read.readList.eq_def]
  dsimp only
  split
  · next last first others hlast hitems =>
    obtain ⟨hfirst, hothers⟩ := List.forall_mem_cons.mp (hitems ▸ hall)
    refine .ite (fun hjoins ↦ ?_) fun _ ↦ hitems ▸ hnew
    have hisList := (Bool.and_eq_true _ _ ▸ hjoins).1
    have hlist := tidy_modifyLast (fun item hitem ↦ tidy_wrapTail (tidy_wrapText hitem)) 1
      (h.lastChild? hlast (Element.ne_p_of_isList hisList))
    exact (hread.newItem .looseItem hfirst).bind fun item hitem ↦
      (yields_addItems hread hothers (hlist.push hitem)).bind fun list hlist ↦
        .pure (h.setLast hlist)
  · exact hnew

/-! ## Headings and quotations -/

/-- What stands behind a heading is a tidy block, indented less in an item with paragraphs. -/
theorem tidy_behindHeading {lines : List Run} (h : ∀ line ∈ lines, line.IsTidy)
    (context : Context) :
    ∀ block ∈ (blockOf lines).map fun text ↦
      if context == .looseItem then dedentAll 1 text else text, block.IsTidy := by
  intro block hblock
  obtain ⟨text, htext, rfl⟩ := List.mem_map.mp hblock
  split
  · exact tidy_dedentAll (tidy_blockOf h text htext) 1
  · exact tidy_blockOf h text htext

/-- Quoted lines are a tidy text, also behind the empty line that ends the text before them. -/
theorem tidy_quotation {lines : List Run} (h : ∀ line ∈ lines, line.IsTidy) (isFirst : Bool) :
    Run.IsTidy (Run.ofLines (if isFirst then lines.map unquote else [] :: lines.map unquote)) := by
  have hquoted : ∀ line ∈ lines.map unquote, line.IsTidy := fun line hline ↦ by
    obtain ⟨marked, hmarked, rfl⟩ := List.mem_map.mp hline
    exact tidy_unquote (h marked hmarked)
  refine .ofLines ?_
  split
  · exact hquoted
  · exact List.forall_mem_cons.mpr ⟨.nil, hquoted⟩

/-- A quotation goes on with the one before it or is a new one. -/
theorem yields_readQuotation (hread : ReadsTidy dialect fuel) (h : parent.Stands displays)
    {text : Run} (htext : text.IsTidy) {next : Element → StateM References Element}
    (hnext : ∀ {e : Element}, e.Stands displays → Yields (Element.Stands displays) (next e)) :
    Yields (Element.Stands displays) (do
      let readQuote := fun (quote : Element) ↦ read dialect fuel .quote quote (chunks text)
      if parent.lastChild?.any (·.tag == "blockquote") then next (← readLast readQuote parent)
      else next (parent.push (← readQuote (Element.bare "blockquote")))) := by
  have hquote : ∀ quote : Element, quote.IsTidy →
      Yields Element.IsTidy (read dialect fuel .quote quote (chunks text)) := fun quote hquote ↦
    hread .quote quote _ hquote (tidy_chunks htext)
  refine .ite (fun hlast ↦ ?_) fun _ ↦ ?_
  · refine (Yields.readLast h fun last hsome ↦ ?_).bind fun e he ↦ hnext he
    rw [hsome, Option.any_some] at hlast
    have hlast := h.lastChild? hsome (eq_of_beq hlast ▸ (by decide : "blockquote" ≠ "p"))
    exact (hquote last hlast).mono fun _ ↦ h.setLast
  · exact (hquote _ (.bare (by decide))).bind fun quote hquote ↦ hnext (h.push hquote)

/-! ## Displays -/

/-- A block of a page: tidy text, or a display of code with line feeds around it. -/
def IsBlock (displays : List Char → Prop) (block : Run) : Prop :=
  block.IsTidy ∨ ∃ before html after, displays html ∧ block =
    List.replicate before (.char '\n') ++ .raw html :: List.replicate after (.char '\n')

theorem isWordy_nil : IsWordy [] := ⟨rfl, rfl, rfl, rfl, rfl, rfl⟩

theorem isWordy_raw (html : List Char) : IsWordy [.raw html] := ⟨rfl, rfl, rfl, rfl, rfl, rfl⟩

theorem lines_feeds (n : Nat) :
    Run.lines (List.replicate n (.char '\n')) = List.replicate (n + 1) [] := by
  induction n with
  | zero => rfl
  | succ n ih =>
    rw [Run.lines] at ih ⊢
    rw [List.replicate_succ, splitBy, ih]
    rfl

/-- A display of code is read as a paragraph. -/
theorem read_display (dialect : Dialect) (fuel : Nat) (page : Element) (html : List Char)
    (after : Nat) (blocks : List Run) :
    read dialect (fuel + 1) .page page
        ((.raw html :: List.replicate after (.char '\n')) :: blocks) =
      read dialect fuel .page
        (page.push (.leaf "p" (.raw html :: List.replicate after (.char '\n')))) blocks := by
  refine read_wordy dialect fuel page ?_ ?_ rfl rfl blocks
  · have hlines : Run.lines (.raw html :: List.replicate after (.char '\n')) =
        [.raw html] :: List.replicate after [] := by
      have hfeeds := lines_feeds after
      rw [Run.lines] at hfeeds ⊢
      rw [splitBy, hfeeds]
      rfl
    rw [hlines]
    refine List.forall_mem_cons.mpr ⟨isWordy_raw html, fun line hline ↦ ?_⟩
    exact List.eq_of_mem_replicate hline ▸ isWordy_nil
  · refine List.forall_mem_cons.mpr ⟨fun _ _ ↦ rfl, fun g hg mark hmark ↦ ?_⟩
    rw [List.eq_of_mem_replicate hg, Glyph.isChar_char, beq_eq_false_iff_ne]
    exact (ne_of_mem_of_not_mem hmark (by decide)).symm

/-! ## All blocks -/

theorem stands_addParagraph (hitem : context = .item → parent.IsTidy) (h : parent.Stands displays)
    (hblock : block.IsTidy) : (addParagraph context parent block).Stands displays := by
  rw [addParagraph]
  split
  · exact h
  split
  · next hcontext =>
    have htidy := hitem (eq_of_beq hcontext)
    have hline := hblock.cons (Glyph.IsTidy.char '\n')
    rw [addToItem]
    split
    · next last hlast =>
      have hparts := htidy.lastChild? hlast
      exact h.setLast (hparts.withTail ((Element.isTidy_iff.mp hparts).tail.append hline))
    · split
      · exact ⟨h.toIsFrame.withText (hblock.dropWhile _), h.isPage⟩
      · exact ⟨h.toIsFrame.withText (h.text.append ((hblock.dropWhile _).cons (.char '\n'))),
          h.isPage⟩
  · exact h.push (.leaf (by decide) (hblock.dropWhile _))

/-- A reader of blocks into an element. -/
def Reads (dialect : Dialect) (fuel : Nat) : Prop :=
  ∀ {displays : List Char → Prop} {context : Context} {parent : Element} {blocks : List Run},
    (∀ html, displays html → context = .page) → parent.Stands displays →
    (∀ block ∈ blocks, IsBlock displays block) →
      Yields (Element.Stands displays) (read dialect fuel context parent blocks)

/-- The rule that fits a tidy block leaves nothing untidy. -/
theorem yields_read_tidy {first : Glyph} {rest : Run} {blocks : List Run}
    (ih : Reads dialect fuel) (hread : ReadsTidy dialect fuel)
    (hcontext : ∀ html, displays html → context = .page) (h : parent.Stands displays)
    (hblock : Run.IsTidy (first :: rest)) (hothers : ∀ block ∈ blocks, IsBlock displays block) :
    Yields (Element.Stands displays)
      (read dialect (fuel + 1) context parent ((first :: rest) :: blocks)) := by
  have hlines := hblock.lines
  have hnext : ∀ {parent : Element} {front : List Run}, parent.Stands displays →
      (∀ block ∈ front, block.IsTidy) →
      Yields (Element.Stands displays) (read dialect fuel context parent (front ++ blocks)) :=
    fun hparent hfront ↦ ih hcontext hparent (List.forall_mem_append.mpr
      ⟨fun block hblock ↦ .inl (hfront block hblock), hothers⟩)
  have hone : ∀ {parent : Element} {block : Run}, parent.Stands displays → block.IsTidy →
      Yields (Element.Stands displays)
        (read dialect fuel context parent (if block.isEmpty then blocks else block :: blocks)) := by
    intro parent block hparent hblock
    split
    · exact ih hcontext hparent hothers
    · exact ih hcontext hparent (List.forall_mem_cons.mpr ⟨.inl hblock, hothers⟩)
  have hbefore : ∀ {front : List Run}, (∀ block ∈ front, block.IsTidy) →
      Yields (Element.Stands displays) (read dialect fuel context parent front) :=
    fun hfront ↦ ih hcontext h fun block hblock ↦ .inl (hfront block hblock)
  rw [read.eq_def]
  dsimp only
  -- one case for each rule, in their order
  refine .ite (fun _ ↦ ?_) fun _ ↦ ?_
  · exact hone (stands_extendCode h (.cons (.char '\n') .nil)) (hblock.drop 1)
  refine .ite (fun hlist ↦ ?_) fun _ ↦ ?_
  · exact (yields_readNested hread h hblock hlist).bind fun e he ↦ ih hcontext he hothers
  refine .ite (fun _ ↦ ?_) fun _ ↦ ?_
  · obtain ⟨hparent, hafter⟩ := stands_addCode h hblock
    exact hone hparent hafter
  split
  · exact ih hcontext (h.push (Table.tidy_build _ hblock)) hothers
  split
  · next before rank words after hfound =>
    obtain ⟨hfront, ⟨line, hline, hheading⟩, hback⟩ := tidy_splitAtLine? hlines hfound
    exact (hbefore (tidy_blockOf hfront)).bind fun e he ↦
      hnext (he.push (tidy_heading? hline hheading)) (tidy_behindHeading hback context)
  split
  · next words under after rank heq hrank =>
    rw [heq] at hlines hrank
    obtain ⟨hwords, hlines⟩ := List.forall_mem_cons.mp hlines
    obtain ⟨-, hback⟩ := List.forall_mem_cons.mp hlines
    refine hnext (h.push (tidy_headingElement (underlineRank?_cases hrank) (hwords.stripBy _))) ?_
    split
    · exact List.forall_mem_nil _
    · exact List.forall_mem_singleton.mpr (.ofLines hback)
  split
  · next before after hfound =>
    obtain ⟨hfront, -, hback⟩ := tidy_splitAtLine? hlines hfound
    refine (hbefore ?_).bind fun e he ↦
      hone (he.push (.bare (by decide))) ((Run.IsTidy.ofLines hback).dropWhile _)
    split
    · exact List.forall_mem_nil _
    · exact List.forall_mem_singleton.mpr ((Run.IsTidy.ofLines hfront).stripEnd _)
  split
  · exact (yields_readList hread h _ hblock).bind fun e he ↦ ih hcontext he hothers
  split
  · next before line after hfound =>
    obtain ⟨hfront, -, -⟩ := tidy_splitAtLine? hlines hfound
    have hquoted : ∀ line ∈ (Run.lines (first :: rest)).drop before.length, line.IsTidy :=
      fun line hline ↦ hlines line (List.drop_subset _ _ hline)
    exact (hbefore (List.forall_mem_singleton.mpr (.ofLines hfront))).bind fun e he ↦
      yields_readQuotation hread he (tidy_quotation hquoted before.isEmpty)
        fun he ↦ ih hcontext he hothers
  split
  · next before found after hfound =>
    obtain ⟨hfront, hreferences, hback⟩ := tidy_references? hblock hfound
    refine .define hreferences (hnext h (List.forall_mem_append.mpr ⟨?_, ?_⟩))
    · split
      · exact List.forall_mem_singleton.mpr (hfront.stripEnd _)
      · exact List.forall_mem_nil _
    · split
      · exact List.forall_mem_singleton.mpr (hback.dropWhile _)
      · exact List.forall_mem_nil _
  · refine ih hcontext (stands_addParagraph (fun hitem ↦ ?_) h hblock) hothers
    refine (Element.stands_iff fun html hdisplay ↦ ?_).mp h
    rw [hcontext html hdisplay] at hitem
    cases hitem

/-- Whatever blocks say, reading them leaves nothing untidy but displays right below the page. -/
theorem yields_read (dialect : Dialect) (fuel : Nat) {blocks : List Run}
    (hcontext : ∀ html, displays html → context = .page) (h : parent.Stands displays)
    (hblocks : ∀ block ∈ blocks, IsBlock displays block) :
    Yields (Element.Stands displays) (read dialect fuel context parent blocks) := by
  induction fuel generalizing displays context parent blocks with
  | zero =>
    rw [read.eq_def]
    exact .pure h
  | succ fuel ih =>
    have hread : ReadsTidy dialect fuel := fun context e blocks he hblocks ↦
      (ih nofun (Element.stands_nowhere.mpr he) fun block hblock ↦ .inl (hblocks block hblock)).mono
        fun _ ↦ Element.stands_nowhere.mp
    cases blocks with
    | nil =>
      rw [read_nil]
      exact .pure h
    | cons block blocks =>
      obtain ⟨hblock, hothers⟩ := List.forall_mem_cons.mp hblocks
      rcases hblock with htidy | ⟨before, html, after, hdisplay, rfl⟩
      · cases block with
        | nil =>
          rw [read.eq_def]
          exact ih hcontext (stands_extendCode h (.ofChars _)) hothers
        | cons first rest => exact yields_read_tidy ih hread hcontext h htidy hothers
      · cases before with
        | zero =>
          obtain rfl := hcontext html hdisplay
          rw [List.replicate_zero, List.nil_append, read_display]
          refine ih hcontext ⟨h.toIsFrame.push (.inr ⟨html, after, hdisplay, rfl⟩), h.isPage⟩ hothers
        | succ before =>
          rw [read.eq_def]
          refine ih hcontext (stands_extendCode h (.cons (.char '\n') .nil)) ?_
          rw [List.append_eq, if_neg (by simp)]
          exact List.forall_mem_cons.mpr ⟨.inr ⟨before, html, after, hdisplay, rfl⟩, hothers⟩

/-! ## Pages -/

/-- The lines of a page: text, and displays of code between empty lines. -/
inductive AreLines (displays : List Char → Prop) : List Run → Prop
  | nil : AreLines displays []
  | line (cs : List Char) {rest : List Run} (hrest : AreLines displays rest) :
    AreLines displays (Run.ofChars cs :: rest)
  | display {html : List Char} {rest : List Run} (h : displays html)
    (hrest : AreLines displays rest) : AreLines displays ([] :: [.raw html] :: [] :: rest)

/-- Text in which a display of code has two line feeds before it and two behind it, or the one that
the text ends with. So many line feeds stand before the text. -/
inductive Spaced (displays : List Char → Prop) : Nat → Run → Prop
  | nil {n : Nat} : Spaced displays n []
  | feed {n : Nat} {rest : Run} (hrest : Spaced displays (n + 1) rest) :
    Spaced displays n (.char '\n' :: rest)
  | char {n : Nat} {c : Char} {rest : Run} (hc : c ≠ '\n') (hrest : Spaced displays 0 rest) :
    Spaced displays n (.char c :: rest)
  | last {n : Nat} {html : List Char} (hn : 2 ≤ n) (h : displays html) :
    Spaced displays n [.raw html, .char '\n']
  | display {n : Nat} {html : List Char} {rest : Run} (hn : 2 ≤ n) (h : displays html)
    (hrest : Spaced displays 2 rest) :
    Spaced displays n (.raw html :: .char '\n' :: .char '\n' :: rest)

theorem spaced_ofChars (cs : List Char) {rest : Run} (hrest : ∀ n, Spaced displays n rest)
    (n : Nat) :
    Spaced displays n (Run.ofChars cs ++ rest) := by
  induction cs generalizing n with
  | nil => exact hrest n
  | cons c cs ih =>
    rcases eq_or_ne c '\n' with rfl | hc
    · exact .feed (ih _)
    · exact .char hc (ih 0)

theorem spaced_ofLines {lines : List Run} (h : AreLines displays lines) {n : Nat} (hn : 1 ≤ n) :
    Spaced displays n (Run.ofLines lines) := by
  induction h generalizing n with
  | nil => exact .nil
  | @line cs rest hrest ih =>
    cases rest with
    | nil => simpa [Run.ofLines, joinWith] using spaced_ofChars cs (fun _ ↦ .nil) n
    | cons next more =>
      rw [Run.ofLines, joinWith_cons_cons, List.append_assoc]
      exact spaced_ofChars cs (fun n ↦ .feed (ih (Nat.succ_pos n))) n
  | @display html rest hdisplay hrest ih =>
    cases rest with
    | nil => exact .feed (.last (Nat.succ_le_succ hn) hdisplay)
    | cons next more => exact .feed (.display (Nat.succ_le_succ hn) hdisplay (ih (by decide)))

theorem chunks_ne_nil (text : Run) : chunks text ≠ [] := by
  rw [chunks.eq_def]
  split
  · exact List.cons_ne_nil _ _
  · exact List.cons_ne_nil _ _
  · split
    · exact List.cons_ne_nil _ _
    · split <;> exact List.cons_ne_nil _ _

/-- Each display of code is a block of its own. A block that has begun with other text goes on up to
the next two line feeds, which stand before any display. -/
theorem isBlock_chunks {n : Nat} {text : Run} (h : Spaced displays n text) :
    ∃ piece pieces, chunks text = piece :: pieces ∧ IsBlock displays piece ∧
      (∀ block ∈ pieces, IsBlock displays block) ∧
      (n = 0 ∨ n = 1 ∧ text.head? ≠ some (.char '\n') → piece.IsTidy) := by
  induction text using chunks.induct generalizing n with
  | case1 => exact ⟨[], [], rfl, .inl .nil, List.forall_mem_nil _, fun _ ↦ .nil⟩
  | case2 g =>
    have hg : Run.IsTidy [g] := by
      cases h with
      | feed _ => exact .ofChars ['\n']
      | @char c _ _ => exact .ofChars [_]
    exact ⟨[g], [], rfl, .inl hg, List.forall_mem_nil _, fun _ ↦ hg⟩
  | case3 g next rest hfeeds ih =>
    obtain ⟨hg, hnext⟩ := (Bool.and_eq_true _ _).mp hfeeds
    obtain rfl := Glyph.isChar_iff.mp hg
    obtain rfl := Glyph.isChar_iff.mp hnext
    have hrest : Spaced displays (n + 1 + 1) rest := by
      cases h with
      | feed h =>
        cases h with
        | feed h => exact h
        | char hc _ => exact absurd rfl hc
      | char hc _ => exact absurd rfl hc
    obtain ⟨piece, pieces, hchunks, hpiece, hpieces, -⟩ := ih hrest
    refine ⟨[], piece :: pieces, ?_, .inl .nil, List.forall_mem_cons.mpr ⟨hpiece, hpieces⟩,
      fun _ ↦ .nil⟩
    rw [chunks, if_pos hfeeds, hchunks]
  | case4 g next rest hfeeds hnil ih => exact absurd hnil (chunks_ne_nil _)
  | case5 g next rest hfeeds piece pieces hcut ih =>
    rw [chunks, if_neg hfeeds, hcut]
    have hrest : ∀ {m : Nat}, Spaced displays m (next :: rest) → IsBlock displays piece ∧
        (∀ block ∈ pieces, IsBlock displays block) ∧
          (m = 0 ∨ m = 1 ∧ next ≠ .char '\n' → piece.IsTidy) := by
      intro m hm
      obtain ⟨piece, pieces, hchunks, hblock⟩ := ih hm
      obtain ⟨rfl, rfl⟩ := List.cons.inj (hcut.symm.trans hchunks)
      simpa using hblock
    refine ⟨g :: piece, pieces, rfl, ?_⟩
    cases h with
    | feed h =>
      obtain ⟨hpiece, hpieces, htidy⟩ := hrest h
      refine ⟨?_, hpieces, fun hn ↦ ?_⟩
      · rcases hpiece with hpiece | ⟨before, html, after, hdisplay, rfl⟩
        · exact .inl (hpiece.cons (.char '\n'))
        · exact .inr ⟨before + 1, html, after, hdisplay, rfl⟩
      · obtain rfl := hn.resolve_right fun h ↦ h.2 rfl
        refine (htidy (.inr ⟨rfl, fun hnext ↦ hfeeds ?_⟩)).cons (.char '\n')
        simp [hnext]
    | @char _ c _ hc h =>
      obtain ⟨-, hpieces, htidy⟩ := hrest h
      have hall : Run.IsTidy (.char c :: piece) := (htidy (.inl rfl)).cons (.char c)
      exact ⟨.inl hall, hpieces, fun _ ↦ hall⟩
    | last hn hdisplay =>
      obtain ⟨rfl, rfl⟩ := List.cons.inj hcut
      exact ⟨.inr ⟨0, _, 1, hdisplay, rfl⟩, List.forall_mem_nil _, by omega⟩
    | @display _ _ more hn hdisplay h =>
      have hpieces := (hrest (m := 0) (.feed (.feed h))).2.1
      obtain ⟨rfl, -⟩ := List.cons.inj ((if_pos rfl : chunks (.char '\n' :: .char '\n' :: more) =
        [] :: chunks more).symm.trans hcut)
      exact ⟨.inr ⟨0, _, 0, hdisplay, rfl⟩, hpieces, by omega⟩

theorem stands_readPage (dialect : Dialect) {lines : List Run} (h : AreLines displays lines) :
    (readPage dialect lines).1.Stands displays ∧ References.IsTidy (readPage dialect lines).2 := by
  obtain ⟨piece, pieces, hchunks, hpiece, hpieces, -⟩ :=
    isBlock_chunks (spaced_ofLines h (Nat.le_refl 1))
  refine yields_read dialect _ (fun _ _ ↦ rfl) ⟨.bare (by decide), fun _ _ ↦ rfl⟩ ?_ [] nofun
  rw [hchunks]
  exact List.forall_mem_cons.mpr ⟨hpiece, hpieces⟩

end Guidebook.Markdown.Block
