import Guidebook.Proofs.Theme.Anchors

/-!
# Lists of the packaged theme

The outline beside a page is read from its markup: lists, their items, and what these are headed by
or link to. Whatever the texts of a guide are, what is read is the tree of the workspace. A page's
content may hold lists of its own, so the reading starts behind it.
-/

namespace Guidebook.Theme

open Outline

/-! ## Reading lists -/

/-- What is read from lists: the text of a heading, a link with its text, or a list with what each
of its items holds. -/
inductive Listed where
  | heading (text : List Char)
  | link (attributes : List (String × List Char)) (text : List Char)
  | list (items : List (List Listed))

/-- An element that is open: a list or an item with what was read in it, or a heading or link. -/
inductive Open where
  | list (items : List (List Listed))
  | item (content : List Listed)
  | heading (text : List Char)
  | link (attributes : List (String × List Char)) (text : List Char)

/-- The tag that markup goes on with. -/
def tagAt (markup : List Char) : List Char := markup.takeWhile (· != '>')

/-- The text behind the tag that markup goes on with, up to the next tag. -/
def textBehind (markup : List Char) : List Char :=
  ((markup.dropWhile (· != '>')).drop 1).takeWhile (· != '<')

/-- The name of a tag. Closing tags start with a slash. -/
def tagName (tag : List Char) : String := String.ofList (tag.takeWhile (· != ' '))

/-- The tag that ends the part of a page beside its content. -/
def endTag : String := "/aside"

/-- Elements that only lay out what lists hold or what stands beside them. -/
def layoutNames : List String := ["details", "h2", "p", "pre", "code"]

/-- What is open behind a tag and its text. Tags that do not fit together are not read. -/
def readTag (tag text : List Char) (opened : List Open) : Option (List Open) :=
  match tagName tag, opened with
  | "ul", .item content :: rest => some (.list [] :: .item content :: rest)
  | "/ul", .list items :: .item content :: rest =>
    some (.item (content ++ [.list items]) :: rest)
  | "li", .list items :: rest => some (.item [] :: .list items :: rest)
  | "/li", .item content :: .list items :: rest => some (.list (items ++ [content]) :: rest)
  | "summary", .item content :: rest =>
    some (.heading (markedText text) :: .item content :: rest)
  | "/summary", .heading text :: .item content :: rest =>
    some (.item (content ++ [.heading text]) :: rest)
  | "a", .item content :: rest =>
    some (.link (attributesOf (tag.dropWhile (· != ' '))) (markedText text) :: .item content :: rest)
  | "/a", .link attributes text :: .item content :: rest =>
    some (.item (content ++ [.link attributes text]) :: rest)
  | name, .item content :: rest =>
    if layoutNames.any fun layout ↦ name == layout || name == "/" ++ layout then
      some (.item content :: rest)
    else none
  | _, _ => none

/-- Reads markup up to the end tag. What a tag goes on with behind its name opens no other tag, and is
passed over as text. -/
def readLists (opened : List Open) : List Char → Option (List Open)
  | [] => none
  | c :: rest =>
    if c != '<' then readLists opened rest
    else if tagName (tagAt rest) == endTag then some opened
    else (readTag (tagAt rest) (textBehind rest) opened).bind fun opened ↦ readLists opened rest

/-- Markup from the first tag of a name on, without the sign that opens it. -/
def behindTag (name : String) : List Char → List Char
  | [] => []
  | c :: rest => if c == '<' && tagName (tagAt rest) == name then rest else behindTag name rest

/-- What is read beside the content of a page. -/
def readOutline (html : List Char) : Option (List Listed) :=
  match readLists [.item []] (behindTag "aside" (navigation html)) with
  | some [.item content] => some content
  | _ => none

mutual

/-- The links in what was read, each with its attributes, in their order. -/
def Listed.links : Listed → List (List (String × List Char))
  | .heading _ => []
  | .link attributes _ => [attributes]
  | .list items => linksEach items

/-- The links in what one item holds. -/
def linksAll : List Listed → List (List (String × List Char))
  | [] => []
  | found :: rest => found.links ++ linksAll rest

/-- The links in items. -/
def linksEach : List (List Listed) → List (List (String × List Char))
  | [] => []
  | content :: rest => linksAll content ++ linksEach rest

end

/-! ## Reading what the theme writes -/

section

variable {text tag rest : List Char} {opened : List Open}

theorem readLists_text (h : '<' ∉ text) : readLists opened (text ++ rest) = readLists opened rest := by
  induction text with
  | nil => rfl
  | cons c text ih =>
    rw [List.mem_cons, not_or] at h
    rw [List.cons_append, readLists, if_pos (by simpa using Ne.symm h.1), ih h.2]

theorem behindTag_text {name : String} (h : '<' ∉ text) :
    behindTag name (text ++ rest) = behindTag name rest := by
  induction text with
  | nil => rfl
  | cons c text ih =>
    rw [List.mem_cons, not_or] at h
    have hc : (c == '<') = false := by simpa using Ne.symm h.1
    rw [List.cons_append, behindTag, hc, Bool.false_and, if_neg Bool.false_ne_true, ih h.2]

/-- A tag with what stands behind it. -/
def tagged (tag rest : List Char) : List Char := '<' :: (tag ++ '>' :: rest)

/-- Whether a text stands in a tag, and reading goes on behind it. -/
def isTag (tag : List Char) : Bool :=
  tag.all (fun c ↦ c != '<' && c != '>') && tagName tag != endTag

theorem isTag_iff : isTag tag = true ↔ '<' ∉ tag ∧ '>' ∉ tag ∧ tagName tag ≠ endTag := by
  simp only [isTag, Bool.and_eq_true, List.all_eq_true, bne_iff_ne, ← and_assoc]
  refine and_congr_left fun _ ↦ ⟨fun h ↦ ⟨fun hc ↦ (h _ hc).1 rfl, fun hc ↦ (h _ hc).2 rfl⟩, ?_⟩
  rintro ⟨hopen, hclose⟩ c hc
  exact ⟨ne_of_mem_of_not_mem hc hopen, ne_of_mem_of_not_mem hc hclose⟩

theorem tagAt_append (hclose : '>' ∉ tag) (rest : List Char) : tagAt (tag ++ '>' :: rest) = tag := by
  rw [tagAt, List.takeWhile_append_of_pos fun c hc ↦ by simpa using ne_of_mem_of_not_mem hc hclose]
  simp

theorem textBehind_append (hclose : '>' ∉ tag) (rest : List Char) :
    textBehind (tag ++ '>' :: rest) = rest.takeWhile (· != '<') := by
  rw [textBehind, List.dropWhile_append_of_pos fun c hc ↦ by
    simpa using ne_of_mem_of_not_mem hc hclose]
  simp

theorem readLists_tagged {after : List Open} (htag : isTag tag = true)
    (hread : readTag tag (rest.takeWhile (· != '<')) opened = some after) :
    readLists opened (tagged tag rest) = readLists after rest := by
  obtain ⟨hopen, hclose, hname⟩ := isTag_iff.mp htag
  rw [tagged, readLists, if_neg (by simp), tagAt_append hclose, textBehind_append hclose,
    if_neg (by simpa using hname), hread, Option.bind_some, readLists_text hopen]
  exact readLists_text (by decide : '<' ∉ ['>'])

end

/-- Pieces that take what is open from one state to another, whatever comes behind them. -/
def Reads (pieces : List Piece) (opened after : List Open) : Prop :=
  ∀ rest, readLists opened (writePieces pieces ++ rest) = readLists after rest

namespace Reads

variable {pieces others : List Piece} {opened middle after : List Open}

theorem nil : Reads [] opened opened := fun _ ↦ rfl

theorem append (h : Reads pieces opened middle) (h' : Reads others middle after) :
    Reads (pieces ++ others) opened after := fun rest ↦ by
  rw [writePieces_append, List.append_assoc, h, h']

end Reads

variable {page : PageContext}

/-- What a file of a workspace is read as. -/
def fileItem (page : PageContext) (file : File) : List Listed :=
  [.link (fileLink page file.path) file.name.toList]

private theorem readTag_link {tag : List Char} (hname : tagName tag = "a") {text : List Char}
    {content : List Listed} {opened : List Open} :
    readTag tag text (.item content :: opened) = some
      (.link (attributesOf (tag.dropWhile (· != ' '))) (markedText text) :: .item content :: opened) := by
  simp [readTag, hname]

/-- The text up to a tag. -/
private theorem takeWhile_escape (text tag rest : List Char) :
    (escape text ++ tagged tag rest).takeWhile (· != '<') = escape text := by
  have hfree : '<' ∉ escape text := not_mem_escape (by decide) text
  rw [List.takeWhile_append_of_pos fun c hc ↦ by simpa using ne_of_mem_of_not_mem hc hfree]
  simp [tagged]

private theorem reads_filePieces (file : File) (items : List (List Listed)) (opened : List Open) :
    Reads (filePieces page file) (.list items :: opened)
      (.list (items ++ [fileItem page file]) :: opened) := by
  intro rest
  set attributes : List (List Char × List Char) :=
    [(" href=".toList, fileAddress page file.path),
      (" data-companion=".toList, fileAddress page file.path ++ ".html".toList)]
  have hnames : ∀ pair ∈ attributes, marks pair.1 = [] := by simp [attributes]; decide
  have hopen : '<' ∉ 'a' :: tagText attributes := by
    simpa using not_mem_tagText hnames (c := '<') (by decide) (by decide)
  have hclose : '>' ∉ 'a' :: tagText attributes := by
    simpa using not_mem_tagText hnames (c := '>') (by decide) (by decide)
  have hname : tagName ('a' :: tagText attributes) = "a" := by
    simp [tagName, attributes, tagText]
  have htag : isTag ('a' :: tagText attributes) = true :=
    isTag_iff.mpr ⟨hopen, hclose, hname ▸ by decide⟩
  have hlink : attributesOf (('a' :: tagText attributes).dropWhile (· != ' ')) =
      fileLink page file.path := by
    have hdrop : ('a' :: tagText attributes).dropWhile (· != ' ') = tagText attributes := by
      simp [attributes, tagText]
    rw [hdrop, attributesOf_tagText hnames, fileLink]
    simp [attributes]
    decide
  have hwritten : writePieces (filePieces page file) ++ rest = "  ".toList ++
      tagged "li class=\"outline-file\"".toList ("\n    ".toList ++
        tagged ('a' :: tagText attributes) (escape file.name.toList ++
          tagged "/a".toList ("\n  ".toList ++ tagged "/li".toList ("\n".toList ++ rest)))) := by
    simp [filePieces, writePieces, Piece.write, say, tagText, attributes, fileUrl, fileAddress, tagged]
  rw [hwritten, readLists_text (by decide), readLists_tagged (by decide) rfl,
    readLists_text (by decide), readLists_tagged htag (readTag_link hname),
    readLists_text (not_mem_escape (by decide) _),
    readLists_tagged (by decide) rfl, readLists_text (by decide),
    readLists_tagged (by decide) rfl, readLists_text (by decide),
    takeWhile_escape, markedText_escape, hlink]
  rfl

private theorem reads_files (files : List File) (items : List (List Listed)) (opened : List Open) :
    Reads (files.flatMap (filePieces page)) (.list items :: opened)
      (.list (items ++ files.map (fileItem page)) :: opened) := by
  induction files generalizing items with
  | nil => simpa using Reads.nil
  | cons file files ih =>
    simpa using (reads_filePieces file items opened).append (ih (items ++ [fileItem page file]))

private theorem reads_listStart (content : List Listed) (opened : List Open) :
    Reads [.fixed "<ul class=\"outline\">\n"] (.item content :: opened)
      (.list [] :: .item content :: opened) := fun rest ↦ by
  have hwritten : writePieces [.fixed "<ul class=\"outline\">\n"] ++ rest =
      tagged "ul class=\"outline\"".toList ("\n".toList ++ rest) := rfl
  rw [hwritten, readLists_tagged (by decide) rfl, readLists_text (by decide)]

private theorem reads_listEnd (items : List (List Listed)) (content : List Listed)
    (opened : List Open) :
    Reads [.fixed "</ul>\n"] (.list items :: .item content :: opened)
      (.item (content ++ [.list items]) :: opened) := fun rest ↦ by
  have hwritten : writePieces [.fixed "</ul>\n"] ++ rest =
      tagged "/ul".toList ("\n".toList ++ rest) := rfl
  rw [hwritten, readLists_tagged (by decide) rfl, readLists_text (by decide)]

private theorem reads_directoryStart (name : String) (items : List (List Listed))
    (opened : List Open) :
    Reads [.fixed "  <li class=\"outline-dir\">\n    <details open>\n      <summary>", say name,
        .fixed "</summary>\n      "] (.list items :: opened)
      (.item [.heading name.toList] :: .list items :: opened) := fun rest ↦ by
  have hwritten : writePieces [.fixed "  <li class=\"outline-dir\">\n    <details open>\n      <summary>",
      say name, .fixed "</summary>\n      "] ++ rest = "  ".toList ++
        tagged "li class=\"outline-dir\"".toList ("\n    ".toList ++
          tagged "details open".toList ("\n      ".toList ++ tagged "summary".toList
            (escape name.toList ++ tagged "/summary".toList ("\n      ".toList ++ rest)))) := by
    simp [writePieces, Piece.write, say, tagged]
  rw [hwritten, readLists_text (by decide), readLists_tagged (by decide) rfl,
    readLists_text (by decide), readLists_tagged (by decide) rfl,
    readLists_text (by decide), readLists_tagged (by decide) rfl,
    readLists_text (not_mem_escape (by decide) _),
    readLists_tagged (by decide) rfl, readLists_text (by decide),
    takeWhile_escape, markedText_escape]
  rfl

private theorem reads_directoryEnd (content : List Listed) (items : List (List Listed))
    (opened : List Open) :
    Reads [.fixed "\n    </details>\n  </li>\n"] (.item content :: .list items :: opened)
      (.list (items ++ [content]) :: opened) := fun rest ↦ by
  have hwritten : writePieces [.fixed "\n    </details>\n  </li>\n"] ++ rest = "\n    ".toList ++
      tagged "/details".toList ("\n  ".toList ++ tagged "/li".toList ("\n".toList ++ rest)) := rfl
  rw [hwritten, readLists_text (by decide), readLists_tagged (by decide) rfl,
    readLists_text (by decide), readLists_tagged (by decide) rfl,
    readLists_text (by decide)]

mutual

/-- What the list of a directory is read as: an item for each subdirectory, with its name and its
own list, and then one for each file. -/
def outlineItems (page : PageContext) : Directory → List (List Listed)
  | .node _ _ directories files => directoryItems page directories ++ files.map (fileItem page)

/-- What the items of directories are read as. -/
def directoryItems (page : PageContext) : List Directory → List (List Listed)
  | [] => []
  | d :: rest => [.heading d.name.toList, .list (outlineItems page d)] :: directoryItems page rest

end

mutual

-- a list leaves what is open around it as it was, with one more thing in the item that it is in
private theorem reads_outlinePieces : ∀ (d : Directory) (content : List Listed) (opened : List Open),
    Reads (outlinePieces page d) (.item content :: opened)
      (.item (content ++ [.list (outlineItems page d)]) :: opened)
  | .node _ _ directories files, content, opened => by
    rw [outlinePieces, outlineItems]
    have hdirectories := reads_directoryPieces directories [] (.item content :: opened)
    rw [List.nil_append] at hdirectories
    exact (((reads_listStart content opened).append hdirectories).append
      (reads_files files _ _)).append (reads_listEnd _ _ _)

private theorem reads_directoryPieces : ∀ (ds : List Directory) (items : List (List Listed))
    (opened : List Open), Reads (directoryPieces page ds) (.list items :: opened)
      (.list (items ++ directoryItems page ds) :: opened)
  | [], items, opened => by
    rw [directoryPieces, directoryItems, List.append_nil]
    exact .nil
  | d :: rest, items, opened => by
    have hitem := ((reads_directoryStart d.name items opened).append
      (reads_outlinePieces d [.heading d.name.toList] (.list items :: opened))).append
        (reads_directoryEnd _ items opened)
    have hrest := reads_directoryPieces rest
      (items ++ [[.heading d.name.toList, .list (outlineItems page d)]]) opened
    rw [directoryPieces, directoryItems]
    simpa using hitem.append hrest

end

/-! ## The outline of a page -/

variable {guide : GuideContext}

private theorem behindTag_other {name : String} {rest : List Char}
    (h : tagName (tagAt rest) ≠ name) : behindTag name ('<' :: rest) = behindTag name rest := by
  rw [behindTag, if_neg (by simpa using h)]

private theorem behindTag_neighbour {relation label : String} (hrelation : '<' ∉ relation.toList)
    (hlabel : '<' ∉ label.toList) (code : Option String) (rest : List Char) :
    behindTag "aside" (writePieces (neighbour guide relation label code) ++ rest) =
      behindTag "aside" rest := by
  rw [neighbour_eq]
  split
  · have hescape (text : List Char) : '<' ∉ escape text := not_mem_escape (by decide) text
    have hwritten : writePieces [
          .fixed ("        <a class=\"" ++ relation ++ "\" rel=\"" ++ relation ++ "\" href=\""),
          say guide.baseUrl, say (code.getD ""), .fixed ("/\">" ++ label ++ "</a>\n")] ++ rest =
        "        ".toList ++ '<' :: 'a' :: ' ' :: (("class=\"".toList ++ relation.toList ++
          "\" rel=\"".toList ++ relation.toList ++ "\" href=\"".toList ++
          escape guide.baseUrl.toList ++ escape (code.getD "").toList ++ "/\">".toList ++
          label.toList) ++ '<' :: '/' :: 'a' :: '>' :: ("\n".toList ++ rest)) := by
      simp [writePieces, Piece.write, say]
    rw [hwritten, behindTag_text (by decide), behindTag_other (by simp [tagName, tagAt]),
      ← List.cons_append, ← List.cons_append, behindTag_text (by simp [hescape, hrelation, hlabel]),
      behindTag_other (by simp [tagName, tagAt])]
    change behindTag "aside" (('/' :: 'a' :: '>' :: "\n".toList) ++ rest) = _
    exact behindTag_text (by decide)
  · rfl

/-- The markup of the workspace of a page between its tags. -/
private def workspacePieces (page : PageContext) : List Piece :=
  if page.workspace.isEmpty then
    [.fixed "      <p class=\"workspace-empty\">The workspace is empty at this step.</p>\n"]
  else .fixed "      " :: outlinePieces page page.workspace ++ [.fixed "\n"]

private theorem reads_workspacePieces : Reads (workspacePieces page) [.item []]
    [.item (if page.workspace.isEmpty then [] else [.list (outlineItems page page.workspace)])] := by
  rw [workspacePieces]
  split
  · intro rest
    have hwritten : writePieces [.fixed
        "      <p class=\"workspace-empty\">The workspace is empty at this step.</p>\n"] ++ rest =
          "      ".toList ++ tagged "p class=\"workspace-empty\"".toList
            ("The workspace is empty at this step.".toList ++
              tagged "/p".toList ("\n".toList ++ rest)) := by
      simp [writePieces, Piece.write, tagged]
    rw [hwritten, readLists_text (by decide),
      readLists_tagged (by decide) rfl, readLists_text (by decide),
      readLists_tagged (by decide) rfl, readLists_text (by decide)]
  · have hspace (blank : String) (hblank : '<' ∉ blank.toList) (opened : List Open) :
        Reads [.fixed blank] opened opened := fun rest ↦ by
      rw [writePieces, List.flatMap_singleton]
      exact readLists_text hblank
    exact ((hspace "      " (by decide) _).append (reads_outlinePieces _ [] [])).append
      (hspace "\n" (by decide) _)

/-- The markup that opens the workspace of a page. -/
private def asidePiece : Piece :=
  .fixed "    <aside class=\"workspace\">\n      <h2 class=\"workspace-title\">Workspace</h2>\n"

/-- The markup behind the workspace of a page. -/
private def viewerPiece : Piece :=
  .fixed ("      <pre class=\"viewer codehilite\"><code id=\"viewer\"></code></pre>\n" ++
    "    </aside>\n  </main>\n")

private theorem pageWorkspace_eq :
    pageWorkspace page = [asidePiece] ++ workspacePieces page ++ [viewerPiece] := rfl

private theorem behindTag_asidePiece (rest : List Char) :
    behindTag "aside" (writePieces [.fixed "      </nav>\n    </article>\n"] ++
      (writePieces [asidePiece] ++ rest)) = "aside class=\"workspace\">\n      ".toList ++
        tagged "h2 class=\"workspace-title\"".toList ("Workspace".toList ++
          tagged "/h2".toList ("\n".toList ++ rest)) := by
  have hwritten : writePieces [.fixed "      </nav>\n    </article>\n"] ++
      (writePieces [asidePiece] ++ rest) = "      ".toList ++ '<' :: ("/nav>\n    ".toList ++
        '<' :: ("/article>\n    ".toList ++ '<' :: ("aside class=\"workspace\">\n      ".toList ++
        tagged "h2 class=\"workspace-title\"".toList ("Workspace".toList ++
          tagged "/h2".toList ("\n".toList ++ rest))))) := by
    simp [writePieces, Piece.write, tagged, asidePiece]
  rw [hwritten, behindTag_text (by decide), behindTag_other (by simp [tagName, tagAt]),
    behindTag_text (by decide),
    behindTag_other (by simp [tagName, tagAt]), behindTag_text (by decide)]
  simp [behindTag, tagName, tagAt]

private theorem readLists_viewerPiece (content : List Listed) (rest : List Char) :
    readLists [.item content] (writePieces [viewerPiece] ++ rest) = some [.item content] := by
  have hwritten : writePieces [viewerPiece] ++ rest = "      ".toList ++
      tagged "pre class=\"viewer codehilite\"".toList (tagged "code id=\"viewer\"".toList
        (tagged "/code".toList (tagged "/pre".toList ("\n    ".toList ++
          tagged "/aside".toList ("\n  </main>\n".toList ++ rest))))) := by
    simp [writePieces, Piece.write, tagged, viewerPiece]
  have hend (after : List Char) :
      readLists [.item content] (tagged "/aside".toList after) = some [.item content] := rfl
  rw [hwritten, readLists_text (by decide), readLists_tagged (by decide) rfl,
    readLists_tagged (by decide) rfl,
    readLists_tagged (by decide) rfl,
    readLists_tagged (by decide) rfl, readLists_text (by decide), hend]

/-- What is read beside the content of a page is the tree of its workspace. -/
theorem readOutline_page : readOutline (writePieces (pagePieces guide page)) =
    some (if page.workspace.isEmpty then [] else [.list (outlineItems page page.workspace)]) := by
  have hworkspace : Reads (workspacePieces page) _ _ := reads_workspacePieces
  rw [readOutline, navigation_page, endPieces, pageWorkspace_eq]
  simp only [writePieces_append, List.append_assoc]
  rw [behindTag_text (by decide), behindTag_neighbour (by decide) (by decide),
    behindTag_neighbour (by decide) (by decide), behindTag_asidePiece, readLists_text (by decide),
    readLists_tagged (by decide) rfl, readLists_text (by decide),
    readLists_tagged (by decide) rfl, readLists_text (by decide),
    hworkspace, readLists_viewerPiece]

theorem linksEach_append (front back : List (List Listed)) :
    linksEach (front ++ back) = linksEach front ++ linksEach back := by
  induction front with
  | nil => rfl
  | cons content front ih => simp [linksEach, ih]

private theorem linksEach_files (files : List File) :
    linksEach (files.map (fileItem page)) = (files.map (·.path)).map (fileLink page) := by
  induction files with
  | nil => rfl
  | cons file files ih => simpa [linksEach, fileItem, linksAll, Listed.links] using ih

mutual

/-- The links in the list of a directory are those to its files, those of subdirectories first. -/
theorem linksEach_outlineItems : ∀ d : Directory,
    linksEach (outlineItems page d) = (shownPaths d).map (fileLink page)
  | .node _ _ directories files => by
    rw [outlineItems, shownPaths, linksEach_append, linksEach_directoryItems directories,
      linksEach_files, List.map_append]

theorem linksEach_directoryItems : ∀ ds : List Directory,
    linksEach (directoryItems page ds) = (shownPathsOf ds).map (fileLink page)
  | [] => by rw [directoryItems, shownPathsOf]; rfl
  | d :: rest => by
    rw [directoryItems, shownPathsOf, linksEach, linksEach_directoryItems rest, List.map_append,
      ← linksEach_outlineItems d]
    simp [linksAll, Listed.links]

end

end Guidebook.Theme
