import Mathlib.Data.List.Infix
import Guidebook.Proofs.Outline.Paths
import Guidebook.Proofs.Text.Split
import Guidebook.Proofs.Theme.Address
import Guidebook.Proofs.Theme.Shape

/-!
# Links of the packaged theme

The links that the packaged theme writes are found in the markup again, with the texts of their
attributes. The texts of a guide do not look like tags. The content of a page may hold any, and
stands before the links to its neighbours.
-/

namespace Guidebook.Theme

open Outline

/-! ## Tags -/

/-- How a link starts. -/
def anchorMarker : List Char := ['<', 'a', ' ']

/-- How the links of a page to its neighbours start. -/
def navigationMarker : List Char := ['<', 'n', 'a', 'v', ' ']

/-- The name before the value of an attribute. -/
def attributeName (text : List Char) : String :=
  String.ofList (text.filter fun c ↦ c != ' ' && c != '=')

/-- Names and values in turn. -/
def pairAttributes : List (List Char) → List (String × List Char)
  | name :: value :: rest => (attributeName name, attributeText value) :: pairAttributes rest
  | _ => []

/-- The attributes in a tag, each with its text. -/
def attributesOf (tag : List Char) : List (String × List Char) :=
  pairAttributes (Text.splitOnChar '"' tag)

/-- The attributes of every link in markup. -/
def anchors : List Char → List (List (String × List Char))
  | [] => []
  | c :: rest =>
    match Text.dropPrefix? anchorMarker (c :: rest) with
    | some after => attributesOf (after.takeWhile (· != '>')) :: anchors rest
    | none => anchors rest

/-- What stands behind the last occurrence of a marker. -/
def behindLast? (marker : List Char) : List Char → Option (List Char)
  | [] => none
  | c :: rest => (behindLast? marker rest).or (Text.dropPrefix? marker (c :: rest))

/-- A page from the links to its neighbours on. -/
def navigation (html : List Char) : List Char := (behindLast? navigationMarker html).getD []

/-- Whether neither marker starts in a text, also not one that goes on behind it. -/
def isClear : List Char → Bool
  | [] => true
  | c :: rest =>
    ([anchorMarker, navigationMarker].all fun marker ↦
      !marker.isPrefixOf (c :: rest) && !(c :: rest).isPrefixOf marker) && isClear rest

section Clear

variable {text : List Char}

/-- No marker is read where none starts. -/
private theorem dropPrefix?_of_clear {marker : List Char} {c : Char}
    (hmarker : marker ∈ [anchorMarker, navigationMarker]) (h : isClear (c :: text) = true)
    (rest : List Char) : Text.dropPrefix? marker (c :: (text ++ rest)) = none := by
  rw [Option.eq_none_iff_forall_ne_some]
  intro after hafter
  rw [Text.dropPrefix?_eq_some_iff] at hafter
  rw [isClear, Bool.and_eq_true, List.all_eq_true] at h
  have hapart := h.1 marker hmarker
  rw [Bool.and_eq_true, Bool.not_eq_true', Bool.not_eq_true', Bool.eq_false_iff,
    Bool.eq_false_iff, Ne, Ne, List.isPrefixOf_iff_prefix, List.isPrefixOf_iff_prefix] at hapart
  have hfront : c :: text <+: marker ++ after := ⟨rest, hafter⟩
  rcases List.prefix_or_prefix_of_prefix (List.prefix_append marker after) hfront with
    hprefix | hprefix
  · exact hapart.1 hprefix
  · exact hapart.2 hprefix

/-- There is no link in clear text. -/
theorem anchors_of_clear (h : isClear text = true) (rest : List Char) :
    anchors (text ++ rest) = anchors rest := by
  induction text with
  | nil => rfl
  | cons c text ih =>
    rw [List.cons_append, anchors, dropPrefix?_of_clear (by simp) h]
    rw [isClear, Bool.and_eq_true] at h
    exact ih h.2

theorem behindLast?_of_clear (h : isClear text = true) (rest : List Char) :
    behindLast? navigationMarker (text ++ rest) = behindLast? navigationMarker rest := by
  induction text with
  | nil => rfl
  | cons c text ih =>
    rw [List.cons_append, behindLast?, dropPrefix?_of_clear (by simp) h, Option.or_none]
    rw [isClear, Bool.and_eq_true] at h
    exact ih h.2

/-- Text without the sign that opens tags is clear. -/
theorem isClear_of_not_mem (h : '<' ∉ text) : isClear text = true := by
  induction text with
  | nil => rfl
  | cons c text ih =>
    rw [List.mem_cons, not_or] at h
    rw [isClear, ih h.2, Bool.and_true]
    simp [anchorMarker, navigationMarker, List.isPrefixOf, h.1, Ne.symm h.1]

theorem writePieces_append (front back : List Piece) :
    writePieces (front ++ back) = writePieces front ++ writePieces back :=
  List.flatMap_append ..

theorem not_mem_escape {c : Char} (hc : isMark c = true) (text : List Char) :
    c ∉ escape text := by
  intro h
  have hmarks : c ∈ marks (escape text) := List.mem_filter.mpr ⟨h, hc⟩
  rw [marks_escape] at hmarks
  cases hmarks

end Clear

theorem attributesOf_append {name value : List Char} (hname : '"' ∉ name) (hvalue : '"' ∉ value)
    (rest : List Char) :
    attributesOf (name ++ '"' :: (value ++ '"' :: rest)) =
      (attributeName name, attributeText value) :: attributesOf rest := by
  have hfree {text : List Char} (h : '"' ∉ text) : Text.splitOnChar '"' text = [text] :=
    Text.splitBy_of_forall fun c hc ↦ by simpa using ne_of_mem_of_not_mem hc h
  have hsplit (front back : List Char) : Text.splitOnChar '"' (front ++ '"' :: back) =
      Text.splitOnChar '"' front ++ Text.splitOnChar '"' back :=
    Text.splitBy_append_cons front back (by decide)
  rw [attributesOf, hsplit, hsplit, hfree hname, hfree hvalue]
  rfl

/-! ## Links in pieces -/

/-- The markup of attributes, each a name and the text of its value. -/
def tagText (attributes : List (List Char × List Char)) : List Char :=
  attributes.flatMap fun (name, text) ↦ name ++ '"' :: (escape text ++ ['"'])

section TagText

variable {attributes : List (List Char × List Char)}
  (hnames : ∀ pair ∈ attributes, marks pair.1 = [])

include hnames

private theorem not_mem_name {c : Char} (hc : isMark c = true) {pair : List Char × List Char}
    (hpair : pair ∈ attributes) : c ∉ pair.1 := fun hmem ↦ by
  have hmarks : c ∈ marks pair.1 := List.mem_filter.mpr ⟨hmem, hc⟩
  rw [hnames pair hpair] at hmarks
  cases hmarks

/-- Of all marks a tag holds quotation marks only. -/
theorem not_mem_tagText {c : Char} (hc : isMark c = true) (hquote : c ≠ '"') :
    c ∉ tagText attributes := by
  intro hmem
  obtain ⟨pair, hpair, hmem⟩ := List.mem_flatMap.mp hmem
  simp only [List.mem_append, List.mem_cons, List.not_mem_nil, or_false, hquote, false_or] at hmem
  exact hmem.elim (not_mem_name hnames hc hpair) (not_mem_escape hc _)

/-- The attributes of a tag are read back. -/
theorem attributesOf_tagText : attributesOf (tagText attributes) =
    attributes.map fun (name, text) ↦ (attributeName name, text) := by
  induction attributes with
  | nil => rfl
  | cons pair others ih =>
    rw [tagText, List.flatMap_cons, List.append_assoc, List.cons_append, List.append_assoc,
      List.singleton_append, attributesOf_append (not_mem_name hnames (by decide) List.mem_cons_self)
      (not_mem_escape (by decide) _), attributeText_escape, List.map_cons]
    exact congrArg _ (ih fun other ho ↦ hnames other (List.mem_cons_of_mem _ ho))

end TagText

/-- Pieces with these links, none of which starts a list of links. -/
structure Shows (pieces : List Piece) (links : List (List (String × List Char))) : Prop where
  anchors : ∀ rest, anchors (writePieces pieces ++ rest) = links ++ Theme.anchors rest
  noNavigation : ∀ rest, behindLast? navigationMarker (writePieces pieces ++ rest) =
    behindLast? navigationMarker rest

namespace Shows

variable {pieces others : List Piece} {links more : List (List (String × List Char))}

theorem nil : Shows [] [] := ⟨fun _ ↦ rfl, fun _ ↦ rfl⟩

theorem append (h : Shows pieces links) (h' : Shows others more) :
    Shows (pieces ++ others) (links ++ more) := by
  constructor <;> intro rest
  · rw [writePieces_append, List.append_assoc, h.anchors, h'.anchors, List.append_assoc]
  · rw [writePieces_append, List.append_assoc, h.noNavigation, h'.noNavigation]

/-- Pieces without links before others. -/
theorem before (h : Shows pieces []) (h' : Shows others more) : Shows (pieces ++ others) more :=
  h.append h'

/-- Pieces without links behind others. -/
theorem behind (h : Shows pieces links) (h' : Shows others []) : Shows (pieces ++ others) links := by
  rw [← List.append_nil links]
  exact h.append h'

theorem flatMap {α : Type} {f : α → List Piece} {link : α → List (String × List Char)}
    (h : ∀ a, Shows (f a) [link a]) (items : List α) :
    Shows (items.flatMap f) (items.map link) := by
  induction items with
  | nil => exact nil
  | cons a items ih => exact (h a).append ih

/-- Clear text has no link. -/
theorem clear {text : List Char} (hwritten : writePieces pieces = text)
    (h : isClear text = true) : Shows pieces [] := by
  constructor <;> intro rest
  · rw [hwritten, anchors_of_clear h, List.nil_append]
  · rw [hwritten, behindLast?_of_clear h]

/-- A text of the guide before other pieces. -/
theorem text {text : List Char} (h : Shows pieces links) : Shows (.shown text :: pieces) links :=
  before (clear (List.flatMap_singleton ..)
    (isClear_of_not_mem (not_mem_escape (by decide) text))) h

/-- Markup that is written as clear text, before other pieces. -/
theorem markup {markup : String} {text : List Char} (hwritten : markup = String.ofList text)
    (hclear : isClear text = true) (h : Shows pieces links) : Shows (.fixed markup :: pieces) links :=
  before (clear ((List.flatMap_singleton ..).trans (hwritten ▸ String.toList_ofList)) hclear) h

/-- A link with its attributes, between clear texts. -/
theorem link (front : List Char) (attributes : List (List Char × List Char)) (back : List Char)
    (hwritten : writePieces pieces = front ++ (anchorMarker ++ (tagText attributes ++ '>' :: back)))
    (hfront : isClear front = true) (hback : isClear back = true)
    (hnames : ∀ pair ∈ attributes, marks pair.1 = []) :
    Shows pieces [attributes.map fun (name, text) ↦ (attributeName name, text)] := by
  have hopen := not_mem_tagText hnames (by decide : isMark '<' = true) (by decide)
  have hclose := not_mem_tagText hnames (by decide : isMark '>' = true) (by decide)
  have hclear : isClear ('a' :: ' ' :: (tagText attributes ++ ['>'])) = true :=
    isClear_of_not_mem (by simpa using hopen)
  have htext (rest : List Char) : writePieces pieces ++ rest =
      front ++ ('<' :: ('a' :: ' ' :: (tagText attributes ++ ['>']) ++ (back ++ rest))) := by
    simp [hwritten, anchorMarker]
  constructor <;> intro rest
  · have hdrop : Text.dropPrefix? anchorMarker
        ('<' :: ('a' :: ' ' :: (tagText attributes ++ ['>']) ++ (back ++ rest))) =
          some (tagText attributes ++ '>' :: (back ++ rest)) :=
      Text.dropPrefix?_eq_some_iff.mpr (by simp [anchorMarker])
    have htag : (tagText attributes ++ '>' :: (back ++ rest)).takeWhile (· != '>') =
        tagText attributes := by
      rw [List.takeWhile_append_of_pos fun c hc ↦ by simpa using ne_of_mem_of_not_mem hc hclose]
      simp
    rw [htext, anchors_of_clear hfront, Theme.anchors, hdrop]
    simp only [htag, attributesOf_tagText hnames, anchors_of_clear hclear, anchors_of_clear hback,
      List.singleton_append]
  · have hdrop : Text.dropPrefix? navigationMarker
        ('<' :: ('a' :: ' ' :: (tagText attributes ++ ['>']) ++ (back ++ rest))) = none := rfl
    rw [htext, behindLast?_of_clear hfront, behindLast?, hdrop, behindLast?_of_clear hclear,
      behindLast?_of_clear hback, Option.or_none]

end Shows

/-! ## Landing pages -/

/-- The address of a page. -/
def pageAddress (guide : GuideContext) (code : String) : List Char :=
  guide.baseUrl.toList ++ code.toList ++ ['/']

variable {guide : GuideContext} {page : PageContext}

theorem escape_append (front back : List Char) :
    escape (front ++ back) = escape front ++ escape back := List.flatMap_append ..

private theorem toList_literal {s : String} {text : List Char} (h : s = String.ofList text) :
    s.toList = text :=
  h ▸ String.toList_ofList

private theorem writePieces_cons (piece : Piece) (rest : List Piece) :
    writePieces (piece :: rest) = piece.write ++ writePieces rest := rfl

private theorem shows_entryPieces (entry : IndexEntry) :
    Shows (entryPieces guide entry) [[("href", pageAddress guide entry.code)]] := by
  have hopen := toList_literal (s := "      <li><a href=\"") rfl
  have hclose := toList_literal (s := "/\">") rfl
  have hlink : Shows [.fixed "      <li><a href=\"", say guide.baseUrl, say entry.code,
      .fixed "/\">"] [[("href", pageAddress guide entry.code)]] := by
    refine .link [' ', ' ', ' ', ' ', ' ', ' ', '<', 'l', 'i', '>']
      [(['h', 'r', 'e', 'f', '='], pageAddress guide entry.code)] []
      ?_ (by decide) (by decide) (by simp; decide)
    simp [writePieces_cons, Piece.write, say, hopen, hclose, pageAddress, tagText, escape_append,
      anchorMarker]
    rfl
  exact hlink.behind (.text (.markup rfl (by decide +kernel) .nil))

private theorem shows_listPieces : Shows (listPieces guide)
    (guide.index.map fun entry ↦ [("href", pageAddress guide entry.code)]) := by
  rw [listPieces]
  split
  · next hempty =>
    rw [List.isEmpty_iff.mp hempty]
    exact .markup rfl (by decide +kernel) .nil
  · exact (Shows.markup rfl (by decide +kernel) (.flatMap shows_entryPieces _)).behind
      (.markup rfl (by decide +kernel) .nil)

private theorem shows_landingPieces : Shows (landingPieces guide)
    (guide.index.map fun entry ↦ [("href", pageAddress guide entry.code)]) := by
  refine (Shows.before ?_ shows_listPieces).behind (.markup rfl (by decide +kernel) .nil)
  exact .markup String.ofList_append.symm (by decide +kernel) <| .text <|
    .markup rfl (by decide +kernel) <| .text <|
    .markup String.ofList_append.symm (by decide +kernel) <| .text <|
    .markup rfl (by decide +kernel) <| .text <| .markup rfl (by decide +kernel) .nil

/-- The links of a landing page are those to the pages of the guide, in order. -/
theorem anchors_landing : anchors (writePieces (landingPieces guide)) =
    guide.index.map fun entry ↦ [("href", pageAddress guide entry.code)] := by
  have hshows : Shows (landingPieces guide) _ := shows_landingPieces
  have h := hshows.anchors []
  rwa [List.append_nil, anchors, List.append_nil] at h

/-! ## Pages -/

/-- The links to a neighbour: one, unless there is no code to link to. -/
def neighbourLinks (guide : GuideContext) (relation : String) (code : Option String) :
    List (List (String × List Char)) :=
  (code.toList.filter (· != "")).map fun code ↦
    [("class", relation.toList), ("rel", relation.toList), ("href", pageAddress guide code)]

private theorem shows_neighbour {relation label : String} {text : List Char} (code : Option String)
    (hrelation : escape relation.toList = relation.toList)
    (hlabel : label = String.ofList text)
    (hclear : isClear (text ++ ['<', '/', 'a', '>', '\n']) = true) :
    Shows (neighbour guide relation label code) (neighbourLinks guide relation code) := by
  rw [neighbour_eq, neighbourLinks]
  split
  · next hlink =>
    obtain ⟨code, rfl, hne⟩ := (Option.any_eq_true ..).mp hlink
    have hopen := toList_literal (s := "        <a class=\"") rfl
    have hrel := toList_literal (s := "\" rel=\"") rfl
    have hhref := toList_literal (s := "\" href=\"") rfl
    have hclose := toList_literal (s := "/\">") rfl
    have hend := toList_literal (s := "</a>\n") rfl
    have hcode : [code].filter (· != "") = [code] := by simpa using hne
    rw [Option.toList_some, hcode, List.map_singleton, Option.getD_some]
    refine .link [' ', ' ', ' ', ' ', ' ', ' ', ' ', ' ']
      [(['c', 'l', 'a', 's', 's', '='], relation.toList), ([' ', 'r', 'e', 'l', '='], relation.toList),
        ([' ', 'h', 'r', 'e', 'f', '='], pageAddress guide code)] (text ++ ['<', '/', 'a', '>', '\n'])
      ?_ (by decide) hclear (by simp; decide)
    simp [writePieces_cons, Piece.write, say, hopen, hrel, hhref, hclose, hend, pageAddress,
      tagText, escape_append, anchorMarker, hrelation, hlabel]
    rfl
  · next hlink =>
    have hnone : code.toList.filter (· != "") = [] := by
      cases code <;> simp_all [hasLink]
    rw [hnone]
    exact .nil

mutual

/-- The paths of the files of a directory in the order of the theme, subdirectories first. -/
def shownPaths : Directory → List String
  | .node _ _ directories files => shownPathsOf directories ++ files.map (·.path)

/-- The paths of the files of some directories in the order of the theme. -/
def shownPathsOf : List Directory → List String
  | [] => []
  | d :: rest => shownPaths d ++ shownPathsOf rest

end

mutual

/-- The theme shows every file of a directory. -/
theorem shownPaths_perm : ∀ d : Directory, (shownPaths d).Perm d.paths
  | .node _ _ directories files => by
    rw [shownPaths, Directory.paths]
    exact ((shownPathsOf_perm directories).append_right _).trans List.perm_append_comm

theorem shownPathsOf_perm : ∀ ds : List Directory, (shownPathsOf ds).Perm (Directory.pathsOf ds)
  | [] => by rw [shownPathsOf, Directory.pathsOf]
  | d :: rest => by
    rw [shownPathsOf, Directory.pathsOf]
    exact (shownPaths_perm d).append (shownPathsOf_perm rest)

end

/-- A directory without content shows no file. -/
theorem shownPaths_of_isEmpty {d : Directory} (h : d.isEmpty = true) : shownPaths d = [] := by
  obtain ⟨name, depth, directories, files⟩ := d
  rw [Directory.isEmpty, Bool.and_eq_true, List.isEmpty_iff, List.isEmpty_iff] at h
  obtain ⟨rfl, rfl⟩ := h
  rw [shownPaths, shownPathsOf]
  rfl

/-- The address of a workspace file of a page. -/
def fileAddress (page : PageContext) (path : String) : List Char :=
  page.url.toList ++ "workspace/".toList ++ urlencode path.toList

/-- The link to a workspace file. -/
def fileLink (page : PageContext) (path : String) : List (String × List Char) :=
  [("href", fileAddress page path), ("data-companion", fileAddress page path ++ ".html".toList)]

private theorem shows_filePieces (file : File) :
    Shows (filePieces page file) [fileLink page file.path] := by
  have hopen := toList_literal (s := "  <li class=\"outline-file\">\n    <a href=\"") rfl
  have hcompanion := toList_literal (s := "\" data-companion=\"") rfl
  have hclose := toList_literal (s := "\">") rfl
  have hlink : Shows [.fixed "  <li class=\"outline-file\">\n    <a href=\"",
      .shown (fileUrl page file), .fixed "\" data-companion=\"",
      .shown (fileUrl page file ++ ".html".toList), .fixed "\">"] [fileLink page file.path] := by
    refine .link [' ', ' ', '<', 'l', 'i', ' ', 'c', 'l', 'a', 's', 's', '=', '"', 'o', 'u', 't', 'l',
        'i', 'n', 'e', '-', 'f', 'i', 'l', 'e', '"', '>', '\n', ' ', ' ', ' ', ' ']
      [(['h', 'r', 'e', 'f', '='], fileAddress page file.path),
        ([' ', 'd', 'a', 't', 'a', '-', 'c', 'o', 'm', 'p', 'a', 'n', 'i', 'o', 'n', '='],
          fileAddress page file.path ++ ".html".toList)] [] ?_ (by decide) (by decide)
      (by simp; decide)
    simp [writePieces_cons, Piece.write, hopen, hcompanion, hclose, tagText, anchorMarker, fileUrl,
      fileAddress]
    rfl
  exact hlink.behind (.text (.markup rfl (by decide +kernel) .nil))

mutual

/-- The links of an outline are those to its files. -/
private theorem shows_outlinePieces : ∀ d : Directory,
    Shows (outlinePieces page d) ((shownPaths d).map (fileLink page))
  | .node _ _ directories files => by
    rw [outlinePieces, shownPaths, List.map_append, List.map_map]
    refine ((Shows.markup rfl (by decide +kernel) (shows_directoryPieces directories)).append
      (.flatMap shows_filePieces files)).behind (.markup rfl (by decide +kernel) .nil)

private theorem shows_directoryPieces : ∀ ds : List Directory,
    Shows (directoryPieces page ds) ((shownPathsOf ds).map (fileLink page))
  | [] => by
    rw [directoryPieces, shownPathsOf]
    exact .nil
  | d :: rest => by
    rw [directoryPieces, shownPathsOf, List.map_append]
    refine Shows.append (Shows.before ?_ (shows_outlinePieces d))
      (.markup rfl (by decide +kernel) (shows_directoryPieces rest))
    exact .markup rfl (by decide +kernel) <| .text <| .markup rfl (by decide +kernel) .nil

end

private theorem shows_pageWorkspace :
    Shows (pageWorkspace page) ((shownPaths page.workspace).map (fileLink page)) := by
  rw [pageWorkspace]
  refine (Shows.markup rfl (by decide +kernel) ?_).behind
    (.markup String.ofList_append.symm (by decide +kernel) .nil)
  split
  · next hempty =>
    rw [shownPaths_of_isEmpty hempty]
    exact .markup rfl (by decide +kernel) .nil
  · exact (Shows.markup rfl (by decide +kernel) (shows_outlinePieces _)).behind
      (.markup rfl (by decide +kernel) .nil)

/-- The last occurrence of the marker is the one behind which there is no other. -/
private theorem navigation_append {rest : List Char}
    (h : behindLast? navigationMarker rest = none) (front : List Char) :
    navigation (front ++ (navigationMarker ++ rest)) = rest := by
  suffices behindLast? navigationMarker (front ++ (navigationMarker ++ rest)) = some rest by
    rw [navigation, this, Option.getD_some]
  induction front with
  | nil =>
    have hdrop : Text.dropPrefix? navigationMarker ('<' :: (['n', 'a', 'v', ' '] ++ rest)) =
        some rest := Text.dropPrefix?_eq_some_iff.mpr rfl
    have hinner := behindLast?_of_clear (isClear_of_not_mem (by decide) :
      isClear ['n', 'a', 'v', ' '] = true) rest
    rw [List.nil_append, navigationMarker, List.cons_append, ← navigationMarker, behindLast?, hdrop,
      hinner, h, Option.none_or]
  | cons c front ih => rw [List.cons_append, behindLast?, ih, Option.some_or]

/-- The pieces of a page behind its content and what opens the list of its links. -/
def endPieces (guide : GuideContext) (page : PageContext) : List Piece :=
  neighbour guide "prev" "Previous" page.previous ++ neighbour guide "next" "Next" page.next ++
    [.fixed "      </nav>\n    </article>\n"] ++ pageWorkspace page ++
    [.fixed "  <script src=\"", say guide.baseUrl,
      .fixed "public/theme/main.js\"></script>\n</body>\n</html>"]

private theorem shows_endPieces : Shows (endPieces guide page)
    (neighbourLinks guide "prev" page.previous ++ neighbourLinks guide "next" page.next ++
      (shownPaths page.workspace).map (fileLink page)) := by
  refine (Shows.append (Shows.behind (.append ?_ ?_) ?_) shows_pageWorkspace).behind ?_
  · exact shows_neighbour _ (by decide) rfl (by decide)
  · exact shows_neighbour _ (by decide) rfl (by decide)
  · exact .markup rfl (by decide +kernel) .nil
  · exact .markup rfl (by decide +kernel) (.text (.markup rfl (by decide +kernel) .nil))

/-- Behind its content a page goes on with the links to its neighbours. -/
theorem navigation_page : navigation (writePieces (pagePieces guide page)) =
    "class=\"page-nav\">\n".toList ++ writePieces (endPieces guide page) := by
  have hopen := toList_literal (s := "\n      <nav class=\"page-nav\">\n") rfl
  have htag := toList_literal (s := "class=\"page-nav\">\n") rfl
  have hwritten : writePieces (pagePieces guide page) =
      (writePieces (pageHead guide page ++ pageBar guide page ++
        [.fixed "  <main class=\"guide-layout\">\n    <article class=\"page-content\">\n      ",
          .trusted page.content]) ++ ['\n', ' ', ' ', ' ', ' ', ' ', ' ']) ++
        (navigationMarker ++ ("class=\"page-nav\">\n".toList ++ writePieces (endPieces guide page))) := by
    have hnil : writePieces [] = [] := rfl
    simp [pagePieces, pageArticle, endPieces, writePieces_append, writePieces_cons, Piece.write,
      hopen, htag, navigationMarker, hnil]
  have hend : Shows (endPieces guide page) _ := shows_endPieces
  have hnone := hend.noNavigation []
  rw [List.append_nil] at hnone
  rw [hwritten, navigation_append ((behindLast?_of_clear (by decide +kernel) _).trans hnone)]

/-- The links of a page are, behind its content, those to its neighbours and those to the files of
its workspace. -/
theorem anchors_page : anchors (navigation (writePieces (pagePieces guide page))) =
    neighbourLinks guide "prev" page.previous ++ neighbourLinks guide "next" page.next ++
      (shownPaths page.workspace).map (fileLink page) := by
  have hend : Shows (endPieces guide page) _ := shows_endPieces
  have hlinks := hend.anchors []
  rw [List.append_nil] at hlinks
  rw [navigation_page, anchors_of_clear (by decide +kernel), hlinks, anchors, List.append_nil]

end Guidebook.Theme
