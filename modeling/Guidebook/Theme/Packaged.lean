import Guidebook.Theme.Context
import Guidebook.Theme.Markup

/-!
# The packaged theme

The page and the landing page of guides that bring no theme of their own. A page shows its content,
links to its neighbours and the outline of its workspace, each file with its companion.
-/

namespace Guidebook.Theme

open Outline (Directory File)

/-- Text of the guide. -/
def say (text : String) : Piece := .shown text.toList

/-- The address of a workspace file. -/
def fileUrl (page : PageContext) (file : File) : List Char :=
  page.url.toList ++ "workspace/".toList ++ urlencode file.path.toList

/-- A file of the outline: a link to it, with the address of its companion. -/
def filePieces (page : PageContext) (file : File) : List Piece :=
  [.fixed "  <li class=\"outline-file\">\n    <a href=\"", .shown (fileUrl page file),
    .fixed "\" data-companion=\"", .shown (fileUrl page file ++ ".html".toList), .fixed "\">",
    say file.name, .fixed "</a>\n  </li>\n"]

mutual

/-- The outline of a directory: the directories in it, each with its own outline, and the files. -/
def outlinePieces (page : PageContext) : Directory → List Piece
  | .node _ _ directories files =>
    .fixed "<ul class=\"outline\">\n" :: directoryPieces page directories ++
      files.flatMap (filePieces page) ++ [.fixed "</ul>\n"]

/-- Directories of an outline. -/
def directoryPieces (page : PageContext) : List Directory → List Piece
  | [] => []
  | directory :: rest =>
    [.fixed "  <li class=\"outline-dir\">\n    <details open>\n      <summary>",
      say directory.name, .fixed "</summary>\n      "] ++ outlinePieces page directory ++
      .fixed "\n    </details>\n  </li>\n" :: directoryPieces page rest

end

/-- The head of a document up to its title. -/
def headMarkup : String :=
  "<!DOCTYPE html>\n<html lang=\"en\">\n<head>\n  <meta charset=\"utf-8\">\n" ++
    "  <meta name=\"viewport\" content=\"width=device-width, initial-scale=1\">\n  <title>"

/-- The head of a page. -/
def pageHead (guide : GuideContext) (page : PageContext) : List Piece :=
  [.fixed headMarkup, say page.title, .fixed " | ", say guide.title,
    .fixed "</title>\n  <link rel=\"stylesheet\" href=\"", say guide.baseUrl,
    .fixed "public/theme/style.css\">\n  <link rel=\"stylesheet\" href=\"", say guide.baseUrl,
    .fixed "public/theme/syntax/", say guide.style, .fixed ".css\">\n</head>\n"]

/-- The bar above a page. -/
def pageBar (guide : GuideContext) (page : PageContext) : List Piece :=
  [.fixed "<body data-step=\"", say (toString page.number), .fixed "\" data-code=\"",
    say page.code,
    .fixed "\">\n  <header class=\"guide-header\">\n    <a class=\"guide-title\" href=\"",
    say guide.baseUrl, .fixed "\">", say guide.title,
    .fixed "</a>\n    <span class=\"step-number\">Step ", say (toString (page.number + 1)),
    .fixed "</span>\n  </header>\n"]

/-- A link to a neighbour of a page; none if there is no code to link to. -/
def neighbour (guide : GuideContext) (relation label : String) (code : Option String) :
    List Piece :=
  match code with
  | none | some "" => []
  | some code =>
    [.fixed ("        <a class=\"" ++ relation ++ "\" rel=\"" ++ relation ++ "\" href=\""),
      say guide.baseUrl, say code, .fixed ("/\">" ++ label ++ "</a>\n")]

/-- The content of a page and the links to its neighbours. -/
def pageArticle (guide : GuideContext) (page : PageContext) : List Piece :=
  [.fixed "  <main class=\"guide-layout\">\n    <article class=\"page-content\">\n      ",
    .trusted page.content, .fixed "\n      <nav class=\"page-nav\">\n"] ++
    neighbour guide "prev" "Previous" page.previous ++ neighbour guide "next" "Next" page.next ++
    [.fixed "      </nav>\n    </article>\n"]

/-- The workspace beside a page. -/
def pageWorkspace (page : PageContext) : List Piece :=
  .fixed "    <aside class=\"workspace\">\n      <h2 class=\"workspace-title\">Workspace</h2>\n" ::
    (if page.workspace.isEmpty then
      [.fixed "      <p class=\"workspace-empty\">The workspace is empty at this step.</p>\n"]
    else .fixed "      " :: outlinePieces page page.workspace ++ [.fixed "\n"]) ++
    [.fixed ("      <pre class=\"viewer codehilite\"><code id=\"viewer\"></code></pre>\n" ++
      "    </aside>\n  </main>\n")]

/-- A page. -/
def pagePieces (guide : GuideContext) (page : PageContext) : List Piece :=
  pageHead guide page ++ pageBar guide page ++ pageArticle guide page ++ pageWorkspace page ++
    [.fixed "  <script src=\"", say guide.baseUrl,
      .fixed "public/theme/main.js\"></script>\n</body>\n</html>"]

/-- A page of the guide in the landing page's list. -/
def entryPieces (guide : GuideContext) (entry : IndexEntry) : List Piece :=
  [.fixed "      <li><a href=\"", say guide.baseUrl, say entry.code, .fixed "/\">", say entry.name,
    .fixed "</a></li>\n"]

/-- The list of the guide's pages. -/
def listPieces (guide : GuideContext) : List Piece :=
  if guide.index.isEmpty then
    [.fixed "    <p class=\"page-list-empty\">No pages have been saved yet.</p>\n"]
  else
    .fixed "    <ol class=\"page-list\">\n" :: guide.index.flatMap (entryPieces guide) ++
      [.fixed "    </ol>\n"]

/-- The landing page. -/
def landingPieces (guide : GuideContext) : List Piece :=
  [.fixed headMarkup, say guide.title, .fixed "</title>\n  <link rel=\"stylesheet\" href=\"",
    say guide.baseUrl,
    .fixed ("public/theme/style.css\">\n</head>\n<body>\n  <header class=\"guide-header\">\n" ++
      "    <span class=\"guide-title\">"),
    say guide.title,
    .fixed "</span>\n  </header>\n  <main class=\"guide-index\">\n    <h1>", say guide.title,
    .fixed "</h1>\n"] ++ listPieces guide ++ [.fixed "  </main>\n</body>\n</html>"]

end Guidebook.Theme
