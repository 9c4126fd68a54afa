import Guidebook.Text.Utf8

/-!
# Static files of the theme

The style sheet and the script that come with every guide.
-/

namespace Guidebook.Theme

/-- The style sheet, line by line. -/
def styleLines : List String :=
  [":root \x7b",
    "  --bg: #1e1f1c;",
    "  --fg: #e6e6e0;",
    "  --muted: #9a9a90;",
    "  --accent: #a6e22e;",
    "  --panel: #272822;",
    "  --border: #3a3b35;",
    "\x7d",
    "",
    "* \x7b",
    "  box-sizing: border-box;",
    "\x7d",
    "",
    "body \x7b",
    "  margin: 0;",
    "  background: var(--bg);",
    "  color: var(--fg);",
    "  font-family: system-ui, -apple-system, \"Segoe UI\", sans-serif;",
    "  line-height: 1.6;",
    "\x7d",
    "",
    "a \x7b",
    "  color: var(--accent);",
    "\x7d",
    "",
    ".guide-header \x7b",
    "  display: flex;",
    "  justify-content: space-between;",
    "  align-items: baseline;",
    "  padding: 0.75rem 1.5rem;",
    "  border-bottom: 1px solid var(--border);",
    "\x7d",
    "",
    ".guide-title \x7b",
    "  font-weight: 600;",
    "  text-decoration: none;",
    "\x7d",
    "",
    ".step-number \x7b",
    "  color: var(--muted);",
    "\x7d",
    "",
    ".guide-layout \x7b",
    "  display: grid;",
    "  grid-template-columns: minmax(0, 1fr) minmax(0, 1fr);",
    "  gap: 1.5rem;",
    "  padding: 1.5rem;",
    "\x7d",
    "",
    ".guide-index \x7b",
    "  max-width: 48rem;",
    "  margin: 0 auto;",
    "  padding: 1.5rem;",
    "\x7d",
    "",
    ".page-content pre,",
    ".viewer \x7b",
    "  overflow-x: auto;",
    "  padding: 0.75rem;",
    "  background: var(--panel);",
    "  border: 1px solid var(--border);",
    "  border-radius: 4px;",
    "\x7d",
    "",
    ".page-nav \x7b",
    "  display: flex;",
    "  justify-content: space-between;",
    "  margin-top: 2rem;",
    "\x7d",
    "",
    ".page-nav .next \x7b",
    "  margin-left: auto;",
    "\x7d",
    "",
    ".workspace \x7b",
    "  position: sticky;",
    "  top: 0;",
    "  align-self: start;",
    "  max-height: 100vh;",
    "  overflow-y: auto;",
    "\x7d",
    "",
    ".outline \x7b",
    "  list-style: none;",
    "  margin: 0;",
    "  padding-left: 1rem;",
    "\x7d",
    "",
    ".outline-file a.active \x7b",
    "  font-weight: 600;",
    "\x7d",
    "",
    ".workspace-empty \x7b",
    "  color: var(--muted);",
    "\x7d",
    "",
    "@media (max-width: 60rem) \x7b",
    "  .guide-layout \x7b",
    "    grid-template-columns: 1fr;",
    "  \x7d",
    "",
    "  .workspace \x7b",
    "    position: static;",
    "    max-height: none;",
    "  \x7d",
    "\x7d"]

/-- The script, line by line. It shows the companion of a workspace file beside the page. -/
def scriptLines : List String :=
  ["// Load highlighted workspace files into the viewer next to the page.",
    "function openFile(link, viewer) \x7b",
    "  fetch(link.dataset.companion)",
    "    .then((response) => \x7b",
    "      if (!response.ok) \x7b",
    "        throw new Error(`failed to load $\x7blink.dataset.companion\x7d`);",
    "      \x7d",
    "      return response.text();",
    "    \x7d)",
    "    .then((html) => \x7b",
    "      viewer.innerHTML = html;",
    "      document",
    "        .querySelectorAll(\".outline-file a.active\")",
    "        .forEach((active) => active.classList.remove(\"active\"));",
    "      link.classList.add(\"active\");",
    "    \x7d)",
    "    .catch((error) => \x7b",
    "      viewer.textContent = error.message;",
    "    \x7d);",
    "\x7d",
    "",
    "function main() \x7b",
    "  const viewer = document.getElementById(\"viewer\");",
    "  if (!viewer) \x7b",
    "    return;",
    "  \x7d",
    "  const links = document.querySelectorAll(\".outline-file a[data-companion]\");",
    "  links.forEach((link) => \x7b",
    "    link.addEventListener(\"click\", (event) => \x7b",
    "      event.preventDefault();",
    "      openFile(link, viewer);",
    "    \x7d);",
    "  \x7d);",
    "  if (links.length > 0) \x7b",
    "    openFile(links[0], viewer);",
    "  \x7d",
    "\x7d",
    "",
    "main();"]

/-- A file of lines. -/
def fileOf (lines : List String) : List UInt8 :=
  Utf8.ofString (String.ofList (lines.flatMap fun line ↦ line.toList ++ ['\n']))

/-- The static files by their names, in order. -/
def staticFiles : List (List String × List UInt8) :=
  [(["main.js"], fileOf scriptLines), (["style.css"], fileOf styleLines)]

end Guidebook.Theme
