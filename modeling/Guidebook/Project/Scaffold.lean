import Guidebook.Project.Repositories

/-!
# Starting a project

A new project has a repository, settings, an empty index, an ignore file for the export, and empty
directories for pages and the workspace. What exists already is kept, but for the settings, which
are written anew.
-/

namespace Guidebook.Workflow

/-- Writes text to a file that does not exist yet. -/
def writeMissing (path : Path) (text : List Char) : Workflow Unit := do
  if (← files).present path then return () else writeText path text

/-- Makes a project with a title and gives its layout. -/
def initProject (title : String) (dir : Path) : Workflow Layout := do
  makeDirectories dir
  let l := Layout.ofRoot dir.normalize
  (changes l.root).init
  writeSettings l.settings title
  if (← files).present l.index then pure () else saveIndex l.index PageIndex.empty
  writeMissing (Layout.child l.metadata ".gitignore") (Layout.exportDir ++ "/\n").toList
  makeDirectories l.pages
  makeDirectories l.workspace
  return l

end Guidebook.Workflow
