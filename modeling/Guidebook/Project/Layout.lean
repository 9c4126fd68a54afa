import Guidebook.Files

/-!
# The layout of a project

Where the parts of a project lie. A project is the directory that holds the metadata directory;
its pages and its workspace are set by the guide, everything else has a fixed name.
-/

namespace Guidebook

namespace Layout

/-- The metadata directory. -/
def metaDir : String := ".codasai"

/-- The settings file. -/
def settingsFile : String := "guide.toml"

/-- The index file. -/
def indexFile : String := "index.toml"

/-- The export directory. -/
def exportDir : String := "export"

/-- The directory of a project's own theme. -/
def themeDir : String := "theme"

/-- The pages directory unless the guide sets another. -/
def defaultPagesDir : String := "pages"

/-- The workspace directory unless the guide sets another. -/
def defaultWorkspaceDir : String := "workspace"

/-- The directory of the author's shared files. -/
def staticDir : String := "static"

end Layout

/-- The places of a project. The two directory names are relative to the root. -/
structure Layout where
  root : Path
  pagesDir : String
  workspaceDir : String
  deriving Repr, DecidableEq

namespace Layout

/-- The layout of a project with nothing set. -/
def ofRoot (root : Path) : Layout := ⟨root, defaultPagesDir, defaultWorkspaceDir⟩

/-- A path of one more component. -/
def child (path : Path) (name : String) : Path := path.join (Path.ofNames [name])

/-- The metadata directory of the project. -/
def metadata (l : Layout) : Path := child l.root metaDir

/-- The pages of the project. -/
def pages (l : Layout) : Path := l.root.join (Path.ofString l.pagesDir)

/-- The workspace of the project. -/
def workspace (l : Layout) : Path := l.root.join (Path.ofString l.workspaceDir)

/-- The author's shared files. -/
def userStatic (l : Layout) : Path := child l.root staticDir

/-- The project's own theme. -/
def ownTheme (l : Layout) : Path := child l.metadata themeDir

/-- The export of the project. -/
def exportRoot (l : Layout) : Path := child l.metadata exportDir

/-- The shared files in the export. -/
def exportPublic (l : Layout) : Path := child l.exportRoot Page.publicDir

/-- The preview in the export. -/
def exportPreview (l : Layout) : Path := child l.exportRoot Page.previewDir

/-- The settings file of the project. -/
def settings (l : Layout) : Path := child l.metadata settingsFile

/-- The index file of the project. -/
def index (l : Layout) : Path := child l.metadata indexFile

end Layout

end Guidebook
