import Guidebook.Project.Repositories
import Guidebook.Project.Step

/-!
# Building a guide

A build starts from an empty export: the shared files, then one directory per step, then the landing
page. What a failed build has written stays until the next one.
-/

namespace Guidebook.Workflow

/-- Writes the landing page. -/
def writeLanding (l : Layout) (theme : Theme) (guide : GuideContext) : Workflow Path := do
  let html ← ofResult (Theme.render (← files) theme Theme.guideTemplate guide none none)
  let target := Layout.child l.exportRoot "index.html"
  makeDirectories (parent target)
  writeText target html
  return target

/-- Reports how many pages were found, and that the index lists another number of them. -/
def reportPages (l : Layout) (index : PageIndex) (count : Nat) : Workflow Unit := do
  log .info "codasai.build"
    ("found " ++ toString count ++ " pages in the history of " ++ l.root.toString)
  if count != index.size then
    log .warning "codasai.build"
      ("history has " ++ toString count ++ " pages but the index lists " ++ toString index.size)

/-- Builds a guide from a history and gives the paths written, in order. -/
def buildFrom {Tree Blob : Type} (repository : Git.Repository (Except Failure) Tree Blob)
    (l : Layout) (settings : Settings) : Workflow (List Path) := do
  let theme ← themeOf l
  let index ← loadIndex l.index
  clearDirectory l.exportRoot
  let shared ← writePublic l settings
  let pages ← ofResult (Sequence.pages repository l.pagesDir settings.extension)
  reportPages l index pages.length
  let steps ← exportSteps ⟨repository, l, settings, index, theme⟩ pages
  let landing ← writeLanding l theme (guideContext settings index)
  return shared ++ steps ++ [landing]

/-- Builds a guide from the history of its repository. -/
def build (l : Layout) (settings : Settings) : Workflow (List Path) := do
  buildFrom (← history l.root) l settings

end Guidebook.Workflow
