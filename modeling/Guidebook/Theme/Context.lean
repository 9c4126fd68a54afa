import Guidebook.Index
import Guidebook.Outline.Basic

/-!
# What a theme shows

The guide as a whole, and one page of it. Both are given to every template of a page; the landing
page sees the guide alone.
-/

namespace Guidebook

/-- A guide as templates see it. -/
structure GuideContext where
  title : String
  baseUrl : String
  style : String
  index : List IndexEntry
  deriving Repr

/-- A page as templates see it. -/
structure PageContext where
  number : Int
  title : String
  code : String
  /-- The HTML of the page. -/
  content : List Char
  workspace : Outline.Directory
  url : String
  previous : Option String
  next : Option String
  deriving Repr

end Guidebook
