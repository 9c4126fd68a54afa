import Guidebook.Cli
import Guidebook.Code.Companion
import Guidebook.Code.Display
import Guidebook.Failure
import Guidebook.Files
import Guidebook.Git.Client
import Guidebook.Git.Command
import Guidebook.Git.History
import Guidebook.Git.Ignore
import Guidebook.Git.Listing
import Guidebook.Git.Pathspec
import Guidebook.Git.Recorded
import Guidebook.Git.Repository
import Guidebook.Git.Store
import Guidebook.Git.Stream
import Guidebook.Git.WorkTree
import Guidebook.Html.Clean
import Guidebook.Html.Host
import Guidebook.Html.Names
import Guidebook.Html.Node
import Guidebook.Html.Open
import Guidebook.Html.Punycode
import Guidebook.Html.Reference
import Guidebook.Html.Style
import Guidebook.Html.Token
import Guidebook.Html.Tree
import Guidebook.Html.Url
import Guidebook.Index
import Guidebook.Log
import Guidebook.Main
import Guidebook.Markdown.Block
import Guidebook.Markdown.CodeBlock
import Guidebook.Markdown.Element
import Guidebook.Markdown.Emphasis
import Guidebook.Markdown.Source
import Guidebook.Markdown.HtmlPiece
import Guidebook.Markdown.Inline
import Guidebook.Markdown.Link
import Guidebook.Markdown.RawHtml
import Guidebook.Markdown.Render
import Guidebook.Markdown.Table
import Guidebook.Markdown.Write
import Guidebook.Outline.Basic
import Guidebook.Outline.Builder
import Guidebook.Outline.Listing
import Guidebook.Page
import Guidebook.Page.Content
import Guidebook.Page.Title
import Guidebook.Path
import Guidebook.Project.Build
import Guidebook.Project.Export
import Guidebook.Project.Layout
import Guidebook.Project.Load
import Guidebook.Project.Preview
import Guidebook.Project.Repositories
import Guidebook.Project.Save
import Guidebook.Project.Scaffold
import Guidebook.Project.State
import Guidebook.Project.Step
import Guidebook.Project.Unsaved
import Guidebook.Proofs.Git.Client
import Guidebook.Proofs.Git.Listing
import Guidebook.Proofs.Outline.Replay
import Guidebook.Proofs.Text.Split
import Guidebook.Proofs.Text.Utf8
import Guidebook.Sequence
import Guidebook.Settings
import Guidebook.Template.Arguments
import Guidebook.Template.Check
import Guidebook.Template.Evaluate
import Guidebook.Template.Filter
import Guidebook.Template.Format
import Guidebook.Template.ItemFilter
import Guidebook.Template.ItemMethod
import Guidebook.Template.Json
import Guidebook.Template.Links
import Guidebook.Template.Mention
import Guidebook.Template.Operate
import Guidebook.Template.Pretty
import Guidebook.Template.Problem
import Guidebook.Template.Read
import Guidebook.Template.Scan
import Guidebook.Template.Scene
import Guidebook.Template.Sort
import Guidebook.Template.Statement
import Guidebook.Template.TextFilter
import Guidebook.Template.TextMethod
import Guidebook.Template.Value
import Guidebook.Text.Case
import Guidebook.Text.Chars
import Guidebook.Text.Decimal
import Guidebook.Text.Direction
import Guidebook.Text.Marks
import Guidebook.Text.Names
import Guidebook.Text.Number
import Guidebook.Text.Pattern
import Guidebook.Text.Quoted
import Guidebook.Text.Ranges
import Guidebook.Text.Search
import Guidebook.Text.Utf8
import Guidebook.Text.Wrap
import Guidebook.Theme.Context
import Guidebook.Theme.Markup
import Guidebook.Theme.Packaged
import Guidebook.Theme.Render
import Guidebook.Theme.Static
import Guidebook.Toml.Insert
import Guidebook.Toml.Reader
import Guidebook.Toml.Scan
import Guidebook.Toml.Value
import Guidebook.Toml.Writer
import Guidebook.Proofs.Result
import Guidebook.Proofs.Sequence
import Guidebook.Proofs.Index.Blocks
import Guidebook.Proofs.Index
import Guidebook.Proofs.Toml
import Guidebook.Proofs.Files
import Guidebook.Proofs.Project.Workflow
import Guidebook.Proofs.Git.Snapshot
import Guidebook.Proofs.Git.WorkTree
import Guidebook.Proofs.Project.Repositories
import Guidebook.Proofs.Project.Outage
import Guidebook.Proofs.Project.Save
import Guidebook.Proofs.Project.Saved
import Guidebook.Proofs.Git.Store
import Guidebook.Proofs.Outline.Calls
import Guidebook.Proofs.Outline.Listed
import Guidebook.Proofs.Outline.Paths
import Guidebook.Proofs.Outline.Placement
import Guidebook.Proofs.Git.Pages
import Guidebook.Proofs.Project.Export
import Guidebook.Proofs.Project.Scaffold
import Guidebook.Proofs.Project.Alignment
import Guidebook.Proofs.Git.Trees
import Guidebook.Proofs.Project.Step
import Guidebook.Proofs.Project.Frame
import Guidebook.Proofs.Project.Stages
import Guidebook.Proofs.Project.Confined
import Guidebook.Proofs.Project.Links
import Guidebook.Proofs.Html.References
import Guidebook.Proofs.Code.Companion
import Guidebook.Proofs.Project.Mirror
import Guidebook.Proofs.Project.Content
import Guidebook.Proofs.Project.Rebuild
import Guidebook.Proofs.Text.Newlines
import Guidebook.Proofs.Markdown.Source
import Guidebook.Proofs.Project.Preview
import Guidebook.Proofs.Project.Registry
import Guidebook.Proofs.Project.Leftovers
import Guidebook.Proofs.Project.Growth
import Guidebook.Proofs.Project.Carried
import Guidebook.Proofs.Theme.Shape
import Guidebook.Proofs.Theme.Anchors
import Guidebook.Proofs.Theme.Nested
import Guidebook.Proofs.Project.Addresses
import Guidebook.Proofs.Project.Outlines
import Guidebook.Proofs.Page.Title
import Guidebook.Proofs.Project.Failed
import Guidebook.Proofs.Project.Footprint
import Guidebook.Proofs.Project.Acceptance
import Guidebook.Proofs.Project.TextGate
import Guidebook.Proofs.Settings
import Guidebook.Proofs.Project.SettingsFile
import Guidebook.Proofs.Project.Initialised
import Guidebook.Proofs.Page.Embedding
import Guidebook.Proofs.Markdown.Fences
import Guidebook.Proofs.Markdown.FenceBlocks
import Guidebook.Proofs.Git.Added
import Guidebook.Proofs.Settings.Normal
