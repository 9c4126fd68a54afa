import Guidebook.Project.Build
import Guidebook.Project.Preview
import Guidebook.Project.Save
import Guidebook.Project.Scaffold

/-!
# The command line

Four commands: one starts a project, one saves the page that is being written, one shows it, one
builds the guide. Every command but the first finds its project from a directory upwards. What was
written goes to the output, reports and complaints go to the error output.
-/

namespace Guidebook.Cli

/-- What is to be done. -/
inductive Action where
  | init (title path : String)
  | build (project : String)
  | save (project : String)
  | preview (project : String)
  deriving Repr, DecidableEq

/-- A command with the level from which on reports are shown. -/
structure Invocation where
  action : Action
  level : String
  deriving Repr, DecidableEq

/-- Words of a command line: plain ones, and options with their values. -/
structure Words where
  plain : List String
  options : List (String × String)
  deriving Repr, DecidableEq

/-- Options that have no value. -/
def flags : List String := ["--no-serve", "--no-open"]

/-- Sorts words into plain ones and options. A value stands behind its option, as a word of its own
or after an equals sign. -/
def sortWords : List String → Words
  | [] => ⟨[], []⟩
  | word :: rest =>
    let (name, joined, value) := Text.partitionAt '=' word.toList
    let name := String.ofList name
    if !Text.startsWith ['-', '-'] word.toList then
      let words := sortWords rest
      { words with plain := word :: words.plain }
    else if flags.contains name then sortWords rest
    else if joined then
      let words := sortWords rest
      { words with options := (name, String.ofList value) :: words.options }
    else match rest with
      | [] => ⟨[], [(name, "")]⟩
      | value :: rest =>
        let words := sortWords rest
        { words with options := (name, value) :: words.options }

/-- The value of an option, or its default. -/
def Words.option (w : Words) (name fallback : String) : String :=
  (w.options.lookup name).getD fallback

/-- Reads a command line; there is nothing to do if no command is named. -/
def parse (words : List String) : Option Invocation :=
  let w := sortWords words
  let project := w.option "--project" "."
  let action := match w.plain with
    | "init" :: title :: _ => some (Action.init title (w.option "--path" "."))
    | ["init"] =>
      (w.options.lookup "--title").map fun title ↦ Action.init title (w.option "--path" ".")
    | "build" :: _ => some (.build project)
    | "save" :: _ => some (.save project)
    | "preview" :: _ => some (.preview project)
    | _ => none
  action.map fun action ↦ ⟨action, w.option "--log-level" "INFO"⟩

/-- Lines about written paths, seen from a directory. -/
def writtenLines (cwd : Path) (paths : List Path) : List String :=
  paths.map fun path ↦ "wrote " ++ path.shownFrom cwd

/-- Runs a command in a directory and gives the lines of its output. -/
def perform (cwd : Path) : Action → Workflow (List String)
  | .init title path => do
    let l ← Workflow.initProject title (cwd.join (Path.ofString path))
    return writtenLines cwd [l.settings, l.index]
  | .build project => do
    let (l, settings) ← Workflow.loadProject (cwd.join (Path.ofString project))
    return writtenLines cwd (← Workflow.build l settings)
  | .save project => do
    let (l, settings) ← Workflow.loadProject (cwd.join (Path.ofString project))
    let entry ← Workflow.save l settings
    return ["saved page '" ++ entry.code ++ "': " ++ entry.name]
  | .preview project => do
    let (l, settings) ← Workflow.loadProject (cwd.join (Path.ofString project))
    return writtenLines cwd (← Workflow.preview l settings)

/-- Whether a failure is reported in one line. Any other is a fault of the program. -/
def isReported : Failure → Bool
  | .fields .. | .emptyPath | .notText _ | .toml _ | .notBelow .. | .unknownLevel _ => false
  | .broken .. | .notTree _ | .nullByte | .outline .nothingOpen | .outline .noParent => false
  | .file problem _ => problem == .missing
  | _ => true

/-- What a command leaves: its exit status and the lines of its outputs. -/
structure Outcome where
  exit : Nat
  output : List String
  errors : List String
  deriving Repr, DecidableEq

/-- The reports that reach a threshold, as lines. -/
def reportLines (threshold : Nat) (logs : List LogRecord) : List String :=
  (logs.filter fun r ↦ threshold ≤ r.level.rank).map LogRecord.line

/-- Runs a command in a directory. Failures that are not reported stay failures. -/
def run (cwd : Path) (invocation : Invocation) (s : State) : Except Failure Outcome × State :=
  match logThreshold invocation.level with
  | .error failure => (.error failure, s)
  | .ok threshold =>
    let (result, after) := (perform cwd invocation.action).run.run s
    let reports := reportLines threshold (after.logs.drop s.logs.length)
    match result with
    | .ok lines => (.ok ⟨0, lines, reports⟩, after)
    | .error failure =>
      if isReported failure then
        (.ok ⟨1, [], reports ++ ["error: " ++ failure.message]⟩, after)
      else (.error failure, after)

end Guidebook.Cli
