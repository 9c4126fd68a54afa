import Guidebook.Text.Chars

/-!
# Ignore rules

Lines of an ignore file. A pattern without an inner slash is matched against the name of any file
or directory below, another against the whole path from the file's directory. A pattern that ends
in a slash matches directories only. Later rules win, and a leading exclamation mark takes a match
back.
-/

namespace Guidebook.Git

/-- A rule of an ignore file. -/
structure IgnoreRule where
  pattern : List Char
  anchored : Bool
  directoryOnly : Bool
  negated : Bool
  deriving Repr, DecidableEq

namespace IgnoreRule

/-- Whether a pattern of letters, `?` and `*` matches a text; neither wildcard matches a slash. -/
def globMatches : List Char → List Char → Bool
  | [], cs => cs.isEmpty
  | '*' :: pattern, cs =>
    let rec tails : List Char → Bool
      | [] => globMatches pattern []
      | c :: rest => globMatches pattern (c :: rest) || (c != '/' && tails rest)
    tails cs
  | '?' :: pattern, c :: cs => c != '/' && globMatches pattern cs
  | p :: pattern, c :: cs => p == c && globMatches pattern cs
  | _ :: _, [] => false

/-- Reads a line; comments and blank lines hold no rule. -/
def ofLine (line : List Char) : Option IgnoreRule :=
  let line := Text.stripEnd (fun c ↦ c == ' ' || c == '\r') line
  match line with
  | [] => none
  | '#' :: _ => none
  | line =>
    let (negated, line) := match line with
      | '!' :: rest => (true, rest)
      | line => (false, line)
    let directoryOnly := Text.endsWith ['/'] line
    let line := Text.removeEnding ['/'] line
    let (rooted, line) := match line with
      | '/' :: rest => (true, rest)
      | line => (false, line)
    if line.isEmpty then none
    else some ⟨line, rooted || line.contains '/', directoryOnly, negated⟩

/-- Whether the rule matches a file or directory, given by its components below the rule's
directory. -/
def applies (rule : IgnoreRule) (names : List String) (isDirectory : Bool) : Bool :=
  (!rule.directoryOnly || isDirectory) &&
    globMatches rule.pattern
      (if rule.anchored then (Text.joinStrings "/" names).toList else (names.getLastD "").toList)

end IgnoreRule

/-- Reads an ignore file. -/
def readIgnore (text : List Char) : List IgnoreRule :=
  (Text.splitOnChar '\n' text).filterMap IgnoreRule.ofLine

/-- What the rules of one file say of a file or directory, if they say anything. -/
def verdict (rules : List IgnoreRule) (names : List String) (isDirectory : Bool) : Option Bool :=
  ((rules.filter (·.applies names isDirectory)).getLast?).map (!·.negated)

/-- Ignore files by the components of their directories. -/
abbrev IgnoreFiles := List (List String × List IgnoreRule)

/-- What the files above a place say of it; the nearest that says anything decides. `above` holds
the components of the directory, innermost first, and `names` those of the place below it. -/
def verdictFrom (files : IgnoreFiles) (isDirectory : Bool) (names : List String) :
    List String → Option Bool
  | [] => (files.lookup []).bind (verdict · names isDirectory)
  | dir :: above =>
    match (files.lookup (dir :: above).reverse).bind (verdict · names isDirectory) with
    | some answer => some answer
    | none => verdictFrom files isDirectory (dir :: names) above

/-- Whether a place itself is ignored. -/
def ignoresPlace (files : IgnoreFiles) (names : List String) (isDirectory : Bool) : Bool :=
  (verdictFrom files isDirectory [names.getLastD ""] names.dropLast.reverse).getD false

/-- Whether a file is ignored: it or a directory above it. -/
def ignores (files : IgnoreFiles) (names : List String) : Bool :=
  ((List.range (names.length - 1)).any fun level ↦
      ignoresPlace files (names.take (level + 1)) true) ||
    ignoresPlace files names false

end Guidebook.Git
