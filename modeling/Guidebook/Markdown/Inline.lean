import Guidebook.Markdown.Link
import Guidebook.Markdown.Emphasis
import Guidebook.Markdown.Write

/-!
# Inline markup

Rules are applied to a text one after another. What a rule finds becomes a finished glyph; the text
inside it is read by the later rules, the text around it by this rule again.
-/

namespace Guidebook.Markdown.Inline

/-- What a rule does at a place. -/
inductive Found where
  /-- Leaves so many glyphs as they are. -/
  | pass (length : Nat)
  /-- Puts glyphs in the place of so many. -/
  | put (length : Nat) (glyphs : Run)

/-- A rule. -/
structure Rule where
  /-- What the rule does, given the glyphs before, the nearest first, and those from a place on. -/
  find? : Run → Run → Option Found
  /-- Whether the rule reads the text inside what it finds too, and then all of the text again. -/
  nests : Bool

/-- The length of what a reader took from a text. -/
private def taken (text after : Run) : Nat := text.length - after.length

/-- Whether the glyph before is a given character. -/
private def follows (c : Char) (before : Run) : Bool := before.head?.any (Glyph.isChar c)

/-! Code and escapes -/

/-- The runs of backticks of a text, each with the place behind the text before it. -/
def tickRuns : Nat → Nat → Run → List (Nat × Nat)
  | 0, _, _ => []
  | _, _, [] => []
  | fuel + 1, place, g :: rest =>
    let count := ((g :: rest).takeWhile (Glyph.isChar '`')).length
    if count == 0 then tickRuns fuel (place + 1) rest
    else (place, count) :: tickRuns fuel (place + count) ((g :: rest).drop count)

/-- Code as it is shown. -/
def escapeCode (code : Run) : Run :=
  code.flatMap fun g ↦
    match g with
    | .char '&' => Run.ofString "&amp;"
    | .char '<' => Run.ofString "&lt;"
    | .char '>' => Run.ofString "&gt;"
    | g => [g]

/-- The code that a run of backticks opens. It is closed by the next run of as many; if all further
runs are shorter, by the first of the longest, and only as many backticks open it. A run that opens
nothing is passed, and as much text behind it. -/
def codeFrom? (text : Run) : Option Found :=
  match tickRuns (text.length + 1) 0 text with
  | [] => none
  | (place, count) :: later =>
    if place != 0 then none
    else
      let longest := later.foldl (fun n (_, c) ↦ max n c) 0
      let size := min count longest
      match later.find? (·.2 == size) with
      | none => some (.pass (2 * count))
      | some (stop, _) =>
        let code := Run.strip ((text.take stop).drop size)
        some (.put (stop + size) [.node (Element.leaf "code" (escapeCode code)).sealText])

/-- Code between backticks. Pairs of backslashes before backticks are set aside first. -/
def codeRule : Rule where
  nests := false
  find? before text :=
    if follows '\\' before then none
    else
      let slashes := (text.takeWhile (Glyph.isChar '\\')).length
      if 0 < slashes then
        if slashes % 2 == 0 && Run.startsWith '`' (text.drop slashes) then
          some (.put slashes (List.replicate (slashes / 2) (.kept '\\')))
        else none
      else codeFrom? text

/-- Characters that a backslash keeps from being markup. -/
def escapable (dialect : Dialect) : List Char :=
  ['\\', '`', '*', '_', '\x7b', '\x7d', '[', ']', '(', ')', '>', '#', '+', '-', '.', '!'] ++
    (if dialect == .full then ['|'] else [])

/-- A backslash before a character. -/
def escapeRule (dialect : Dialect) : Rule where
  nests := false
  find? _ text :=
    match text with
    | g :: h :: _ =>
      if !g.isChar '\\' then none
      else match h.char? with
        | some c =>
          if (escapable dialect).contains c then some (.put 2 [.kept c]) else some (.pass 2)
        | none => some (.pass 2)
    | _ => none

/-! Links -/

/-- The text in the brackets that open a link or an image, and what follows. -/
def opened? (image : Bool) (before text : Run) : Option (Run × Run) :=
  if image then
    match Run.dropPrefix? ['!', '['] text with
    | some rest => Link.bracketed? 0 rest
    | none => none
  else
    match Run.dropPrefix? ['['] text with
    | some rest => if follows '!' before then none else Link.bracketed? 0 rest
    | none => none

/-- The element of a link or an image. -/
def linked (image : Bool) (text : Run) (t : Link.Target) : Run :=
  [.node (if image then Link.imageElement text t else Link.linkElement text t)]

/-- A link or an image with its target. -/
def linkRule (image : Bool) : Rule where
  nests := false
  find? before text := do
    let (inner, after) ← opened? image before text
    let (target, after) ← Link.target? after
    pure (.put (taken text after) (linked image inner target))

/-- A link or an image with the label of a reference, which may be its own text. -/
def referenceRule (image short : Bool) (references : References) : Rule where
  nests := false
  find? before text := do
    let (inner, after) ← opened? image before text
    let (label, after) ← if short then some (inner, after) else Link.label? after
    let label := if label.isEmpty then inner else label
    match Link.lookup? references label with
    | some target => pure (.put (taken text after) (linked image inner target))
    | none => pure (.pass (taken text after))

/-- The text in angle brackets. -/
def angled? (text : Run) : Option (Run × Run) :=
  match text with
  | g :: rest =>
    let inner := rest.takeWhile fun g ↦ !g.isChar '<' && !g.isChar '>'
    match g.isChar '<', rest.drop inner.length with
    | true, h :: after => if h.isChar '>' then some (inner, after) else none
    | _, _ => none
  | [] => none

/-- Whether a text starts with the scheme of an address and two slashes. -/
def hasScheme (text : Run) : Bool :=
  let rest := text.dropWhile (Glyph.isOf fun c ↦
    Text.isLetter c || Text.isDigit c || ['+', '.', '-'].contains c)
  text.head?.any (Glyph.isOf Text.isLetter) && (Run.dropPrefix? [':', '/', '/'] rest).isSome

/-- An address in angle brackets. -/
def addressRule : Rule where
  nests := false
  find? _ text := do
    let (inner, after) ← angled? text
    if hasScheme inner then
      let link := (Element.leaf "a" inner).withAttribute "href" (Link.flatten inner)
      pure (.put (taken text after) [.node link.sealText])
    else none

/-- Names of the entities for characters from the no-break space on. -/
def latinNames : List String :=
  ["nbsp", "iexcl", "cent", "pound", "curren", "yen", "brvbar", "sect", "uml", "copy", "ordf",
    "laquo", "not", "shy", "reg", "macr", "deg", "plusmn", "sup2", "sup3", "acute", "micro",
    "para", "middot", "cedil", "sup1", "ordm", "raquo", "frac14", "frac12", "frac34", "iquest",
    "Agrave", "Aacute", "Acirc", "Atilde", "Auml", "Aring", "AElig", "Ccedil", "Egrave", "Eacute",
    "Ecirc", "Euml", "Igrave", "Iacute", "Icirc", "Iuml", "ETH", "Ntilde", "Ograve", "Oacute",
    "Ocirc", "Otilde", "Ouml", "times", "Oslash", "Ugrave", "Uacute", "Ucirc", "Uuml", "Yacute",
    "THORN", "szlig", "agrave", "aacute", "acirc", "atilde", "auml", "aring", "aelig", "ccedil",
    "egrave", "eacute", "ecirc", "euml", "igrave", "iacute", "icirc", "iuml", "eth", "ntilde",
    "ograve", "oacute", "ocirc", "otilde", "ouml", "divide", "oslash", "ugrave", "uacute", "ucirc",
    "uuml", "yacute", "thorn", "yuml"]

/-- Names of the entities for characters behind the Latin ones. -/
def farNames : List (Nat × String) :=
  [(0x152, "OElig"), (0x153, "oelig"), (0x160, "Scaron"), (0x161, "scaron"), (0x178, "Yuml"),
    (0x192, "fnof"), (0x2c6, "circ"), (0x2dc, "tilde"), (0x391, "Alpha"), (0x392, "Beta"),
    (0x393, "Gamma"), (0x394, "Delta"), (0x395, "Epsilon"), (0x396, "Zeta"), (0x397, "Eta"),
    (0x398, "Theta"), (0x399, "Iota"), (0x39a, "Kappa"), (0x39b, "Lambda"), (0x39c, "Mu"),
    (0x39d, "Nu"), (0x39e, "Xi"), (0x39f, "Omicron"), (0x3a0, "Pi"), (0x3a1, "Rho"),
    (0x3a3, "Sigma"), (0x3a4, "Tau"), (0x3a5, "Upsilon"), (0x3a6, "Phi"), (0x3a7, "Chi"),
    (0x3a8, "Psi"), (0x3a9, "Omega"), (0x3b1, "alpha"), (0x3b2, "beta"), (0x3b3, "gamma"),
    (0x3b4, "delta"), (0x3b5, "epsilon"), (0x3b6, "zeta"), (0x3b7, "eta"), (0x3b8, "theta"),
    (0x3b9, "iota"), (0x3ba, "kappa"), (0x3bb, "lambda"), (0x3bc, "mu"), (0x3bd, "nu"),
    (0x3be, "xi"), (0x3bf, "omicron"), (0x3c0, "pi"), (0x3c1, "rho"), (0x3c2, "sigmaf"),
    (0x3c3, "sigma"), (0x3c4, "tau"), (0x3c5, "upsilon"), (0x3c6, "phi"), (0x3c7, "chi"),
    (0x3c8, "psi"), (0x3c9, "omega"), (0x3d1, "thetasym"), (0x3d2, "upsih"), (0x3d6, "piv"),
    (0x2002, "ensp"), (0x2003, "emsp"), (0x2009, "thinsp"), (0x200c, "zwnj"), (0x200d, "zwj"),
    (0x200e, "lrm"), (0x200f, "rlm"), (0x2013, "ndash"), (0x2014, "mdash"), (0x2018, "lsquo"),
    (0x2019, "rsquo"), (0x201a, "sbquo"), (0x201c, "ldquo"), (0x201d, "rdquo"), (0x201e, "bdquo"),
    (0x2020, "dagger"), (0x2021, "Dagger"), (0x2022, "bull"), (0x2026, "hellip"),
    (0x2030, "permil"), (0x2032, "prime"), (0x2033, "Prime"), (0x2039, "lsaquo"),
    (0x203a, "rsaquo"), (0x203e, "oline"), (0x2044, "frasl"), (0x20ac, "euro"), (0x2111, "image"),
    (0x2118, "weierp"), (0x211c, "real"), (0x2122, "trade"), (0x2135, "alefsym"), (0x2190, "larr"),
    (0x2191, "uarr"), (0x2192, "rarr"), (0x2193, "darr"), (0x2194, "harr"), (0x21b5, "crarr"),
    (0x21d0, "lArr"), (0x21d1, "uArr"), (0x21d2, "rArr"), (0x21d3, "dArr"), (0x21d4, "hArr"),
    (0x2200, "forall"), (0x2202, "part"), (0x2203, "exist"), (0x2205, "empty"), (0x2207, "nabla"),
    (0x2208, "isin"), (0x2209, "notin"), (0x220b, "ni"), (0x220f, "prod"), (0x2211, "sum"),
    (0x2212, "minus"), (0x2217, "lowast"), (0x221a, "radic"), (0x221d, "prop"), (0x221e, "infin"),
    (0x2220, "ang"), (0x2227, "and"), (0x2228, "or"), (0x2229, "cap"), (0x222a, "cup"),
    (0x222b, "int"), (0x2234, "there4"), (0x223c, "sim"), (0x2245, "cong"), (0x2248, "asymp"),
    (0x2260, "ne"), (0x2261, "equiv"), (0x2264, "le"), (0x2265, "ge"), (0x2282, "sub"),
    (0x2283, "sup"), (0x2284, "nsub"), (0x2286, "sube"), (0x2287, "supe"), (0x2295, "oplus"),
    (0x2297, "otimes"), (0x22a5, "perp"), (0x22c5, "sdot"), (0x2308, "lceil"), (0x2309, "rceil"),
    (0x230a, "lfloor"), (0x230b, "rfloor"), (0x2329, "lang"), (0x232a, "rang"), (0x25ca, "loz"),
    (0x2660, "spades"), (0x2663, "clubs"), (0x2665, "hearts"), (0x2666, "diams")]

/-- The number of a character as an entity. -/
def numbered (c : Char) : Run := .amp :: Run.ofString ("#" ++ toString c.toNat ++ ";")

/-- A character of a mail address, hidden in an entity. -/
def veiled (c : Char) : Run :=
  let named := fun (name : String) ↦ Glyph.amp :: Run.ofString (name ++ ";")
  if c == '"' then named "quot"
  else if c == '&' then named "amp"
  else if c == '<' then named "lt"
  else if c == '>' then named "gt"
  else if c.toNat < 0xa0 then numbered c
  else match (latinNames[c.toNat - 0xa0]?).or (farNames.lookup c.toNat) with
    | some name => named name
    | none => numbered c

/-- The characters a glyph of an address is written with. A character that a backslash keeps is
written by its number, between two marks. -/
def addressChars : Glyph → List Char
  | .char c => [c]
  | .kept c => '\x02' :: (toString c.toNat).toList ++ ['\x03']
  | _ => ['\x03']

/-- A mail address in angle brackets. -/
def mailRule : Rule where
  nests := false
  find? _ text := do
    let (inner, after) ← angled? text
    let domain := (inner.reverse.takeWhile (!Glyph.isChar '@' ·)).reverse
    let user := (inner.take (inner.length - domain.length)).dropLast
    if domain.length == inner.length || domain.isEmpty || user.isEmpty ||
        inner.any (Glyph.isChar ' ') || user.any (Glyph.isChar '!') then none
    else
      let address := (Link.flatten inner).flatMap addressChars
      let address := (Text.dropPrefix? "mailto:".toList address).getD address
      let link := (Element.leaf "a" (address.flatMap veiled)).withAttribute "href"
        (("mailto:".toList ++ address).flatMap numbered)
      pure (.put (taken text after) [.node link.sealText])

/-! Line breaks, HTML and entities -/

/-- Two blanks at the end of a line. -/
def breakRule : Rule where
  nests := false
  find? _ text :=
    (Run.dropPrefix? [' ', ' ', '\n'] text).map fun _ ↦ .put 3 [.node (Element.bare "br")]

/-- Text as it was written, with finished elements as HTML. -/
def written (text : Run) : List Char :=
  text.flatMap fun g ↦
    match g with
    | .char c => [c]
    | .kept c => ['\\', c]
    | .held cs => '\\' :: cs
    | .amp => ['&']
    | .raw html => html
    | .node e => elementHtml e

/-- The length of a text that starts and ends with given characters, neither of them inside. -/
def lengthBetween? (first last : List Char) (text : Run) : Option Nat :=
  (Run.dropPrefix? first text).bind (finish? first.length)
where
  /-- The length so far with what is left up to the end. -/
  finish? (n : Nat) : Run → Option Nat
    | [] => none
    | g :: rest =>
      if (Run.dropPrefix? last (g :: rest)).isSome then some (n + last.length)
      else if (Run.dropPrefix? first (g :: rest)).isSome then none
      else finish? (n + 1) rest

/-- The length of the instruction, section or comment a text starts with. -/
def asideLength? (text : Run) : Option Nat :=
  [("<?", "?>"), ("<![CDATA[", "]]>"), ("<!--", "-->")].findSome? fun (first, last) ↦
    lengthBetween? first.toList last.toList text

/-- The length of the tag a text starts with. -/
def tagLength? (text : Run) : Option Nat := do
  let (inner, after) ← angled? text
  let name := if Run.startsWith '/' inner then inner.drop 1 else inner
  let word := name.takeWhile (!Glyph.isChar ' ' ·)
  if name.head?.any (Glyph.isOf Text.isLetter) && !word.any (Glyph.isChar '@') then
    pure (taken text after)
  else none

/-- Tags, instructions, sections and comments are finished HTML. -/
def htmlRule : Rule where
  nests := false
  find? _ text :=
    ((tagLength? text).or (asideLength? text)).map fun n ↦ .put n [.raw (written (text.take n))]

/-- The length of the entity a text starts with. -/
def entityLength? (text : Run) : Option Nat :=
  let closed := fun (p : Char → Bool) (start : Nat) ↦
    let name := (text.drop start).takeWhile (Glyph.isOf p)
    if !name.isEmpty && Run.startsWith ';' (text.drop (start + name.length)) then
      some (start + name.length + 1)
    else none
  if Run.startsWith '&' text then
    (closed (fun c ↦ Text.isLetter c || Text.isDigit c) 1).or
      (if Run.startsWith '#' (text.drop 1) then
        (closed Text.isDigit 2).or
          (if Run.startsWith 'x' (text.drop 2) then closed Text.isHexDigit 3 else none)
      else none)
  else none

/-- Entities are finished HTML. -/
def entityRule : Rule where
  nests := false
  find? _ text := (entityLength? text).map fun n ↦ .put n [.raw (written (text.take n))]

/-! Emphasis -/

/-- Up to three marks that stand alone are no emphasis. -/
def loneMarksRule : Rule where
  nests := false
  find? before text :=
    match text with
    | g :: _ =>
      let marks := text.takeWhile (Glyph.sameChar g)
      let after := text.drop marks.length
      let alone := (before.isEmpty || before.head?.any Glyph.isBlank) &&
        (after.isEmpty || after.head?.any Glyph.isBlank)
      if (g.isChar '*' || g.isChar '_') && marks.length ≤ 3 && alone then
        some (.put marks.length [.held (marks.filterMap Glyph.char?)])
      else none
    | [] => none

/-- Emphasis by one kind of mark. -/
def emphasisRule (mark : Char) : Rule where
  nests := true
  find? before text :=
    if Run.startsWith mark text then
      (Emphasis.find? mark before text).map fun (glyphs, n) ↦ .put n glyphs
    else none

/-- The rules in their order. -/
def rules (dialect : Dialect) (references : References) : List Rule :=
  [codeRule, escapeRule dialect, referenceRule false false references, linkRule false,
    linkRule true, referenceRule true false references, referenceRule false true references,
    referenceRule true true references, addressRule, mailRule, breakRule] ++
  (if dialect == .plain then [htmlRule] else []) ++
  [entityRule, loneMarksRule, emphasisRule '_', emphasisRule '*']

/-! Applying rules -/

/-- The first place where a rule finds something. -/
def search? (rule : Rule) : Run → Run → Option (Run × Found × Run)
  | _, [] => none
  | before, g :: rest =>
    match rule.find? before (g :: rest) with
    | some found => some (before, found, g :: rest)
    | none => search? rule (g :: before) rest

/-- Applies rules to a text from a place on. -/
def apply : Nat → List Rule → Run → Run → Run
  | 0, _, before, rest => before.reverse ++ rest
  | _, [], before, rest => before.reverse ++ rest
  | fuel + 1, rule :: later, before, rest =>
    match search? rule before rest with
    | none => apply fuel later [] (before.reverse ++ rest)
    | some (before, .pass n, rest) =>
      apply fuel (rule :: later) ((rest.take n).reverse ++ before) (rest.drop n)
    | some (before, .put n glyphs, rest) =>
      let inside := if rule.nests then rule :: later else later
      let glyphs := glyphs.map fun g ↦
        match g with
        | .node e => .node (if e.isSealed then e else e.withText (apply fuel inside [] e.text))
        | g => g
      if rule.nests then
        apply fuel (rule :: later) [] (before.reverse ++ glyphs ++ rest.drop n)
      else apply fuel (rule :: later) (glyphs.reverse ++ before) (rest.drop n)

/-- Applies rules to a whole text. -/
def applyAll (rules : List Rule) (text : Run) : Run :=
  apply (2 * (text.length + 4) * (text.length + 4)) rules [] text

mutual

/-- The text before the first finished element, and the elements with the text behind each. -/
def settle : List Glyph → Run × List Element
  | [] => ([], [])
  | g :: rest =>
    let (text, elements) := settle rest
    match g with
    | .node e => ([], (settleElement e).withTail text :: elements)
    | .held cs => (Run.ofChars cs ++ text, elements)
    | .char c => (.char c :: text, elements)
    | .kept c => (.kept c :: text, elements)
    | .amp => (.amp :: text, elements)
    | .raw html => (.raw html :: text, elements)

/-- An element with the finished elements in its text as children. -/
def settleElement : Element → Element
  | .mk tag attributes text sealed children tail =>
    let (text, elements) := settle text
    .mk tag attributes text sealed (elements ++ settleChildren children) tail

/-- Elements with the finished elements in what follows each as siblings. -/
def settleChildren : List Element → List Element
  | [] => []
  | .mk tag attributes text sealed children tail :: rest =>
    let (text, elements) := settle text
    let (tail, siblings) := settle tail
    .mk tag attributes text sealed (elements ++ settleChildren children) tail ::
      siblings ++ settleChildren rest

end

/-- Reads the text of an element and of its children, and the text behind it. -/
def readElement (rules : List Rule) : Nat → Element → List Element
  | 0, e => [e]
  | fuel + 1, e =>
    let (text, inner) :=
      if e.text.isEmpty || e.isSealed then (e.text, []) else settle (applyAll rules e.text)
    let (tail, behind) := if e.tail.isEmpty then ([], []) else settle (applyAll rules e.tail)
    let children :=
      if e.children.isEmpty then
        inner.map fun child ↦ child.withChildren (child.children.flatMap (readElement rules fuel))
      else (inner ++ e.children).flatMap (readElement rules fuel)
    ((e.withText text).withChildren children).withTail tail ::
      behind.flatMap (readElement rules fuel)

/-- The depth of nesting below which all text is read. -/
def deepest : Nat := 1000

/-- Reads the text of a page. -/
def readPage (dialect : Dialect) (references : References) (page : Element) : Element :=
  page.withChildren (page.children.flatMap (readElement (rules dialect references) deepest))

end Guidebook.Markdown.Inline
