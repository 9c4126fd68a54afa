import Guidebook.Html.Style
import Guidebook.Html.Tree
import Guidebook.Html.Url

/-!
# Clean HTML

What may be embedded in a guide: elements of some tags with some of their attributes, addresses that
are relative or lead to the web or to a mailbox, and the alignment of cells. Other elements are
replaced by their content; scripts, style sheets and drawings vanish with it.
-/

namespace Guidebook.Html

/-- Elements that are kept. -/
def allowedTags : List String :=
  ["a", "abbr", "acronym", "area", "article", "aside", "b", "bdi", "bdo", "blockquote", "br",
    "caption", "center", "cite", "code", "col", "colgroup", "data", "dd", "del", "details", "dfn",
    "div", "dl", "dt", "em", "figcaption", "figure", "footer", "h1", "h2", "h3", "h4", "h5", "h6",
    "header", "hgroup", "hr", "i", "img", "ins", "kbd", "li", "map", "mark", "nav", "ol", "p",
    "pre", "q", "rp", "rt", "rtc", "ruby", "s", "samp", "small", "span", "strike", "strong", "sub",
    "summary", "sup", "table", "tbody", "td", "th", "thead", "time", "tr", "tt", "u", "ul", "var",
    "wbr"]

/-- Elements that vanish with their content. -/
def removedTags : List String := ["script", "style"]

/-- Attributes that every element keeps. -/
def commonAttributes : List String := ["class", "lang", "title"]

/-- Further attributes by the elements that keep them. -/
def ownAttributes : List (String × List String) :=
  let cells := ["align", "char", "charoff"]
  [("a", ["href", "hreflang"]), ("bdo", ["dir"]), ("blockquote", ["cite"]),
    ("col", "span" :: cells), ("colgroup", "span" :: cells), ("del", ["cite", "datetime"]),
    ("hr", ["align", "size", "width"]),
    ("img", ["align", "alt", "height", "src", "width"]), ("ins", ["cite", "datetime"]),
    ("ol", ["start"]), ("q", ["cite"]), ("table", "summary" :: cells), ("tbody", cells),
    ("td", ["colspan", "headers", "rowspan", "style"] ++ cells), ("tfoot", cells),
    ("th", ["colspan", "headers", "rowspan", "scope", "style"] ++ cells), ("thead", cells),
    ("tr", cells)]

/-- Whether an element keeps an attribute. -/
def isAllowedAttribute (tag name : String) : Bool :=
  commonAttributes.contains name || ((ownAttributes.lookup tag).getD []).contains name

/-- Whether an attribute is an address. -/
def isAddress (name : String) : Bool := name == "href" || name == "src"

/-- Schemes an address may have. -/
def allowedSchemes : List String := ["http", "https", "mailto"]

/-- Whether an address may be kept. -/
def isAllowedAddress (value : List Char) : Bool :=
  match Url.kind value with
  | .relative => true
  | .absolute scheme => allowedSchemes.contains scheme
  | .invalid => false

/-- Properties a style may set. -/
def allowedProperties : List String := ["text-align"]

/-- A style with the allowed declarations only. A property is named in lower case. -/
def cleanStyle (cs : List Char) : List Char :=
  let kept := (Style.declarations cs).filter fun (property, value) ↦
    allowedProperties.contains (String.ofList property) && !value.isEmpty
  Text.joinWith [';'] (kept.map fun (property, value) ↦ property ++ ':' :: value)

/-- An attribute as it is kept, if it is. -/
def cleanAttribute? (tag : String) (a : Attribute) : Option Attribute :=
  if !isAllowedAttribute tag a.name then none
  else if isAddress a.name && !isAllowedAddress a.value then none
  else if a.name == "style" then some { a with value := cleanStyle a.value }
  else some a

/-- What links say of the page they lead to. -/
def linkRelation : Attribute := ⟨"rel", "noopener noreferrer".toList⟩

/-- The attributes of an element that is kept. -/
def cleanAttributes (tag : String) (attributes : List Attribute) : List Attribute :=
  let kept := attributes.filterMap (cleanAttribute? tag)
  if tag == "a" then kept ++ [linkRelation] else kept

/-- Elements of drawings and formulas. As elements of HTML they mean nothing. -/
def foreignTags : List String :=
  ["animate", "animateMotion", "animateTransform", "circle", "clipPath", "defs", "desc", "discard",
    "ellipse", "filter", "foreignObject", "g", "hatch", "hatchpath", "image", "line",
    "linearGradient", "marker", "mask", "mesh", "meshgradient", "meshpatch", "meshrow", "metadata",
    "mpath", "path", "pattern", "polygon", "polyline", "radialGradient", "rect", "set",
    "solidcolor", "stop", "svg", "switch", "symbol", "text", "textPath", "tspan", "unknown", "use",
    "view", "abs", "and", "annotation", "annotation-xml", "apply", "approx", "arccos", "arccosh",
    "arcsin", "arctan", "arg", "bind", "bvar", "card", "cartesianproduct", "ceiling", "ci", "cn",
    "codomain", "complexes", "compose", "condition", "conjugate", "cos", "cosh", "cot", "csc",
    "csymbol", "curl", "declare", "degree", "determinant", "diff", "divergence", "divide", "domain",
    "emptyset", "eq", "equivalent", "exists", "exp", "factorial", "false", "floor", "fn", "forall",
    "gcd", "geq", "grad", "gt", "ident", "imaginary", "implies", "in", "infinity", "int",
    "integers", "intersect", "interval", "inverse", "lambda", "laplacian", "lcm", "leq", "limit",
    "list", "ln", "log", "logbase", "lowlimit", "lt", "maction", "maligngroup", "malignmark",
    "math", "matrix", "matrixrow", "max", "mean", "median", "menclose", "merror", "mfenced",
    "mfrac", "mglyph", "mi", "min", "minus", "mlabeledtr", "mmultiscripts", "mn", "mo", "mode",
    "moment", "mover", "mpadded", "mphantom", "mprescripts", "mroot", "mrow", "ms", "mspace",
    "msqrt", "mstyle", "msub", "msubsup", "msup", "mtable", "mtd", "mtext", "mtr", "munder",
    "munderover", "naturalnumbers", "neq", "none", "not", "notin", "notprsubset", "notsubset", "or",
    "otherwise", "outerproduct", "partialdiff", "piece", "piecewise", "plus", "power", "primes",
    "product", "prsubset", "quotient", "rationals", "real", "reals", "reln", "rem", "root",
    "scalarproduct", "sdev", "sec", "selector", "semantics", "sep", "setdiff", "share", "sin",
    "sinh", "subset", "sum", "tan", "tanh", "tendsto", "times", "transpose", "true", "union",
    "uplimit", "variance", "vector", "vectorproduct", "xor"]

/-- Whether an element has its place in HTML. Of other vocabularies only the root has. -/
def isExpected (vocabulary : Vocabulary) (tag : String) : Bool :=
  match vocabulary with
  | .html => !foreignTags.contains tag
  | .svg => tag == "svg"
  | .math => tag == "math"

mutual

/-- What a node leaves behind. -/
def Node.clean : Node → List Node
  | .text content => [.text content]
  | .element vocabulary tag attributes children =>
    if removedTags.contains tag || !isExpected vocabulary tag then []
    else if allowedTags.contains tag then
      [.element .html tag (cleanAttributes tag attributes) (cleanAll children)]
    else cleanAll children

/-- What nodes leave behind. -/
def cleanAll : List Node → List Node
  | [] => []
  | node :: rest => node.clean ++ cleanAll rest

end

/-- HTML that is safe to embed. -/
def sanitize (html : List Char) : List Char := writeAll (cleanAll (parse html))

end Guidebook.Html
