import Guidebook.Html.Host

/-!
# Addresses

What an attribute's address leads to: somewhere relative to the page, or to a place named by a
scheme. A web address needs a host that can be one.
-/

namespace Guidebook.Html.Url

/-- What an address is. -/
inductive Kind where
  | relative
  | absolute (scheme : String)
  | invalid
  deriving DecidableEq, Repr

/-- Characters around an address that do not count. -/
def isMargin (c : Char) : Bool := c.toNat ≤ 0x20

/-- Characters within an address that do not count. -/
def isIgnored (c : Char) : Bool := c == '\t' || c == '\n' || c == '\r'

/-- The characters of an address that count. -/
def clean (cs : List Char) : List Char := (Text.stripBy isMargin cs).filter (!isIgnored ·)

/-- The scheme of an address, in lower case, and what follows its colon. -/
def scheme? (cs : List Char) : Option (String × List Char) :=
  let isSchemeChar := fun (c : Char) ↦
    Text.isLetter c || Text.isDigit c || c == '+' || c == '-' || c == '.'
  match cs with
  | c :: _ =>
    let name := cs.takeWhile isSchemeChar
    match Text.isLetter c, cs.drop name.length with
    | true, ':' :: rest => some (Text.lower (String.ofList name), rest)
    | _, _ => none
  | [] => none

/-- Whether text behind a host's colon is a port. -/
def isPort (cs : List Char) : Bool :=
  cs.all Text.isDigit && valueIn 10 cs ≤ 65535

/-- Whether text up to the path of an address is a host with a port and perhaps a user. -/
def isAuthority (cs : List Char) : Bool :=
  let host := (cs.reverse.takeWhile (· != '@')).reverse
  match host with
  | '[' :: rest =>
    match rest.dropWhile (· != ']') with
    | _ :: after =>
      isGroupedHost (rest.takeWhile (· != ']')) &&
        (match after with
        | [] => true
        | ':' :: port => isPort port
        | _ => false)
    | [] => false
  | _ =>
    isHostName (host.takeWhile (· != ':')) && isPort ((host.dropWhile (· != ':')).drop 1)

/-- Schemes of the web. -/
def webSchemes : List String := ["http", "https", "ws", "wss", "ftp"]

/-- What an address is. -/
def kind (cs : List Char) : Kind :=
  match scheme? (clean cs) with
  | none => .relative
  | some (scheme, rest) =>
    if webSchemes.contains scheme then
      let rest := rest.dropWhile fun c ↦ c == '/' || c == '\\'
      let authority := rest.takeWhile fun c ↦ c != '/' && c != '\\' && c != '?' && c != '#'
      if isAuthority authority then .absolute scheme else .invalid
    else .absolute scheme

end Guidebook.Html.Url
