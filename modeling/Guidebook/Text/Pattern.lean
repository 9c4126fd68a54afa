/-!
# Patterns

Patterns over the items of a list, tried in order with backtracking: the first way to match wins.
A pattern may look at the item before it, look ahead, remember what a part matched and ask for the
same again.
-/

namespace Guidebook

/-- A pattern over items. -/
inductive Pattern (α : Type) where
  /-- Nothing. -/
  | empty
  /-- One item of a class. -/
  | one (p : α → Bool)
  /-- One pattern and then another. -/
  | seq (first second : Pattern α)
  /-- One pattern or, failing that, another. -/
  | alt (first second : Pattern α)
  /-- A pattern over and over, as often as possible or, if lazy, as seldom. -/
  | many (eager : Bool) (least : Nat) (most : Option Nat) (body : Pattern α)
  /-- A pattern whose items are remembered. -/
  | group (label : Nat) (body : Pattern α)
  /-- The remembered items once more. -/
  | again (label : Nat)
  /-- A pattern follows, or does not; no item is taken. -/
  | ahead (wanted : Bool) (body : Pattern α)
  /-- The item before is of a class, or is not. -/
  | behind (wanted : Bool) (p : α → Bool)
  /-- There is no item before. -/
  | start
  /-- There is no item left. -/
  | stop

namespace Pattern

/-- How far a match has come. -/
structure Progress (α : Type) where
  /-- The items before, the nearest first. -/
  before : List α
  rest : List α
  groups : List (Nat × List α)

variable {α : Type}

/-- The items a label remembers. -/
def Progress.group (s : Progress α) (label : Nat) : Option (List α) := s.groups.lookup label

/-- One item further. -/
def Progress.next? (p : α → Bool) (s : Progress α) : Option (Progress α) :=
  match s.rest with
  | a :: rest => if p a then some { s with before := a :: s.before, rest } else none
  | [] => none

/-- Several given items further. -/
def Progress.nextAll? (same : α → α → Bool) : List α → Progress α → Option (Progress α)
  | [], s => some s
  | a :: as, s => (s.next? (same a)).bind (nextAll? same as)

/-- Repeats a step that takes items, at most `fuel` times. -/
def Progress.repeated (eager : Bool)
    (step : Progress α → (Progress α → Option (Progress α)) → Option (Progress α)) :
    Nat → Nat → Progress α → (Progress α → Option (Progress α)) → Option (Progress α)
  | 0, 0, s, k => k s
  | 0, _ + 1, _, _ => none
  | fuel + 1, least, s, k =>
    let more := fun (_ : Unit) ↦
      step s fun t ↦
        if t.rest.length < s.rest.length then repeated eager step fuel (least - 1) t k else none
    if 0 < least then more ()
    else if eager then (more ()).or (k s) else (k s).or (more ())

/-- Matches a pattern and goes on with what comes after it. -/
def run (same : α → α → Bool) :
    Pattern α → Progress α → (Progress α → Option (Progress α)) → Option (Progress α)
  | .empty, s, k => k s
  | .one p, s, k => (s.next? p).bind k
  | .seq first second, s, k => run same first s fun t ↦ run same second t k
  | .alt first second, s, k => (run same first s k).or (run same second s k)
  | .many eager least most body, s, k =>
    Progress.repeated eager (run same body) (most.getD s.rest.length) least s k
  | .group label body, s, k =>
    run same body s fun t ↦
      k { t with groups := (label, s.rest.take (s.rest.length - t.rest.length)) :: t.groups }
  | .again label, s, k =>
    match s.group label with
    | some items => (s.nextAll? same items).bind k
    | none => none
  | .ahead wanted body, s, k =>
    match run same body s some, wanted with
    | some t, true => k { s with groups := t.groups }
    | none, false => k s
    | _, _ => none
  | .behind wanted p, s, k =>
    if (match s.before with
      | a :: _ => p a
      | [] => false) == wanted then k s else none
  | .start, s, k => if s.before.isEmpty then k s else none
  | .stop, s, k => if s.rest.isEmpty then k s else none

/-- The first match of a pattern at a place. -/
def matchAt? (same : α → α → Bool) (pattern : Pattern α) (before rest : List α) :
    Option (Progress α) :=
  run same pattern ⟨before, rest, []⟩ some

/-- The first place from which a pattern matches: the items before it and the end of the match. -/
def find? (same : α → α → Bool) (pattern : Pattern α) :
    List α → List α → Option (List α × Progress α)
  | before, rest =>
    match matchAt? same pattern before rest with
    | some found => some (before, found)
    | none =>
      match rest with
      | [] => none
      | a :: rest => find? same pattern (a :: before) rest

/-- One pattern after another. -/
def chain : List (Pattern α) → Pattern α
  | [] => .empty
  | [p] => p
  | p :: ps => .seq p (chain ps)

/-- A pattern at least `least` times, as often as possible. -/
def atLeast (least : Nat) (p : Pattern α) : Pattern α := .many true least none p

/-- A pattern between `least` and `most` times, as often as possible. -/
def between (least most : Nat) (p : Pattern α) : Pattern α := .many true least (some most) p

/-- A pattern at least `least` times, as seldom as possible. -/
def fewest (least : Nat) (p : Pattern α) : Pattern α := .many false least none p

/-- A pattern or nothing. -/
def perhaps (p : Pattern α) : Pattern α := between 0 1 p

end Pattern
end Guidebook
