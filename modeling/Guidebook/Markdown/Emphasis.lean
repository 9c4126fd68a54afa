import Guidebook.Markdown.Element

/-!
# Emphasis

Text between stars or underscores is emphasised, between two of them strongly so. A run of marks may
open emphasis before anything but a blank and close it behind anything but a blank; underscores do
so at the edges of words only. Runs that close take from the nearest runs that opened, and what a
run is not taken for stays text. What is left of a run that closed may open again at once, but then
places are counted from its first mark, however many of its marks stay over.
-/

namespace Guidebook.Markdown.Emphasis

/-- A run of marks in a text. -/
structure Marks where
  count : Nat
  opens : Bool
  closes : Bool
  /-- The place behind the first of them. -/
  place : Nat
  deriving Repr, DecidableEq

/-- Whether a run between two glyphs may open and whether it may close. -/
def flanks (mark : Char) (before after : Option Glyph) : Bool × Bool :=
  let faces := fun (near far : Option Glyph) ↦
    near.any (!·.isBlank) && (mark != '_' || !far.any Glyph.isWord)
  (faces after before, faces before after)

/-- The runs of marks of a text, given the glyph before it and its place. -/
def marksIn (mark : Char) : Nat → Option Glyph → Nat → Run → List Marks
  | 0, _, _, _ => []
  | _, _, _, [] => []
  | fuel + 1, before, place, g :: rest =>
    if g.isChar mark then
      let count := ((g :: rest).takeWhile (Glyph.isChar mark)).length
      let after := (g :: rest).drop count
      let (opens, closes) := flanks mark before after.head?
      ⟨count, opens, closes, place⟩ :: marksIn mark fuel (some g) (place + count) after
    else marksIn mark fuel (some g) (place + 1) rest

/-- What a run of marks opens. -/
structure Span where
  /-- The marks in front that stay text. -/
  spare : Nat
  /-- The marks on either side. -/
  size : Nat
  /-- The place behind the marks that close. -/
  stop : Nat
  deriving Repr, DecidableEq

/-- The marks taken from two runs, by how many each has left. Of two runs of three and more, one
mark is taken if the one that closes has an odd number of them. -/
def taken (opening closing : Nat) : Nat :=
  if opening < 2 || closing < 2 then 1
  else if 3 ≤ opening && 3 ≤ closing && closing % 2 == 1 then 1
  else 2

/-- Whether a run is no match for another: one that may open as well, if the two make up a multiple
of three. More than three marks count as three. -/
def mismatched (opens : Bool) (opening closing : Nat) : Bool :=
  opens && (min 3 opening + min 3 closing) % 3 == 0

/-- An open run. -/
structure OpenRun where
  /-- The marks it has left. -/
  left : Nat
  /-- It is of stars that could have closed as well. -/
  isLoose : Bool
  deriving Repr, DecidableEq

/-- Whether a single star closes an open run of two, and the character behind it with it: the case
of two runs that could each do both. -/
def swallows (opens : Bool) (run : OpenRun) (closing : Nat) : Bool :=
  opens && run.isLoose && run.left == 2 && closing == 1

/-- Whether a run is of stars that could close. -/
def Marks.isLoose (mark : Char) (run : Marks) : Bool := mark == '*' && run.closes

/-- Open runs, the newest first, and what the oldest was last taken for. -/
structure Open where
  runs : List OpenRun
  span : Option Span
  deriving Repr, DecidableEq

/-- Closes open runs by so many marks from a place on, and tells how many are left of them. -/
def Open.close (opens : Bool) (place : Nat) : Nat → Nat → Open → Nat × Open
  | 0, count, s => (count, s)
  | fuel + 1, count, s =>
    match s.runs with
    | [] => (count, s)
    | newest :: older =>
      let takes := fun (size : Nat) (runs : List OpenRun) ↦
        (⟨runs, if older.isEmpty then some ⟨newest.left - size, size, place + size⟩
          else s.span⟩ : Open)
      if count == 0 then (count, s)
      else if swallows opens newest count then (0, takes 2 older)
      else if mismatched opens newest.left count then (count, s)
      else
        let size := taken newest.left count
        let runs := if newest.left == size then older
          else { newest with left := newest.left - size } :: older
        Open.close opens (place + size) fuel (count - size) (takes size runs)

/-- Reads the runs behind the oldest open one until nothing is left of it. -/
def Open.read (mark : Char) (s : Open) : List Marks → Open
  | [] => s
  | run :: later =>
    if s.runs.isEmpty then s
    else
      let (count, s) :=
        if run.closes then Open.close run.opens run.place run.count run.count s
        else (run.count, s)
      Open.read mark (if run.opens && 0 < count && !s.runs.isEmpty then
        { s with runs := ⟨count, run.isLoose mark⟩ :: s.runs } else s) later

/-- What the run of marks at the start of a text opens. -/
def span? (mark : Char) (before text : Run) : Option Span :=
  match marksIn mark (text.length + 1) before.head? 0 text with
  | [] => none
  | run :: later =>
    if run.place != 0 || !run.opens then none
    else (Open.read mark ⟨[⟨run.count, run.isLoose mark⟩], none⟩ later).span

/-- The element of marks of a size. -/
def element (size : Nat) (inner : Run) : Element :=
  Element.leaf (if size == 2 then "strong" else "em") inner

/-- The text inside a span. -/
def Span.inside (s : Span) (text : Run) : Run :=
  (text.take (s.stop - s.size)).drop (s.spare + s.size)

/-- The emphasis of a text, shown with the glyphs of another text of the same length. -/
def overlay (mark : Char) : Nat → Run → Run → Run → Run
  | 0, _, _, shown => shown
  | _, _, [], _ => []
  | fuel + 1, before, g :: rest, shown =>
    let text := g :: rest
    let found := if before.head?.any (Glyph.isChar mark) then none else span? mark before text
    match found with
    | some s =>
      shown.take s.spare ++
        .node (element s.size (overlay mark fuel [] (s.inside text) (s.inside shown))) ::
        overlay mark fuel ((text.take s.stop).reverse ++ before) (text.drop s.stop)
          (shown.drop s.stop)
    | none => shown.take 1 ++ overlay mark fuel (g :: before) rest (shown.drop 1)

/-- What the marks left of a run that closed open, and its length. It is shown from the first of
them on, so many places early as marks stay over. -/
def resume? (mark : Char) (before text : Run) : Option (Element × Nat) := do
  let s ← span? mark before text
  if s.spare == 0 then none
  else
    let early : Span := ⟨0, s.size, s.stop - s.spare⟩
    let inner := overlay mark (text.length + 1) [] (s.inside text) (early.inside text)
    pure (element s.size inner, early.stop)

/-- What the run of marks at the start of a text opens, behind the marks that stay text, and the
length of it all. -/
def find? (mark : Char) (before text : Run) : Option (Run × Nat) := do
  if before.head?.any (Glyph.isChar mark) then none
  else
    let s ← span? mark before text
    let glyphs := text.take s.spare ++ [.node (element s.size (s.inside text))]
    match resume? mark ((text.take s.stop).reverse ++ before) (text.drop s.stop) with
    | some (more, length) => pure (glyphs ++ [.node more], s.stop + length)
    | none => pure (glyphs, s.stop)

end Guidebook.Markdown.Emphasis
