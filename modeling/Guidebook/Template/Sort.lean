import Guidebook.Template.Value

/-!
# Sorting

Items put in order by a comparison that may not be defined for some of them. The first comparison
that is not defined decides the complaint, so the order of comparisons matters: a run at the start
is taken as it is, or turned around, and each further item is put into its place by halving.
-/

namespace Guidebook.Template

variable {α : Type}

/-- A comparison that may not be defined. -/
abbrev Before (α : Type) := α → α → Result Bool

/-- The run of items behind `last`, each before the one in front of it or none of them, and the
items behind the run. -/
def runFrom (before : Before α) (falling : Bool) (last : α) :
    List α → Result (List α × List α)
  | [] => .ok ([], [])
  | item :: rest => do
    if (← before item last) == falling then
      let (run, behind) ← runFrom before falling item rest
      return (item :: run, behind)
    else return ([], item :: rest)

/-- The place of an item among sorted ones, behind those that are equal. -/
def placeAmong (before : Before α) (sorted : Array α) (item : α) (low high : Nat) :
    Nat → Result Nat
  | 0 => .ok low
  | fuel + 1 => do
    if high ≤ low then return low
    else
      let middle := low + (high - low) / 2
      match sorted[middle]? with
      | none => return low
      | some other =>
        if ← before item other then placeAmong before sorted item low middle fuel
        else placeAmong before sorted item (middle + 1) high fuel

/-- Sorted items with one more. -/
def insertAmong (before : Before α) (sorted : Array α) (item : α) : Result (Array α) := do
  let place ← placeAmong before sorted item 0 sorted.size (sorted.size + 1)
  return sorted.insertIdxIfInBounds place item

/-- Items in order; equal ones stay in the order they had. -/
def sortItems (before : Before α) : List α → Result (List α)
  | [] => .ok []
  | [item] => .ok [item]
  | first :: second :: rest => do
    let falling ← before second first
    let (run, behind) ← runFrom before falling second rest
    let run := first :: second :: run
    let sorted ← behind.foldlM (insertAmong before) (if falling then run.reverse else run).toArray
    return sorted.toList

/-- Items in order of their keys, or against it. -/
def sortByKey (reverse : Bool) (keyed : List (Value × α)) : Result (List α) := do
  let before := fun (a b : Value × α) ↦ Value.before a.1 b.1
  if reverse then
    return ((← sortItems before keyed.reverse).map (·.2)).reverse
  else return (← sortItems before keyed).map (·.2)

end Guidebook.Template
