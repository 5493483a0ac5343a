import TurretPunch.Order.Insertion
import TurretPunch.Order.Merge

namespace TurretPunch.Order

/-!
# Sorting by runs

A list is cut into runs that are in order already, short ones are filled up by insertion, and
neighbours are merged. Which neighbours come first follows from a tree over the whole list: two runs
whose middles lie in different halves of it are merged last, before them those in different quarters,
and so on. Where not everything can be compared, what sorting results in depends on all of that.
-/

variable {α : Type}

/-- Halves a number until it is below 64, and adds one if that lost anything. -/
def shorten (n lost : Nat) : Nat :=
  if n < 64 then n + lost else shorten (n / 2) (max lost (n % 2))
termination_by n

/-- The least length of the runs of a list, but for the last one. -/
def leastRun (length : Nat) : Nat := shorten length 0

/-- The first binary place in which two fractions differ, given as parts of the same whole, if it is
among the next ones. -/
def differingPlace (whole : Nat) : Nat → Nat → Nat → Nat
  | 0, _, _ => 0
  | places + 1, a, b =>
    if whole ≤ a then 1 + differingPlace whole places (2 * (a - whole)) (2 * (b - whole))
    else if whole ≤ b then 1
    else 1 + differingPlace whole places (2 * a) (2 * b)

/-- A run of a list. The depth tells how far down in the tree over the list it parts from the run
after it. -/
structure Run (α : Type) where
  start : Nat
  elements : List α
  depth : Nat := 0

/-- How far down in the tree over a list two neighbouring runs part: the first binary place in which
their middles differ. -/
def partingDepth (length : Nat) (left : Run α) (rightLength : Nat) : Nat :=
  let middle := 2 * left.start + left.elements.length
  differingPlace length length middle (middle + left.elements.length + rightLength)

/-- The runs that wait to be merged, the last one first, and how many elements in a row it takes to
begin with stretches. -/
structure Waiting (α : Type) where
  runs : List (Run α) := []
  patience : Nat := longStretch

namespace Waiting

def merged (lt : α → α → Bool) (patience : Nat) (left right : Run α) : Run α × Nat :=
  let (elements, patience) := mergeRuns lt patience left.elements right.elements
  ({ left with elements }, patience)

/-- Merges the last two runs as long as they part farther down than the last one and the next. -/
def settle (lt : α → α → Bool) (depth : Nat) : Nat → Run α → List (Run α) → Waiting α
  | patience, last, [] => ⟨[{ last with depth }], patience⟩
  | patience, last, before :: runs =>
    if depth < before.depth then
      let (last, patience) := merged lt patience before last
      settle lt depth patience last runs
    else ⟨{ last with depth } :: before :: runs, patience⟩

def add (lt : α → α → Bool) (length : Nat) (waiting : Waiting α) (run : Run α) : Waiting α :=
  match waiting.runs with
  | [] => { waiting with runs := [run] }
  | last :: runs =>
    let settled := settle lt (partingDepth length last run.elements.length) waiting.patience last runs
    { settled with runs := run :: settled.runs }

/-- Merges all runs, the last two first, unless the run before them is shorter than the last one. -/
def finish (lt : α → α → Bool) : Nat → Run α → List (Run α) → List α
  | _, last, [] => last.elements
  | patience, last, [before] => (merged lt patience before last).1.elements
  | patience, last, middle :: before :: runs =>
    if before.elements.length < last.elements.length then
      let (joined, patience) := merged lt patience before middle
      finish lt patience last (joined :: runs)
    else
      let (joined, patience) := merged lt patience middle last
      finish lt patience joined (before :: runs)
termination_by _ _ runs => runs.length

/-- Adds the runs of what is left of a list, for a number of runs at most. -/
def addAll (lt : α → α → Bool) (length : Nat) : Nat → Waiting α → List α → Waiting α
  | 0, waiting, _ => waiting
  | _, waiting, [] => waiting
  | count + 1, waiting, xs =>
    let (run, rest) := firstRun lt xs
    let missing := leastRun length - run.length
    let run := (rest.take missing).foldl (insert lt) run
    addAll lt length count (waiting.add lt length ⟨length - xs.length, run, 0⟩) (rest.drop missing)

end Waiting

def sort (lt : α → α → Bool) (xs : List α) : List α :=
  let waiting := Waiting.addAll lt xs.length xs.length {} xs
  match waiting.runs with
  | [] => []
  | last :: runs => Waiting.finish lt waiting.patience last runs

end TurretPunch.Order
