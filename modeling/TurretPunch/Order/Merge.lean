import TurretPunch.Order.Boundary

namespace TurretPunch.Order

/-!
# Merging two runs

Two runs in order are merged from one of their ends, and of two elements that are equal the one of
the left run stays in front. As long as the runs take turns, elements are taken one by one. Once one
run has given many in a row, whole stretches are taken, as long as that pays. How many that must be
is learned from how it went before.
-/

variable {α : Type}

/-- The length from which on taking a stretch pays. -/
def longStretch : Nat := 7

/-- Two runs that are being merged, both read from the same end: what is left of either, the elements
that are merged already with the newest first, how many the runs gave in a row, whether stretches are
taken, and how many in a row it takes to begin with that. -/
structure Merging (α : Type) where
  short : List α
  long : List α
  merged : List α := []
  shortStreak : Nat := 0
  longStreak : Nat := 0
  inStretches : Bool := false
  patience : Nat

namespace Merging

/-- Whether elements of both runs have to be compared still. The last element of the short run is
known to come after everything else. -/
def isOpen (m : Merging α) : Bool :=
  match m.short, m.long with
  | _ :: _ :: _, _ :: _ => true
  | _, _ => false

def takeShort (n : Nat) (m : Merging α) : Merging α :=
  { m with short := m.short.drop n, merged := (m.short.take n).reverse ++ m.merged }

def takeLong (n : Nat) (m : Merging α) : Merging α :=
  { m with long := m.long.drop n, merged := (m.long.take n).reverse ++ m.merged }

/-- Takes the one element whose turn it is. -/
def takeOne (yields : α → α → Bool) (m : Merging α) : Merging α :=
  match m.short, m.long with
  | x :: _, y :: _ =>
    if yields x y then
      { m.takeLong 1 with
        shortStreak := 0
        longStreak := m.longStreak + 1
        inStretches := m.patience ≤ m.longStreak + 1 }
    else
      { m.takeShort 1 with
        shortStreak := m.shortStreak + 1
        longStreak := 0
        inStretches := m.patience ≤ m.shortStreak + 1 }
  | _, _ => m

/-- Takes the stretch of the short run that comes before the long run. -/
def takeShortStretch (side : Side) (yields : α → α → Bool) (m : Merging α) : Merging α :=
  match m.long with
  | y :: _ =>
    let n := gallop side (fun x => !yields x y) m.short
    { m.takeShort n with shortStreak := n }
  | [] => m

/-- Takes the stretch of the long run that comes before the short run. -/
def takeLongStretch (side : Side) (yields : α → α → Bool) (m : Merging α) : Merging α :=
  match m.short with
  | x :: _ =>
    let n := gallop side (yields x) m.long
    { m.takeLong n with longStreak := n }
  | [] => m

/-- The parts of a round of stretches. After each stretch an element of the other run follows, which
needs no comparison. -/
def stretches (side : Side) (yields : α → α → Bool) : List (Merging α → Merging α) :=
  let ofShort := [takeShortStretch side yields, takeLong 1]
  let ofLong := [takeLongStretch side yields, takeShort 1]
  match side with
  | .front => ofShort ++ ofLong
  | .back => ofLong ++ ofShort

/-- Takes a stretch of each run. If neither was long, it is back to taking elements one by one, and
the next time it takes more to begin with stretches. -/
def takeStretches (side : Side) (yields : α → α → Bool) (m : Merging α) : Merging α :=
  let m := (stretches side yields).foldl (fun m part => if m.isOpen then part m else m) m
  if !m.isOpen then m
  else if longStretch ≤ m.shortStreak || longStretch ≤ m.longStreak then
    { m with patience := if 1 < m.patience then m.patience - 1 else m.patience }
  else
    { m with shortStreak := 0, longStreak := 0, inStretches := false, patience := m.patience + 1 }

/-- Merges for a number of steps at most. -/
def advance (side : Side) (yields : α → α → Bool) : Nat → Merging α → Merging α
  | 0, m => m
  | steps + 1, m =>
    if !m.isOpen then m
    else advance side yields steps
      (if m.inStretches then m.takeStretches side yields else m.takeOne yields)

/-- All elements, in the order of the end from which the runs are read. -/
def toList (m : Merging α) : List α := m.merged.reverse ++ (m.long ++ m.short)

end Merging

/-- Merges two runs from one end, where the first element of the long run is known to come first. Also
gives what was learned about stretches. -/
def mergeFrom (side : Side) (yields : α → α → Bool) (patience : Nat) (short long : List α) :
    List α × Nat :=
  let start : Merging α := ⟨short, long, [], 0, 0, false, patience⟩
  let finished := (start.takeLong 1).advance side yields (short.length + long.length)
  (finished.toList, finished.patience)

/-- Merges two runs. What of the left run comes before all of the right run stays where it is, and
what of the right run comes after all of the left run. Of the rest, the longer run is the one that is
not moved away. -/
def mergeRuns (lt : α → α → Bool) (patience : Nat) (left right : List α) : List α × Nat :=
  match right with
  | [] => (left, patience)
  | b :: _ =>
    let settled := gallop .front (fun a => !lt b a) left
    let before := left.take settled
    let left := left.drop settled
    match left.getLast? with
    | none => (before ++ right, patience)
    | some a =>
      let backwards := right.reverse
      let settled := gallop .back (fun b => !lt b a) backwards
      let after := (backwards.take settled).reverse
      let backwards := backwards.drop settled
      if backwards.isEmpty then (before ++ left ++ after, patience)
      else if left.length ≤ backwards.length then
        let (merged, patience) :=
          mergeFrom .front (fun a b => lt b a) patience left backwards.reverse
        (before ++ merged ++ after, patience)
      else
        let (merged, patience) :=
          mergeFrom .back (fun b a => lt b a) patience backwards left.reverse
        (before ++ merged.reverse ++ after, patience)

end TurretPunch.Order
