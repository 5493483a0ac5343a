import TurretPunch.Order.Boundary

namespace TurretPunch.Order

/-!
# Sorting by insertion

The longest start of a list that is in order is taken as it is, or turned round if it descends.
Elements are inserted into it one by one, after those that are not above them. What cannot be
compared is not below anything.
-/

variable {α : Type}

/-- The longest start of a list, whose first element is given, in which each two neighbours fit, and
what follows it. -/
def spanFitting (fits : α → α → Bool) : α → List α → List α × List α
  | a, [] => ([a], [])
  | a, b :: rest =>
    if fits a b then
      let (start, after) := spanFitting fits b rest
      (a :: start, after)
    else ([a], b :: rest)

/-- The longest start of a list that is in order, and what follows it. A start that descends is turned
round. -/
def firstRun (lt : α → α → Bool) : List α → List α × List α
  | [] => ([], [])
  | [a] => ([a], [])
  | a :: b :: rest =>
    if lt b a then
      let (start, after) := spanFitting (fun p q => lt q p) a (b :: rest)
      (start.reverse, after)
    else spanFitting (fun p q => !lt q p) a (b :: rest)

def insert (lt : α → α → Bool) (xs : List α) (a : α) : List α :=
  let place := boundaryBetween .front (fun x => !lt a x) xs 0 xs.length
  xs.take place ++ a :: xs.drop place

end TurretPunch.Order
