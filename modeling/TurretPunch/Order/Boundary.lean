namespace TurretPunch.Order

/-!
# Boundaries

A list in which first come elements that pass a test and then elements that do not has one boundary
between them. It is looked for by halving what is left, from either end of the list. Where the
elements do not lie like that, the place that is found depends on which of them are looked at.
-/

variable {α : Type}

/-- The end from which a list is read. -/
inductive Side where
  | front
  | back
deriving DecidableEq, Repr

/-- The place in the middle between two places. Of two such places it is the one that is farther from
the front of the list, from whichever end the list is read. -/
def Side.middle : Side → Nat → Nat → Nat
  | front, low, high => low + (high - low) / 2
  | back, low, high => low + (high - low - 1) / 2

theorem Side.low_le_middle (side : Side) (low high : Nat) : low ≤ side.middle low high := by
  cases side <;> simp only [middle] <;> omega

theorem Side.middle_lt_high (side : Side) {low high : Nat} (h : low < high) :
    side.middle low high < high := by
  cases side <;> simp only [middle] <;> omega

/-- The boundary between two places of a list. -/
def boundaryBetween (side : Side) (passes : α → Bool) (xs : List α) (low high : Nat) : Nat :=
  if h : low < high then
    let middle := side.middle low high
    if (xs[middle]?).all passes then boundaryBetween side passes xs (middle + 1) high
    else boundaryBetween side passes xs low middle
  else low
termination_by high - low
decreasing_by
  · have := side.low_le_middle low high
    have := side.middle_lt_high h
    omega
  · have := side.low_le_middle low high
    have := side.middle_lt_high h
    omega

/-- The last stride that is known to pass and the one that goes beyond, where each stride is one more
than twice the one before. -/
def strideFrom (passes : Nat → Bool) (limit known next : Nat) : Nat × Nat :=
  if next < limit && passes next then strideFrom passes limit next (2 * next + 1)
  else (known, min next limit)
termination_by limit - next
decreasing_by simp_all only [Bool.and_eq_true, decide_eq_true_eq]; omega

/-- The number of elements that pass, where most often they are few: the strides get longer as long
as what they reach passes, and the boundary is looked for in the last of them. -/
def gallop (side : Side) (passes : α → Bool) (xs : List α) : Nat :=
  if (xs[0]?).any passes then
    let (known, next) := strideFrom (fun i => (xs[i]?).any passes) xs.length 0 1
    boundaryBetween side passes xs (known + 1) next
  else 0

end TurretPunch.Order
