import TurretPunch.Decimal.Binary

namespace TurretPunch.Decimal

/-!
# Distance in the plane

The double nearest to the exact root of a sum of two squares.
-/

/-- One step of the descent to the integer root, while it goes down. -/
def rootDescent : Nat → Nat → Nat → Nat
  | 0, _, x => x
  | fuel + 1, n, x =>
    let y := (x + n / x) / 2
    if y < x then rootDescent fuel n y else x

/-- The largest whole number whose square is at most `n`. The descent starts above it and at least
halves the excess with each step until it is there. -/
def root (n : Nat) : Nat :=
  if n = 0 then 0 else rootDescent (n.log2 + 2) n (Nat.pow 2 (n.log2 / 2 + 1))

/-- The double nearest to the root of `n · 4 ^ e`. The root is taken to at least fifty-six bits and
one more bit tells whether it is exact, which is all that rounding needs to know. -/
def nearestRoot (n : Nat) (e : Int) : Float :=
  let shift := 57 - n.log2 / 2
  let scaled := n * Nat.pow 4 shift
  let r := root scaled
  let sticky := if r * r = scaled then 0 else 1
  let place := e - shift - 1
  nearest ((2 * r + sticky) * Nat.pow 2 place.toNat) (Nat.pow 2 (-place).toNat)

/-- The length of the vector `(x, y)`. An infinite side makes it infinite, whatever the other is. -/
def hypotenuse (x y : Float) : Float :=
  match Reading.ofFloat x, Reading.ofFloat y with
  | .infinite _, _ => infinity
  | _, .infinite _ => infinity
  | .nan, _ => notANumber
  | _, .nan => notANumber
  | .finite a, .finite b =>
    let e := min a.exponent b.exponent
    let p := a.mantissa * Nat.pow 2 (a.exponent - e).toNat
    let q := b.mantissa * Nat.pow 2 (b.exponent - e).toNat
    nearestRoot (p * p + q * q) e

end TurretPunch.Decimal
