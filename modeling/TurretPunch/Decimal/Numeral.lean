import TurretPunch.Decimal.Layout
import TurretPunch.Text.Digit

namespace TurretPunch.Decimal

/-!
# Numerals

A numeral is a sign, digits before and after a point, and an exponent. It stands for the double
nearest to its exact value.
-/

/-- The parts of a decimal numeral, the digits as values. -/
structure Numeral where
  negative : Bool
  whole : List Nat
  fraction : List Nat
  exponent : Int
deriving DecidableEq, Repr

namespace Numeral

/-- The digits without the point, as one whole number. -/
def mantissa (n : Numeral) : Nat := Text.digitsValue (n.whole ++ n.fraction)

/-- The exponent that goes with the mantissa. -/
def scale (n : Numeral) : Int := n.exponent - n.fraction.length

/-- The double nearest to `mantissa · 10 ^ scale`. Above `10 ^ 310` that is infinity and below
`10 ^ -330` zero, however long the exponent is. -/
def magnitude (mantissa : Nat) (scale : Int) : Float :=
  if mantissa = 0 then 0.0
  else
    let top := digitCount mantissa + scale
    if 310 < top then infinity
    else if top < -330 then 0.0
    else nearest (mantissa * Nat.pow 10 scale.toNat) (Nat.pow 10 (-scale).toNat)

def toFloat (n : Numeral) : Float :=
  let m := magnitude n.mantissa n.scale
  if n.negative then -m else m

end Numeral

end TurretPunch.Decimal
