import TurretPunch.Decimal.Layout

namespace TurretPunch.Decimal

/-!
# Significant digits

The exact value of a double rounded to a number of significant digits, without zeros at the end.
The exponent of the rounded value decides between a plain point and an exponent mark.
-/

/-- A positive quotient rounded to `count` significant digits, with the exponent of the first. -/
def significantDigits (count num den : Nat) : List Char × Int :=
  let e := decimalExponent num den
  let shift := (count : Int) - 1 - e
  let n := roundHalfEven (num * Nat.pow 10 shift.toNat) (den * Nat.pow 10 (-shift).toNat)
  let ds := digits n
  (ds, e + (ds.length - count : Int))

/-- Values from `0.0001` up to `count` whole digits have a plain point. -/
def generalLayout (count : Nat) : Layout := ⟨-4, count, false⟩

/-- A double with at most `count` significant digits. -/
def significant (count : Nat) (x : Float) : String :=
  match Reading.ofFloat x with
  | .nan => "nan"
  | .infinite negative => infiniteText negative
  | .finite b =>
    if b.mantissa = 0 then signed b.negative ['0']
    else
      let (ds, e) := significantDigits count b.numerator b.denominator
      signed b.negative ((generalLayout count).write (dropTrailingZeros ds) e)

end TurretPunch.Decimal
