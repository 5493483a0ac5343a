namespace TurretPunch.Decimal

/-!
# Doubles as exact fractions

A finite double is a whole number times a power of two. This module reads a double in that form and
finds the double nearest to a quotient of whole numbers, so that every decimal rule of the library
is a rule about whole numbers.
-/

/-- The number `± mantissa · 2 ^ exponent`. -/
structure BinaryFraction where
  negative : Bool
  mantissa : Nat
  exponent : Int
deriving DecidableEq, Repr

namespace BinaryFraction

/-- The numerator of the magnitude over `denominator`. -/
def numerator (b : BinaryFraction) : Nat := b.mantissa * Nat.pow 2 b.exponent.toNat

/-- A power of two over which the magnitude is a quotient of whole numbers. -/
def denominator (b : BinaryFraction) : Nat := Nat.pow 2 (-b.exponent).toNat

end BinaryFraction

/-- What a double stands for. -/
inductive Reading where
  | nan
  | infinite (negative : Bool)
  | finite (value : BinaryFraction)
deriving DecidableEq, Repr

/-- The number of values of the fifty-two fraction bits, which is also the value of the bit that a
normal double has in front of them. -/
def fractionBound : Nat := 0x10000000000000

/-- Reads a double from its sign bit, eleven exponent bits and fifty-two fraction bits. -/
def Reading.ofFloat (x : Float) : Reading :=
  let bits := x.toBits.toNat
  let negative := bits / 0x8000000000000000 == 1
  let biased : Nat := bits / fractionBound % 2048
  let fraction := bits % fractionBound
  if biased = 2047 then
    if fraction = 0 then .infinite negative else .nan
  else if biased = 0 then .finite ⟨negative, fraction, -1074⟩
  else .finite ⟨negative, fraction + fractionBound, (biased : Int) - 1075⟩

/-- The whole number nearest to `num / den`; a half goes to the even neighbour. -/
def roundHalfEven (num den : Nat) : Nat :=
  let q := num / den
  let r := num % den
  if 2 * r < den then q
  else if den < 2 * r then q + 1
  else if q % 2 = 0 then q
  else q + 1

def infinity : Float := Float.ofBits 0x7FF0000000000000

def notANumber : Float := Float.ofBits 0x7FF8000000000000

/-- The largest `e` with `2 ^ e ≤ num / den`, for positive `num` and `den`. -/
def binaryExponent (num den : Nat) : Int :=
  let guess : Int := (num.log2 : Int) - den.log2
  if den * Nat.pow 2 guess.toNat ≤ num * Nat.pow 2 (-guess).toNat then guess else guess - 1

/-- The bits of the double nearest to `num / den`. The leading bit of a normal mantissa is added
to the exponent field, so that a mantissa rounded up to a power of two carries into it. -/
def nearestBits (num den : Nat) : Nat :=
  if num = 0 then 0
  else
    let e := max (binaryExponent num den - 52) (-1074)
    let m := roundHalfEven (num * Nat.pow 2 (-e).toNat) (den * Nat.pow 2 e.toNat)
    min ((e + 1074).toNat * fractionBound + m) (2047 * fractionBound)

/-- The double nearest to `num / den`; a half goes to the even mantissa, and what is too large
becomes infinite. -/
def nearest (num den : Nat) : Float := Float.ofBits (nearestBits num den).toUInt64

/-- The double nearest to `n / den`, or nothing if it is beyond every finite double. -/
def ofQuotient? (n : Int) (den : Nat) : Option Float :=
  let magnitude := nearest n.natAbs den
  if magnitude == infinity then none
  else if n < 0 then some (-magnitude) else some magnitude

/-- The double nearest to a whole number, or nothing if it is beyond every finite double. -/
def ofInt? (n : Int) : Option Float := ofQuotient? n 1

/-- Rounds a double to a multiple of `1 / scale`, as scaling by a double, rounding to the nearest
whole number with halves to even, and scaling back. -/
def roundAt (scale x : Float) : Float :=
  match Reading.ofFloat (x * scale) with
  | .finite b =>
    let whole := nearest (roundHalfEven b.numerator b.denominator) 1
    (if b.negative then -whole else whole) / scale
  | _ => x

end TurretPunch.Decimal
