import TurretPunch.Decimal.Binary

namespace TurretPunch.Decimal

/-!
# Layout of decimal numbers

A decimal is a string of digits `d₀d₁d₂…` with the exponent of its first digit. A `Layout` says when
it is written with a plain point and when with an exponent mark.
-/

/-- The digits of a whole number, at least one. -/
def digits (n : Nat) : List Char := Nat.toDigits 10 n

/-- The number of digits of a whole number. -/
def digitCount (n : Nat) : Nat := (digits n).length

/-- A whole number, with a minus sign if it is negative. -/
def integer (n : Int) : String :=
  String.ofList (if n < 0 then '-' :: digits n.natAbs else digits n.natAbs)

/-- A whole number in at least `width` columns, filled with zeros after the sign. -/
def zeroPadded (width : Nat) (n : Int) : String :=
  let sign := if n < 0 then ['-'] else []
  let ds := digits n.natAbs
  String.ofList (sign ++ List.replicate (width - sign.length - ds.length) '0' ++ ds)

def dropTrailingZeros (ds : List Char) : List Char :=
  (ds.reverse.dropWhile (· == '0')).reverse

/-- When a decimal is written with a plain point. -/
structure Layout where
  /-- The least exponent of a first digit that is written with a plain point. -/
  least : Int
  /-- The first exponent that is too large for it. -/
  bound : Int
  /-- Whether a whole number written with a plain point gets `.0`. -/
  keepsPoint : Bool

/-- The exponent mark, its sign and at least two digits. -/
def exponentText (e : Int) : List Char :=
  let ds := digits e.natAbs
  'e' :: (if e < 0 then '-' else '+') :: (if ds.length < 2 then '0' :: ds else ds)

/-- Writes the digits `ds` with the first of them at `10 ^ e`. -/
def Layout.write (layout : Layout) (ds : List Char) (e : Int) : List Char :=
  if e < layout.least ∨ layout.bound ≤ e then
    ds.take 1 ++ (if ds.length ≤ 1 then [] else '.' :: ds.drop 1) ++ exponentText e
  else if e < 0 then
    '0' :: '.' :: (List.replicate (-e - 1).toNat '0' ++ ds)
  else
    let n := e.toNat + 1
    let whole := ds.take n ++ List.replicate (n - ds.length) '0'
    let rest := ds.drop n
    if rest.isEmpty then (if layout.keepsPoint then whole ++ ['.', '0'] else whole)
    else whole ++ '.' :: rest

/-- The largest `e` with `10 ^ e ≤ num / den`, for positive `num` and `den`. -/
def decimalExponent (num den : Nat) : Int :=
  let guess : Int := (digitCount num : Int) - digitCount den
  if den * Nat.pow 10 guess.toNat ≤ num * Nat.pow 10 (-guess).toNat then guess else guess - 1

def signed (negative : Bool) (magnitude : List Char) : String :=
  String.ofList (if negative then '-' :: magnitude else magnitude)

/-- The text of a double that is not finite. -/
def infiniteText (negative : Bool) : String := if negative then "-inf" else "inf"

end TurretPunch.Decimal
