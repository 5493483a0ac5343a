import TurretPunch.Decimal.Layout

namespace TurretPunch.Decimal

/-!
# Shortest digits that read back

The numbers that read as a double form an interval around it, whose ends belong to it exactly when
the mantissa is even. For one digit, two digits and so on, the two neighbours of the double on the
grid of such decimals are tried; the first grid with a neighbour inside gives the digits, and of two
neighbours the nearer one.
-/

/-- The numbers that read as one double, over a common denominator. -/
structure ReadingInterval where
  low : Nat
  value : Nat
  high : Nat
  denominator : Nat
  closed : Bool

/-- The interval of a positive fraction. Below a power of two the doubles lie twice as close. -/
def ReadingInterval.ofFraction (b : BinaryFraction) : ReadingInterval :=
  let lowStep := if b.mantissa = fractionBound ∧ -1074 < b.exponent then 1 else 2
  let unit := Nat.pow 2 (b.exponent - 2).toNat
  { low := (4 * b.mantissa - lowStep) * unit
    value := 4 * b.mantissa * unit
    high := (4 * b.mantissa + 2) * unit
    denominator := Nat.pow 2 (2 - b.exponent).toNat
    closed := b.mantissa % 2 == 0 }

/-- The digits of the nearest decimal with `count` digits that reads back, if there is one, where
`10 ^ e` is the place of the first digit of the value. -/
def ReadingInterval.candidate? (i : ReadingInterval) (e : Int) (count : Nat) : Option (List Char) :=
  let shift := (count : Int) - 1 - e
  let scale := Nat.pow 10 shift.toNat
  let grid := i.denominator * Nat.pow 10 (-shift).toNat
  let value := i.value * scale
  let inside (n : Nat) : Bool :=
    if i.closed then i.low * scale ≤ n * grid && n * grid ≤ i.high * scale
    else i.low * scale < n * grid && n * grid < i.high * scale
  let below := value / grid
  let above := below + 1
  match inside below, inside above with
  | false, false => none
  | true, false => some (digits below)
  | false, true => some (digits above)
  | true, true =>
    let toBelow := value - below * grid
    let toAbove := above * grid - value
    if toBelow < toAbove then some (digits below)
    else if toAbove < toBelow then some (digits above)
    else if below % 2 = 0 then some (digits below)
    else some (digits above)

/-- The shortest digits of a positive fraction and the exponent of the first. Seventeen digits
always suffice. -/
def shortestDigits (b : BinaryFraction) : List Char × Int :=
  let i := ReadingInterval.ofFraction b
  let e := decimalExponent i.value i.denominator
  let found := (List.range 17).findSome? fun k =>
    (i.candidate? e (k + 1)).map fun ds => (ds, e + (ds.length - (k + 1) : Int))
  found.getD ([], e)

/-- Values from `0.0001` up to sixteen whole digits have a plain point, and a whole number keeps
its point. -/
def shortestLayout : Layout := ⟨-4, 16, true⟩

/-- The shortest text that reads back as the same double. -/
def shortest (x : Float) : String :=
  match Reading.ofFloat x with
  | .nan => "nan"
  | .infinite negative => infiniteText negative
  | .finite b =>
    if b.mantissa = 0 then signed b.negative ['0', '.', '0']
    else
      let (ds, e) := shortestDigits b
      signed b.negative (shortestLayout.write (dropTrailingZeros ds) e)

end TurretPunch.Decimal
