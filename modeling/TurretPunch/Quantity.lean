import TurretPunch.Fault
import TurretPunch.Decimal.Fixed
import TurretPunch.Decimal.Significant

namespace TurretPunch

/-!
# Quantities

A size, an interval or a station number as a configuration file gives it. Whole and fractional
numbers are kept apart, and a value that is no number is kept too: it is refused only where a
number is needed. Truth values count as zero and one.
-/

/-- A value in the place of a number. -/
inductive Quantity where
  | whole (n : Int)
  | real (x : Float)
  | other (value : Json)
deriving BEq, Repr

namespace Quantity

def ofJson : Json → Quantity
  | .int n => whole n
  | .float x => real x
  | value => other value

def toJson : Quantity → Json
  | whole n => .int n
  | real x => .float x
  | other value => value

/-- The double nearest to a quotient, which must not be beyond every double. -/
def nearestDouble (n : Int) (den : Nat) : Except Fault Float :=
  match Decimal.ofQuotient? n den with
  | some x => .ok x
  | none => .error .overflow

/-- The number, as a double. -/
def toFloat : Quantity → Except Fault Float
  | real x => .ok x
  | whole n => nearestDouble n 1
  | other value =>
    match value.toInt? with
    | some n => nearestDouble n 1
    | none => .error .wrongType

/-- The number as a double, or infinity if it is beyond every double. -/
def toDouble (q : Quantity) : Except Fault Float :=
  match q.toFloat with
  | .error .overflow => .ok Decimal.infinity
  | outcome => outcome

/-- Half of the number, which itself must not be beyond every double. -/
def half (q : Quantity) : Except Fault Float := q.toFloat.map (· / 2.0)

/-- Half of the number, which alone must not be beyond every double. -/
def halved : Quantity → Except Fault Float
  | whole n => nearestDouble n 2
  | q => q.half

/-- Whether the number is below a whole number. -/
def isBelow (q : Quantity) (bound : Int) : Except Fault Bool :=
  match q with
  | whole n => .ok (n < bound)
  | real x => .ok (x < Float.ofInt bound)
  | other value =>
    match value.toInt? with
    | some n => .ok (n < bound)
    | none => .error .wrongType

def isNonPositive : Quantity → Except Fault Bool
  | whole n => .ok (n ≤ 0)
  | real x => .ok (x ≤ 0.0)
  | other value =>
    match value.toInt? with
    | some n => .ok (n ≤ 0)
    | none => .error .wrongType

/-- The number as a double to be written. A text cannot be written as a number. -/
def writable : Quantity → Except Fault Float
  | other (.string _) => .error .unwritable
  | q => q.toFloat

def general (q : Quantity) : Except Fault String := q.writable.map (Decimal.significant 6)

def onePlace (q : Quantity) : Except Fault String := q.writable.map (Decimal.fixed 1)

/-- The whole number that a quantity equals, if there is one. -/
def wholeValue? : Quantity → Option Int
  | whole n => some n
  | real x =>
    match Decimal.Reading.ofFloat x with
    | .finite b =>
      if b.numerator % b.denominator = 0 then
        let n : Int := b.numerator / b.denominator
        some (if b.negative then -n else n)
      else none
    | _ => none
  | other value => value.toInt?

/-- Whether two values are the same key: numbers by their value, other values as they are. All that
is no number is one key. -/
def sameKey (p q : Quantity) : Bool :=
  match p.wholeValue?, q.wholeValue? with
  | some m, some n => m == n
  | none, none =>
    match p, q with
    | real x, real y => x == y || x.isNaN && y.isNaN
    | other (.string s), other (.string t) => s == t
    | other .null, other .null => true
    | _, _ => false
  | _, _ => false

def isKey : Quantity → Bool
  | other (.array _) => false
  | other (.object _) => false
  | _ => true

/-- Where a number lies on the line that has infinity at both ends. -/
inductive Mark where
  | lowest
  | at (num : Int) (den : Nat)
  | highest

def Mark.lt : Mark → Mark → Bool
  | lowest, lowest => false
  | lowest, _ => true
  | _, lowest => false
  | highest, _ => false
  | _, highest => true
  | .at a b, .at c d => a * d < c * b

/-- Where a number lies, unless the value is no number. -/
def mark? : Quantity → Option Mark
  | whole n => some (.at n 1)
  | real x =>
    match Decimal.Reading.ofFloat x with
    | .finite b => some (.at (if b.negative then -(b.numerator : Int) else b.numerator) b.denominator)
    | .infinite negative => some (if negative then .lowest else .highest)
    | .nan => none
  | other value => value.toInt?.map fun n => .at n 1

/-- The text, if the value is one. -/
def text? : Quantity → Option Text.Points
  | other (.string s) => some s
  | _ => none

/-- Whether the value counts as a number, be it the one that is none. -/
def isNumber : Quantity → Bool
  | other value => value.toInt?.isSome
  | _ => true

/-- The order of numbers among themselves and of texts among themselves. What is no number is not
below anything, nor above it. -/
def lt (p q : Quantity) : Bool :=
  match p.mark?, q.mark?, p.text?, q.text? with
  | some m, some n, _, _ => m.lt n
  | _, _, some s, some t => Text.Points.precedes s.toList t.toList
  | _, _, _, _ => false

end Quantity

end TurretPunch
