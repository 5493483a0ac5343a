import TurretPunch.Decimal.Layout

namespace TurretPunch.Decimal

/-!
# Fixed places

The exact value of a double rounded to a number of decimal places; a half goes to the even
neighbour. The sign of a negative value stays even when all digits are zero.
-/

/-- Puts the last `places` digits of a whole number in front of `after`, with zeros in front of
them. -/
def lastDigitsOnto : Nat → Nat → List Char → List Char
  | 0, _, after => after
  | places + 1, n, after => lastDigitsOnto places (n / 10) ((n % 10).digitChar :: after)

/-- The last `places` digits of a whole number, with zeros in front. -/
def lastDigits (places n : Nat) : List Char := lastDigitsOnto places n []

@[simp] theorem length_lastDigitsOnto (places n : Nat) (after : List Char) :
    (lastDigitsOnto places n after).length = places + after.length := by
  induction places generalizing n after with
  | zero => simp [lastDigitsOnto]
  | succ places ih =>
    rw [lastDigitsOnto, ih, List.length_cons]
    omega

@[simp] theorem length_lastDigits (places n : Nat) : (lastDigits places n).length = places := by
  simp [lastDigits]

/-- Writes `n / 10 ^ places`. -/
def pointed (places n : Nat) : List Char :=
  digits (n / Nat.pow 10 places) ++ if places = 0 then [] else '.' :: lastDigits places n

/-- The magnitude of a fraction in units of the last of `places` places. -/
def BinaryFraction.rounded (b : BinaryFraction) (places : Nat) : Nat :=
  roundHalfEven (b.numerator * Nat.pow 10 places) b.denominator

/-- A double with a fixed number of places. -/
def fixed (places : Nat) (x : Float) : String :=
  match Reading.ofFloat x with
  | .nan => "nan"
  | .infinite negative => infiniteText negative
  | .finite b => signed b.negative (pointed places (b.rounded places))

end TurretPunch.Decimal
