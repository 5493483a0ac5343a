import TurretPunch.Quantity

namespace TurretPunch

/-!
# Operations

What a press is told to do: change the tool, move, hit, or finish. Each operation keeps the line of
the program that it comes from; lines count from zero.
-/

/-- How coordinates are meant: from the origin or from the last position. -/
inductive Mode where
  | absolute
  | relative
deriving DecidableEq, Repr, Inhabited

namespace Mode

def word : Mode → String
  | absolute => "G90"
  | relative => "G91"

def ofWord? (s : String) : Option Mode := [absolute, relative].find? (·.word == s)

/-- The mode that a word sets, which must be one of the two words. -/
def ofWord (word : Text.Points) : Except Fault Mode :=
  match word.string?.bind ofWord? with
  | some mode => .ok mode
  | none => .error (.unknownMode word)

@[simp] theorem ofWord?_word (mode : Mode) : ofWord? mode.word = some mode := by
  cases mode <;> rfl

@[simp] theorem ofWord_word (mode : Mode) : ofWord mode.word = .ok mode := by
  simp [ofWord]

end Mode

/-- The number of a line in messages, where lines count from one. It cannot be written with more digits
than a number can be read with. -/
def lineNumber (number : Int) : Except Fault String :=
  let count := Decimal.digitCount number.natAbs
  if Text.maxDigits < count then .error (.longInteger count) else .ok (Decimal.integer number)

/-- One operation of a press. -/
inductive Operation where
  | toolChange (line : Int) (station : Int)
  | move (line : Int) (x y : Float) (tool : Int)
  | hit (line : Int) (x y : Float) (diameter : Quantity) (tool : Int)
  | finish (line : Int)
deriving BEq, Repr

namespace Operation

def line : Operation → Int
  | toolChange line _ => line
  | move line _ _ _ => line
  | hit line _ _ _ _ => line
  | finish line => line

def target? : Operation → Option (Float × Float)
  | move _ x y _ => some (x, y)
  | hit _ x y _ _ => some (x, y)
  | _ => none

/-- Whether an operation is the end of a program. -/
def isFinish : Operation → Bool
  | finish _ => true
  | _ => false

def positionText (x y : Float) : String :=
  "X" ++ Decimal.fixed 1 x ++ " Y" ++ Decimal.fixed 1 y

def describe : Operation → Except Fault String
  | toolChange _ station => .ok ("T" ++ Decimal.zeroPadded 2 station)
  | move _ x y _ => .ok ("G00 " ++ positionText x y)
  | hit _ x y diameter tool => do
    let size ← diameter.onePlace
    return "G81 " ++ positionText x y ++ " D" ++ size ++ " (T" ++ Decimal.integer tool ++ ")"
  | finish _ => .ok "END"

end Operation

end TurretPunch
