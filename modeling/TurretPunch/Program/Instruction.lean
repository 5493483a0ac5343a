import TurretPunch.Decimal.Fixed
import TurretPunch.Fault
import TurretPunch.Operation

namespace TurretPunch

/-!
# Writing programs

A program is written instruction by instruction, each in a line of its own. Coordinates have three
places, less the zeros at the end, but at least one.
-/

namespace Program

/-- Leaves out the zeros at the end of a number, except for one after the point. There is no
negative zero. -/
def tidied (text : List Char) : List Char :=
  let short := Decimal.dropTrailingZeros text
  let full := if short.getLast? = some '.' then short ++ ['0'] else short
  if full = ['-', '0', '.', '0'] ∨ full = ['-', '0'] then ['0', '.', '0'] else full

def number (places : Nat) (x : Float) : String :=
  String.ofList (tidied (Decimal.fixed places x).toList)

/-- The largest number of places that a number can be written with. -/
def maxPlaces : Int := 2147483647

def numberWith (places : Int) (x : Float) : Except Fault String :=
  if 0 ≤ places ∧ places ≤ maxPlaces then .ok (number places.toNat x) else .error .badPlaces

def coordinateText (x : Float) : String := number 3 x

/-- One instruction of a program. -/
inductive Instruction where
  | absolute
  | relative
  | changeTool (station : Int)
  | rapid (x y : Option Float)
  | punch (x y size : Option Float)
  | comment (text : Text.Points)
  | endOfProgram
deriving BEq, Repr

namespace Instruction

/-- A word, if it has a value. -/
def word (letter : String) (value : Option Float) : List String :=
  (value.map fun x => letter ++ coordinateText x).toList

/-- The text of a comment. Parentheses would end it early and are left out. -/
def commentText (text : Text.Points) : Text.Points :=
  ⟨text.toList.filter fun p => p ≠ .char '(' ∧ p ≠ .char ')'⟩

def line : Instruction → Text.Points
  | absolute => Mode.absolute.word
  | relative => Mode.relative.word
  | changeTool station => "T" ++ Decimal.zeroPadded 2 station
  | rapid x y => " ".intercalate ("G00" :: word "X" x ++ word "Y" y)
  | punch x y size => " ".intercalate ("G81" :: word "X" x ++ word "Y" y ++ word "D" size)
  | comment text => "(" ++ commentText text ++ ")"
  | endOfProgram => "M30"

end Instruction

/-- Joins lines. No newline follows the last one. -/
def joinLines (lines : List Text.Points) : Text.Points := Text.Points.intercalate "\n" lines

def write (instructions : List Instruction) : Text.Points := joinLines (instructions.map (·.line))

end Program

end TurretPunch
