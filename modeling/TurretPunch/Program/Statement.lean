import TurretPunch.Operation
import TurretPunch.Program.Comment
import TurretPunch.Program.Word
import TurretPunch.Text.Capital

namespace TurretPunch.Program

/-!
# Statements

What one line of a program says. A line that sets the coordinate mode says nothing else, and neither
does one that changes the tool.
-/

/-- A motion that a command asks for. -/
inductive Motion where
  | rapid
  | punch
deriving DecidableEq, Repr

/-- The motion of a command. The digits count as they are written: `0` is not `00`. -/
def Motion.ofDigits? (ds : List Char) : Option Motion :=
  if ds = ['0', '0'] then some .rapid
  else if ds = ['8', '1'] then some .punch
  else none

/-- The coordinates and the size in a line. -/
structure Words where
  x : Option Float
  y : Option Float
  size : Option Float

namespace Words

def ofLine (cs : List Char) : Words := ⟨valueOf? 'X' cs, valueOf? 'Y' cs, valueOf? 'D' cs⟩

def isEmpty (w : Words) : Bool := w.x.isNone && w.y.isNone && w.size.isNone

end Words

/-- What one line says. -/
inductive Statement where
  | nothing
  | setMode (mode : Mode)
  | changeTool (digits : List Char)
  /-- A command of its own, which asks for a motion or for something unknown. -/
  | command (motion : Option Motion) (words : Words)
  /-- Words that go with the last command. -/
  | again (words : Words)

namespace Statement

/-- What a line of capitals without comments says. -/
def ofCapitals (cs : List Char) : Statement :=
  if mentions ['G', '9', '0'] cs then .setMode .absolute
  else if mentions ['G', '9', '1'] cs then .setMode .relative
  else
    match digitsAfter? 'T' cs, digitsAfter? 'G' cs with
    | some ds, _ => .changeTool ds
    | none, some ds => .command (Motion.ofDigits? ds) (.ofLine cs)
    | none, none =>
      let words := Words.ofLine cs
      if (digitsAfter? 'M' cs).isSome || words.isEmpty then .nothing else .again words

/-- What a line says. Case, comments and blanks at its ends do not matter. -/
def ofLine (ps : List Text.Point) : Statement :=
  ofCapitals (Text.capitals ((stripComments ps).map (·.replacement)))

end Statement

end TurretPunch.Program
