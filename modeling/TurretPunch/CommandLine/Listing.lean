import TurretPunch.CommandLine.Job
import TurretPunch.Program.Pattern
import TurretPunch.Text.Line
import TurretPunch.Turret

namespace TurretPunch.CommandLine

/-!
# Lists

The list of the patterns, and the list of the tools in a turret, shape by shape.
-/

def patternLine (p : Pattern) : Text.Points :=
  .padRight 14 p.key ++ " " ++ .padRight 12 p.category ++ " " ++ p.name

def listPatterns : Job Unit := Pattern.all.forM fun p => say (patternLine p)

/-- The size of a tool in the list. -/
def toolSize (t : Tool) : Except Fault String :=
  if t.isRound then t.diameter.general.map ("dia " ++ ·)
  else do
    let width ← t.width.general
    let height ← t.height.general
    return width ++ "x" ++ height

/-- The number of a tool in the list, with two digits at least. Only whole numbers have digits. -/
def stationText : Quantity → Except Fault String
  | .whole n => .ok (Decimal.zeroPadded 2 n)
  | .real _ => .error .unwritable
  | .other (.string _) => .error .unwritable
  | .other value =>
    match value.toInt? with
    | some n => .ok (Decimal.zeroPadded 2 n)
    | none => .error .wrongType

/-- The name of a tool in the list. A number can pass for a name, and a truth value for a number. -/
def nameText : Json → Except Fault Text.Points
  | .string s => .ok s
  | .float x => .ok (Decimal.shortest x)
  | value =>
    match value.toInt? with
    | some n => .ok (Decimal.integer n)
    | none => .error .wrongType

def toolLine (t : Tool) : Except Fault Text.Points := do
  let size ← toolSize t
  let station ← stationText t.number
  let name ← nameText t.name
  return "  T" ++ station ++ "  " ++ name.padRight 24 ++ " " ++ size

def listShape (shape : Shape) (tools : List Tool) : Job Unit := do
  say (shape.name ++ ":")
  tools.forM fun t => do say (← require (toolLine t))

def listTools (turret : Turret) : Job Unit := do
  (← require turret.categories).forM fun (shape, tools) => listShape shape tools

end TurretPunch.CommandLine
