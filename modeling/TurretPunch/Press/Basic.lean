import TurretPunch.Decimal.Root
import TurretPunch.Operation
import TurretPunch.Report
import TurretPunch.Turret

namespace TurretPunch

/-!
# The press

The press has a position and a tool, and keeps count of what it did: the travel, the time spent in
hits, the tools it used and the holes it made. A log of its last steps has room for a limited number
of lines.
-/

/-- A hole in the sheet. -/
structure Hole where
  x : Float
  y : Float
  diameter : Quantity
  tool : Int
deriving BEq, Repr

def Operation.hole? : Operation → Option Hole
  | hit _ x y diameter tool => some ⟨x, y, diameter, tool⟩
  | _ => none

/-- One line of the playback log. Its line of the program counts from one. -/
structure LogEntry where
  time : Timestamp
  line : Int
  message : Text.Points
  position : Option (Float × Float) := none
  diameter : Option Quantity := none
  tool : Option Int := none
deriving BEq, Repr

namespace LogEntry

/-- The text of a diameter, which is left out where a table of tools leaves it out. -/
def diameterText : Option Quantity → Except Fault (List Text.Points)
  | none => .ok []
  | some (.other .null) => .ok []
  | some diameter => diameter.onePlace.map fun s => [("D" ++ s : String)]

def text (e : LogEntry) : Except Fault Text.Points := do
  let line ← lineNumber e.line
  let start : List Text.Points := ["[" ++ e.time.timeText ++ "]", "L" ++ line]
  let position : Option Text.Points := e.position.map fun (x, y) => Operation.positionText x y
  let diameter ← diameterText e.diameter
  let tool : Option Text.Points := e.tool.map fun t => "T" ++ Decimal.integer t
  return .intercalate " " (start ++ [e.message] ++ position.toList ++ diameter ++ tool.toList)

/-- The name of the tool in a station. -/
def toolName (turret : Turret) (station : Int) : Text.Points :=
  match turret.get? station with
  | some tool => tool.name.plain
  | none => "unknown"

def ofOperation (turret : Turret) (time : Timestamp) (op : Operation) : LogEntry :=
  match op with
  | .toolChange line station =>
    { time, line := line + 1, tool := some station
      message := "Tool change to T" ++ Decimal.integer station ++ " (" ++ toolName turret station
        ++ ")" }
  | .move line x y tool =>
    { time, line := line + 1, message := "Rapid move", position := some (x, y), tool := some tool }
  | .hit line x y diameter tool =>
    { time, line := line + 1, message := "Punch", position := some (x, y), tool := some tool
      diameter := some diameter }
  | .finish line => { time, line := line + 1, message := "Program end" }

end LogEntry

/-- The state of the press. The step is minus one, and so is the line, before the first
operation. -/
structure Press where
  x : Float := 0.0
  y : Float := 0.0
  mode : Mode := .absolute
  tool : Int := 1
  travel : Float := 0.0
  hitTime : Float := 0.0
  used : List Int := []
  holes : List Hole := []
  step : Int := -1
  line : Int := -1
  running : Bool := false
  outOfBounds : Bool := false
  log : List LogEntry := []
deriving BEq, Repr

/-- Puts a number into an increasing list, unless it is there. -/
def insertTool (tool : Int) : List Int → List Int
  | [] => [tool]
  | t :: rest =>
    if tool < t then tool :: t :: rest
    else if tool = t then t :: rest
    else t :: insertTool tool rest

/-- The last items of a list, as many as there is room for. -/
def lastItems {α : Type} (room : Nat) (items : List α) : List α := items.drop (items.length - room)

namespace Press

def holeCount (p : Press) : Nat := p.holes.length

/-- Adds a line to the log. The oldest line gives way if there is no room. -/
def record (p : Press) (room : Nat) (entry : LogEntry) : Press :=
  { p with log := lastItems room (p.log ++ [entry]) }

def useTool (p : Press) (tool : Int) : Press := { p with used := insertTool tool p.used }

def moveTo (p : Press) (x y : Float) : Press :=
  { p with x, y, travel := p.travel + Decimal.hypotenuse (x - p.x) (y - p.y) }

/-- Carries out an operation. Every hit takes half of the playback interval. -/
def carryOut (p : Press) (interval : Float) : Operation → Press
  | .toolChange _ station => { p with tool := station }.useTool station
  | .move _ x y _ => p.moveTo x y
  | .hit _ x y diameter tool =>
    let p := (p.moveTo x y).useTool tool
    { p with holes := p.holes ++ [⟨x, y, diameter, tool⟩], hitTime := p.hitTime + interval / 2.0 }
  | .finish _ => p

end Press

end TurretPunch
