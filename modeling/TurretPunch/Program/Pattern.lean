import TurretPunch.Program.Instruction

namespace TurretPunch

/-!
# Patterns

Programs for common layouts of holes, each with the size of the sheet that it is laid out for.
-/

/-- A layout of holes: the tool it starts with, the size of the sheet, and the instructions. -/
structure Pattern where
  key : String
  name : String
  category : String
  width : Nat
  height : Nat
  tool : Int := 1
  body : List Program.Instruction

namespace Pattern

open Program (Instruction)

/-- The instructions of a pattern, from the choice of the tool to the way back to the origin. -/
def instructions (p : Pattern) : List Instruction :=
  [.absolute, .changeTool p.tool] ++ p.body ++ [.rapid (some 0.0) (some 0.0), .endOfProgram]

def program (p : Pattern) : Text.Points := Program.write p.instructions

def holes (p : Pattern) : Nat :=
  p.instructions.countP fun
    | .punch .. => true
    | _ => false

/-- The numbers from `first` to `last`, `step` apart. -/
def spaced (first last step : Nat) : List Nat :=
  (List.range ((last - first) / step + 1)).map (first + step * ·)

/-- A coordinate in tenths of a millimetre. -/
def tenths (x : Float) : Float := Decimal.roundAt 10.0 x

def hit (p : Float × Float) : Instruction := .punch (some (tenths p.1)) (some (tenths p.2)) none

/-- A rapid to whole coordinates. -/
def rapidTo (x y : Nat) : Instruction := .rapid (some x.toFloat) (some y.toFloat)

/-- A point with whole coordinates. -/
def whole (x y : Nat) : Float × Float := (x.toFloat, y.toFloat)

/-- The ratio of a circle to its diameter. -/
def pi : Float := 3.141592653589793

/-- Points on a circle, evenly spread from the right on. -/
def ring (cx cy radius : Float) (count : Nat) : List (Float × Float) :=
  (List.range count).map fun i =>
    let angle := i.toFloat / count.toFloat * 2.0 * pi
    (cx + radius * angle.cos, cy + radius * angle.sin)

/-- Rows fifty apart, every second one shifted by half of that. -/
def perforated : Pattern where
  key := "perforated"
  name := "Perforated sheet"
  category := "Basic"
  width := 600
  height := 300
  body := (spaced 50 250 50).flatMap fun y =>
    let shift := if (y - 50) / 50 % 2 = 0 then 0 else 25
    rapidTo (50 + shift) y :: (spaced (50 + shift) (550 + shift) 50).map fun x => hit (whole x y)

/-- Rows and columns forty apart. -/
def grid : Pattern where
  key := "grid"
  name := "Rectangular grid"
  category := "Basic"
  width := 500
  height := 400
  body := (spaced 40 360 40).flatMap fun y =>
    rapidTo 40 y :: (spaced 40 460 40).map fun x => hit (whole x y)

/-- How many holes go on a circle when they are at least fifty apart along it. -/
def holesOnCircle (radius : Nat) : Nat := (2.0 * pi * radius.toFloat / 50.0).floor.toUInt64.toNat

/-- Four circles around the middle. -/
def circular : Pattern where
  key := "circular"
  name := "Circular grid"
  category := "Basic"
  width := 500
  height := 500
  body := (spaced 60 240 60).flatMap fun radius =>
    (ring 250.0 250.0 radius.toFloat (holesOnCircle radius)).map hit

/-- Every second field of eight by eight. -/
def checkerboard : Pattern where
  key := "checkerboard"
  name := "Checkerboard"
  category := "Basic"
  width := 480
  height := 480
  tool := 2
  body := (List.range 8).flatMap fun row =>
    ((List.range 8).filter fun col => (row + col) % 2 = 0).map fun col =>
      hit (whole (60 + col * 60) (60 + row * 60))

/-- Three rows for air. -/
def ventilation : Pattern where
  key := "ventilation"
  name := "Ventilation holes"
  category := "Industrial"
  width := 600
  height := 300
  tool := 2
  body := ((spaced 100 500 100).map fun x => hit (whole x 50))
    ++ ((spaced 75 525 150).map fun x => hit (whole x 150))
    ++ ((spaced 100 500 100).map fun x => hit (whole x 250))

/-- The corners and the middles of two sides. -/
def mounting : Pattern where
  key := "mounting"
  name := "Mounting holes"
  category := "Industrial"
  width := 400
  height := 300
  tool := 4
  body := [whole 20 20, whole 380 20, whole 20 280, whole 380 280, whole 200 50, whole 200 250].map hit

/-- Three rows sixty apart. -/
def electrical : Pattern where
  key := "electrical"
  name := "Electrical mounts"
  category := "Industrial"
  width := 500
  height := 200
  tool := 3
  body := (spaced 50 150 50).flatMap fun y => (spaced 30 470 60).map fun x => hit (whole x y)

/-- A row of hits with three tools. -/
def multiTool : Pattern where
  key := "multi_tool"
  name := "Multi-station job"
  category := "Industrial"
  width := 600
  height := 300
  body := [rapidTo 50 50, hit (whole 50 50), hit (whole 100 50), .changeTool 2, hit (whole 150 50),
    hit (whole 200 50), .changeTool 21, hit (whole 250 50)]

/-- Eight holes of ten millimetres on a circle, with a rapid to each. -/
def flange : Pattern where
  key := "flange_8"
  name := "Flange, 8 holes"
  category := "Industrial"
  width := 300
  height := 300
  body := (ring 150.0 150.0 80.0 8).flatMap fun p =>
    [.rapid (some (tenths p.1)) (some (tenths p.2)),
      .punch (some (tenths p.1)) (some (tenths p.2)) (some 10.0)]

/-- All patterns, in the order in which they are listed. -/
def all : List Pattern :=
  [perforated, grid, circular, checkerboard, ventilation, mounting, electrical, multiTool, flange]

def ofKey (key : Text.Points) : Except Fault Pattern :=
  match all.find? fun pattern => pattern.key == key with
  | some pattern => .ok pattern
  | none => .error (.unknownPattern key (all.map (·.key)))

end Pattern

end TurretPunch
