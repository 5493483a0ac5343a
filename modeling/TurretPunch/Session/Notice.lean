import TurretPunch.Press.Basic
import TurretPunch.Program.Basic
import TurretPunch.Sheet

namespace TurretPunch

/-!
# Notices

What a session tells about itself while it works, with a level that says how much it matters.
-/

/-- How much a notice matters. -/
inductive Level where
  | debug
  | info
  | warning
deriving DecidableEq, Repr

namespace Level

def name : Level → String
  | debug => "DEBUG"
  | info => "INFO"
  | warning => "WARNING"

def rank : Level → Nat
  | debug => 0
  | info => 1
  | warning => 2

end Level

/-- What a session tells. -/
inductive Notice where
  | lineError (e : LineError)
  | programRead (operations errors : Nat)
  | programFaulty (errors : Nat)
  | loadRefused
  | runRefusedRunning
  | runRefusedEmpty
  | runRefusedFaulty (errors : Nat)
  | runStarted (operations : Nat) (interval : Float)
  | runCompleted (holes : Nat) (travel : Float)
  | runStopped (step : Int)
  | stopRequested
  | resetRefused
  | seekRefusedRunning (step : Int)
  | seekRefusedRange (step : Int) (operations : Nat)
  | sought (step : Int) (line : Int) (holes : Nat)
  | stepped (entry : LogEntry)
  | leftSheet (tool : Int) (sheet : Sheet) (x y : Float) (line : Int)
deriving Repr

namespace Notice

def level : Notice → Level
  | lineError .. | programRead .. | sought .. | stepped .. => .debug
  | programFaulty .. | runStarted .. | runCompleted .. | runStopped .. | stopRequested => .info
  | _ => .warning

/-- The part of the program that tells it. -/
def source : Notice → String
  | lineError .. | programRead .. => "punchsim.gcode.parser"
  | _ => "punchsim.core.simulator"

def text : Notice → Except Fault Text.Points
  | lineError e => do
    return "Parse error on line " ++ (← lineNumber (e.line + 1)) ++ ": " ++ e.problem.message
  | programRead operations errors =>
    .ok ("Parsed " ++ Decimal.integer operations ++ " operations, " ++ Decimal.integer errors
      ++ " errors")
  | programFaulty errors =>
    .ok ("Program has " ++ Decimal.integer errors ++ " parse error(s); run disabled")
  | loadRefused => .ok "Cannot load a program while a run is active"
  | runRefusedRunning => .ok "Run requested while already running; ignored"
  | runRefusedEmpty => .ok "Run requested with no program loaded; ignored"
  | runRefusedFaulty errors =>
    .ok ("Run refused: program has " ++ Decimal.integer errors ++ " parse error(s)")
  | runStarted operations interval =>
    .ok ("Run started (" ++ Decimal.integer operations ++ " operations, interval "
      ++ Decimal.fixed 0 interval ++ " ms)")
  | runCompleted holes travel =>
    .ok ("Run completed: " ++ Decimal.integer holes ++ " holes, " ++ Decimal.fixed 1 travel
      ++ " mm travel")
  | runStopped step => .ok ("Run stopped at step " ++ Decimal.integer step)
  | stopRequested => .ok "Stop requested"
  | resetRefused => .ok "Cannot reset while a run is active"
  | seekRefusedRunning step =>
    .ok ("Seek to step " ++ Decimal.integer step ++ " ignored: run in progress")
  | seekRefusedRange step operations =>
    .ok ("Seek to step " ++ Decimal.integer step ++ " out of range [0, "
      ++ Decimal.integer operations ++ ")")
  | sought step line holes => do
    return "Seek to step " ++ Decimal.integer step ++ " (line " ++ (← lineNumber (line + 1)) ++ "): "
      ++ Decimal.integer holes ++ " holes"
  | stepped entry => entry.text
  | leftSheet tool sheet x y line => do
    return "Tool T" ++ Decimal.integer tool ++ " footprint leaves the " ++ sheet.sizeText "x"
      ++ " sheet at " ++ Operation.positionText x y ++ " (line " ++ (← lineNumber (line + 1)) ++ ")"

end Notice

end TurretPunch
