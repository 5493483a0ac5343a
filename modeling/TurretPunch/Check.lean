import TurretPunch.Footprint
import TurretPunch.Operation
import TurretPunch.Turret

namespace TurretPunch

/-!
# Checking operations

A check goes through operations without playing them and says what is doubtful about them: tools
that leave the sheet, round punches without a size, and a program without hits. It follows the tool
from change to change. What it finds is advice; nothing of it keeps a program from being played.
-/

/-- How grave a finding is. -/
inductive Severity where
  | error
  | warning
deriving DecidableEq, Repr

def Severity.name : Severity → String
  | error => "error"
  | warning => "warning"

/-- What a check finds. -/
inductive Finding where
  /-- A tool leaves the sheet at the position of an operation. -/
  | leavesSheet (op : Operation) (tool : Int) (x y : Float) (sheet : Sheet)
  /-- A round punch has no positive size. -/
  | badSize (op : Operation) (size : Float)
  /-- There is no hit at all. -/
  | noHits
deriving Repr

namespace Finding

def severity : Finding → Severity
  | leavesSheet .. => .warning
  | badSize .. => .error
  | noHits => .warning

def operation? : Finding → Option Operation
  | leavesSheet op .. => some op
  | badSize op .. => some op
  | noHits => none

/-- The start of what is told about an operation. -/
def lineText (op : Operation) : Except Fault String := do
  let line ← lineNumber (op.line + 1)
  return "Line " ++ line ++ ": "

def message : Finding → Except Fault String
  | leavesSheet op tool x y sheet => do
    return (← lineText op) ++ "T" ++ Decimal.integer tool ++ " at " ++ Operation.positionText x y
      ++ " leaves the " ++ sheet.sizeText "x" ++ " sheet"
  | badSize op size => do
    return (← lineText op) ++ "punch size D" ++ Decimal.significant 6 size
      ++ " must be positive for a round punch"
  | noHits => .ok "Program contains no punch hits"

end Finding

/-- What operations are checked against: the turret, the size of a punch at a station without a
tool, and the sheet. -/
structure Setup where
  turret : Turret
  fallback : Quantity
  sheet : Sheet

namespace Setup

/-- Whether the tool of a station leaves the sheet at a position. -/
def leaves (setup : Setup) (station : Int) (x y : Float) : Except Fault Bool :=
  Footprint.toolLeaves setup.sheet setup.fallback (setup.turret.get? station) x y

/-- Whether a station punches round holes. A station without a tool is taken to. -/
def isRound (setup : Setup) (station : Int) : Bool :=
  match setup.turret.get? station with
  | some tool => tool.isRound
  | none => true

/-- What is doubtful about the position of an operation. -/
def checkPosition (setup : Setup) (tool : Int) (op : Operation) (x y : Float) :
    Except Fault (List Finding) := do
  let out ← setup.leaves tool x y
  return if out then [.leavesSheet op tool x y setup.sheet] else []

/-- What is doubtful about the size of a hit. -/
def checkSize (setup : Setup) (tool : Int) (op : Operation) (size : Quantity) :
    Except Fault (List Finding) := do
  let bad ← size.isNonPositive
  if bad && setup.isRound tool then
    let size ← size.writable
    return [.badSize op size]
  else return []

/-- What is doubtful about one operation while a tool is active, one thing after the other. -/
def checksOf (setup : Setup) (tool : Int) (op : Operation) : List (Except Fault (List Finding)) :=
  match op with
  | .move _ x y _ => [setup.checkPosition tool op x y]
  | .hit _ x y size _ => [setup.checkPosition tool op x y, setup.checkSize tool op size]
  | _ => []

def toolAfter (tool : Int) : Operation → Int
  | .toolChange _ station => station
  | _ => tool

/-- What is doubtful about operations, from the active tool on. -/
def checksFrom (setup : Setup) : Int → List Operation → List (Except Fault (List Finding))
  | _, [] => []
  | tool, op :: rest => setup.checksOf tool op ++ setup.checksFrom (toolAfter tool op) rest

end Setup

/-- Collects what checks find, each finding in the form that `form` gives it. The first fault counts,
be it of a check or of the form of a finding. -/
def collectFindings {α : Type} (form : Finding → Except Fault α) :
    List (Except Fault (List Finding)) → Except Fault (List α)
  | [] => .ok []
  | check :: rest => do
    let here ← (← check).mapM form
    let more ← collectFindings form rest
    return here ++ more

def hitPositions (ops : List Operation) : List (Float × Float) :=
  ops.filterMap fun op =>
    match op with
    | .hit _ x y _ _ => some (x, y)
    | _ => none

/-- The outcome of a check: the findings, and the smallest sheet at the origin that holds all hits,
if there are any. -/
structure Check where
  findings : List Finding
  requiredSheet : Option Sheet
deriving Repr

namespace Check

/-- Whether there is an error among the findings. -/
def hasErrors (check : Check) : Bool := check.findings.any (·.severity == .error)

/-- Whether there is a warning among the findings. -/
def hasWarnings (check : Check) : Bool := check.findings.any (·.severity == .warning)

def isOk (check : Check) : Bool := check.findings.isEmpty

end Check

def Setup.check (setup : Setup) (ops : List Operation) : Except Fault Check := do
  let findings ← collectFindings .ok (setup.checksFrom 1 ops)
  match hitPositions ops with
  | [] => return ⟨findings ++ [.noHits], none⟩
  | hits => return ⟨findings, some (Sheet.around 0.0 hits)⟩

/-- Checks operations, with the wording of each finding. A finding that cannot be worded counts as a
fault before everything that is looked at after it. -/
def Setup.checkInWords (setup : Setup) (ops : List Operation) : Except Fault (Check × List String) := do
  let _ ← collectFindings (·.message) (setup.checksFrom 1 ops)
  let check ← setup.check ops
  return (check, ← check.findings.mapM (·.message))

end TurretPunch
