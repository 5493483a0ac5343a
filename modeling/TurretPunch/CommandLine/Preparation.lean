import TurretPunch.CommandLine.Arguments
import TurretPunch.CommandLine.Listing
import TurretPunch.Session.Playback
import TurretPunch.Tool.Standard

namespace TurretPunch.CommandLine

/-!
# Before a run

Everything that comes before a run: the arguments are read, the files that they name too, and the
program is loaded and checked. Unless only this was asked for, a session that is ready to run
results.
-/

/-- What a run needs to know: the session, whether all notices are printed, and the interval as it
was set. -/
structure Prepared where
  session : Session
  verbose : Bool
  interval : Quantity

def understand (arguments : List Text.Points) : Job Arguments :=
  match readArguments arguments with
  | .ok found => pure found
  | .error .help => do
    print [⟨.output, help⟩]
    finish 0
  | .error (.error e) => do
    print [⟨.errors, usage⟩]
    print [.errorLine (programName ++ ": error: " ++ e.message)]
    finish 2

def configure (args : Arguments) : Job (Turret × Settings) := do
  let storage := (← get).storage
  let turret ← requireAnswered (args.tools.elim (.ok .standard) storage.readTurret)
  let settings ← requireAnswered (args.settings.elim (.ok {}) storage.readSettings)
  return (turret, settings)

/-- The text of a pattern, with the size of its sheet among the settings. -/
def usePattern (settings : Settings) (key : Text.Points) : Job (Text.Points × Settings) := do
  let p ← requireAnswered (Pattern.ofKey key)
  let settings ← require (settings.withOverrides [
    ("material_width", some (.whole p.width)), ("material_height", some (.whole p.height))])
  say ("Pattern: " ++ p.name ++ " (" ++ Decimal.integer p.holes ++ " hits)")
  return (p.program, settings)

/-- The text of a program file. -/
def useFile (path : Path) : Job Text.Points := do
  let storage := (← get).storage
  if ← require (storage.contains path) then
    return .ofChars (← require (storage.readText path))
  else refuse ("program not found: " ++ path.text)

/-- The text of the program, with the settings for it. A pattern comes before a file, unless its
key is empty. -/
def findProgram (args : Arguments) (settings : Settings) : Job (Text.Points × Settings) :=
  match args.pattern.filter (· ≠ .ofString ""), args.program with
  | some key, _ => usePattern settings key
  | none, some path => do return (← useFile path, settings)
  | none, none => refuse "give a program file or --pattern"

/-- A number among the arguments as a setting. Two dashes in its place are no number. -/
def setting : Given Float → Option Quantity
  | .absent => none
  | .void => some (.other (.array []))
  | .value x => some (.real x)

/-- The settings with those that stand among the arguments. -/
def adjust (args : Arguments) (settings : Settings) : Job Settings :=
  requireAnswered (settings.withOverrides [
    ("material_width", setting args.width), ("material_height", setting args.height),
    ("interval_ms", setting args.interval)])

/-- The value of a switch that cannot do without, if the switch occurs. -/
def requireGiven {α : Type} : Given α → Job (Option α)
  | .void => throw (.fault .wrongType)
  | given => pure given.value?

def saveCopy (session : Session) (path : Path) : Job Unit := do
  let desk ← get
  let (storage, saved) := session.attemptSave desk.storage path
  set { desk with storage }
  say ("Wrote " ++ (← require saved).text)

def loadText (verbose : Bool) (session : Session) (text : Text.Points) : Job Session := do
  let reply := session.load text
  tell verbose reply.notices
  let _ ← require reply.result
  return reply.session

/-- Ends the job if the program has errors. -/
def refuseErrors (errors : List LineError) : Job Unit :=
  if errors.isEmpty then pure ()
  else do
    complain "PARSE ERRORS:"
    errors.forM fun e => do complain ("  " ++ (← require e.text))
    finish 1

/-- One side of a sheet, as it was set. -/
def sideText (standard : Float) (size : Quantity) : Except Fault String := do
  if ← size.isNonPositive then return Decimal.significant 6 standard else size.general

/-- The size of the sheet, as it was set. A size beyond every double cannot be written. -/
def sheetText (settings : Settings) : Except Fault String := do
  let width ← sideText Sheet.standardWidth settings.width
  let height ← sideText Sheet.standardHeight settings.height
  return width ++ " x " ++ height

/-- A finding of the check as it is printed: an error with the errors, a warning with the output. -/
def findingLine (f : Finding) (message : String) : Printed :=
  match f.severity with
  | .error => .errorLine ("  ERROR: " ++ message)
  | .warning => .line ("  WARNING: " ++ message)

/-- Checks the program and prints what is found. -/
def checkProgram (session : Session) : Job Check := do
  let (check, messages) ← require (session.setup.checkInWords session.operations)
  print (check.findings.zipWith findingLine messages)
  return check

def numberList (numbers : List Int) : String :=
  "[" ++ ", ".intercalate (numbers.map Decimal.integer) ++ "]"

/-- Prints the press as it is after a step. -/
def showPress (step : Int) (op : Operation) (press : Press) : Job Unit := do
  let description ← require op.describe
  let line ← require (lineNumber (op.line + 1))
  say ("Step " ++ Decimal.integer step ++ " (line " ++ line ++ "): " ++ description)
  say ("  Position " ++ Operation.positionText press.x press.y ++ "  tool T"
    ++ Decimal.integer press.tool ++ if press.outOfBounds then "  OUT OF BOUNDS" else "")
  say ("  Holes so far: " ++ Decimal.integer press.holeCount ++ "  tools used: "
    ++ numberList press.used)

/-- Whether there is a step of a session, with a hit until then. -/
def timesHits (session : Session) (step : Int) : Bool :=
  let ops := session.operations
  0 ≤ step && step < ops.length && (ops.take (step + 1).toNat).any (·.hole?.isSome)

/-- Shows the press after a step instead of a run. Half of the interval is added up for the hits
until then, and must not be beyond every double. -/
def showStep (prepared : Prepared) (step : Int) : Job Unit := do
  if timesHits prepared.session step then
    let _ ← require prepared.interval.halved
  let reply := prepared.session.seek step
  tell prepared.verbose reply.notices
  match (← require reply.result).bind (·.operation) with
  | some op => showPress step op reply.session.press
  | none =>
    refuse ("step " ++ Decimal.integer step ++ " outside [0, "
      ++ Decimal.integer reply.session.operations.length ++ ")")

def prepare (arguments : List Text.Points) : Job Prepared := do
  let args ← understand arguments
  if args.listPatterns then
    listPatterns
    finish 0
  let (turret, settings) ← configure args
  if args.listTools then
    listTools turret
    finish 0
  let (text, settings) ← findProgram args settings
  let settings ← adjust args settings
  let session ← require (Session.ofSettings turret none settings)
  let session ← loadText args.verbose session text
  (← requireGiven args.saveTo).forM (saveCopy session)
  refuseErrors session.errors
  say ("Parsed " ++ Decimal.integer session.operations.length ++ " operations on a "
    ++ (← require (sheetText settings)) ++ " sheet")
  let check ← checkProgram session
  if args.check then finish (if check.hasErrors then 1 else 0)
  let prepared : Prepared := ⟨session, args.verbose, settings.interval⟩
  if let some step := ← requireGiven args.seek then
    showStep prepared step
    finish 0
  return prepared

end TurretPunch.CommandLine
