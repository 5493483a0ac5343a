import TurretPunch.Check
import TurretPunch.Press.Replay
import TurretPunch.Program.Reader
import TurretPunch.Session.Notice
import TurretPunch.Settings
import TurretPunch.Storage.Saving

namespace TurretPunch

/-!
# Sessions

A session has a turret, a sheet and settings, and plays programs on a press. It is idle, running,
completed or stopped. While it is running it refuses to load, to reset, to seek and to run.

A playback is a run that is made step by step. Whenever it needs something from outside, a wait or
the time, it stands still until it gets it; so every change of a session happens at once, and other
calls can come in between.
-/

/-- Where a session is. -/
inductive Phase where
  | idle
  | running
  | completed
  | stopped
deriving DecidableEq, Repr

def Phase.name : Phase → String
  | idle => "idle"
  | running => "running"
  | completed => "completed"
  | stopped => "stopped"

/-- What a session shows after a step. -/
structure Snapshot where
  step : Int
  operation : Option Operation
  line : Int
  x : Float
  y : Float
  tool : Int
  hole : Option Hole
  entry : Option LogEntry
  outOfBounds : Bool
  travel : Float
  phase : Phase
  report : Option Report
deriving BEq, Repr

/-- How far a playback is. It carries the operations that it still has to make. -/
inductive Playback where
  /-- Nothing has been asked of it. -/
  | created
  /-- It waits before the hit `op`, which has this index. -/
  | approaching (index : Nat) (op : Operation) (rest : List Operation)
  /-- It has shown the step `op`. -/
  | shown (index : Nat) (op : Operation) (rest : List Operation)
  /-- It waits after the step `op`. -/
  | resting (index : Nat) (op : Operation) (rest : List Operation)
  /-- It has made all operations and needs the time. -/
  | closing (last : Option Operation) (entry : Option LogEntry)
  /-- It has shown the report. -/
  | reported
  | finished
deriving Repr

namespace Playback

/-- Whether a playback is in the middle of a step. -/
def isBusy : Playback → Bool
  | approaching .. | resting .. | closing .. => true
  | _ => false

/-- Whether a playback stands at a step or at its report. -/
def isSuspended : Playback → Bool
  | shown .. | reported => true
  | _ => false

end Playback

/-- A session. -/
structure Session where
  turret : Turret
  sheet : Sheet
  interval : Float
  fallback : Quantity
  logRoom : Nat
  text : Text.Points := ""
  program : Option Program := none
  phase : Phase := .idle
  report : Option Report := none
  startTime : Float := 0.0
  stopRequested : Bool := false
  press : Press := {}
  playbacks : List Playback := []
  current : Option Nat := none
deriving Repr

/-- What a call does: the session after it, what is told, and the result. -/
structure Reply (α : Type) where
  session : Session
  notices : List Notice
  result : α

/-- The largest number of lines that a log can have room for. -/
def maxLogRoom : Int := 0x7FFFFFFFFFFFFFFF

/-- How many lines a log has room for. -/
def roomOf : Quantity → Except Fault Nat
  | .whole n => ofInt n
  | .real _ => .error .wrongType
  | .other value =>
    match value.toInt? with
    | some n => ofInt n
    | none => .error .wrongType
where
  /-- The room, unless it is too large. -/
  ofInt (n : Int) : Except Fault Nat :=
    if maxLogRoom < n then .error .overflow else .ok n.toNat

namespace Session

/-- A session with settings, on the sheet of the settings unless there is another one. An interval
that is a whole number beyond every double is infinite; the command line does not play with it. -/
def ofSettings (turret : Turret) (sheet : Option Sheet) (settings : Settings) :
    Except Fault Session := do
  let sheet ← match sheet with
    | some sheet => pure sheet
    | none => Sheet.ofQuantities settings.width settings.height
  let room ← roomOf settings.logLimit
  let interval ← settings.interval.toDouble
  return { turret, sheet, interval, fallback := settings.fallback, logRoom := room }

def isRunning (s : Session) : Bool := s.phase == .running

def operations (s : Session) : List Operation :=
  match s.program with
  | some program => program.operations
  | none => []

def errors (s : Session) : List LineError :=
  match s.program with
  | some program => program.errors
  | none => []

/-- The coordinate mode of the operation at an index. -/
def modeAt (s : Session) (index : Nat) : Mode :=
  match s.program with
  | some program => program.modeAt index
  | none => .absolute

/-- What programs are read against. -/
def tooling (s : Session) : Program.Tooling := ⟨s.turret, s.fallback⟩

/-- What operations are checked against. -/
def setup (s : Session) : Setup := ⟨s.turret, s.fallback, s.sheet⟩

/-- Whether the active tool leaves the sheet at the position of the press. -/
def pressLeaves (s : Session) : Except Fault Bool := s.setup.leaves s.press.tool s.press.x s.press.y

def snapshot (s : Session) (operation : Option Operation) (hole : Option Hole)
    (entry : Option LogEntry) : Snapshot :=
  { step := s.press.step, operation, line := s.press.line, x := s.press.x, y := s.press.y
    tool := s.press.tool, hole, entry, outOfBounds := s.press.outOfBounds
    travel := s.press.travel, phase := s.phase, report := s.report }

/-- Forgets the last run. -/
def cleared (s : Session) : Session :=
  { s with press := {}, report := none, phase := .idle, stopRequested := false }

/-- Forgets the last run, unless a run is active. -/
def reset (s : Session) : Reply Unit :=
  if s.isRunning then ⟨s, [.resetRefused], ()⟩ else ⟨s.cleared, [], ()⟩

/-- Takes in a program with its text. -/
def accept (s : Session) (program : Program) (text : Text.Points) : Reply (Option Program) :=
  ⟨{ s.cleared with program := some program, text },
    if program.errors.isEmpty then [] else [.programFaulty program.errors.length], some program⟩

/-- Loads a program that comes without a text, unless a run is active. -/
def loadProgram (s : Session) (program : Program) : Reply (Option Program) :=
  if s.isRunning then ⟨s, [.loadRefused], none⟩ else s.accept program ""

/-- Loads the text of a program, unless a run is active. A text with a fault is not loaded. -/
def load (s : Session) (text : Text.Points) : Reply (Except Fault (Option Program)) :=
  if s.isRunning then ⟨s, [.loadRefused], .ok none⟩
  else
    let found := (Program.readText s.tooling text).1.errors.map .lineError
    match Program.ofText s.tooling text with
    | .error fault => ⟨s, found, .error fault⟩
    | .ok program =>
      let reply := s.accept program text
      ⟨reply.session,
        found ++ .programRead program.operations.length program.errors.length :: reply.notices,
        .ok reply.result⟩

/-- Tries to save the text that was loaded last. -/
def attemptSave (s : Session) (storage : Storage) (path : Path) : Storage × Except Fault Path :=
  storage.attemptSave s.text path

/-- The press right after the operation at an index, as far as it can be told from the program. It
stands at the origin if the operation goes nowhere. -/
def pressAt (s : Session) (index : Nat) (op : Operation) : Press :=
  let replay := Replay.ofOperations s.interval (s.operations.take (index + 1))
  let (x, y) := op.target?.getD (0.0, 0.0)
  { s.press with
    holes := replay.holes, used := replay.used, tool := replay.tool, travel := replay.travel
    hitTime := replay.hitTime, step := index, line := op.line, mode := s.modeAt index, x, y }

/-- Shows the press as it is right after an operation, without playing. The operation may lack a
footprint, if its position is no number. -/
def seekTo (s : Session) (index : Nat) (op : Operation) : Reply (Except Fault (Option Snapshot)) :=
  let moved := { s with press := s.pressAt index op }
  let leaves := if op.target?.isSome then moved.pressLeaves else .ok false
  match leaves with
  | .error fault => ⟨moved, [], .error fault⟩
  | .ok out =>
    let after := { moved with press := { moved.press with outOfBounds := out } }
    ⟨after, [.sought index op.line after.press.holeCount], .ok (some (after.snapshot (some op) none none))⟩

/-- Shows the press as it is right after the operation at an index, unless a run is active or there
is no such operation. -/
def seek (s : Session) (index : Int) : Reply (Except Fault (Option Snapshot)) :=
  if s.isRunning then ⟨s, [.seekRefusedRunning index], .ok none⟩
  else
    match if 0 ≤ index then s.operations[index.toNat]? else none with
    | some op => s.seekTo index.toNat op
    | none => ⟨s, [.seekRefusedRange index s.operations.length], .ok none⟩

end Session

end TurretPunch
