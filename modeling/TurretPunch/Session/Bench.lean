import TurretPunch.Session.Playback

namespace TurretPunch

/-!
# A session on the bench

On the bench a session lives by a clock of its own, which stands still except while the session
waits. A script of calls is carried out one by one; calls can also be planned for a later wait or a
later reading of the clock, so that they come in the middle of another call.
-/

/-- One call of a script. Runs are numbered from zero; a call that names none means the last. -/
inductive Call where
  | load (text : Text.Points)
  | loadProgram (program : Program)
  /-- Starts a run. Somebody may still keep the playback of the run before. -/
  | run (kept : Bool := true)
  | next (run : Option Int)
  | drain (run : Option Int)
  | close (run : Option Int)
  /-- Starts a run and carries it out to its end. -/
  | complete (kept : Bool := true)
  | stop
  | reset
  | seek (step : Int)
  | advance (seconds : Float)
  /-- A call that cannot be made. It fails when its turn comes. -/
  | failing (fault : Fault)
  /-- Plans a call for the `n`th wait from now on, before the clock advances. -/
  | onWait (n : Int) (call : Call)
  /-- Plans a call for the `n`th reading of the clock from now on, before it is read. -/
  | onReading (n : Int) (call : Call)
  | save
deriving Repr, Inhabited

/-- How many calls a call consists of, with the planned ones. -/
def Call.size : Call → Nat
  | onWait _ call => call.size + 1
  | onReading _ call => call.size + 1
  | _ => 1

/-- What a call results in. -/
inductive CallResult where
  | nothing
  | program (program : Program)
  | run (number : Nat)
  | snapshot (snapshot : Snapshot)
  | snapshots (snapshots : List Snapshot)
  | report (report : Report)
  /-- The run was refused and had nothing to close. -/
  | refusedRun
  | clock (seconds : Float)
  | text (text : String)
  | failed (fault : Fault)

/-- The result for a value that may be missing. -/
def CallResult.ofOption {α : Type} (result : α → CallResult) : Option α → CallResult
  | some value => result value
  | none => nothing

/-- A session with its clock, the planned calls by the count at which they are due, the runs made so
far, and what has been seen since the last call of the script began. -/
structure Bench where
  session : Session
  now : Timestamp
  clock : Float := 0.0
  waitCount : Int := 0
  readingCount : Int := 0
  waitPlans : List (Int × Call) := []
  readingPlans : List (Int × Call) := []
  runs : List (Option Nat) := []
  notices : List Notice := []
  waits : List Float := []
  nested : List CallResult := []

namespace Bench

/-- A way to carry out a call. -/
abbrev Performer := Bench → Call → Bench × CallResult

/-- Takes over what a call on the session did. -/
def take {α : Type} (b : Bench) (reply : Reply α) : Bench :=
  { b with session := reply.session, notices := b.notices ++ reply.notices }

/-- Carries out planned calls and keeps their results. -/
def performPlanned (perform : Performer) (b : Bench) (plans : List (Int × Call)) : Bench :=
  plans.foldl (fun b (_, call) =>
    let (b, result) := perform b call
    { b with nested := b.nested ++ [result] }) b

def wait (perform : Performer) (b : Bench) (seconds : Float) : Bench :=
  let count := b.waitCount + 1
  let (due, later) := b.waitPlans.partition (·.1 == count)
  let b := { b with waitCount := count, waitPlans := later, waits := b.waits ++ [seconds] }
  let b := performPlanned perform b due
  { b with clock := b.clock + seconds }

/-- Gets ready for a reading of the clock. -/
def read (perform : Performer) (b : Bench) : Bench :=
  let count := b.readingCount + 1
  let (due, later) := b.readingPlans.partition (·.1 == count)
  performPlanned perform { b with readingCount := count, readingPlans := later } due

/-- Gives a playback what it needs until it answers with a step or its end, with at most `fuel` waits.
After it was given the time it needs nothing more. -/
def serve (perform : Performer) : Nat → Bench → Nat → Session.Outcome → Bench × Session.Outcome
  | fuel + 1, b, id, .wait seconds =>
    let b := b.wait perform seconds
    let reply := b.session.resume b.now id
    serve perform fuel (b.take reply) id reply.result
  | _, b, id, .readClock =>
    let b := b.read perform
    let reply := b.session.closeAt b.now id b.clock
    (b.take reply, reply.result)
  | _, b, _, outcome => (b, outcome)

/-- Asks a playback for the next step. It may wait after the last step and before the next. -/
def pull (perform : Performer) (b : Bench) (id : Nat) : Bench × Session.Outcome :=
  let reply := b.session.pull b.now id
  serve perform 2 (b.take reply) id reply.result

/-- Asks a playback for all the steps that are left, at most `fuel`. -/
def pullAll (perform : Performer) : Nat → Bench → Nat → Bench × Except Fault (List Snapshot)
  | 0, b, _ => (b, .ok [])
  | fuel + 1, b, id =>
    match b.pull perform id with
    | (b, .shown snapshot) =>
      let (b, more) := pullAll perform fuel b id
      (b, more.map (snapshot :: ·))
    | (b, .failed fault) => (b, .error fault)
    | (b, _) => (b, .ok [])

/-- Asks a playback for all the steps that are left. -/
def drain (perform : Performer) (b : Bench) (id : Nat) : Bench × Except Fault (List Snapshot) :=
  pullAll perform (b.session.remaining id) b id

/-- Starts a run. The result is its playback, unless it is refused. -/
def startRun (perform : Performer) (b : Bench) (kept : Bool := true) : Bench × Option Nat :=
  let reply := b.session.start
  let b := b.take reply
  if reply.result then
    let b := b.read perform
    let reply := b.session.started b.clock kept
    (b.take reply, some reply.result)
  else (b, none)

/-- The playback of a run, if it was not refused. Negative numbers count from the last run. -/
def playbackOf (b : Bench) (run : Option Int) : Except Fault (Option Nat) :=
  let number := run.getD (-1)
  let index := if number < 0 then number + b.runs.length else number
  match if 0 ≤ index then b.runs[index.toNat]? else none with
  | some playback => .ok playback
  | none => .error .noRun

/-- Carries out a call on a run: in one way if it has a playback, in another if it was refused. -/
def onRun (b : Bench) (run : Option Int) (refused : CallResult)
    (accepted : Nat → Bench × CallResult) : Bench × CallResult :=
  match b.playbackOf run with
  | .error fault => (b, .failed fault)
  | .ok none => (b, refused)
  | .ok (some id) => accepted id

def resultOf {α : Type} (result : α → CallResult) : Except Fault α → CallResult
  | .ok value => result value
  | .error fault => .failed fault

/-- Carries out a run to its end. The result is the report of the session. -/
def completeRun (perform : Performer) (b : Bench) (kept : Bool := true) : Bench × CallResult :=
  match b.startRun perform kept with
  | (b, none) => (b, .ofOption .report b.session.report)
  | (b, some id) =>
    match b.drain perform id with
    | (b, .ok _) => (b, .ofOption .report b.session.report)
    | (b, .error fault) => (b, .failed fault)

/-- What a file has in it after a text was saved. -/
def savedText (text : Text.Points) : Except Fault String :=
  match text.string? with
  | some s => .ok s
  | none => .error .unencodable

/-- Carries out a call, and the planned calls that come in its middle by `perform`. -/
def performWith (perform : Performer) (b : Bench) : Call → Bench × CallResult
  | .load text =>
    let reply := b.session.load text
    (b.take reply, resultOf (.ofOption .program) reply.result)
  | .loadProgram program =>
    let reply := b.session.loadProgram program
    (b.take reply, .ofOption .program reply.result)
  | .run kept =>
    let (b, playback) := b.startRun perform kept
    ({ b with runs := b.runs ++ [playback] }, .run b.runs.length)
  | .next run => b.onRun run .nothing fun id =>
    match b.pull perform id with
    | (b, .shown snapshot) => (b, .snapshot snapshot)
    | (b, .failed fault) => (b, .failed fault)
    | (b, _) => (b, .nothing)
  | .drain run => b.onRun run (.snapshots []) fun id =>
    let (b, outcome) := b.drain perform id
    (b, resultOf .snapshots outcome)
  | .close run => b.onRun run .refusedRun fun id =>
    let reply := b.session.closePlayback id
    match reply.result with
    | .failed fault => (b.take reply, .failed fault)
    | _ => (b.take reply, .nothing)
  | .complete kept => b.completeRun perform kept
  | .stop => (b.take b.session.stop, .nothing)
  | .reset => (b.take b.session.reset, .nothing)
  | .seek step =>
    let reply := b.session.seek step
    (b.take reply, resultOf (.ofOption .snapshot) reply.result)
  | .advance seconds =>
    let clock := b.clock + seconds
    ({ b with clock }, .clock clock)
  | .failing fault => (b, .failed fault)
  | .onWait n call => ({ b with waitPlans := b.waitPlans ++ [(b.waitCount + n, call)] }, .nothing)
  | .onReading n call =>
    ({ b with readingPlans := b.readingPlans ++ [(b.readingCount + n, call)] }, .nothing)
  | .save => (b, resultOf .text (savedText b.session.text))

/-- Carries out a call. Calls come in the middle of one another at most `fuel` deep, because every
planned call is carried out once. -/
def perform : Nat → Performer
  | 0, b, _ => (b, .nothing)
  | fuel + 1, b, call => performWith (perform fuel) b call

/-- What is seen of one call of a script. -/
structure Stage where
  result : CallResult
  session : Session
  notices : List Notice
  waits : List Float
  nested : List CallResult

def performAll (fuel : Nat) : Bench → List Call → List Stage
  | _, [] => []
  | b, call :: rest =>
    let (b, result) := perform fuel { b with notices := [], waits := [], nested := [] } call
    ⟨result, b.session, b.notices, b.waits, b.nested⟩ :: performAll fuel b rest

/-- How many calls a script consists of, with the planned ones. -/
def scriptSize : List Call → Nat
  | [] => 0
  | call :: rest => call.size + scriptSize rest

/-- Carries out a script on a fresh bench. -/
def runScript (session : Session) (now : Timestamp) (calls : List Call) : List Stage :=
  performAll (scriptSize calls + 1) { session, now } calls

end Bench

end TurretPunch
