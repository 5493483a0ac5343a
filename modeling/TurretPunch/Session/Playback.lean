import TurretPunch.Session.Basic

namespace TurretPunch.Session

/-!
# Playing

A run starts with `start` and, as soon as the time is known, `started`. Its playback is asked for
the next step with `pull`. It answers with a step, with its end, or with what it needs first, a wait
or the time; it goes on with `resume` after a wait and with `closeAt` when it has the time.
-/

/-- What a playback answers. -/
inductive Outcome where
  /-- It is to be resumed after this many seconds. -/
  | wait (seconds : Float)
  /-- It is to be closed with the time. -/
  | readClock
  | shown (snapshot : Snapshot)
  | ended
  | failed (fault : Fault)
deriving Repr

def setPlayback (s : Session) (id : Nat) (playback : Playback) : Session :=
  { s with playbacks := s.playbacks.set id playback }

/-- Ends a run before its end. -/
def halt (s : Session) : Reply Unit :=
  ⟨{ s with press := { s.press with running := false }, phase := .stopped },
    [.runStopped s.press.step], ()⟩

def haltIfRunning (s : Session) : Reply Unit := if s.isRunning then s.halt else ⟨s, [], ()⟩

/-- Ends a playback, and with it a run that is still active. -/
def finishPlayback (s : Session) (id : Nat) (outcome : Outcome) : Reply Outcome :=
  let reply := (s.setPlayback id .finished).haltIfRunning
  ⟨reply.session, reply.notices, outcome⟩

/-- Starts a run, up to the reading of the clock, unless a run is active, no program is loaded, or
the program has errors. The result says whether it starts. -/
def start (s : Session) : Reply Bool :=
  if s.isRunning then ⟨s, [.runRefusedRunning], false⟩
  else
    match s.program with
    | none => ⟨s, [.runRefusedEmpty], false⟩
    | some program =>
      if program.errors.isEmpty then
        ⟨{ s with press := { running := true }, report := none, stopRequested := false
                  phase := .running }, [], true⟩
      else ⟨s, [.runRefusedFaulty program.errors.length], false⟩

/-- The playback of the last run, if it stands at a step or at its report. -/
def suspended (s : Session) : Option Nat :=
  s.current.filter fun id => s.playbacks[id]?.any (·.isSuspended)

/-- The session with a new playback at the start of a run. -/
def begun (s : Session) (time : Float) : Session :=
  { s with
    startTime := time, playbacks := s.playbacks ++ [.created], current := some s.playbacks.length }

/-- Goes on with the start of a run when the time is known. The result is the new playback. The session
lets go of the playback of the run before: if nobody else keeps it and it stands at a step or at its
report, it ends now, and the new run with it. -/
def started (s : Session) (time : Float) (kept : Bool := true) : Reply Nat :=
  let told := .runStarted s.operations.length s.interval
  match if kept then none else s.suspended with
  | none => ⟨s.begun time, [told], s.playbacks.length⟩
  | some earlier =>
    let ended := (s.begun time).finishPlayback earlier .ended
    ⟨ended.session, told :: ended.notices, s.playbacks.length⟩

/-- The wait before a hit, and after an operation: a tool change takes half as long as the rest. -/
def restAfter (s : Session) : Operation → Float
  | .toolChange .. => s.interval / 4000.0
  | _ => s.interval / 2000.0

/-- The press after an operation of the loaded program, with its line in the log, before it is seen
whether the tool leaves the sheet. -/
def pressAfter (s : Session) (index : Nat) (op : Operation) (entry : LogEntry) : Press :=
  ({ s.press with step := index, line := op.line, mode := s.modeAt index }.carryOut s.interval op).record
    s.logRoom entry

/-- Makes the operation of the loaded program at an index. A warning is given when the tool leaves
the sheet and did not do so before. -/
def makeStep (s : Session) (now : Timestamp) (index : Nat) : Reply (Except Fault Snapshot) :=
  match s.operations[index]? with
  | none => ⟨s, [], .error .pastProgramEnd⟩
  | some op =>
    let entry := LogEntry.ofOperation s.turret now op
    let moved := { s with press := s.pressAfter index op entry }
    let told := [Notice.stepped entry]
    if op.isFinish then ⟨moved, told, .ok (moved.snapshot (some op) none (some entry))⟩
    else
      match moved.pressLeaves with
      | .error fault => ⟨moved, told, .error fault⟩
      | .ok out =>
        let press := { moved.press with outOfBounds := out }
        let after := { moved with press }
        let warning :=
          if out && !s.press.outOfBounds then
            [Notice.leftSheet press.tool s.sheet press.x press.y op.line]
          else []
        ⟨after, told ++ warning, .ok (after.snapshot (some op) op.hole? (some entry))⟩

/-- Ends the run of a playback that has made all its operations, up to the reading of the clock. -/
def complete (s : Session) (id : Nat) (last : Option Operation) (entry : Option LogEntry) :
    Reply Outcome :=
  let s := { s with press := { s.press with running := false }, phase := .completed }
  ⟨s.setPlayback id (.closing last entry), [], .readClock⟩

/-- Makes the operation `op` of a playback, after what was waited for before it. -/
def play (s : Session) (now : Timestamp) (id index : Nat) (op : Operation) (rest : List Operation) :
    Reply Outcome :=
  let step := s.makeStep now index
  let next :=
    match step.result with
    | .error fault => step.session.finishPlayback id (.failed fault)
    | .ok snapshot =>
      if op.isFinish then step.session.complete id (some op) snapshot.entry
      else ⟨step.session.setPlayback id (.shown index op rest), [], .shown snapshot⟩
  ⟨next.session, step.notices ++ next.notices, next.result⟩

/-- Goes on with a playback before the operation at an index. A requested stop takes effect here,
but not after the last operation. -/
def proceed (s : Session) (now : Timestamp) (id index : Nat) (last : Option Operation) :
    List Operation → Reply Outcome
  | [] => s.complete id last none
  | op :: rest =>
    if s.stopRequested then
      let reply := (s.setPlayback id .finished).halt
      ⟨reply.session, reply.notices, .ended⟩
    else if op.hole?.isSome then
      ⟨s.setPlayback id (.approaching index op rest), [], .wait (s.interval / 2000.0)⟩
    else s.play now id index op rest

def pull (s : Session) (now : Timestamp) (id : Nat) : Reply Outcome :=
  match s.playbacks[id]? with
  | some .created => s.proceed now id 0 none s.operations
  | some (.shown index op rest) =>
    ⟨s.setPlayback id (.resting index op rest), [], .wait (s.restAfter op)⟩
  | some .reported => s.finishPlayback id .ended
  | some .finished => ⟨s, [], .ended⟩
  | some _ => ⟨s, [], .failed .alreadyPlaying⟩
  | none => ⟨s, [], .failed .noRun⟩

/-- Goes on with a playback that has waited. -/
def resume (s : Session) (now : Timestamp) (id : Nat) : Reply Outcome :=
  match s.playbacks[id]? with
  | some (.approaching index op rest) => s.play now id index op rest
  | some (.resting index op rest) => s.proceed now id (index + 1) (some op) rest
  | _ => ⟨s, [], .ended⟩

/-- The report of a run that ends at a time. -/
def reportAt (s : Session) (now : Timestamp) (time : Float) : Report :=
  Report.build (time - s.startTime) s.press.holeCount s.press.travel s.press.hitTime s.press.used now

/-- Gives the report of a run at the time of its end. -/
def closeAt (s : Session) (now : Timestamp) (id : Nat) (time : Float) : Reply Outcome :=
  match s.playbacks[id]? with
  | some (.closing last entry) =>
    let after := { s with report := some (s.reportAt now time) }
    ⟨after.setPlayback id .reported, [.runCompleted s.press.holeCount s.press.travel],
      .shown (after.snapshot last none entry)⟩
  | _ => ⟨s, [], .ended⟩

/-- Breaks off a playback that waits. -/
def interrupt (s : Session) (id : Nat) : Reply Outcome := s.finishPlayback id (.failed .interrupted)

/-- Closes a playback. One of which nothing was asked yet leaves its run as it is, and one that is
in the middle of a step cannot be closed. -/
def closePlayback (s : Session) (id : Nat) : Reply Outcome :=
  match s.playbacks[id]? with
  | some .created => ⟨s.setPlayback id .finished, [], .ended⟩
  | some (.shown ..) => s.finishPlayback id .ended
  | some .reported => s.finishPlayback id .ended
  | some .finished => ⟨s, [], .ended⟩
  | some _ => ⟨s, [], .failed .alreadyPlaying⟩
  | none => ⟨s, [], .failed .noRun⟩

/-- Whether a playback can be closed from outside. -/
def isOpen (s : Session) (id : Nat) : Bool :=
  match s.playbacks[id]? with
  | some .finished => false
  | some playback => !playback.isBusy
  | none => false

/-- Stops an active run before its next step. A playback that is not in the middle of a step is
closed at once; one that is ends by itself. -/
def stop (s : Session) : Reply Unit :=
  if s.isRunning then
    let asked := { s with stopRequested := true }
    match s.current.filter asked.isOpen with
    | none => ⟨asked, [.stopRequested], ()⟩
    | some id =>
      let closed := asked.closePlayback id
      let reply := closed.session.haltIfRunning
      ⟨reply.session, .stopRequested :: closed.notices ++ reply.notices, ()⟩
  else ⟨s, [], ()⟩

/-- How many more pulls a playback can answer with a step or its end. -/
def remaining (s : Session) (id : Nat) : Nat :=
  match s.playbacks[id]? with
  | some .created => s.operations.length + 2
  | some (.approaching _ _ rest) => rest.length + 3
  | some (.shown _ _ rest) => rest.length + 2
  | some (.resting _ _ rest) => rest.length + 2
  | some (.closing ..) => 2
  | some .reported => 1
  | _ => 1

end TurretPunch.Session
