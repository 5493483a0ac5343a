import TurretPunch.CommandLine.Preparation

namespace TurretPunch.CommandLine

/-!
# Runs

A run needs surroundings to print to, to wait in, and to get the time from. They can be any monad:
those of a terminal, or some that only tell what would happen. While the run waits, something can
interfere with it.
-/

/-- What can come in between while a run waits. -/
inductive Interference where
  /-- The session is told to stop. -/
  | stop
  /-- The wait is broken off. -/
  | interrupt
deriving DecidableEq, Repr

/-- What a run needs from outside. A wait results in what came in between, and `seconds` is a clock
that does not run backwards. -/
structure Surroundings (m : Type → Type) where
  print : Printed → m Unit
  wait : Float → m (List Interference)
  seconds : m Float
  now : m Timestamp

namespace Surroundings

variable {m : Type → Type} [Monad m]

def tell (place : Surroundings m) (verbose : Bool) (notices : List Notice) : m Unit :=
  (notices.filterMap (Printed.ofNotice? verbose)).forM place.print

/-- What is printed of a snapshot: its line of the log, if it has one. -/
def snapshotLines (snapshot : Snapshot) : Except Fault (List Printed) :=
  match snapshot.entry with
  | none => .ok []
  | some entry => entry.text.map fun s =>
    [.line (if snapshot.outOfBounds then s ++ "  [out of bounds]" else s)]

/-- Goes on after a wait. A wait that is broken off leaves no time for a stop. -/
def afterWait (place : Surroundings m) (verbose : Bool) (s : Session) (id : Nat)
    (events : List Interference) : m (Reply Session.Outcome) := do
  if events.contains .interrupt then return s.interrupt id
  else if events.contains .stop then do
    let reply := s.stop
    place.tell verbose reply.notices
    return reply.session.resume (← place.now) id
  else return s.resume (← place.now) id

/-- Gives a playback what it answers that it needs, or prints the step that it shows and asks for
the next one. The result is nothing when the playback has ended. -/
def serve (place : Surroundings m) (verbose : Bool) (s : Session) (id : Nat) :
    Session.Outcome → m (Except Fault (Option (Reply Session.Outcome)))
  | .wait seconds => do
    let events ← place.wait seconds
    return .ok (some (← place.afterWait verbose s id events))
  | .readClock => do
    let time ← place.seconds
    return .ok (some (s.closeAt (← place.now) id time))
  | .shown snapshot =>
    match snapshotLines snapshot with
    | .error fault => return .error fault
    | .ok lines => do
      lines.forM place.print
      return .ok (some (s.pull (← place.now) id))
  | .ended => return .ok none
  | .failed fault => return .error fault

/-- Follows a playback to its end. It answers at most `fuel` times. -/
def follow (place : Surroundings m) (verbose : Bool) :
    Nat → Session → Nat → Session.Outcome → m (Session × Except Fault Unit)
  | 0, s, _, _ => return (s, .ok ())
  | fuel + 1, s, id, outcome => do
    match ← place.serve verbose s id outcome with
    | .error fault => return (s, .error fault)
    | .ok none => return (s, .ok ())
    | .ok (some reply) =>
      place.tell verbose reply.notices
      place.follow verbose fuel reply.session id reply.result

/-- Prints how a run went. -/
def conclude (place : Surroundings m) (s : Session) : Except Fault Unit → m Ending
  | .error .interrupted => do
    place.print (.line "Stopped.")
    return .exit 0
  | .error fault => return .fault fault
  | .ok () => do
    match s.report with
    | none => place.print (.line "Run did not complete.")
    | some report => ("" :: report.summary).forM fun l => place.print (.line l)
    return .exit 0

/-- Follows the playback of a run that has started. For every step it waits at most twice, once
asks for the time and once shows something. An interval beyond every double cannot be waited for. -/
def followRun (place : Surroundings m) (prepared : Prepared) (s : Session) (id : Nat) :
    m (Session × Except Fault Unit) := do
  match prepared.interval.toFloat with
  | .error fault => return (s, .error fault)
  | .ok _ =>
    let fuel := 4 * s.remaining id
    let reply := s.pull (← place.now) id
    place.tell prepared.verbose reply.notices
    place.follow prepared.verbose fuel reply.session id reply.result

/-- Runs the program of a session that is ready to run. -/
def perform (place : Surroundings m) (prepared : Prepared) : m Ending := do
  let reply := prepared.session.start
  place.tell prepared.verbose reply.notices
  if reply.result then
    let reply := reply.session.started (← place.seconds)
    place.tell prepared.verbose reply.notices
    let (s, outcome) ← place.followRun prepared reply.session reply.result
    place.conclude s outcome
  else place.conclude reply.session (.ok ())

end Surroundings

end TurretPunch.CommandLine
