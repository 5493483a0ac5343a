import TurretPunch.CommandLine.Performance

namespace TurretPunch.CommandLine

/-!
# Rehearsals

A rehearsal tells what the program would do with a storage. Its clock stands still except while the
program waits, and what comes in between is planned.
-/

/-- Surroundings that only keep what is printed, with the number of waits so far. What comes in
between is planned by the number of the wait, the first of which is one. -/
structure Rehearsal where
  now : Timestamp
  plans : List (Int × Interference) := []
  clock : Float := 0.0
  waits : Int := 0
  printed : List Printed := []

namespace Rehearsal

def wait (seconds : Float) : StateM Rehearsal (List Interference) := do
  let r ← get
  let count := r.waits + 1
  set { r with waits := count, clock := r.clock + seconds }
  return (r.plans.filter (·.1 == count)).map (·.2)

def surroundings : Surroundings (StateM Rehearsal) where
  print p := modify fun r => { r with printed := r.printed ++ [p] }
  wait := wait
  seconds := return (← get).clock
  now := return (← get).now

end Rehearsal

/-- What the program did: how it ended, what it printed, and the files after it. -/
structure Performed where
  ending : Ending
  printed : List Printed
  storage : Storage

/-- Rehearses a run after what was printed before it. -/
def rehearseRun (now : Timestamp) (plans : List (Int × Interference)) (desk : Desk)
    (prepared : Prepared) : Performed :=
  let (ending, r) :=
    (Rehearsal.surroundings.perform prepared).run { now, plans, printed := desk.printed }
  ⟨ending, r.printed, desk.storage⟩

def rehearse (now : Timestamp) (plans : List (Int × Interference)) (storage : Storage)
    (arguments : List Text.Points) : Performed :=
  match (prepare arguments).run.run { storage } with
  | (.error ending, desk) => ⟨ending, desk.printed, desk.storage⟩
  | (.ok prepared, desk) => rehearseRun now plans desk prepared

end TurretPunch.CommandLine
