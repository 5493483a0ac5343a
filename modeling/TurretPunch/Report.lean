import TurretPunch.Decimal.Fixed
import TurretPunch.Decimal.Layout
import TurretPunch.Fault

namespace TurretPunch

/-!
# Reports

What a run that went to its end tells about itself.
-/

/-- A point in time of the calendar and the clock. -/
structure Timestamp where
  year : Nat
  month : Nat
  day : Nat
  hour : Nat
  minute : Nat
  second : Nat
deriving DecidableEq, Repr, Inhabited

namespace Timestamp

def timeText (t : Timestamp) : String :=
  Decimal.zeroPadded 2 t.hour ++ ":" ++ Decimal.zeroPadded 2 t.minute ++ ":"
    ++ Decimal.zeroPadded 2 t.second

def text (t : Timestamp) : String :=
  Decimal.integer t.year ++ "-" ++ Decimal.zeroPadded 2 t.month ++ "-"
    ++ Decimal.zeroPadded 2 t.day ++ " " ++ t.timeText

end Timestamp

/-- The figures of a completed run. The efficiency is the part of the time, in percent, that went
into hitting. -/
structure Report where
  elapsed : Float
  holes : Int
  rate : Float
  travel : Float
  efficiency : Float
  hitSeconds : Float
  tools : List Int
  completed : Timestamp
deriving BEq, Repr

namespace Report

/-- The elapsed time in minutes. -/
def minutes (r : Report) : Float := r.elapsed / 60.0

/-- A whole number as a double. -/
def double (n : Int) : Float :=
  (Decimal.ofInt? n).getD (if n < 0 then -Decimal.infinity else Decimal.infinity)

/-- Derives a report from what was counted. Time does not run backwards, and the rate and the
efficiency are zero if none has passed. -/
def build (elapsed : Float) (holes : Int) (travel hitMilliseconds : Float) (tools : List Int)
    (completed : Timestamp) : Report :=
  let elapsed := if elapsed < 0.0 then 0.0 else elapsed
  let minutes := elapsed / 60.0
  let hitSeconds := hitMilliseconds / 1000.0
  { elapsed
    holes
    rate := if 0.0 < minutes then double holes / minutes else 0.0
    travel
    efficiency := if 0.0 < elapsed then hitSeconds / elapsed * 100.0 else 0.0
    hitSeconds
    tools := tools.mergeSort
    completed }

/-- Derives a report from what was counted elsewhere. A rate takes a number of holes that is not
beyond every double. -/
def ofCounts (elapsed : Float) (holes : Int) (travel hitMilliseconds : Float) (tools : List Int)
    (completed : Timestamp) : Except Fault Report :=
  let report := build elapsed holes travel hitMilliseconds tools completed
  if 0.0 < report.minutes && (Decimal.ofInt? holes).isNone then .error .overflow else .ok report

/-- Tools in a list, or the word for none. -/
def toolsText (tools : List Int) : String :=
  if tools.isEmpty then "none"
  else ", ".intercalate (tools.map fun t => "T" ++ Decimal.integer t)

def summary (r : Report) : List String := [
  "Total time:      " ++ Decimal.fixed 2 r.minutes ++ " min (" ++ Decimal.fixed 1 r.elapsed ++ " s)",
  "Holes punched:   " ++ Decimal.integer r.holes,
  "Productivity:    " ++ Decimal.fixed 1 r.rate ++ " holes/min",
  "Travel distance: " ++ Decimal.fixed 1 r.travel ++ " mm",
  "Efficiency:      " ++ Decimal.fixed 1 r.efficiency ++ "%",
  "Tools used:      " ++ toolsText r.tools,
  "Completed:       " ++ r.completed.text]

end Report

end TurretPunch
