import TurretPunch.Press.Basic

namespace TurretPunch

/-!
# Replays

A replay goes through operations without playing them. It keeps account of its own of what a press
would show after them: where it is, with which tool, how far it went, how long the hits took, which
tools were used, and the holes.
-/

/-- What a replay has gathered so far. -/
structure Replay where
  x : Float := 0.0
  y : Float := 0.0
  tool : Int := 1
  travel : Float := 0.0
  hitTime : Float := 0.0
  used : List Int := []
  holes : List Hole := []
deriving BEq, Repr

namespace Replay

def goTo (r : Replay) (x y : Float) : Replay :=
  { r with x, y, travel := r.travel + Decimal.hypotenuse (x - r.x) (y - r.y) }

def add (interval : Float) (r : Replay) : Operation → Replay
  | .toolChange _ station => { r with tool := station, used := insertTool station r.used }
  | .move _ x y _ => r.goTo x y
  | .hit _ x y diameter tool =>
    { r.goTo x y with
      holes := r.holes ++ [⟨x, y, diameter, tool⟩], used := insertTool tool r.used
      hitTime := r.hitTime + interval / 2.0 }
  | .finish _ => r

def ofOperations (interval : Float) (ops : List Operation) : Replay := ops.foldl (add interval) {}

end Replay

end TurretPunch
