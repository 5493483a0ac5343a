import TurretPunch.Text.Points

namespace TurretPunch

/-!
# JSON values

Whole numbers and fractional numbers are kept apart, and the members of an object keep their order.
A string can hold halves of surrogate pairs.
-/

/-- A JSON value. -/
inductive Json where
  | null
  | bool (b : Bool)
  | int (n : Int)
  | float (x : Float)
  | string (s : Text.Points)
  | array (items : List Json)
  | object (members : List (Text.Points × Json))
deriving BEq, Repr, Inhabited

namespace Json

/-- Puts a member into an object: a name that is there already keeps its place and gets the new
value. -/
def putMember (name : Text.Points) (value : Json) :
    List (Text.Points × Json) → List (Text.Points × Json)
  | [] => [(name, value)]
  | (n, v) :: rest =>
    if n = name then (n, value) :: rest else (n, v) :: putMember name value rest

/-- A value as a whole number or a truth value, which count as numbers in arithmetic. -/
def toInt? : Json → Option Int
  | .int n => some n
  | .bool b => some (if b then 1 else 0)
  | _ => none

end Json

end TurretPunch
