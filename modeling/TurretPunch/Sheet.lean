import TurretPunch.Fault
import TurretPunch.Quantity

namespace TurretPunch

/-!
# Sheets

A rectangular sheet lies with its lower left corner at the origin. A size that is zero or negative
stands for the standard one.
-/

/-- A sheet of material. -/
structure Sheet where
  width : Float
  height : Float
deriving BEq, Repr

namespace Sheet

/-- The width of a sheet for which no other is given. -/
def standardWidth : Float := 600.0

/-- The height of a sheet for which no other is given. -/
def standardHeight : Float := 300.0

def ofSize (width height : Float) : Sheet :=
  ⟨if width ≤ 0.0 then standardWidth else width, if height ≤ 0.0 then standardHeight else height⟩

/-- One side of a sheet, whose size a configuration file gives. It is infinite if the size is a
whole number beyond every double; the command line does not get past writing such a size. -/
def sideOf (standard : Float) (size : Quantity) : Except Fault Float := do
  if ← size.isNonPositive then return standard else size.toDouble

/-- The sheet of a size that a configuration file gives. -/
def ofQuantities (width height : Quantity) : Except Fault Sheet := do
  let width ← sideOf standardWidth width
  let height ← sideOf standardHeight height
  return ⟨width, height⟩

/-- The sheet for which no size is given. -/
def standard : Sheet := ⟨standardWidth, standardHeight⟩

def area (sheet : Sheet) : Float := sheet.width * sheet.height

/-- The corners of a sheet: the lower left one, then the upper right one. -/
def bounds (sheet : Sheet) : List Float := [0.0, 0.0, sheet.width, sheet.height]

/-- The larger of two numbers, or no number if one of them is none. -/
def larger (x y : Float) : Float := if x.isNaN then x else if y ≤ x then x else y

/-- The smallest sheet that holds points with a margin. -/
def around (margin : Float) : List (Float × Float) → Sheet
  | [] => standard
  | (x, y) :: points =>
    let width := (points.map (·.1)).foldl larger x
    let height := (points.map (·.2)).foldl larger y
    ofSize (width + margin) (height + margin)

def pairs : List Float → Except Fault (List (Float × Float))
  | [] => .ok []
  | [_] => .error .unpairedPoints
  | x :: y :: rest => (pairs rest).map ((x, y) :: ·)

/-- The points in a table of numbers, which are read in pairs across its rows. All rows have the
same length. -/
def pointsOfRows (rows : List (List Float)) : Except Fault (List (Float × Float)) :=
  if rows.all (·.length == (rows.headD []).length) then pairs rows.flatten
  else .error .unpairedPoints

def sizeText (separator : String) (sheet : Sheet) : String :=
  Decimal.significant 6 sheet.width ++ separator ++ Decimal.significant 6 sheet.height

end Sheet

end TurretPunch
