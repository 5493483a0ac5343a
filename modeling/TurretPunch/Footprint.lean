import TurretPunch.Sheet
import TurretPunch.Tool.Basic

namespace TurretPunch

/-!
# Footprints

The footprint of a tool is the box around its position. Without a width or a height it shrinks to a
segment, and without both to a point. It is on the sheet when no part of it is outside; touching the
edge is not outside. The shapes and the test make sense over any numbers with an order.
-/

/-- The part of the plane that a tool covers. -/
inductive Footprint (α : Type) where
  | box (left bottom right top : α)
  | segment (left bottom right top : α)
  | point (x y : α)
deriving Repr

namespace Footprint

variable {α : Type} [OfNat α 0]

/-- The footprint around a position. -/
def around [LT α] [DecidableLT α] [Add α] [Sub α] (x y halfWidth halfHeight : α) : Footprint α :=
  if 0 < halfWidth ∧ 0 < halfHeight then
    .box (x - halfWidth) (y - halfHeight) (x + halfWidth) (y + halfHeight)
  else if 0 < halfWidth ∨ 0 < halfHeight then
    .segment (x - halfWidth) (y - halfHeight) (x + halfWidth) (y + halfHeight)
  else .point x y

/-- The two opposite corners that span a footprint. -/
def corners : Footprint α → (α × α) × (α × α)
  | box left bottom right top => ((left, bottom), (right, top))
  | segment left bottom right top => ((left, bottom), (right, top))
  | point x y => ((x, y), (x, y))

def onSheet [LE α] [DecidableLE α] (width height : α) (p : α × α) : Bool :=
  0 ≤ p.1 && p.1 ≤ width && 0 ≤ p.2 && p.2 ≤ height

/-- Whether a footprint is on a sheet. A sheet is convex, so that two corners decide. -/
def within [LE α] [DecidableLE α] (width height : α) (f : Footprint α) : Bool :=
  onSheet width height f.corners.1 && onSheet width height f.corners.2

/-- Whether a footprint is a box whose first corner, the lower right one, is no number. -/
def isCornerless : Footprint Float → Bool
  | box _ bottom right _ => bottom.isNaN || right.isNaN
  | _ => false

/-- The part of a footprint that has a place. One end of a box or of a segment that has the other end at
infinity can be no number; then there is only the other end. -/
def placed : Footprint Float → Footprint Float
  | box left bottom right top => box (if left.isNaN then right else left) bottom right top
  | segment left bottom right top => segment left bottom (if right.isNaN then left else right) top
  | point x y => point x y

/-- Whether a point lies on an edge of a sheet that has an end at infinity. -/
def onEndlessEdge (sheet : Sheet) (p : Float × Float) : Bool :=
  let wide := sheet.width == Decimal.infinity
  let high := sheet.height == Decimal.infinity
  (wide && p.2 == 0.0) || (high && p.1 == 0.0)
    || ((wide || high) && (p.1 == sheet.width || p.2 == sheet.height))

/-- Whether a point lies at infinity on the right, below the upper edge of a sheet. There is no side of
the sheet there to be on. -/
def isBeyondSides (sheet : Sheet) (p : Float × Float) : Bool :=
  p.1 == Decimal.infinity && p.2 < sheet.height

/-- Whether a footprint that reaches no farther than a sheet leaves it. On a sheet without end that can
be undecided: where a footprint touches an edge that has an end at infinity, there is no side of that
edge to be on. A footprint that is no more than a spot touches nothing. A box without one end touches
the edge at infinity with the other, and a segment without one end is not on the sheet. -/
def leavesInside (sheet : Sheet) (f : Footprint Float) : Except Fault Bool :=
  let (p, q) := f.corners
  let undecided :=
    if p.1.isNaN then true
    else if q.1.isNaN || p == q then isBeyondSides sheet p
    else onEndlessEdge sheet p || onEndlessEdge sheet q
  if undecided then .error .endlessEdge else .ok q.1.isNaN

def leaves (sheet : Sheet) (f : Footprint Float) : Except Fault Bool :=
  if f.isCornerless then .error .cornerless
  else if !f.placed.within sheet.width sheet.height then .ok true
  else f.leavesInside sheet

/-- Half of the width and half of the height of a tool. What is assumed of a station without a tool
is a diameter. -/
def extents (fallback : Quantity) : Option Tool → Except Fault (Float × Float)
  | some tool => tool.halfExtents
  | none => fallback.half.map fun r => (r, r)

/-- The footprint of a tool at a position. -/
def ofTool (fallback : Quantity) (tool : Option Tool) (x y : Float) :
    Except Fault (Footprint Float) :=
  (extents fallback tool).map fun (halfWidth, halfHeight) => around x y halfWidth halfHeight

/-- Whether a tool at a position leaves a sheet. -/
def toolLeaves (sheet : Sheet) (fallback : Quantity) (tool : Option Tool) (x y : Float) :
    Except Fault Bool :=
  (ofTool fallback tool x y).bind (leaves sheet)

end Footprint

end TurretPunch
