import TurretPunch.Turret

namespace TurretPunch

/-!
# The standard turret

Forty stations: twenty round punches, then squares, rectangles, ovals, special shapes and slots.
-/

namespace Turret

/-- The round tools of the standard turret, the diameter as a name and as a number. -/
def standardRound : List (Int × String × Float) := [
  (1, "8", 8), (2, "12", 12), (3, "6", 6), (4, "10", 10), (5, "16", 16), (6, "20", 20),
  (7, "4.5", 4.5), (8, "25", 25), (9, "30", 30), (10, "3", 3), (11, "32", 32), (12, "35", 35),
  (13, "40", 40), (14, "50", 50), (15, "2.5", 2.5), (16, "18", 18), (17, "14", 14), (18, "22", 22),
  (19, "28", 28), (20, "5", 5)]

/-- The other tools of the standard turret. -/
def standardShaped : List (Int × Shape × Float × Float × String) := [
  (21, .square, 10, 10, "Square 10x10 mm"),
  (22, .square, 15, 15, "Square 15x15 mm"),
  (23, .square, 20, 20, "Square 20x20 mm"),
  (24, .square, 25, 25, "Square 25x25 mm"),
  (25, .square, 30, 30, "Square 30x30 mm"),
  (26, .rectangular, 10, 20, "Rectangle 10x20 mm"),
  (27, .rectangular, 15, 30, "Rectangle 15x30 mm"),
  (28, .rectangular, 20, 40, "Rectangle 20x40 mm"),
  (29, .rectangular, 25, 50, "Rectangle 25x50 mm"),
  (30, .oval, 10, 20, "Oval 10x20 mm"),
  (31, .oval, 15, 30, "Oval 15x30 mm"),
  (32, .oval, 20, 40, "Oval 20x40 mm"),
  (33, .oval, 25, 50, "Oval 25x50 mm"),
  (34, .special, 20, 20, "Triangle 20 mm"),
  (35, .special, 20, 20, "Hexagon 20 mm"),
  (36, .special, 15, 15, "Cross"),
  (37, .special, 20, 20, "Star"),
  (38, .slot, 5, 30, "Slot 5x30 mm"),
  (39, .slot, 8, 40, "Slot 8x40 mm"),
  (40, .slot, 10, 50, "Slot 10x50 mm")]

def standard : Turret :=
  ⟨(standardRound.map fun (number, size, diameter) =>
      { number := .whole number, name := .string ("Round " ++ size ++ " mm"), shape := .round,
        diameter := .real diameter }) ++
    (standardShaped.map fun (number, shape, width, height, name) =>
      { number := .whole number, name := .string name, shape, width := .real width,
        height := .real height })⟩

end Turret

end TurretPunch
