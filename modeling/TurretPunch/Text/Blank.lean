import TurretPunch.Text.Points

namespace TurretPunch.Text

/-!
# Blanks

The characters that Unicode counts as white space or as separators of lines, paragraphs, files,
groups, records and units, and the removal of them from the ends of a text.
-/

def blanks : List Nat := [
  0x9, 0xA, 0xB, 0xC, 0xD, 0x1C, 0x1D, 0x1E,
  0x1F, 0x20, 0x85, 0xA0, 0x1680, 0x2000, 0x2001, 0x2002,
  0x2003, 0x2004, 0x2005, 0x2006, 0x2007, 0x2008, 0x2009, 0x200A,
  0x2028, 0x2029, 0x202F, 0x205F, 0x3000]

def isBlank (c : Char) : Bool := blanks.contains c.toNat

def Point.isBlank : Point → Bool
  | char c => Text.isBlank c
  | half _ => false

def trimStart (ps : List Point) : List Point := ps.dropWhile (·.isBlank)

def trimEnd (ps : List Point) : List Point := (ps.reverse.dropWhile (·.isBlank)).reverse

def trim (ps : List Point) : List Point := trimEnd (trimStart ps)

end TurretPunch.Text
