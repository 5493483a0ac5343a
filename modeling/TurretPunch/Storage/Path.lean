import TurretPunch.Text.Points
import TurretPunch.Text.Utf8

namespace TurretPunch

/-!
# Paths

A path is a list of names, from a starting folder on. Empty names and single dots are dropped when a
path is read; two dots stay, because what they mean depends on the folders that are there.
-/

/-- A path from the starting folder, or from the root if the first name is a slash. -/
structure Path where
  names : List Text.Points
deriving DecidableEq, Repr, Inhabited

namespace Path

def splitNames : List Text.Point → List (List Text.Point)
  | [] => [[]]
  | p :: rest =>
    match p == .char '/', splitNames rest with
    | true, parts => [] :: parts
    | false, part :: parts => (p :: part) :: parts
    | false, [] => [[p]]

def rootName : Text.Points := "/"

def ofText (text : Text.Points) : Path :=
  let parts := (splitNames text.toList).filter fun part => part ≠ [] ∧ part ≠ [.char '.']
  let names := parts.map Text.Points.mk
  ⟨if rootName.isPrefixOf text then rootName :: names else names⟩

/-- Writes a path. The starting folder itself is a dot. -/
def text (p : Path) : Text.Points :=
  match p.names with
  | [] => "."
  | first :: rest =>
    if first = rootName then rootName ++ .intercalate "/" rest else .intercalate "/" (first :: rest)

def maxNameSize : Nat := 255

def maxSize : Nat := 4095

/-- The bytes of a code point in a name. Half of a surrogate pair stands for one byte, with whose
number its own ends. -/
def pointBytes : Text.Point → List UInt8
  | .char c => String.utf8EncodeChar c
  | .half surrogate => [surrogate.toUInt8]

/-- The bytes of a text as a name or a path. -/
def bytesOf (text : Text.Points) : List UInt8 := text.toList.flatMap pointBytes

/-- How many bytes a text takes as a name or a path. -/
def sizeOf (text : Text.Points) : Nat := (bytesOf text).length

/-- The code points that the bytes of a name spell. A byte that belongs to no character is spelled by
half of a surrogate pair. Each code point takes at least one byte, so that as much fuel as there are
bytes is enough. -/
def spellFrom : Nat → List UInt8 → List Text.Point
  | 0, _ => []
  | _, [] => []
  | fuel + 1, byte :: rest =>
    match Text.decodeChar byte rest with
    | .char c _ after => .char c :: spellFrom fuel after
    | .fault .. => .half (0xDC00 + byte.toNat) :: spellFrom fuel rest

/-- The usual spelling of a name. Names that have the same bytes are one name. -/
def spelled (name : Text.Points) : Text.Points := ⟨spellFrom (sizeOf name) (bytesOf name)⟩

def isLongName (name : Text.Points) : Bool := maxNameSize < sizeOf name

/-- Whether a path is too long as a whole. -/
def isLong (p : Path) : Bool := maxSize < sizeOf p.text

/-- Whether there is a null character in a path. -/
def hasNull (p : Path) : Bool := p.names.any (·.toList.contains (.char '\x00'))

/-- Whether a code point cannot be in a name. Half of a surrogate pair can only if its number ends with
that of a byte which is not ASCII, for which it stands. -/
def isNameless : Text.Point → Bool
  | .char _ => false
  | .half surrogate => surrogate < 0xDC80 || 0xDCFF < surrogate

/-- Whether no file can have a path. -/
def isNamelessPath (p : Path) : Bool := p.names.any (·.toList.any isNameless)

/-- The folder that a path lies in, as it is written. -/
def parent (p : Path) : Path := ⟨p.names.dropLast⟩

/-- A name in the folder of a path. -/
def child (p : Path) (name : Text.Points) : Path := ⟨p.names ++ [name]⟩

end Path

end TurretPunch
