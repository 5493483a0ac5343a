import TurretPunch.Storage.Basic

namespace TurretPunch.Storage

/-!
# Saving programs

The text of a program is saved as it is, whatever its lines end with. The folders on the way are
made.
-/

/-- The name of a program file in a folder. -/
def programName : Text.Points := "punch_program.nc"

/-- The content of a file with a text. Half of a surrogate pair cannot be in it. -/
def encoded (text : Text.Points) : Except Fault (List UInt8) :=
  match text.string? with
  | some s => .ok (Text.encodeUtf8 s)
  | none => .error .unencodable

/-- Tries to save the text of a program. A path to a folder stands for a file in that folder. The folders
that are made before a fault stay. -/
def attemptSave (s : Storage) (text : Text.Points) (path : Path) : Storage × Except Fault Path :=
  match s.isFolder path with
  | .error fault => (s, .error fault)
  | .ok isFolder =>
    let target := if isFolder then path.child programName else path
    match s.ensureFolders target.parent with
    | (grown, .error fault) => (grown, .error fault)
    | (grown, .ok ()) =>
      match do grown.write target (← encoded text) with
      | .error fault => (grown, .error fault)
      | .ok saved => (saved, .ok target)

/-- Saves the text of a program. -/
def saveProgram (s : Storage) (text : Text.Points) (path : Path) : Except Fault (Storage × Path) :=
  completed (s.attemptSave text path)

end TurretPunch.Storage
