import TurretPunch.Storage.Basic

namespace TurretPunch

/-!
# Configuration files

Configuration files hold JSON, a list or an object according to their kind.
-/

namespace Storage

def readJson (s : Storage) (document : Document) (path : Path) : Except Fault Json := do
  if !(← s.contains path) then .error (.missingDocument document path.text)
  else
    match Json.read (← s.readText path) with
    | .ok value => return value
    | .error (.malformed problem line column position) =>
      .error (.malformedDocument document path.text problem line column position)
    | .error (.longInteger count) => .error (.longInteger count)
    | .error .deepNesting => .error .deepNesting

/-- Reads a configuration file that holds a list. -/
def readList (s : Storage) (document : Document) (path : Path) : Except Fault (List Json) := do
  match ← s.readJson document path with
  | .array items => return items
  | _ => .error (.unexpectedContent document path.text)

/-- Reads a configuration file that holds an object. -/
def readObject (s : Storage) (document : Document) (path : Path) :
    Except Fault (List (Text.Points × Json)) := do
  match ← s.readJson document path with
  | .object members => return members
  | _ => .error (.unexpectedContent document path.text)

end Storage

end TurretPunch
