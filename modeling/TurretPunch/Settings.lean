import TurretPunch.Json.Printer
import TurretPunch.Quantity
import TurretPunch.Storage.Document
import TurretPunch.Turret

namespace TurretPunch

/-!
# Settings

What can be set for a session: the playback interval in milliseconds, the size of the sheet, how
many lines the playback log has room for, and the size of a punch at a station without a tool.
-/

/-- The settings of a session, as they were given. -/
structure Settings where
  interval : Quantity := .real 500.0
  width : Quantity := .real 600.0
  height : Quantity := .real 300.0
  logLimit : Quantity := .whole 20
  fallback : Quantity := .real 8.0
deriving BEq, Repr

namespace Settings

def names : List String :=
  ["interval_ms", "material_width", "material_height", "log_limit", "fallback_diameter"]

/-- Changes the setting with a name, if there is one. -/
def set? (settings : Settings) (name : String) (value : Quantity) : Option Settings :=
  match name with
  | "interval_ms" => some { settings with interval := value }
  | "material_width" => some { settings with width := value }
  | "material_height" => some { settings with height := value }
  | "log_limit" => some { settings with logLimit := value }
  | "fallback_diameter" => some { settings with fallback := value }
  | _ => none

/-- Refuses a negative interval and a log without room. -/
def checked (settings : Settings) : Except Fault Settings := do
  if ← settings.interval.isBelow 0 then .error .negativeInterval
  else if ← settings.logLimit.isBelow 1 then .error .noLogRoom
  else return settings

/-- Changes settings by name, in order. All names must be known. -/
def setAll (settings : Settings) (values : List (String × Quantity)) : Except Fault Settings :=
  values.foldlM (fun settings (name, value) =>
    match settings.set? name value with
    | some settings => .ok settings
    | none => .error .wrongType) settings

def withValues (settings : Settings) (values : List (String × Quantity)) : Except Fault Settings :=
  (settings.setAll values).bind checked

/-- Changes the settings for which there is a value, and checks what results. -/
def withOverrides (settings : Settings) (values : List (String × Option Quantity)) :
    Except Fault Settings :=
  settings.withValues (values.filterMap fun (name, value) => value.map (name, ·))

/-- The settings in the members of an object. Unknown names are passed over. -/
def ofMembers (members : List (Text.Points × Json)) : Except Fault Settings :=
  ({} : Settings).withValues (members.filterMap fun (name, value) =>
    (name.string?.filter names.contains).map fun name => (name, .ofJson value))

def toJson (settings : Settings) : Json := .object [
  ("interval_ms", settings.interval.toJson), ("material_width", settings.width.toJson),
  ("material_height", settings.height.toJson), ("log_limit", settings.logLimit.toJson),
  ("fallback_diameter", settings.fallback.toJson)]

def text (settings : Settings) : Except Fault String :=
  if settings.toJson.isShallow then .ok (settings.toJson.write .indented) else .error .deepNesting

end Settings

namespace Storage

def readSettings (s : Storage) (path : Path) : Except Fault Settings := do
  Settings.ofMembers (← s.readObject .settingsFile path)

def readTurret (s : Storage) (path : Path) : Except Fault Turret := do
  Turret.ofEntries (← s.readList .toolLibrary path)

end Storage

end TurretPunch
