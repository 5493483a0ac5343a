namespace TurretPunch.CommandLine

/-!
# Switches

The switches of the command line, and what is told about them.
-/

def programName : String := "punchsim"

/-- A switch of the command line. -/
inductive Switch where
  | help
  | pattern
  | listPatterns
  | listTools
  | tools
  | settings
  | width
  | height
  | interval
  | check
  | seek
  | saveTo
  | verbose
deriving DecidableEq, Repr

namespace Switch

/-- All switches, in the order in which they are listed. -/
def all : List Switch :=
  [help, pattern, listPatterns, listTools, tools, settings, width, height, interval, check, seek,
    saveTo, verbose]

/-- The spellings of a switch, a short one before a long one. -/
def spellings : Switch → List String
  | help => ["-h", "--help"]
  | pattern => ["--pattern"]
  | listPatterns => ["--list-patterns"]
  | listTools => ["--list-tools"]
  | tools => ["--tools"]
  | settings => ["--settings"]
  | width => ["--width"]
  | height => ["--height"]
  | interval => ["--interval"]
  | check => ["--check"]
  | seek => ["--seek"]
  | saveTo => ["--export"]
  | verbose => ["-v", "--verbose"]

/-- The word for the value of a switch, if it takes one. -/
def valueName? : Switch → Option String
  | pattern => some "PATTERN"
  | tools => some "TOOLS"
  | settings => some "SETTINGS"
  | width => some "WIDTH"
  | height => some "HEIGHT"
  | interval => some "INTERVAL"
  | seek => some "STEP"
  | saveTo => some "OUT"
  | _ => none

def takesValue (switch : Switch) : Bool := switch.valueName?.isSome

def purpose : Switch → String
  | help => "show this help message and exit"
  | pattern => "Use a built-in pattern instead of a file"
  | listPatterns => "List built-in patterns and exit"
  | listTools => "List the turret tooling and exit"
  | tools => "Tool library JSON file (default: built-in turret)"
  | settings => "Simulation settings JSON file"
  | width => "Sheet width in mm (default: 600, or the pattern's)"
  | height => "Sheet height in mm (default: 300, or the pattern's)"
  | interval => "Playback interval in ms (default: 500; 0 = no delay)"
  | check => "Parse and validate only, do not run"
  | seek => "Jump to STEP instead of running and print the state"
  | saveTo => "Write the program text to OUT (.nc)"
  | verbose => "Debug logging"

/-- All spellings with their switches. -/
def table : List (String × Switch) :=
  all.flatMap fun switch => switch.spellings.map fun spelling => (spelling, switch)

def ofSpelling? (spelling : String) : Option Switch := table.lookup spelling

def label (switch : Switch) : String := "/".intercalate switch.spellings

/-- A switch in the usage, by its first spelling. -/
def usage (switch : Switch) : String :=
  "[" ++ " ".intercalate (switch.spellings.take 1 ++ switch.valueName?.toList) ++ "]"

/-- A switch in the help, by all its spellings. -/
def entry (switch : Switch) : String :=
  ", ".intercalate (switch.spellings.map fun spelling =>
    " ".intercalate (spelling :: switch.valueName?.toList))

end Switch

/-- How many columns a line of the usage and of the help has. -/
def lineWidth : Nat := 78

/-- Puts words into lines, as many into each as there is room for. -/
def wrapWords (width : Nat) (line : String) : List String → List String
  | [] => [line]
  | word :: rest =>
    if line.isEmpty then wrapWords width word rest
    else if line.length + 1 + word.length ≤ width then wrapWords width (line ++ " " ++ word) rest
    else line :: wrapWords width word rest

/-- How to call the program. The switches stand in lines of their own, after the name of the
program. -/
def usage : String :=
  let start := "usage: " ++ programName ++ " "
  let margin := String.ofList (List.replicate start.length ' ')
  let lines := wrapWords (lineWidth - start.length) "" (Switch.all.map (·.usage)) ++ ["[program]"]
  start ++ ("\n" ++ margin).intercalate lines ++ "\n"

/-- A line of the help: a word and what it is for. -/
def helpLine (word purpose : String) : String :=
  "  " ++ word ++ String.ofList (List.replicate (21 - word.length) ' ') ++ purpose ++ "\n"

def help : String :=
  usage ++ "\nSimulate a turret-punch G-code program.\n\npositional arguments:\n"
    ++ helpLine "program" "Program file (.nc); omit when using --pattern"
    ++ "\noptions:\n"
    ++ String.join (Switch.all.map fun switch => helpLine switch.entry switch.purpose)

end TurretPunch.CommandLine
