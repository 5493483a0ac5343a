import TurretPunch.Program.Basic
import TurretPunch.Program.Statement
import TurretPunch.Text.Line
import TurretPunch.Turret

namespace TurretPunch.Program

/-!
# Reading a program

A program is read line by line. Between two lines the reader keeps the coordinate mode, the last
command, the last position and the tool; what a line adds to the program depends on nothing else.
-/

/-- What the reader keeps between two lines. -/
structure ReaderState where
  mode : Mode := .absolute
  motion : Option Motion := none
  position : Option (Float × Float) := none
  tool : Int := 1

/-- What a program is read against: the turret, and the size of a punch at a station without a
tool. -/
structure Tooling where
  turret : Turret
  fallback : Quantity

/-- The number that the digits of a station spell. -/
def stationNumber (ds : List Char) : Except Fault Int :=
  if Text.maxDigits < ds.length then .error (.longInteger ds.length)
  else .ok (Text.digitsValue (Text.digitValues ds))

/-- A summand. Both zeros count as positive zero, and so does what is missing. -/
def summand (value : Option Float) : Float :=
  match value with
  | some x => if x == 0.0 then 0.0 else x
  | none => 0.0

/-- A coordinate, from the last one and the word in the line. -/
def coordinate (mode : Mode) (last word : Option Float) : Option Float :=
  match mode with
  | .absolute => word <|> last
  | .relative => some (summand last + summand word)

/-- The size of a hit, from the word in the line or else from the tool. -/
def hitSize (tooling : Tooling) (tool : Int) (word : Option Float) : Quantity :=
  match word with
  | some d => .real d
  | none => tooling.turret.diameterFor tool tooling.fallback

/-- Makes a motion. A hit needs both coordinates; a rapid goes to zero where it has none. -/
def makeMotion (tooling : Tooling) (state : ReaderState) (line : Int) (motion : Motion)
    (words : Words) : Program × ReaderState :=
  let x := coordinate state.mode (state.position.map (·.1)) words.x
  let y := coordinate state.mode (state.position.map (·.2)) words.y
  match motion with
  | .rapid =>
    let (x, y) := (x.getD 0.0, y.getD 0.0)
    (ofOperation state.mode (.move line x y state.tool), { state with position := some (x, y) })
  | .punch =>
    match x, y with
    | some x, some y =>
      (ofOperation state.mode (.hit line x y (hitSize tooling state.tool words.size) state.tool),
        { state with position := some (x, y) })
    | _, _ => (ofError line .incompleteHit, state)

/-- Makes the motion of the last command, if there is one. -/
def repeatMotion (tooling : Tooling) (state : ReaderState) (line : Int) (words : Words) :
    Program × ReaderState :=
  match state.motion with
  | some motion => makeMotion tooling state line motion words
  | none => ({}, state)

/-- What a tool change adds. A station without a tool is an error, but the change is made. -/
def changeTool (tooling : Tooling) (mode : Mode) (line station : Int) : Program :=
  (if tooling.turret.contains station then {} else ofError line (.unknownStation station)) ++
    ofOperation mode (.toolChange line station)

def execute (tooling : Tooling) (state : ReaderState) (line : Int) :
    Statement → Except Fault (Program × ReaderState)
  | .nothing => .ok ({}, state)
  | .setMode mode => .ok ({}, { state with mode })
  | .changeTool ds =>
    (stationNumber ds).map fun station =>
      (changeTool tooling state.mode line station, { state with tool := station })
  | .command motion words => .ok (repeatMotion tooling { state with motion } line words)
  | .again words => .ok (repeatMotion tooling state line words)

/-- What lines add to a program, the first of them being line `line`, and the state after them. If
a line has a fault, the lines before it count. -/
def readLines (tooling : Tooling) (state : ReaderState) (line : Int) :
    List (List Text.Point) → Program × Except Fault ReaderState
  | [] => ({}, .ok state)
  | ps :: rest =>
    match execute tooling state line (.ofLine ps) with
    | .error fault => ({}, .error fault)
    | .ok (added, state) =>
      let (more, outcome) := readLines tooling state (line + 1) rest
      (added ++ more, outcome)

/-- What the lines of a text say, up to the first fault. -/
def readText (tooling : Tooling) (text : Text.Points) : Program × Except Fault ReaderState :=
  readLines tooling {} 0 (Text.lines text.toList)

/-- The end of a program, which stands in its last line. -/
def ending (text : Text.Points) (mode : Mode) : Program :=
  ofOperation mode (.finish ((Text.lines text.toList).length - 1 : Int))

def ofText (tooling : Tooling) (text : Text.Points) : Except Fault Program :=
  match readText tooling text with
  | (_, .error fault) => .error fault
  | (program, .ok state) => .ok (program ++ ending text state.mode)

end TurretPunch.Program
