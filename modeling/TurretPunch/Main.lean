import Std.Time.Format
import TurretPunch.CommandLine.Performance

namespace TurretPunch

/-!
# The program

Takes in the files that the arguments name, prepares a run, writes the files that have changed, and
runs in the terminal.
-/

open CommandLine

/-- What is at a path, unless there is nothing or it cannot be read. -/
def lookAt (path : Path) : IO (Option Entry) := do
  try
    return some (.file (← IO.FS.readBinFile path.text.plain).toList)
  catch
    | .inappropriateType .. => return some .folder
    | _ => return none

/-- Takes in what is on the way of the names of a path, as far as there is something. -/
def takeIn (s : Storage) (path : Path) : IO Storage := do
  let mut s := s
  for count in List.range path.names.length do
    let start : Path := ⟨path.names.take (count + 1)⟩
    match s.resolve start, ← lookAt start with
    | .ok place, some entry => s := s.set place entry
    | _, _ => return s
  return s

/-- The paths that arguments name. A copy of the program may go into a folder. -/
def namedPaths (args : Arguments) : List Path :=
  args.tools.toList ++ args.settings.toList ++ args.program.toList
    ++ (args.saveTo.value?.map fun path => [path, path.child Storage.programName]).getD []

def namedFiles (arguments : List Text.Points) : IO Storage :=
  match readArguments arguments with
  | .ok args => (namedPaths args).foldlM takeIn .empty
  | .error _ => return .empty

/-- Writes a file and makes the folders on the way to it. -/
def writeFile (path : Path) (content : List UInt8) : IO Unit := do
  IO.FS.createDirAll path.parent.text.plain
  IO.FS.writeBinFile path.text.plain ⟨content.toArray⟩

def printOut (p : Printed) : IO Unit := do
  let stream ← match p.channel with
    | .output => IO.getStdout
    | .errors => IO.getStderr
  stream.putStr p.text.plain
  stream.flush

/-- The time of the calendar and the clock. -/
def timeNow : IO Timestamp := do
  let t ← Std.Time.PlainDateTime.now
  return ⟨t.year.toInt.toNat, t.month.toInt.toNat, t.day.toInt.toNat, t.hour.toInt.toNat,
    t.minute.toInt.toNat, t.second.toInt.toNat⟩

def terminal : Surroundings IO where
  print := printOut
  wait seconds := do
    IO.sleep (seconds * 1000.0).round.toUInt32
    return []
  seconds := return (← IO.monoNanosNow).toFloat / 1000000000.0
  now := timeNow

/-- The exit code of the program. A fault is told first. -/
def exitCode : Ending → IO UInt32
  | .exit code => return code.toUInt32
  | .fault fault => do
    printOut (.errorLine fault.message)
    return 1

def runProgram (arguments : List String) : IO UInt32 := do
  let arguments := arguments.map Text.Points.ofString
  let storage ← namedFiles arguments
  let (prepared, desk) := (prepare arguments).run.run { storage }
  for (path, content) in storage.changesSince desk.storage do
    writeFile path content
  desk.printed.forM printOut
  match prepared with
  | .error ending => exitCode ending
  | .ok prepared => exitCode (← terminal.perform prepared)

end TurretPunch

def main (arguments : List String) : IO UInt32 := TurretPunch.runProgram arguments
