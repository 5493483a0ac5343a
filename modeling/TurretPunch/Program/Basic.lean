import TurretPunch.Operation

namespace TurretPunch

/-!
# Programs

A program is a list of operations, each with the coordinate mode in which it was written, and the
errors that were found. A program with errors is not played.
-/

/-- What is wrong with a line. -/
inductive LineProblem where
  /-- A tool change to a station without a tool. -/
  | unknownStation (station : Int)
  /-- A hit for which there is no position yet. -/
  | incompleteHit
  /-- An objection from outside. -/
  | remark (text : Text.Points)
deriving DecidableEq, Repr

def LineProblem.message : LineProblem → Text.Points
  | unknownStation station => "Tool T" ++ Decimal.integer station ++ " not found in library"
  | incompleteHit => "G81 requires both X and Y coordinates"
  | remark text => text

/-- A problem and its line, which counts from zero. -/
structure LineError where
  line : Int
  problem : LineProblem
deriving DecidableEq, Repr

/-- A problem with its line, counted from one. -/
def LineError.text (e : LineError) : Except Fault Text.Points := do
  let line ← lineNumber (e.line + 1)
  return "line " ++ line ++ ": " ++ e.problem.message

/-- Operations, the modes in which they were written, and errors. -/
structure Program where
  operations : List Operation := []
  modes : List Mode := []
  errors : List LineError := []
deriving BEq, Repr, Inhabited

namespace Program

def isOk (p : Program) : Bool := p.errors.isEmpty

/-- The mode of the operation at an index. -/
def modeAt (p : Program) (index : Nat) : Mode := (p.modes[index]?).getD .absolute

def append (p q : Program) : Program :=
  ⟨p.operations ++ q.operations, p.modes ++ q.modes, p.errors ++ q.errors⟩

instance : Append Program := ⟨append⟩

def ofOperation (mode : Mode) (op : Operation) : Program := ⟨[op], [mode], []⟩

def ofError (line : Int) (problem : LineProblem) : Program := ⟨[], [], [⟨line, problem⟩]⟩

end Program

end TurretPunch
