import TurretPunch.Json.Printer
import TurretPunch.Order.Runs
import TurretPunch.Tool.Basic

namespace TurretPunch

/-!
# The turret

A table of tools, at most one to a station. It is built once, tool by tool, and only read after.
-/

/-- The tools of a turret in the order in which they were put in. -/
structure Turret where
  tools : List Tool
deriving BEq, Repr

namespace Turret

def empty : Turret := ⟨[]⟩

/-- Puts a tool into its station, which must be free. -/
def add (turret : Turret) (tool : Tool) : Except Fault Turret :=
  if !tool.number.isKey then .error .wrongType
  else if turret.tools.any (·.number.sameKey tool.number) then
    .error (.duplicateStation tool.number.toJson)
  else .ok ⟨turret.tools ++ [tool]⟩

/-- Puts tools into their stations, in order. -/
def ofTools (tools : List Tool) : Except Fault Turret := tools.foldlM add empty

/-- Puts the tools of entries into their stations. Each entry is read when its turn comes, so that
the first problem in the list counts, of whatever kind. -/
def ofEntries (entries : List Json) : Except Fault Turret :=
  entries.foldlM (fun turret entry => do turret.add (← Tool.ofJson entry)) empty

def get? (turret : Turret) (station : Int) : Option Tool :=
  turret.tools.find? (·.hasNumber station)

/-- Whether there is a tool in a station. -/
def contains (turret : Turret) (station : Int) : Bool := (turret.get? station).isSome

def size (turret : Turret) : Nat := turret.tools.length

/-- The size of a punch that gives none itself: the diameter of the tool, which is zero for most
tools that are not round, or else what is assumed of a station without a tool. -/
def diameterFor (turret : Turret) (station : Int) (fallback : Quantity) : Quantity :=
  ((turret.get? station).map (·.diameter)).getD fallback

def goesBefore (s t : Tool) : Bool := s.number.lt t.number

/-- The tools in the order of their numbers. Two tools whose numbers cannot be compared are refused,
but for numbers that are none, which stay among the others wherever sorting leaves them. -/
def listTools (turret : Turret) : Except Fault (List Tool) :=
  let numbers := turret.tools.map (·.number)
  if numbers.all (·.mark?.isSome) || numbers.all (·.text?.isSome) then
    .ok (turret.tools.mergeSort fun s t => !goesBefore t s)
  else if numbers.length ≤ 1 || numbers.all (·.isNumber) then .ok (Order.sort goesBefore turret.tools)
  else .error .wrongType

/-- Groups tools by shape, the shapes in the order in which they first appear. -/
def groupByShape : List Tool → List (Shape × List Tool)
  | [] => []
  | tool :: rest =>
    let groups := groupByShape rest
    match groups.find? (·.1 == tool.shape) with
    | some (_, same) => (tool.shape, tool :: same) :: groups.filter (·.1 != tool.shape)
    | none => (tool.shape, [tool]) :: groups

/-- The tools by shape, in station order. -/
def categories (turret : Turret) : Except Fault (List (Shape × List Tool)) :=
  turret.listTools.map groupByShape

def toJson (turret : Turret) : Except Fault Json := do
  let table := Json.array ((← turret.listTools).map (·.toJson))
  if table.isShallow then return table else .error .deepNesting

end Turret

end TurretPunch
