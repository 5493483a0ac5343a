import TurretPunch.Quantity

namespace TurretPunch

/-!
# Tools

A tool sits in a station of the turret. A round tool is described by its diameter, every other one
by the width and height of its bounding rectangle.
-/

/-- The shapes that a punch can have. -/
inductive Shape where
  | round
  | square
  | rectangular
  | oval
  | special
  | slot
deriving DecidableEq, Repr

namespace Shape

def all : List Shape := [round, square, rectangular, oval, special, slot]

def name : Shape → String
  | round => "round"
  | square => "square"
  | rectangular => "rectangular"
  | oval => "oval"
  | special => "special"
  | slot => "slot"

def ofName? (s : String) : Option Shape := all.find? (·.name == s)

@[simp] theorem ofName?_name (shape : Shape) : ofName? shape.name = some shape := by
  cases shape <;> rfl

end Shape

/-- A tool, with its values as the table of tools gives them. -/
structure Tool where
  number : Quantity
  name : Json
  shape : Shape
  diameter : Quantity := .real 0.0
  width : Quantity := .real 0.0
  height : Quantity := .real 0.0
deriving BEq, Repr

namespace Tool

def isRound (t : Tool) : Bool := t.shape == .round

def hasNumber (t : Tool) (station : Int) : Bool := t.number.sameKey (.whole station)

def radius (t : Tool) : Except Fault Float := t.diameter.half

/-- Half of the width and half of the height of the footprint. -/
def halfExtents (t : Tool) : Except Fault (Float × Float) :=
  if t.isRound then t.radius.map fun r => (r, r)
  else do
    let hw ← t.width.half
    let hh ← t.height.half
    return (hw, hh)

/-- A tool as an entry of a table file. -/
def toJson (t : Tool) : Json := .object [
  ("number", t.number.toJson), ("name", t.name), ("shape", .string t.shape.name),
  ("diameter", t.diameter.toJson), ("width", t.width.toJson), ("height", t.height.toJson)]

/-- The text of one code point. -/
def letter (p : Text.Point) : Json := .string ⟨[p]⟩

/-- The two parts of the item at `index` of a list of pairs. A text of two characters and an object
with two members pass for a pair, of the characters and of the names. -/
def pairOf (index : Nat) (item : Json) : Except Fault (Json × Json) :=
  let ofList : List Json → Except Fault (Json × Json)
    | [a, b] => .ok (a, b)
    | parts => .error (.unpairedEntry index parts.length)
  match item with
  | .array parts => ofList parts
  | .string s => ofList (s.toList.map letter)
  | .object members => ofList (members.map fun (name, _) => .string name)
  | _ => .error .wrongType

/-- Puts a value under a key: a key that is there already keeps its place. -/
def putPair (key value : Json) : List (Json × Json) → List (Json × Json)
  | [] => [(key, value)]
  | (k, v) :: rest =>
    if (Quantity.ofJson k).sameKey (.ofJson key) then (k, value) :: rest
    else (k, v) :: putPair key value rest

def collectPairs : Nat → List (Json × Json) → List Json → Except Fault (List (Json × Json))
  | _, entry, [] => .ok entry
  | index, entry, item :: items => do
    let (key, value) ← pairOf index item
    if (Quantity.ofJson key).isKey then collectPairs (index + 1) (putPair key value entry) items
    else .error .wrongType

/-- The keys and values of an entry: of an object, or of a list of pairs. -/
def entryOf : Json → Except Fault (List (Json × Json))
  | .object members => .ok (members.map fun (name, value) => (.string name, value))
  | .array items => collectPairs 0 [] items
  | .string s => collectPairs 0 [] (s.toList.map letter)
  | _ => .error .wrongType

/-- The names of the fields of an entry. -/
def fieldNames : List String := ["number", "name", "shape", "diameter", "width", "height"]

/-- Whether a key is a certain name. -/
def isNamed (name : String) : Json → Bool
  | .string key => key == .ofString name
  | _ => false

def field? (entry : List (Json × Json)) (name : String) : Option Json :=
  (entry.find? fun (key, _) => isNamed name key).map (·.2)

/-- Whether a key is the name of a field. -/
def isFieldName (key : Json) : Bool := fieldNames.any fun name => isNamed name key

def shapeOf? : Json → Option Shape
  | .string name => name.string?.bind Shape.ofName?
  | _ => none

/-- How many layers a value in the place of a shape may have to be shown as no shape. -/
def maxShapeLayers : Nat := 988

/-- Why an entry without a known shape is refused. -/
def shapeFault (entry : List (Json × Json)) : Fault :=
  if (field? entry "shape").elim 0 Json.layers ≤ maxShapeLayers then .invalidShape entry
  else .deepNesting

/-- The tool of an entry. The shape is looked at first, and then whether the fields are complete
and known; their values are kept as they are. -/
def ofJson (value : Json) : Except Fault Tool := do
  let entry ← entryOf value
  match (field? entry "shape").bind shapeOf? with
  | none => .error (shapeFault entry)
  | some shape =>
    match field? entry "number", field? entry "name", entry.all fun (key, _) => isFieldName key with
    | some number, some name, true =>
      let size (name : String) : Quantity := ((field? entry name).map .ofJson).getD (.real 0.0)
      .ok ⟨.ofJson number, name, shape, size "diameter", size "width", size "height"⟩
    | _, _, _ => .error .wrongType

end Tool

end TurretPunch
