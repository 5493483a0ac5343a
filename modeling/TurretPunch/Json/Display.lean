import TurretPunch.Json.Basic
import TurretPunch.Decimal.Shortest

namespace TurretPunch.Json

/-!
# Values in messages

Messages show a value in one line, with its strings quoted for reading and not as JSON.
-/

mutual

def display : Json → String
  | .null => "None"
  | .bool true => "True"
  | .bool false => "False"
  | .int n => Decimal.integer n
  | .float x => Decimal.shortest x
  | .string s => s.quoted
  | .array items => "[" ++ displayItems items ++ "]"
  | .object members => "\x7b" ++ displayMembers members ++ "\x7d"

def displayItems : List Json → String
  | [] => ""
  | [item] => display item
  | item :: items => display item ++ ", " ++ displayItems items

def displayMembers : List (Text.Points × Json) → String
  | [] => ""
  | [(name, value)] => name.quoted ++ ": " ++ display value
  | (name, value) :: members =>
    name.quoted ++ ": " ++ display value ++ ", " ++ displayMembers members

end

mutual

/-- How many values lie inside each other, from a value inwards. -/
def layers : Json → Nat
  | .array items => itemsLayers items + 1
  | .object members => membersLayers members + 1
  | _ => 1

def itemsLayers : List Json → Nat
  | [] => 0
  | item :: items => max item.layers (itemsLayers items)

def membersLayers : List (Text.Points × Json) → Nat
  | [] => 0
  | (_, value) :: members => max value.layers (membersLayers members)

end

/-- A value inside running text, where a string stands for itself. -/
def plain : Json → Text.Points
  | .string s => s
  | value => display value

end TurretPunch.Json
