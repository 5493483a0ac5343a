import TurretPunch.Json.Basic
import TurretPunch.Decimal.Shortest

namespace TurretPunch.Json

/-!
# Writing JSON

A value is written in ASCII, either on one line or with each item and member on a line of its own.
Numbers have the fewest digits that read back.
-/

/-- An escape by code point. -/
def unitEscape (n : Nat) : List Char := '\\' :: 'u' :: Text.hexadecimal 4 n

def stringChar (c : Char) : List Char :=
  if c = '"' ∨ c = '\\' then ['\\', c]
  else if c = '\n' then ['\\', 'n']
  else if c = '\r' then ['\\', 'r']
  else if c = '\t' then ['\\', 't']
  else if c = '\x0c' then ['\\', 'f']
  else if c = '\x08' then ['\\', 'b']
  else if ' ' ≤ c ∧ c ≤ '~' then [c]
  else if c.toNat < 0x10000 then unitEscape c.toNat
  else
    unitEscape (0xD800 + (c.toNat - 0x10000) / 0x400) ++ unitEscape (0xDC00 + c.toNat % 0x400)

def stringPoint : Text.Point → List Char
  | .char c => stringChar c
  | .half surrogate => unitEscape surrogate

def stringText (s : Text.Points) : String :=
  String.ofList ('"' :: s.toList.flatMap stringPoint ++ ['"'])

def floatText (x : Float) : String :=
  match Decimal.Reading.ofFloat x with
  | .nan => "NaN"
  | .infinite false => "Infinity"
  | .infinite true => "-Infinity"
  | .finite _ => Decimal.shortest x

/-- How the parts of a value are set apart. -/
structure Spacing where
  /-- What stands before an item or member at a depth, and before the closing bracket. -/
  lineBreak : Nat → String
  /-- What stands between a name and its value. -/
  colon : String

def Spacing.compact : Spacing := ⟨fun _ => "", ":"⟩

def Spacing.indented : Spacing :=
  ⟨fun depth => String.ofList ('\n' :: List.replicate (2 * depth) ' '), ": "⟩

mutual

/-- The pieces of the text of a value that stands at a depth. -/
def pieces (spacing : Spacing) (depth : Nat) : Json → List String
  | .null => ["null"]
  | .bool true => ["true"]
  | .bool false => ["false"]
  | .int n => [Decimal.integer n]
  | .float x => [floatText x]
  | .string s => [stringText s]
  | .array [] => ["[]"]
  | .array (item :: items) =>
    "[" :: spacing.lineBreak (depth + 1) :: pieces spacing (depth + 1) item
      ++ (itemPieces spacing depth items ++ [spacing.lineBreak depth, "]"])
  | .object [] => ["\x7b\x7d"]
  | .object (member :: members) =>
    "\x7b" :: spacing.lineBreak (depth + 1) :: memberPieces spacing depth member
      ++ (membersPieces spacing depth members ++ [spacing.lineBreak depth, "\x7d"])

/-- The pieces of the items after the first. -/
def itemPieces (spacing : Spacing) (depth : Nat) : List Json → List String
  | [] => []
  | item :: items =>
    "," :: spacing.lineBreak (depth + 1) :: pieces spacing (depth + 1) item
      ++ itemPieces spacing depth items

/-- The pieces of a name and its value. -/
def memberPieces (spacing : Spacing) (depth : Nat) : Text.Points × Json → List String
  | (name, value) => stringText name :: spacing.colon :: pieces spacing (depth + 1) value

/-- The pieces of the members after the first. -/
def membersPieces (spacing : Spacing) (depth : Nat) : List (Text.Points × Json) → List String
  | [] => []
  | member :: members =>
    "," :: spacing.lineBreak (depth + 1) :: memberPieces spacing depth member
      ++ membersPieces spacing depth members

end

mutual

/-- How many steps it takes to reach every part of a value: two into each array or object on the way,
and three to a value without parts. The name of a member is such a value too. -/
def reach : Json → Nat
  | .array items => itemsReach items + 2
  | .object members => membersReach members + 2
  | _ => 3

/-- How many steps it takes to reach every part of items. -/
def itemsReach : List Json → Nat
  | [] => 0
  | item :: items => max item.reach (itemsReach items)

/-- How many steps it takes to reach every part of members. -/
def membersReach : List (Text.Points × Json) → Nat
  | [] => 0
  | (_, value) :: members => max (max 3 value.reach) (membersReach members)

end

/-- How many steps it may take to reach every part of a document that is written to a file. -/
def maxReach : Nat := 995

/-- Whether a document can be written to a file. -/
def isShallow (value : Json) : Bool := value.reach ≤ maxReach

def write (spacing : Spacing) (value : Json) : String := String.join (pieces spacing 0 value)

end TurretPunch.Json
