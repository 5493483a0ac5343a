import Mathlib.Data.List.Nodup
import TurretPunch.Proofs.Json.Roundtrip
import TurretPunch.Proofs.Outcome
import TurretPunch.Tool.Basic

namespace TurretPunch

/-!
# Entries of a table

A tool is written as an object with all its fields, and is read from it as it was. Whole numbers and
fractions stay apart, and so do names of whatever characters.
-/

theorem Text.Points.ofString_injective : Function.Injective Text.Points.ofString := by
  intro s t h
  have hstrings := congrArg Text.Points.string? h
  rw [Text.Points.string?_ofString, Text.Points.string?_ofString] at hstrings
  exact Option.some.inj hstrings

namespace Json

/-- An object whose members are named by strings. -/
def record (fields : List (String × Json)) : Json :=
  .object (fields.map fun (name, value) => (.ofString name, value))

theorem IsRegular.record {fields : List (String × Json)} (hnames : (fields.map (·.1)).Nodup)
    (hvalues : ∀ field ∈ fields, field.2.IsRegular) : (record fields).IsRegular := by
  refine .object ?_ ?_ ?_
  · intro m hm
    obtain ⟨field, _, rfl⟩ := List.mem_map.mp hm
    exact ⟨field.1, rfl⟩
  · rw [List.map_map]
    have hmap := List.Nodup.map Text.Points.ofString_injective hnames
    rwa [List.map_map] at hmap
  · intro m hm
    obtain ⟨field, hfield, rfl⟩ := List.mem_map.mp hm
    exact hvalues field hfield

end Json

namespace Quantity

/-- The numbers and truth values that are read as they are written. -/
inductive IsRegular : Quantity → Prop
  | whole {n : Int} (h : Decimal.digitCount n.natAbs ≤ Text.maxDigits) : IsRegular (.whole n)
  | real {x : Float} (h : x.isNaN = false) : IsRegular (.real x)
  | truth (b : Bool) : IsRegular (.other (.bool b))

variable {q : Quantity}

theorem IsRegular.toJson (h : q.IsRegular) : q.toJson.IsRegular := by
  cases h with
  | whole h => exact .int h
  | real h => exact .float h
  | truth b => exact .bool b

theorem IsRegular.ofJson_toJson (h : q.IsRegular) : ofJson q.toJson = q := by
  cases h <;> rfl

theorem IsRegular.reach_toJson (h : q.IsRegular) : q.toJson.reach = 3 := by
  cases h <;> simp only [Quantity.toJson, Json.reach]

end Quantity

namespace Tool

/-- A tool with a whole number, a name of any characters, and numbers for sizes. -/
structure IsRegular (t : Tool) : Prop where
  number : ∃ n : Int, t.number = .whole n ∧ Decimal.digitCount n.natAbs ≤ Text.maxDigits
  name : ∃ name : String, t.name = .string name
  diameter : t.diameter.IsRegular
  width : t.width.IsRegular
  height : t.height.IsRegular

variable {t : Tool}

theorem IsRegular.number_isRegular (h : t.IsRegular) : t.number.IsRegular := by
  obtain ⟨n, hn, hdigits⟩ := h.number
  rw [hn]
  exact .whole hdigits

theorem toJson_eq (t : Tool) : t.toJson = .record [("number", t.number.toJson), ("name", t.name),
    ("shape", .string t.shape.name), ("diameter", t.diameter.toJson), ("width", t.width.toJson),
    ("height", t.height.toJson)] := rfl

theorem IsRegular.toJson (h : t.IsRegular) : t.toJson.IsRegular := by
  have hname : t.name.IsRegular := by
    obtain ⟨name, hname⟩ := h.name
    rw [hname]
    exact .string name
  rw [toJson_eq]
  refine .record ?_ ?_
  · exact (by decide : fieldNames.Nodup)
  · simp only [List.forall_mem_cons]
    exact ⟨h.number_isRegular.toJson, hname, .string _, h.diameter.toJson, h.width.toJson,
      h.height.toJson, nofun⟩

theorem IsRegular.reach_toJson (h : t.IsRegular) : t.toJson.reach = 5 := by
  obtain ⟨name, hname⟩ := h.name
  simp [Tool.toJson, Json.reach, Json.membersReach, hname, h.number_isRegular.reach_toJson,
    h.diameter.reach_toJson, h.width.reach_toJson, h.height.reach_toJson]

/-- An object with all fields is read as a tool with their values. -/
theorem ofJson_fields (number name diameter width height : Json) (shape : Shape) :
    ofJson (.object [("number", number), ("name", name), ("shape", .string shape.name),
        ("diameter", diameter), ("width", width), ("height", height)]) =
      .ok ⟨.ofJson number, name, shape, .ofJson diameter, .ofJson width, .ofJson height⟩ := by
  let fields : List (Json × Json) := [(.string "number", number), (.string "name", name),
    (.string "shape", .string shape.name), (.string "diameter", diameter), (.string "width", width),
    (.string "height", height)]
  have hentry : entryOf (.object [("number", number), ("name", name),
      ("shape", .string shape.name), ("diameter", diameter), ("width", width),
      ("height", height)]) = .ok fields := rfl
  have hfield : field? fields "shape" = some (.string shape.name) := by with_unfolding_all rfl
  have hshape : shapeOf? (.string shape.name) = some shape := by
    rw [shapeOf?, Text.Points.string?_ofString]
    exact Shape.ofName?_name shape
  rw [ofJson, bind_of_ok _ hentry, hfield, Option.bind_some, hshape]
  with_unfolding_all rfl

theorem IsRegular.ofJson_toJson (h : t.IsRegular) : ofJson t.toJson = .ok t := by
  rw [Tool.toJson, ofJson_fields, h.number_isRegular.ofJson_toJson, h.diameter.ofJson_toJson,
    h.width.ofJson_toJson, h.height.ofJson_toJson]

end Tool

end TurretPunch
