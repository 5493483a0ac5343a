import TurretPunch.Proofs.Json.Return
import TurretPunch.Proofs.Storage.Written
import TurretPunch.Proofs.Text.Newline
import TurretPunch.Storage.Document

namespace TurretPunch.Storage

/-!
# Documents

What is read of a document depends on the JSON value that its text is, if it is one. A value that was
written is found again: there are no carriage returns in what is written, so that reading the file
leaves its text as it is.
-/

variable {s : Storage} {path : Path} {text : String} {value : Json} {items : List Json}
  {members : List (Text.Points × Json)}

/-- The JSON value that a file with a text holds. -/
def parsed (text : String) : Except Json.Refusal Json := Json.read (Text.unifyNewlines text.toList)

/-- The fault of a file that is no JSON. -/
def refusalFault (document : Document) (path : Path) : Json.Refusal → Fault
  | .malformed problem line column position =>
    .malformedDocument document path.text problem line column position
  | .longInteger count => .longInteger count
  | .deepNesting => .deepNesting

theorem Holds.readJson_eq (h : s.Holds path (Text.encodeUtf8 text)) (document : Document) :
    s.readJson document path = (parsed text).mapError (refusalFault document path) := by
  rw [Storage.readJson, bind_of_ok _ h.contains]
  simp only [Bool.not_true, Bool.false_eq_true, if_false]
  rw [bind_of_ok _ h.readText, parsed]
  cases Json.read (Text.unifyNewlines text.toList) with
  | ok value => rfl
  | error refusal => cases refusal <;> rfl

theorem Holds.readJson_eq_ok_iff (h : s.Holds path (Text.encodeUtf8 text)) (document : Document) :
    s.readJson document path = .ok value ↔ parsed text = .ok value := by
  rw [h.readJson_eq]
  cases parsed text <;> simp [Except.mapError]

theorem parsed_write (hregular : value.IsRegular) (hshallow : value.isShallow = true) :
    parsed (value.write .indented) = .ok value := by
  have htext : Text.unifyNewlines (value.write .indented).toList = (value.write .indented).toList := by
    apply Text.unifyNewlines_of_not_mem
    rw [Json.toList_write]
    exact hregular.return_not_mem 0
  rw [parsed, htext, Json.read_write hregular hshallow]

theorem Holds.readList (h : s.Holds path (Text.encodeUtf8 ((Json.array items).write .indented)))
    (hregular : (Json.array items).IsRegular) (hshallow : (Json.array items).isShallow = true)
    (document : Document) : s.readList document path = .ok items := by
  have hjson := (h.readJson_eq_ok_iff document).mpr (parsed_write hregular hshallow)
  rw [Storage.readList, bind_of_ok _ hjson]
  rfl

theorem Holds.readObject (h : s.Holds path (Text.encodeUtf8 ((Json.object members).write .indented)))
    (hregular : (Json.object members).IsRegular) (hshallow : (Json.object members).isShallow = true)
    (document : Document) : s.readObject document path = .ok members := by
  have hjson := (h.readJson_eq_ok_iff document).mpr (parsed_write hregular hshallow)
  rw [Storage.readObject, bind_of_ok _ hjson]
  rfl

end TurretPunch.Storage
