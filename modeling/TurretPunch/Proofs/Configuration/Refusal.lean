import TurretPunch.CommandLine.Job
import TurretPunch.Proofs.Outcome
import TurretPunch.Turret

namespace TurretPunch

/-!
# Refused tables

Most of what is wrong with a table of tools is told to whoever wrote it. Nobody answers for a value
of the wrong type, which is noticed only when something is done with it: the faults that come of it
are told apart by what the entries hold.
-/

/-- Something fails, and nobody answers for it. -/
def Unanswered {α : Type} (outcome : Except Fault α) : Prop :=
  ∃ fault, outcome = .error fault ∧ CommandLine.isAnswered fault = false

section

variable {α β : Type}

@[simp] theorem not_unanswered_ok (a : α) : ¬Unanswered (.ok a) := by
  rintro ⟨fault, ⟨⟩, _⟩

@[simp] theorem unanswered_error {fault : Fault} :
    Unanswered (.error fault : Except Fault α) ↔ CommandLine.isAnswered fault = false := by
  constructor
  · rintro ⟨other, hother, hfault⟩
    rwa [Except.error.inj hother]
  · exact fun h => ⟨fault, rfl, h⟩

theorem unanswered_bind {x : Except Fault α} {f : α → Except Fault β} :
    Unanswered (x >>= f) ↔ Unanswered x ∨ ∃ a, x = .ok a ∧ Unanswered (f a) := by
  simp only [Unanswered, bind_eq_error_iff]
  constructor
  · rintro ⟨fault, hx | ⟨a, ha, hf⟩, hfault⟩
    · exact Or.inl ⟨fault, hx, hfault⟩
    · exact Or.inr ⟨a, ha, fault, hf, hfault⟩
  · rintro (⟨fault, hx, hfault⟩ | ⟨a, ha, fault, hf, hfault⟩)
    · exact ⟨fault, Or.inl hx, hfault⟩
    · exact ⟨fault, Or.inr ⟨a, ha, hf⟩, hfault⟩

theorem unanswered_foldlM {step : α → β → Except Fault α} {items : List β} {a : α} :
    Unanswered (items.foldlM step a) ↔ ∃ before item after b,
      items = before ++ item :: after ∧ before.foldlM step a = .ok b ∧ Unanswered (step b item) := by
  simp only [Unanswered, foldlM_eq_error_iff]
  constructor
  · rintro ⟨fault, ⟨before, item, after, b, hitems, hbefore, hitem⟩, hfault⟩
    exact ⟨before, item, after, b, hitems, hbefore, fault, hitem, hfault⟩
  · rintro ⟨before, item, after, b, hitems, hbefore, fault, hitem, hfault⟩
    exact ⟨fault, ⟨before, item, after, b, hitems, hbefore, hitem⟩, hfault⟩

end

namespace Tool

variable {entry item : Json} {items : List Json} {fields : List (Json × Json)}

/-- What a value can be taken apart into: a list into its items, a text into its characters, and an
object into its names. -/
def parts? : Json → Option (List Json)
  | .array items => some items
  | .string s => some (s.toList.map letter)
  | .object members => some (members.map fun (name, _) => .string name)
  | _ => none

/-- A value that passes for a name and its value. -/
def IsPair (item : Json) : Prop :=
  ∃ key value, parts? item = some [key, value] ∧ (Quantity.ofJson key).isKey = true

/-- A value that cannot be taken apart, or gives two parts of which the first can be no key. -/
def IsStray (item : Json) : Prop :=
  parts? item = none ∨
    ∃ key value, parts? item = some [key, value] ∧ (Quantity.ofJson key).isKey = false

theorem pairOf_of_none (index : Nat) (h : parts? item = none) :
    pairOf index item = .error .wrongType := by
  cases item with
  | string s => cases h
  | array items => cases h
  | object members => cases h
  | _ => rfl

theorem pairOf_of_pair (index : Nat) {key value : Json} (h : parts? item = some [key, value]) :
    pairOf index item = .ok (key, value) := by
  cases item with
  | string s => simp only [pairOf, Option.some.inj h]
  | array items => simp only [pairOf, Option.some.inj h]
  | object members => simp only [pairOf, Option.some.inj h]
  | _ => cases h

theorem pairOf_of_parts (index : Nat) {parts : List Json} (h : parts? item = some parts)
    (hpair : ∀ key value, parts ≠ [key, value]) :
    pairOf index item = .error (.unpairedEntry index parts.length) := by
  cases item with
  | string s => simp only [pairOf, Option.some.inj h]
  | array items => simp only [pairOf, Option.some.inj h]
  | object members => simp only [pairOf, Option.some.inj h]
  | _ => cases h

theorem isPair_iff {key value : Json} (h : parts? item = some [key, value]) :
    IsPair item ↔ (Quantity.ofJson key).isKey = true := by
  simp [IsPair, h]

theorem isStray_iff {key value : Json} (h : parts? item = some [key, value]) :
    IsStray item ↔ (Quantity.ofJson key).isKey = false := by
  simp [IsStray, h]

theorem unanswered_collectPairs (index : Nat) : Unanswered (collectPairs index fields items) ↔
    ∃ before item after, items = before ++ item :: after ∧ (∀ other ∈ before, IsPair other) ∧
      IsStray item := by
  induction items generalizing index fields with
  | nil => simp [collectPairs]
  | cons first items ih =>
      rw [exists_first_cons, collectPairs]
      cases hparts : parts? first with
      | none =>
          rw [pairOf_of_none index hparts]
          exact iff_of_true (unanswered_error.mpr rfl) (Or.inl (Or.inl hparts))
      | some parts =>
          by_cases hpair : ∃ key value, parts = [key, value]
          · obtain ⟨key, value, rfl⟩ := hpair
            rw [bind_of_ok _ (pairOf_of_pair index hparts), isStray_iff hparts, isPair_iff hparts]
            cases hkey : (Quantity.ofJson key).isKey with
            | true => simp [hkey, ih]
            | false => simp [hkey, CommandLine.isAnswered]
          · have hne (key value : Json) : parts ≠ [key, value] := fun h => hpair ⟨key, value, h⟩
            rw [pairOf_of_parts index hparts hne]
            refine iff_of_false ?_ ?_
            · exact fun h => Bool.noConfusion (unanswered_error.mp h)
            · simp [IsPair, IsStray, hparts, hne]

theorem unanswered_entryOf : Unanswered (entryOf entry) ↔ parts? entry = none ∨
    ∃ before item after, entry = .array (before ++ item :: after) ∧ (∀ other ∈ before, IsPair other) ∧
      IsStray item := by
  cases entry with
  | object members => simp [entryOf, parts?]
  | array items => simp [entryOf, parts?, unanswered_collectPairs]
  | string s =>
      refine iff_of_false ?_ (by simp [parts?])
      rw [entryOf, unanswered_collectPairs]
      rintro ⟨before, item, after, hitems, _, hitem⟩
      have hmem : item ∈ s.toList.map letter := by simp [hitems]
      obtain ⟨p, _, rfl⟩ := List.mem_map.mp hmem
      simp [IsStray, letter, parts?] at hitem
  | _ => exact iff_of_true (unanswered_error.mpr rfl) (Or.inl rfl)

/-- Fields without a number or without a name, or with another one that no tool has. -/
def IsIncomplete (fields : List (Json × Json)) : Prop :=
  field? fields "number" = none ∨ field? fields "name" = none ∨
    ∃ field ∈ fields, isFieldName field.1 = false

/-- The entries with a fault that nobody answers for. -/
inductive IsUnanswered (entry : Json) : Prop
  /-- It cannot be taken apart. -/
  | whole (h : parts? entry = none)
  /-- It is a list, and the first of its items that is no pair is a stray. -/
  | stray {before after : List Json} {item : Json} (hentry : entry = .array (before ++ item :: after))
      (hbefore : ∀ other ∈ before, IsPair other) (hitem : IsStray item)
  /-- What stands in the place of its shape has too many layers. -/
  | buried {fields : List (Json × Json)} {value : Json} (hentry : entryOf entry = .ok fields)
      (hvalue : field? fields "shape" = some value) (hshape : shapeOf? value = none)
      (hlayers : maxShapeLayers < value.layers)
  /-- It has a shape, but not the fields of a tool. -/
  | incomplete {fields : List (Json × Json)} {shape : Shape} (hentry : entryOf entry = .ok fields)
      (hshape : (field? fields "shape").bind shapeOf? = some shape)
      (h : IsIncomplete fields)
  /-- It has a shape, and for a number a list or an object. -/
  | keyless {fields : List (Json × Json)} {shape : Shape} {number : Json}
      (hentry : entryOf entry = .ok fields)
      (hshape : (field? fields "shape").bind shapeOf? = some shape)
      (hnumber : field? fields "number" = some number) (h : (Quantity.ofJson number).isKey = false)

theorem isAnswered_shapeFault : CommandLine.isAnswered (shapeFault fields) = false ↔
    ∃ value, field? fields "shape" = some value ∧ maxShapeLayers < value.layers := by
  have hlayers : (∃ value, field? fields "shape" = some value ∧ maxShapeLayers < value.layers) ↔
      maxShapeLayers < (field? fields "shape").elim 0 Json.layers := by
    cases field? fields "shape" <;> simp
  rw [hlayers, shapeFault]
  by_cases h : (field? fields "shape").elim 0 Json.layers ≤ maxShapeLayers
  · rw [if_pos h]
    exact iff_of_false Bool.noConfusion (Nat.not_lt.mpr h)
  · rw [if_neg h]
    exact iff_of_true rfl (Nat.not_le.mp h)

theorem isUnanswered_of_fault {fault : Fault} (hentry : entryOf entry = .error fault) :
    IsUnanswered entry ↔ Unanswered (entryOf entry) := by
  rw [unanswered_entryOf]
  constructor
  · rintro (h | ⟨h, hbefore, hitem⟩ | ⟨h, _⟩ | ⟨h, _⟩ | ⟨h, _⟩)
    · exact Or.inl h
    · exact Or.inr ⟨_, _, _, h, hbefore, hitem⟩
    all_goals cases h.symm.trans hentry
  · rintro (h | ⟨before, item, after, h, hbefore, hitem⟩)
    · exact .whole h
    · exact .stray h hbefore hitem

theorem isUnanswered_of_fields (hentry : entryOf entry = .ok fields) : IsUnanswered entry ↔
    (∃ value, field? fields "shape" = some value ∧ shapeOf? value = none ∧
      maxShapeLayers < value.layers) ∨
    ∃ shape, (field? fields "shape").bind shapeOf? = some shape ∧
      (IsIncomplete fields ∨
        ∃ number, field? fields "number" = some number ∧ (Quantity.ofJson number).isKey = false) := by
  have hanswered : ¬Unanswered (entryOf entry) := by
    rw [hentry]
    exact not_unanswered_ok fields
  rw [unanswered_entryOf, not_or] at hanswered
  constructor
  · rintro (h | ⟨h, hbefore, hitem⟩ | ⟨h, hvalue, hshape, hlayers⟩ | ⟨h, hshape, hfields⟩ |
      ⟨h, hshape, hnumber, hkey⟩)
    · exact absurd h hanswered.1
    · exact absurd ⟨_, _, _, h, hbefore, hitem⟩ hanswered.2
    · obtain rfl := Except.ok.inj (h.symm.trans hentry)
      exact Or.inl ⟨_, hvalue, hshape, hlayers⟩
    · obtain rfl := Except.ok.inj (h.symm.trans hentry)
      exact Or.inr ⟨_, hshape, Or.inl hfields⟩
    · obtain rfl := Except.ok.inj (h.symm.trans hentry)
      exact Or.inr ⟨_, hshape, Or.inr ⟨_, hnumber, hkey⟩⟩
  · rintro (⟨value, hvalue, hshape, hlayers⟩ | ⟨shape, hshape, hfields | ⟨number, hnumber, hkey⟩⟩)
    · exact .buried hentry hvalue hshape hlayers
    · exact .incomplete hentry hshape hfields
    · exact .keyless hentry hshape hnumber hkey

theorem ofJson_shapeless (hentry : entryOf entry = .ok fields)
    (hshape : (field? fields "shape").bind shapeOf? = none) :
    ofJson entry = .error (shapeFault fields) := by
  rw [ofJson, bind_of_ok _ hentry, hshape]

/-- An entry with a shape is a tool, or its fields are not those of one. -/
theorem ofJson_shaped {shape : Shape} (hentry : entryOf entry = .ok fields)
    (hshape : (field? fields "shape").bind shapeOf? = some shape) :
    (IsIncomplete fields ∧ ofJson entry = .error .wrongType) ∨
    (¬IsIncomplete fields ∧ ∃ number tool, field? fields "number" = some number ∧
      tool.number = .ofJson number ∧ ofJson entry = .ok tool) := by
  rw [ofJson, bind_of_ok _ hentry, hshape]
  dsimp only
  split
  · next number name hnumber hname hall =>
    have hfields := List.all_eq_true.mp hall
    refine Or.inr ⟨?_, number, _, hnumber, rfl, rfl⟩
    simpa [IsIncomplete, hnumber, hname] using hfields
  · next hother =>
    refine Or.inl ⟨?_, rfl⟩
    apply Classical.byContradiction
    intro hcomplete
    simp only [IsIncomplete, not_or, not_exists, not_and, Bool.not_eq_false] at hcomplete
    obtain ⟨hnumber, hname, hfields⟩ := hcomplete
    obtain ⟨number, hnumber⟩ := Option.ne_none_iff_exists'.mp hnumber
    obtain ⟨name, hname⟩ := Option.ne_none_iff_exists'.mp hname
    exact hother number name hnumber hname (List.all_eq_true.mpr hfields)

end Tool

namespace Turret

variable {entry : Json} {entries : List Json}

theorem unanswered_add (turret : Turret) (tool : Tool) :
    Unanswered (turret.add tool) ↔ tool.number.isKey = false := by
  rw [add]
  cases tool.number.isKey with
  | false => simp [CommandLine.isAnswered]
  | true =>
      simp only [Bool.not_true, Bool.false_eq_true, if_false]
      split <;> simp [CommandLine.isAnswered]

/-- An entry has a fault that nobody answers for whatever tools are there already. -/
theorem unanswered_put (turret : Turret) (entry : Json) :
    Unanswered (do turret.add (← Tool.ofJson entry)) ↔ Tool.IsUnanswered entry := by
  cases hentry : Tool.entryOf entry with
  | error fault =>
      have hput : (do turret.add (← Tool.ofJson entry)) = .error fault := by
        rw [Tool.ofJson, hentry]
        rfl
      rw [Tool.isUnanswered_of_fault hentry, hput, hentry, unanswered_error, unanswered_error]
  | ok fields =>
      rw [Tool.isUnanswered_of_fields hentry]
      cases hshape : (Tool.field? fields "shape").bind Tool.shapeOf? with
      | none =>
          have hput : (do turret.add (← Tool.ofJson entry)) = .error (Tool.shapeFault fields) := by
            rw [Tool.ofJson_shapeless hentry hshape]
            rfl
          have hvalue (value : Json) (h : Tool.field? fields "shape" = some value) :
              Tool.shapeOf? value = none := by rwa [h] at hshape
          rw [hput, unanswered_error, Tool.isAnswered_shapeFault]
          constructor
          · rintro ⟨value, h, hlayers⟩
            exact Or.inl ⟨value, h, hvalue value h, hlayers⟩
          · rintro (⟨value, h, _, hlayers⟩ | ⟨shape, ⟨⟩, _⟩)
            exact ⟨value, h, hlayers⟩
      | some shape =>
          have hvalue (value : Json) (h : Tool.field? fields "shape" = some value) :
              Tool.shapeOf? value ≠ none := by
            rw [h] at hshape
            exact fun hnone => nomatch hshape.symm.trans hnone
          obtain ⟨hfields, htool⟩ | ⟨hfields, number, tool, hnumber, hkey, htool⟩ :=
            Tool.ofJson_shaped hentry hshape
          · rw [htool]
            exact iff_of_true (unanswered_error.mpr rfl) (Or.inr ⟨shape, rfl, Or.inl hfields⟩)
          · rw [bind_of_ok _ htool, unanswered_add, hkey]
            constructor
            · exact fun h => Or.inr ⟨shape, rfl, Or.inr ⟨number, hnumber, h⟩⟩
            · rintro (⟨value, h, hnone, _⟩ | ⟨_, _, h | ⟨other, hother, h⟩⟩)
              · exact absurd hnone (hvalue value h)
              · exact absurd h hfields
              · rwa [Option.some.inj (hnumber.symm.trans hother)]

theorem unanswered_ofEntries : Unanswered (ofEntries entries) ↔ ∃ before entry after turret,
    entries = before ++ entry :: after ∧ ofEntries before = .ok turret ∧ Tool.IsUnanswered entry := by
  simp only [ofEntries, unanswered_foldlM, unanswered_put]

end Turret

end TurretPunch
