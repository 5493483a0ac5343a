import TurretPunch.Proofs.Configuration.Table
import TurretPunch.Proofs.Storage.Document
import TurretPunch.Settings

namespace TurretPunch

/-!
# Stations of a table

Tools that have integers for numbers make a table exactly if no two of them have the same one, and the
table lists them by it. A table file is read element by element, so that it is refused for the first
element that is no tool or has a number that is taken, whatever comes after.
-/

/-- The integer that is given as a number, be it as a truth value. A fraction is none. -/
def Quantity.integer? : Quantity → Option Int
  | whole n => some n
  | real _ => none
  | other value => value.toInt?

namespace Quantity

variable {p q : Quantity} {m n : Int}

theorem isKey_of_integer (h : p.integer? = some m) : p.isKey = true := by
  cases p with
  | whole | real => rfl
  | other value => cases value <;> first | rfl | cases h

theorem wholeValue?_of_integer (h : p.integer? = some m) : p.wholeValue? = some m := by
  cases p with
  | whole | other => exact h
  | real => cases h

theorem sameKey_of_integer (hp : p.integer? = some m) (hq : q.integer? = some n) :
    p.sameKey q = decide (m = n) := by
  simp only [sameKey, wholeValue?_of_integer hp, wholeValue?_of_integer hq]
  rfl

end Quantity

/-- The number of a tool, where that is an integer. -/
def Tool.ordinal (t : Tool) : Int := t.number.integer?.getD 0

/-- A tool with an integer for a number. -/
def Tool.IsNumbered (t : Tool) : Prop := t.number.integer? = some t.ordinal

namespace Turret

variable {turret : Turret} {tools done rest : List Tool} {t : Tool} {fault : Fault}

theorem add_of_numbered (hdone : ∀ s ∈ done, s.IsNumbered) (ht : t.IsNumbered) :
    add ⟨done⟩ t =
      if t.ordinal ∈ done.map (·.ordinal) then .error (.duplicateStation t.number.toJson)
      else .ok ⟨done ++ [t]⟩ := by
  have hany : done.any (·.number.sameKey t.number) = true ↔ t.ordinal ∈ done.map (·.ordinal) := by
    rw [List.any_eq_true, List.mem_map]
    refine exists_congr fun s => and_congr_right fun hs => ?_
    rw [Quantity.sameKey_of_integer (hdone s hs) ht, decide_eq_true_iff]
  rw [add, Quantity.isKey_of_integer ht, Bool.not_true, if_neg Bool.false_ne_true]
  exact if_congr hany rfl rfl

/-- Tools can be put in one after the other exactly if no two have the same number. -/
theorem foldlM_add_eq_ok_iff (hdone : (done.map (·.ordinal)).Nodup)
    (htools : ∀ t ∈ done ++ rest, t.IsNumbered) :
    rest.foldlM add ⟨done⟩ = .ok turret ↔
      ((done ++ rest).map (·.ordinal)).Nodup ∧ turret = ⟨done ++ rest⟩ := by
  induction rest generalizing done with
  | nil =>
      rw [List.append_nil]
      constructor
      · intro h
        exact ⟨hdone, (Except.ok.inj h).symm⟩
      · rintro ⟨_, rfl⟩
        rfl
  | cons t rest ih =>
      have hcons : done ++ t :: rest = (done ++ [t]) ++ rest := by simp
      have hbefore : ∀ s ∈ done, s.IsNumbered := fun s hs => htools s (List.mem_append_left _ hs)
      have hadd := add_of_numbered hbefore (htools t (by simp))
      rw [List.foldlM_cons, hcons]
      rw [hcons] at htools
      by_cases htaken : t.ordinal ∈ done.map (·.ordinal)
      · rw [if_pos htaken] at hadd
        rw [hadd]
        refine iff_of_false nofun fun ⟨hnodup, _⟩ => ?_
        rw [List.append_assoc, List.singleton_append, List.map_append, List.map_cons,
          List.nodup_middle, List.nodup_cons] at hnodup
        exact hnodup.1 (List.mem_append_left _ htaken)
      · rw [if_neg htaken] at hadd
        rw [bind_of_ok _ hadd]
        refine ih ?_ htools
        rw [List.map_append, List.map_singleton, List.nodup_append_comm]
        exact List.nodup_cons.mpr ⟨htaken, hdone⟩

theorem ofTools_eq_ok_iff (htools : ∀ t ∈ tools, t.IsNumbered) :
    ofTools tools = .ok turret ↔ (tools.map (·.ordinal)).Nodup ∧ turret = ⟨tools⟩ :=
  foldlM_add_eq_ok_iff List.nodup_nil htools

/-- Entries are put in exactly if they all give tools and those can be put in. -/
theorem foldlM_entries_eq_ok_iff {entries : List Json} {start : Turret} :
    entries.foldlM (fun turret entry => do turret.add (← Tool.ofJson entry)) start = .ok turret ↔
      ∃ tools : List Tool, entries.map Tool.ofJson = tools.map .ok ∧ tools.foldlM add start = .ok turret := by
  induction entries generalizing start with
  | nil =>
      constructor
      · exact fun h => ⟨[], rfl, h⟩
      · rintro ⟨tools, htools, h⟩
        rw [List.map_eq_nil_iff.mp htools.symm] at h
        exact h
  | cons entry entries ih =>
      rw [List.foldlM_cons]
      constructor
      · intro h
        obtain ⟨next, hnext, h⟩ := ok_of_bind h
        obtain ⟨t, ht, hnext⟩ := ok_of_bind hnext
        obtain ⟨tools, htools, h⟩ := ih.mp h
        refine ⟨t :: tools, by rw [List.map_cons, List.map_cons, ht, htools], ?_⟩
        rw [List.foldlM_cons, bind_of_ok _ hnext, h]
      · rintro ⟨tools, htools, h⟩
        obtain ⟨t, tools, rfl, ht, htools⟩ := List.map_eq_cons_iff.mp htools.symm
        rw [List.foldlM_cons] at h
        obtain ⟨next, hnext, h⟩ := ok_of_bind h
        rw [← ht]
        exact (bind_of_ok _ hnext).trans (ih.mpr ⟨tools, htools.symm, h⟩)

/-- Where the reading of entries breaks off: after entries of tools with different numbers there is one
that is no tool, or the number of its tool is taken. -/
def BreaksOff (before : List Json) (entry : Json) (fault : Fault) : Prop :=
  ∃ tools : List Tool, before.map Tool.ofJson = tools.map .ok ∧ (∀ t ∈ tools, t.IsNumbered) ∧
    (tools.map (·.ordinal)).Nodup ∧
    (Tool.ofJson entry = .error fault ∨ ∃ t, Tool.ofJson entry = .ok t ∧ t.IsNumbered ∧
      t.ordinal ∈ tools.map (·.ordinal) ∧ fault = .duplicateStation t.number.toJson)

/-- What comes after does not matter. -/
theorem BreaksOff.ofEntries {before : List Json} {entry : Json} (h : BreaksOff before entry fault)
    (after : List Json) : ofEntries (before ++ entry :: after) = .error fault := by
  obtain ⟨tools, hbefore, hnumbered, hdistinct, hentry⟩ := h
  have htable := (ofTools_eq_ok_iff hnumbered).mpr ⟨hdistinct, rfl⟩
  refine foldlM_eq_error_iff.mpr ⟨before, entry, after, ⟨tools⟩, rfl,
    foldlM_entries_eq_ok_iff.mpr ⟨tools, hbefore, htable⟩, ?_⟩
  rcases hentry with hentry | ⟨t, ht, htnumbered, htaken, rfl⟩
  · rw [hentry]
    rfl
  · rw [bind_of_ok _ ht, add_of_numbered hnumbered htnumbered, if_pos htaken]

end Turret

end TurretPunch
