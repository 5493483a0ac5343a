import TurretPunch.Fault

namespace TurretPunch

/-!
# Outcomes of steps

Of two steps the second is made with what came out of the first, unless that has a fault.
-/

variable {α β : Type} {x : Except Fault α} {f : α → Except Fault β}

theorem exists_of_isOk (h : x.isOk = true) : ∃ a, x = .ok a := by
  cases x with
  | error fault => cases h
  | ok a => exact ⟨a, rfl⟩

/-- What comes out of two steps came out of the first and then out of the second. -/
theorem ok_of_bind {b : β} (h : x >>= f = .ok b) : ∃ a, x = .ok a ∧ f a = .ok b := by
  cases x with
  | error fault => cases h
  | ok a => exact ⟨a, rfl, h⟩

theorem bind_of_ok {a : α} (f : α → Except Fault β) (h : x = .ok a) : x >>= f = f a := by
  rw [h]
  rfl

/-- A fault comes from the first step, or from the second after the first. -/
theorem bind_eq_error_iff {fault : Fault} :
    x >>= f = .error fault ↔ x = .error fault ∨ ∃ a, x = .ok a ∧ f a = .error fault := by
  cases x with
  | error other =>
      constructor
      · intro h
        exact Or.inl (congrArg Except.error (Except.error.inj h))
      · rintro (h | ⟨a, ha, _⟩)
        · rw [Except.error.inj h]
          rfl
        · cases ha
  | ok a =>
      constructor
      · intro h
        exact Or.inr ⟨a, rfl, h⟩
      · rintro (h | ⟨b, hb, h⟩)
        · cases h
        · rw [Except.ok.inj hb]
          exact h

/-- What is found first, after items of another kind, is found at the first item or after it. -/
theorem exists_first_cons {P Q : β → Prop} {first : β} {items : List β} :
    (∃ before item after, first :: items = before ++ item :: after ∧ (∀ other ∈ before, P other) ∧
        Q item) ↔
      Q first ∨ P first ∧ ∃ before item after,
        items = before ++ item :: after ∧ (∀ other ∈ before, P other) ∧ Q item := by
  constructor
  · rintro ⟨before, item, after, hitems, hbefore, hitem⟩
    cases before with
    | nil =>
        obtain ⟨rfl, rfl⟩ := List.cons.inj hitems
        exact Or.inl hitem
    | cons other before =>
        obtain ⟨rfl, rfl⟩ := List.cons.inj hitems
        rw [List.forall_mem_cons] at hbefore
        exact Or.inr ⟨hbefore.1, before, item, after, rfl, hbefore.2, hitem⟩
  · rintro (hfirst | ⟨hfirst, before, item, after, rfl, hbefore, hitem⟩)
    · exact ⟨[], first, items, rfl, nofun, hfirst⟩
    · exact ⟨first :: before, item, after, rfl, List.forall_mem_cons.mpr ⟨hfirst, hbefore⟩, hitem⟩

/-- A fold breaks off at the first item whose step has a fault. -/
theorem foldlM_eq_error_iff {γ : Type} {step : α → γ → Except Fault α} {items : List γ} {a : α}
    {fault : Fault} :
    items.foldlM step a = .error fault ↔ ∃ before item after b,
      items = before ++ item :: after ∧ before.foldlM step a = .ok b ∧ step b item = .error fault := by
  induction items generalizing a with
  | nil =>
      constructor
      · rintro ⟨⟩
      · rintro ⟨before, item, after, b, hitems, _⟩
        simp at hitems
  | cons first items ih =>
      rw [List.foldlM_cons, bind_eq_error_iff]
      constructor
      · rintro (hfirst | ⟨b, hb, hrest⟩)
        · exact ⟨[], first, items, a, rfl, rfl, hfirst⟩
        · obtain ⟨before, item, after, c, rfl, hbefore, hitem⟩ := ih.mp hrest
          refine ⟨first :: before, item, after, c, rfl, ?_, hitem⟩
          rw [List.foldlM_cons, bind_of_ok _ hb, hbefore]
      · rintro ⟨before, item, after, c, hitems, hbefore, hitem⟩
        cases before with
        | nil =>
            obtain ⟨rfl, rfl⟩ := List.cons.inj hitems
            rw [← Except.ok.inj hbefore] at hitem
            exact Or.inl hitem
        | cons other before =>
            obtain ⟨rfl, rfl⟩ := List.cons.inj hitems
            rw [List.foldlM_cons] at hbefore
            obtain ⟨b, hb, hbefore⟩ := ok_of_bind hbefore
            exact Or.inr ⟨b, hb, ih.mpr ⟨before, item, after, c, rfl, hbefore, hitem⟩⟩

end TurretPunch
