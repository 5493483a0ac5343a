import TurretPunch.Proofs.Configuration.Refusal
import TurretPunch.Session.Basic
import TurretPunch.Settings

namespace TurretPunch

/-!
# Refused settings

Settings are checked where they are read, as far as that needs a comparison, and the rest of them
where a session is made. Nobody answers for a value that is no number, nor for a log whose room is a
fraction or beyond all memory.
-/

namespace Quantity

variable {q : Quantity}

/-- Something is found out of a quantity if that is a number, and else it is of the wrong type. -/
def NeedsNumber {α : Type} (q : Quantity) (outcome : Except Fault α) : Prop :=
  q.isNumber = false ∧ outcome = .error .wrongType ∨ q.isNumber = true ∧ ∃ a, outcome = .ok a

theorem needsNumber_isBelow (q : Quantity) (bound : Int) : q.NeedsNumber (q.isBelow bound) := by
  cases q with
  | whole n => exact Or.inr ⟨rfl, _, rfl⟩
  | real x => exact Or.inr ⟨rfl, _, rfl⟩
  | other value =>
      cases hvalue : value.toInt? with
      | none => exact Or.inl ⟨by rw [isNumber, hvalue]; rfl, by rw [isBelow, hvalue]⟩
      | some n => exact Or.inr ⟨by rw [isNumber, hvalue]; rfl, _, by rw [isBelow, hvalue]⟩

theorem needsNumber_isNonPositive (q : Quantity) : q.NeedsNumber q.isNonPositive := by
  cases q with
  | whole n => exact Or.inr ⟨rfl, _, rfl⟩
  | real x => exact Or.inr ⟨rfl, _, rfl⟩
  | other value =>
      cases hvalue : value.toInt? with
      | none => exact Or.inl ⟨by rw [isNumber, hvalue]; rfl, by rw [isNonPositive, hvalue]⟩
      | some n => exact Or.inr ⟨by rw [isNumber, hvalue]; rfl, _, by rw [isNonPositive, hvalue]⟩

theorem toDouble_of_nearestDouble {n : Int} (h : q.toFloat = nearestDouble n 1) :
    ∃ x, q.toDouble = .ok x := by
  rw [toDouble, h, nearestDouble]
  cases Decimal.ofQuotient? n 1 with
  | some x => exact ⟨x, rfl⟩
  | none => exact ⟨_, rfl⟩

theorem needsNumber_toDouble (q : Quantity) : q.NeedsNumber q.toDouble := by
  cases q with
  | whole n => exact Or.inr ⟨rfl, toDouble_of_nearestDouble rfl⟩
  | real x => exact Or.inr ⟨rfl, _, rfl⟩
  | other value =>
      cases hvalue : value.toInt? with
      | none =>
          refine Or.inl ⟨by rw [isNumber, hvalue]; rfl, ?_⟩
          rw [toDouble, toFloat, hvalue]
      | some n =>
          refine Or.inr ⟨by rw [isNumber, hvalue]; rfl, toDouble_of_nearestDouble (n := n) ?_⟩
          rw [toFloat, hvalue]

theorem needsNumber_sideOf (standard : Float) (q : Quantity) :
    q.NeedsNumber (Sheet.sideOf standard q) := by
  obtain ⟨hnumber, h⟩ | ⟨hnumber, b, h⟩ := q.needsNumber_isNonPositive
  · refine Or.inl ⟨hnumber, ?_⟩
    rw [Sheet.sideOf, h]
    rfl
  · obtain ⟨hother, _⟩ | ⟨_, x, hx⟩ := q.needsNumber_toDouble
    · cases hnumber.symm.trans hother
    · rw [Sheet.sideOf, bind_of_ok _ h]
      cases b with
      | true => exact Or.inr ⟨hnumber, standard, rfl⟩
      | false => exact Or.inr ⟨hnumber, x, hx⟩

end Quantity

namespace Settings

variable {settings : Settings} {members : List (Text.Points × Json)}

/-- Settings after a member. -/
def after (settings : Settings) (member : Text.Points × Json) : Settings :=
  (member.1.string?.bind fun name => settings.set? name (.ofJson member.2)).getD settings

/-- The settings that members give, one after the other. -/
def given (members : List (Text.Points × Json)) : Settings := members.foldl after {}

theorem mem_names_iff (settings : Settings) (name : String) (value : Quantity) :
    name ∈ names ↔ (settings.set? name value).isSome = true := by
  unfold set?
  split <;> simp_all [names]

theorem setAll_members (settings : Settings) (members : List (Text.Points × Json)) :
    settings.setAll (members.filterMap fun (name, value) =>
        (name.string?.filter names.contains).map fun name => (name, .ofJson value)) =
      .ok (members.foldl after settings) := by
  induction members generalizing settings with
  | nil => rfl
  | cons first members ih =>
      obtain ⟨name, value⟩ := first
      rw [List.foldl_cons, after]
      cases hname : name.string? with
      | none =>
          rw [List.filterMap_cons_none (by simp [hname])]
          exact ih settings
      | some known =>
          have hknown := settings.mem_names_iff known (.ofJson value)
          cases hnext : settings.set? known (.ofJson value) with
          | none =>
              rw [hnext] at hknown
              rw [List.filterMap_cons_none (by simp [hname, hknown]), Option.bind_some, hnext]
              exact ih settings
          | some next =>
              rw [hnext] at hknown
              rw [List.filterMap_cons_some (b := (known, .ofJson value)) (by simp [hname, hknown]),
                Option.bind_some, hnext, setAll, List.foldlM_cons]
              simp only [hnext]
              exact ih next

theorem ofMembers_eq (members : List (Text.Points × Json)) :
    ofMembers members = (given members).checked := by
  rw [ofMembers, withValues, setAll_members]
  rfl

/-- A number of lines that is a fraction or too large. -/
def IsBoundless (limit : Quantity) : Prop :=
  (∃ x, limit = .real x) ∨ ∃ n, limit.wholeValue? = some n ∧ maxLogRoom < n

/-- The settings with a fault that nobody answers for. -/
inductive IsUnanswered (settings : Settings) : Prop
  /-- The interval is no number. -/
  | interval (h : settings.interval.isNumber = false)
  /-- The interval is not negative, and the room of the log is no number. -/
  | logLimit (hinterval : settings.interval.isBelow 0 = .ok false)
      (h : settings.logLimit.isNumber = false)
  /-- The settings pass, but a side of the sheet is no number. -/
  | sheet (hinterval : settings.interval.isBelow 0 = .ok false)
      (hlog : settings.logLimit.isBelow 1 = .ok false)
      (h : settings.width.isNumber = false ∨ settings.height.isNumber = false)
  /-- The settings pass, but the room of the log is a fraction or too large. -/
  | room (hinterval : settings.interval.isBelow 0 = .ok false)
      (hlog : settings.logLimit.isBelow 1 = .ok false)
      (h : IsBoundless settings.logLimit)

theorem unanswered_ofInt (n : Int) : Unanswered (roomOf.ofInt n) ↔ maxLogRoom < n := by
  rw [roomOf.ofInt]
  split
  · next h => exact iff_of_true (unanswered_error.mpr rfl) h
  · next h => exact iff_of_false (not_unanswered_ok _) h

theorem unanswered_roomOf {limit : Quantity} (h : limit.isNumber = true) :
    Unanswered (roomOf limit) ↔ IsBoundless limit := by
  cases limit with
  | whole n => simp [roomOf, unanswered_ofInt, IsBoundless, Quantity.wholeValue?]
  | real x => exact iff_of_true (unanswered_error.mpr rfl) (Or.inl ⟨x, rfl⟩)
  | other value =>
      obtain ⟨n, hn⟩ := Option.isSome_iff_exists.mp h
      simp [roomOf, unanswered_ofInt, IsBoundless, Quantity.wholeValue?, hn]

theorem ofQuantities_cases (width height : Quantity) :
    (width.isNumber = false ∨ height.isNumber = false) ∧
      Sheet.ofQuantities width height = .error .wrongType ∨
    ¬(width.isNumber = false ∨ height.isNumber = false) ∧
      ∃ sheet, Sheet.ofQuantities width height = .ok sheet := by
  rw [Sheet.ofQuantities]
  obtain ⟨hwidth, hx⟩ | ⟨hwidth, x, hx⟩ := width.needsNumber_sideOf Sheet.standardWidth
  · rw [hx]
    exact Or.inl ⟨Or.inl hwidth, rfl⟩
  · rw [bind_of_ok _ hx]
    obtain ⟨hheight, hy⟩ | ⟨hheight, y, hy⟩ := height.needsNumber_sideOf Sheet.standardHeight
    · rw [hy]
      exact Or.inl ⟨Or.inr hheight, rfl⟩
    · rw [hy]
      exact Or.inr ⟨by simp [hwidth, hheight], _, rfl⟩

theorem unanswered_ofSettings (turret : Turret) (hinterval : settings.interval.isNumber = true)
    (hlog : settings.logLimit.isNumber = true) :
    Unanswered (Session.ofSettings turret none settings) ↔
      (settings.width.isNumber = false ∨ settings.height.isNumber = false) ∨
        IsBoundless settings.logLimit := by
  obtain ⟨hsheet, h⟩ | ⟨hsheet, sheet, h⟩ := ofQuantities_cases settings.width settings.height
  · rw [Session.ofSettings, h]
    exact iff_of_true (unanswered_error.mpr rfl) (Or.inl hsheet)
  · obtain ⟨hnone, _⟩ | ⟨_, interval, hdouble⟩ := settings.interval.needsNumber_toDouble
    · cases hnone.symm.trans hinterval
    · rw [Session.ofSettings, h, bind_of_ok _ rfl, unanswered_bind, unanswered_roomOf hlog,
        or_iff_right hsheet]
      simp only [hdouble]
      apply or_iff_left
      rintro ⟨room, _, hroom⟩
      exact not_unanswered_ok _ hroom

theorem not_isAnswered_of_roomOf {limit : Quantity} {fault : Fault} (h : roomOf limit = .error fault) :
    CommandLine.isAnswered fault = false := by
  have hofInt {n : Int} (h : roomOf.ofInt n = .error fault) : CommandLine.isAnswered fault = false := by
    rw [roomOf.ofInt] at h
    split at h
    · cases h
      rfl
    · cases h
  cases limit with
  | whole n => exact hofInt h
  | real x =>
      cases h
      rfl
  | other value =>
      rw [roomOf] at h
      split at h
      · exact hofInt h
      · cases h
        rfl

/-- Nobody answers for settings that pass and of which no session can be made. -/
theorem not_isAnswered_of_ofSettings {turret : Turret} {fault : Fault}
    (h : Session.ofSettings turret none settings = .error fault) :
    CommandLine.isAnswered fault = false := by
  rw [Session.ofSettings] at h
  obtain h | ⟨sheet, _, h⟩ := bind_eq_error_iff.mp h
  · obtain ⟨_, hsheet⟩ | ⟨_, sheet, hsheet⟩ := ofQuantities_cases settings.width settings.height
    · cases hsheet.symm.trans h
      rfl
    · cases hsheet.symm.trans h
  · obtain h | ⟨room, _, h⟩ := bind_eq_error_iff.mp h
    · exact not_isAnswered_of_roomOf h
    · obtain h | ⟨interval, _, h⟩ := bind_eq_error_iff.mp h
      · obtain ⟨_, hinterval⟩ | ⟨_, x, hinterval⟩ := settings.interval.needsNumber_toDouble
        · cases hinterval.symm.trans h
          rfl
        · cases hinterval.symm.trans h
      · cases h

theorem checked_eq {negative : Bool} (h : settings.interval.isBelow 0 = .ok negative) :
    settings.checked = if negative then .error .negativeInterval else do
      if ← settings.logLimit.isBelow 1 then .error .noLogRoom else return settings := by
  rw [checked, bind_of_ok _ h]

/-- Settings are read and a session is made of them, or there is a fault that is told, unless the
settings are among those that nobody answers for. -/
theorem unanswered_checked (turret : Turret) (settings : Settings) :
    Unanswered (settings.checked >>= Session.ofSettings turret none) ↔ settings.IsUnanswered := by
  obtain ⟨hinterval, h⟩ | ⟨hinterval, negative, h⟩ := settings.interval.needsNumber_isBelow 0
  · rw [checked, h]
    exact iff_of_true (unanswered_error.mpr rfl) (.interval hinterval)
  rw [checked_eq h]
  cases negative with
  | true =>
      refine iff_of_false (fun h => Bool.noConfusion (unanswered_error.mp h)) ?_
      rintro (hnone | ⟨h', _⟩ | ⟨h', _, _⟩ | ⟨h', _, _⟩)
      · cases hnone.symm.trans hinterval
      all_goals cases h.symm.trans h'
  | false =>
      obtain ⟨hlog, hbelow⟩ | ⟨hlog, roomless, hbelow⟩ := settings.logLimit.needsNumber_isBelow 1
      · rw [hbelow]
        exact iff_of_true (unanswered_error.mpr rfl) (.logLimit h hlog)
      · cases roomless with
        | true =>
            rw [hbelow]
            refine iff_of_false (fun h => Bool.noConfusion (unanswered_error.mp h)) ?_
            rintro (hnone | ⟨_, hnone⟩ | ⟨_, h', _⟩ | ⟨_, h', _⟩)
            · cases hnone.symm.trans hinterval
            · cases hnone.symm.trans hlog
            all_goals cases hbelow.symm.trans h'
        | false =>
            rw [hbelow]
            refine (unanswered_ofSettings turret hinterval hlog).trans ⟨?_, ?_⟩
            · rintro (hsheet | hroom)
              · exact .sheet h hbelow hsheet
              · exact .room h hbelow hroom
            · rintro (hnone | ⟨_, hnone⟩ | ⟨_, _, hsheet⟩ | ⟨_, _, hroom⟩)
              · cases hnone.symm.trans hinterval
              · cases hnone.symm.trans hlog
              · exact Or.inl hsheet
              · exact Or.inr hroom

end Settings

end TurretPunch
