import TurretPunch.Proofs.Outcome
import TurretPunch.Proofs.Text.Encoding
import TurretPunch.Storage.Saving

namespace TurretPunch.Storage

/-!
# Reading what was written

A file that was written is there, where the path leads, with what was written.
-/

variable {s saved : Storage} {place other : List Text.Points} {path : Path} {entry : Entry}
  {names : List Text.Points} {content : List UInt8}

theorem kept?_cons (q : List Text.Points) (first : Entry) (entries : List (List Text.Points × Entry))
    (place : List Text.Points) :
    kept? ⟨(q, first) :: entries⟩ place = if place = q then some first else kept? ⟨entries⟩ place := by
  unfold kept?
  by_cases h : place = q
  · simp [h]
  · have hq : isPlace place q = false := Bool.eq_false_iff.mpr (mt isPlace_iff.mp h)
    simp [h, hq]

theorem kept?_add (s : Storage) (place : List Text.Points) (entry : Entry) (other : List Text.Points) :
    (s.add place entry).kept? other =
      (s.kept? other).or (if other = place then some entry else none) := by
  obtain ⟨entries⟩ := s
  unfold add
  induction entries with
  | nil => exact kept?_cons _ _ _ _
  | cons first entries ih =>
      rw [List.cons_append, kept?_cons, kept?_cons, ih]
      split <;> rfl

theorem kept?_replaced (entries : List (List Text.Points × Entry)) (place : List Text.Points)
    (entry : Entry) (other : List Text.Points) :
    kept? ⟨entries.map fun (q, old) => if isPlace place q then (q, entry) else (q, old)⟩ other =
      if other = place then (kept? ⟨entries⟩ place).map fun _ => entry else kept? ⟨entries⟩ other := by
  induction entries with
  | nil => simp [kept?]
  | cons first entries ih =>
      obtain ⟨q, old⟩ := first
      rw [List.map_cons, kept?_cons, kept?_cons, kept?_cons, ih]
      by_cases hq : place = q
      · subst hq
        simp only [isPlace_iff.mpr rfl, if_true]
        split <;> rfl
      · have hplace : isPlace place q = false := Bool.eq_false_iff.mpr (mt isPlace_iff.mp hq)
        simp only [hplace, Bool.false_eq_true, if_false]
        by_cases hother : other = q
        · subst hother
          simp [Ne.symm hq]
        · simp [hother, hq]

theorem kept?_set (s : Storage) (place : List Text.Points) (entry : Entry) (other : List Text.Points) :
    (s.set place entry).kept? other = if other = place then some entry else s.kept? other := by
  unfold set
  cases hkept : s.kept? place with
  | none =>
      rw [if_neg (by simp), kept?_add]
      by_cases h : other = place
      · rw [h, hkept]
        rfl
      · simp [h]
  | some old =>
      rw [Option.isSome_some, if_pos rfl, kept?_replaced]
      have hold : kept? ⟨s.entries⟩ place = some old := hkept
      rw [hold]
      rfl

theorem get?_set_self (hplace : isAbove place = false) : (s.set place entry).get? place = some entry := by
  simp [get?, hplace, kept?_set]

theorem get?_set_of_ne (h : other ≠ place) : (s.set place entry).get? other = s.get? other := by
  simp [get?, kept?_set, h]

/-- The way to a place goes through folders. So it stays when something is put where no folder is. -/
theorem foldlM_enter_set {start : List Text.Points} (hplace : s.get? place ≠ some .folder)
    (h : names.foldlM s.enter start = .ok other) :
    names.foldlM (s.set place entry).enter start = .ok other := by
  induction names generalizing start with
  | nil => exact h
  | cons name names ih =>
      rw [List.foldlM_cons] at h ⊢
      have henter : (s.set place entry).enter start name = s.enter start name := by
        by_cases hstart : start = place
        · cases hfirst : s.enter start name with
          | error fault =>
              rw [hfirst] at h
              cases h
          | ok next =>
              unfold enter at hfirst
              split at hfirst
              · next hfolder => exact absurd (hstart ▸ hfolder) hplace
              · cases hfirst
              · cases hfirst
        · unfold enter
          rw [get?_set_of_ne hstart]
      rw [henter]
      cases hfirst : s.enter start name with
      | error fault =>
          rw [hfirst] at h
          cases h
      | ok next =>
          rw [hfirst] at h
          exact ih h

theorem resolve_set (hplace : s.get? place ≠ some .folder) (h : s.resolve path = .ok other) :
    (s.set place entry).resolve path = .ok other := by
  unfold resolve at h ⊢
  split at h
  · cases h
  · next hproblem =>
    exact foldlM_enter_set hplace h

/-- There is a file with a content where a path leads. -/
def Holds (s : Storage) (path : Path) (content : List UInt8) : Prop :=
  ∃ place, s.resolve path = .ok place ∧ s.get? place = some (.file content)

theorem isAbove_of_not_folder (h : s.get? place ≠ some .folder) : isAbove place = false := by
  rw [← Bool.not_eq_true]
  intro habove
  exact h (by rw [get?, if_pos habove])

/-- A file is written where its path leads, unless a folder is there. -/
theorem exists_of_write (h : s.write path content = .ok saved) :
    ∃ place, s.resolve path = .ok place ∧ s.get? place ≠ some .folder ∧
      saved = s.set place (.file content) := by
  obtain ⟨place, hresolve, h⟩ := ok_of_bind h
  split at h
  · cases h
  · next hfolder => exact ⟨place, hresolve, hfolder, (Except.ok.inj h).symm⟩

theorem holds_write (h : s.write path content = .ok saved) : saved.Holds path content := by
  obtain ⟨place, hresolve, hfolder, rfl⟩ := exists_of_write h
  exact ⟨place, resolve_set hfolder hresolve, get?_set_self (isAbove_of_not_folder hfolder)⟩

theorem Holds.contains (h : s.Holds path content) : s.contains path = .ok true := by
  obtain ⟨place, hresolve, hfile⟩ := h
  rw [Storage.contains, find?, hresolve]
  simp only [hfile]
  rfl

theorem Holds.read (h : s.Holds path content) : s.read path = .ok content := by
  obtain ⟨place, hresolve, hfile⟩ := h
  rw [Storage.read, bind_of_ok _ hresolve, hfile]
  rfl

/-- What is read of a file is its text with the newlines unified. -/
theorem Holds.readText {text : String} (h : s.Holds path (Text.encodeUtf8 text)) :
    s.readText path = .ok (Text.unifyNewlines text.toList) := by
  rw [Storage.readText, bind_of_ok _ h.read, Text.decodeUtf8_encodeUtf8]
  rfl

end TurretPunch.Storage
