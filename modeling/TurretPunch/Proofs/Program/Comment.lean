import Mathlib.Data.List.TakeWhile
import TurretPunch.Program.Comment

namespace TurretPunch.Program

/-!
# Comments from left to right

A line can be read from left to right, one character or one comment at a time. Where no comment is open
the rest of the line is read as if it stood alone, so that a comment can be put there and removed again.
-/

open Text (Point)

variable {ps rest inner : List Point}

theorem removeComments_of_none (h : splitComment? ps = none) : removeComments ps = ps := by
  rw [removeComments]
  split
  · rfl
  · next heq => cases h.symm.trans heq

theorem removeComments_of_some {before after : List Point}
    (h : splitComment? ps = some (before, after)) :
    removeComments ps = before ++ removeComments after := by
  rw [removeComments]
  split
  · next heq => cases h.symm.trans heq
  · next heq =>
    obtain ⟨rfl, rfl⟩ := Prod.mk.inj (Option.some.inj (h.symm.trans heq))
    rfl

theorem removeComments_of_not_mem (h : .char '(' ∉ ps) : removeComments ps = ps := by
  apply removeComments_of_none
  have hdropped : ps.dropWhile (· != .char '(') = [] := by
    rw [List.dropWhile_eq_nil_iff]
    intro p hp
    have hne : p ≠ .char '(' := fun heq => h (heq ▸ hp)
    simpa using hne
  rw [splitComment?, hdropped]
  rfl

@[simp] theorem removeComments_nil : removeComments [] = [] :=
  removeComments_of_not_mem List.not_mem_nil

theorem splitComment?_cons {p : Point} (hp : p ≠ .char '(') (ps : List Point) :
    splitComment? (p :: ps) = (splitComment? ps).map fun (before, after) => (p :: before, after) := by
  unfold splitComment?
  rw [List.dropWhile_cons_of_pos (by simpa using hp), List.takeWhile_cons_of_pos (by simpa using hp)]
  split <;> rfl

theorem removeComments_cons {p : Point} (hp : p ≠ .char '(') (ps : List Point) :
    removeComments (p :: ps) = p :: removeComments ps := by
  cases hsplit : splitComment? ps with
  | none =>
      rw [removeComments_of_none hsplit, removeComments_of_none]
      rw [splitComment?_cons hp, hsplit]
      rfl
  | some parts =>
      obtain ⟨before, after⟩ := parts
      rw [removeComments_of_some hsplit, ← List.cons_append]
      apply removeComments_of_some
      rw [splitComment?_cons hp, hsplit]
      rfl

theorem removeComments_comment (h : .char ')' ∉ inner) (rest : List Point) :
    removeComments (.char '(' :: (inner ++ .char ')' :: rest)) = removeComments rest := by
  have hinner : ∀ p ∈ inner, (p != .char ')') = true := by
    intro p hp
    have hne : p ≠ .char ')' := fun heq => h (heq ▸ hp)
    simpa using hne
  have hclosed : (.char '(' :: (inner ++ .char ')' :: rest)).dropWhile (· != .char ')') =
      .char ')' :: rest := by
    rw [List.dropWhile_cons_of_pos rfl, List.dropWhile_append_of_pos hinner]
    rfl
  have hsplit : splitComment? (.char '(' :: (inner ++ .char ')' :: rest)) = some ([], rest) := by
    rw [splitComment?, List.dropWhile_cons_of_neg (by simp), hclosed]
    rfl
  rw [removeComments_of_some hsplit, List.nil_append]

/-- A parenthesis that is not closed stays, and so does all that follows it. -/
theorem removeComments_unclosed (h : .char ')' ∉ rest) :
    removeComments (.char '(' :: rest) = .char '(' :: rest := by
  apply removeComments_of_none
  have hnone : (.char '(' :: rest).dropWhile (· != .char ')') = [] := by
    rw [List.dropWhile_eq_nil_iff]
    intro p hp
    rcases List.mem_cons.mp hp with rfl | hp
    · rfl
    · have hne : p ≠ .char ')' := fun heq => h (heq ▸ hp)
      simpa using hne
  rw [splitComment?, List.dropWhile_cons_of_neg (by simp), hnone]

/-- A line begins with a character, with a comment, or with a parenthesis that is not closed. -/
@[elab_as_elim]
theorem comment_induction {motive : List Point → Prop} (nil : motive [])
    (char : ∀ p rest, p ≠ .char '(' → motive rest → motive (p :: rest))
    (comment : ∀ inner rest, .char ')' ∉ inner → motive rest →
      motive (.char '(' :: (inner ++ .char ')' :: rest)))
    (unclosed : ∀ rest, .char ')' ∉ rest → motive (.char '(' :: rest)) (ps : List Point) :
    motive ps := by
  induction hlength : ps.length using Nat.strongRecOn generalizing ps with
  | _ n ih =>
    subst hlength
    cases ps with
    | nil => exact nil
    | cons p rest =>
        by_cases hp : p = .char '('
        · subst hp
          by_cases hclosed : .char ')' ∈ rest
          · obtain ⟨inner, more, rfl, hinner⟩ := List.eq_append_cons_of_mem hclosed
            apply comment inner more hinner
            apply ih _ _ more rfl
            rw [List.length_cons, List.length_append, List.length_cons]
            omega
          · exact unclosed rest hclosed
        · exact char p rest hp (ih _ (Nat.lt_succ_self _) rest rfl)

/-- Each comment that a text begins is closed in it. -/
def IsClosed (ps : List Point) : Prop :=
  ∀ before after, ps = before ++ .char '(' :: after → .char ')' ∈ after

theorem isClosed_of_not_mem (h : .char '(' ∉ ps) : IsClosed ps := by
  rintro before after rfl
  exact absurd (List.mem_append_right _ List.mem_cons_self) h

theorem IsClosed.of_append {before : List Point} (h : IsClosed (before ++ rest)) : IsClosed rest := by
  intro first after hrest
  apply h (before ++ first) after
  rw [hrest, List.append_assoc]

theorem IsClosed.removeComments_append (h : IsClosed ps) (rest : List Point) :
    removeComments (ps ++ rest) = removeComments ps ++ removeComments rest := by
  induction ps using comment_induction with
  | nil => rw [removeComments_nil, List.nil_append, List.nil_append]
  | char p ps hp ih =>
      have hrest : IsClosed ps := @IsClosed.of_append ps [p] h
      rw [List.cons_append, removeComments_cons hp, removeComments_cons hp, ih hrest,
        List.cons_append]
  | comment inner ps hinner ih =>
      have hrest : IsClosed ps := by
        apply @IsClosed.of_append ps (.char '(' :: (inner ++ [.char ')']))
        simpa using h
      rw [List.cons_append, List.append_assoc, List.cons_append, removeComments_comment hinner,
        removeComments_comment hinner, ih hrest]
  | unclosed ps hps => exact absurd (h [] ps rfl) hps

/-- A comment that is put where none is open is removed. -/
theorem IsClosed.removeComments_insert (h : IsClosed ps) (hinner : .char ')' ∉ inner)
    (rest : List Point) :
    removeComments (ps ++ .char '(' :: (inner ++ .char ')' :: rest)) = removeComments (ps ++ rest) := by
  rw [h.removeComments_append, h.removeComments_append, removeComments_comment hinner]

/-- What follows a line and has no parentheses stays. -/
theorem removeComments_append_of_not_mem (hopen : .char '(' ∉ rest) (hclose : .char ')' ∉ rest)
    (ps : List Point) : removeComments (ps ++ rest) = removeComments ps ++ rest := by
  induction ps using comment_induction with
  | nil => rw [List.nil_append, removeComments_nil, List.nil_append, removeComments_of_not_mem hopen]
  | char p ps hp ih =>
      rw [List.cons_append, removeComments_cons hp, removeComments_cons hp, ih, List.cons_append]
  | comment inner ps hinner ih =>
      rw [List.cons_append, List.append_assoc, List.cons_append, removeComments_comment hinner,
        removeComments_comment hinner, ih]
  | unclosed ps hps =>
      have hall : .char ')' ∉ ps ++ rest := by simp [hps, hclose]
      rw [List.cons_append, removeComments_unclosed hall, removeComments_unclosed hps,
        List.cons_append]

/-- Comments are found by the parentheses alone. -/
theorem removeComments_map {f : Point → Point} (hopen : ∀ p, f p = .char '(' ↔ p = .char '(')
    (hclose : ∀ p, f p = .char ')' ↔ p = .char ')') (ps : List Point) :
    removeComments (ps.map f) = (removeComments ps).map f := by
  have hkept {ps : List Point} (h : .char ')' ∉ ps) : .char ')' ∉ ps.map f := by
    intro hmem
    obtain ⟨p, hp, heq⟩ := List.mem_map.mp hmem
    exact h ((hclose p).mp heq ▸ hp)
  have hopened : f (.char '(') = .char '(' := (hopen _).mpr rfl
  have hclosed : f (.char ')') = .char ')' := (hclose _).mpr rfl
  induction ps using comment_induction with
  | nil => rw [List.map_nil, removeComments_nil, List.map_nil]
  | char p ps hp ih =>
      rw [List.map_cons, removeComments_cons (mt (hopen p).mp hp), removeComments_cons hp, ih,
        List.map_cons]
  | comment inner ps hinner ih =>
      rw [List.map_cons, List.map_append, List.map_cons, hopened, hclosed,
        removeComments_comment (hkept hinner), removeComments_comment hinner, ih]
  | unclosed ps hps =>
      rw [List.map_cons, hopened, removeComments_unclosed (hkept hps), removeComments_unclosed hps,
        List.map_cons, hopened]

end TurretPunch.Program
