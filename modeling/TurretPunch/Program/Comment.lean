import TurretPunch.Text.Blank

namespace TurretPunch.Program

/-!
# Comments

A comment runs from an opening parenthesis to the next closing one. An opening parenthesis that is
not closed is ordinary text.
-/

/-- The text before the first comment and the text after it, if there is a comment. -/
def splitComment? (ps : List Text.Point) :
    Option (List Text.Point × List Text.Point) :=
  match (ps.dropWhile (· != .char '(')).dropWhile (· != .char ')') with
  | [] => none
  | _ :: after => some (ps.takeWhile (· != .char '('), after)

theorem length_after_lt {ps before after : List Text.Point}
    (h : splitComment? ps = some (before, after)) : after.length < ps.length := by
  unfold splitComment? at h
  split at h
  · simp at h
  · next heq =>
    simp only [Option.some.injEq, Prod.mk.injEq] at h
    obtain ⟨-, rfl⟩ := h
    have outer := ((List.dropWhile_sublist (· != .char ')')).trans
      (List.dropWhile_sublist (l := ps) (· != .char '('))).length_le
    rw [heq] at outer
    simp only [List.length_cons] at outer
    omega

def removeComments (ps : List Text.Point) : List Text.Point :=
  match _h : splitComment? ps with
  | none => ps
  | some (before, after) => before ++ removeComments after
termination_by ps.length
decreasing_by exact length_after_lt _h

/-- A line without its comments and without blanks at its ends. -/
def stripComments (ps : List Text.Point) : List Text.Point := Text.trim (removeComments ps)

end TurretPunch.Program
