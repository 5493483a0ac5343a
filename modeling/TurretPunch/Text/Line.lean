import TurretPunch.Text.Points

namespace TurretPunch.Text

/-!
# Lines

A text is cut into lines at each newline, so that it has one line more than newlines. Text files
may end a line with a carriage return, a newline, or both; reading a file makes newlines of all.
-/

/-- The lines of a text, at least one. -/
def lines : List Point → List (List Point)
  | [] => [[]]
  | p :: rest =>
    if p = .char '\n' then [] :: lines rest
    else
      match lines rest with
      | [] => [[p]]
      | line :: more => (p :: line) :: more

theorem lines_ne_nil (ps : List Point) : lines ps ≠ [] := by
  cases ps with
  | nil => simp [lines]
  | cons p rest =>
    rw [lines]
    split
    · simp
    · split <;> simp

/-- Makes a newline of a carriage return with the newline after it, if there is one. -/
def unifyNewlines : List Char → List Char
  | [] => []
  | '\r' :: '\n' :: rest => '\n' :: unifyNewlines rest
  | c :: rest => (if c = '\r' then '\n' else c) :: unifyNewlines rest

end TurretPunch.Text
