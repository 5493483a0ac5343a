import Mathlib.Data.List.Forall2
import TurretPunch.Proofs.Text.Line

namespace TurretPunch.Text

/-!
# Newlines that are unified

A carriage return with a newline after it stays at the end of a line as a blank, or is dropped with
the newlines unified. One that stands alone ends no line, but does so with the newlines unified.
-/

/-- How many carriage returns have no newline after them. -/
def loneReturns : List Char → Nat
  | [] => 0
  | c :: rest => (if c = '\r' ∧ rest.head? ≠ some '\n' then 1 else 0) + loneReturns rest

theorem loneReturns_pair (rest : List Char) : loneReturns ('\r' :: '\n' :: rest) = loneReturns rest := by
  simp [loneReturns]

/-- Where newlines are unified there is one for each carriage return that stands alone. -/
theorem count_unifyNewlines (cs : List Char) :
    (unifyNewlines cs).count '\n' = cs.count '\n' + loneReturns cs := by
  fun_induction unifyNewlines cs with
  | case1 => rfl
  | case2 rest ih =>
      rw [loneReturns_pair, List.count_cons_self, ih, List.count_cons_of_ne (by decide),
        List.count_cons_self]
      omega
  | case3 c rest hpair ih =>
      rw [loneReturns]
      by_cases hc : c = '\r'
      · have hlone : rest.head? ≠ some '\n' := by
          intro hhead
          obtain ⟨tail, rfl⟩ := List.head?_eq_some_iff.mp hhead
          exact hpair tail hc rfl
        rw [if_pos hc, if_pos ⟨hc, hlone⟩, hc, List.count_cons_self, ih,
          List.count_cons_of_ne (by decide)]
        omega
      · rw [if_neg hc, if_neg fun h => hc h.1, List.count_cons, ih, List.count_cons]
        omega

theorem unifyNewlines_of_not_mem {cs : List Char} (h : '\r' ∉ cs) : unifyNewlines cs = cs := by
  fun_induction unifyNewlines cs with
  | case1 => rfl
  | case2 rest ih => exact absurd List.mem_cons_self h
  | case3 c rest hpair ih =>
      rw [List.mem_cons, not_or] at h
      rw [if_neg (Ne.symm h.1), ih h.2]

/-- A line that was cut off before its carriage return, if it had one at its end. -/
def IsCut (short line : List Point) : Prop := line = short ∨ line = short ++ [.char '\r']

theorem IsCut.cons {short line : List Point} (h : IsCut short line) (p : Point) :
    IsCut (p :: short) (p :: line) := by
  rcases h with rfl | rfl
  · exact Or.inl rfl
  · exact Or.inr rfl

/-- The lines of a text in which no carriage return stands alone lose those at their ends. -/
theorem lines_unifyNewlines {cs : List Char} (h : loneReturns cs = 0) :
    List.Forall₂ IsCut (lines ((unifyNewlines cs).map .char)) (lines (cs.map .char)) := by
  fun_induction unifyNewlines cs with
  | case1 => exact .cons (Or.inl rfl) .nil
  | case2 rest ih =>
      rw [loneReturns_pair] at h
      obtain ⟨first, more, hlines, hcut⟩ :=
        lines_cons_of_ne (p := .char '\r') (by decide) (.char '\n' :: rest.map .char)
      rw [lines_newline] at hlines
      obtain ⟨rfl, rfl⟩ := List.cons.inj hlines
      rw [List.map_cons, lines_newline, List.map_cons, List.map_cons, hcut]
      exact .cons (Or.inr rfl) (ih h)
  | case3 c rest hpair ih =>
      obtain ⟨hc, hrest⟩ := Nat.add_eq_zero_iff.mp h
      have hreturn : c ≠ '\r' := by
        intro hreturn
        by_cases hhead : rest.head? = some '\n'
        · obtain ⟨tail, rfl⟩ := List.head?_eq_some_iff.mp hhead
          exact hpair tail hreturn rfl
        · rw [if_pos ⟨hreturn, hhead⟩] at hc
          cases hc
      rw [if_neg hreturn, List.map_cons, List.map_cons]
      by_cases hnewline : c = '\n'
      · rw [hnewline, lines_newline, lines_newline]
        exact .cons (Or.inl rfl) (ih hrest)
      · have hne : Point.char c ≠ .char '\n' := fun heq => hnewline (Point.char.inj heq)
        obtain ⟨short, shorter, hshort, hshort'⟩ := lines_cons_of_ne hne ((unifyNewlines rest).map .char)
        obtain ⟨line, more, hline, hline'⟩ := lines_cons_of_ne hne (rest.map .char)
        have hcut := ih hrest
        rw [hshort, hline] at hcut
        rw [hshort', hline']
        cases hcut with
        | cons hfirst hmore => exact .cons (hfirst.cons _) hmore

end TurretPunch.Text
