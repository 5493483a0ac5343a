import Mathlib.Data.List.TakeWhile
import TurretPunch.Text.Blank

namespace TurretPunch.Text

/-!
# Blanks at the ends

Blanks at the ends of a text are trimmed, however many there are, and no others.
-/

variable {before ps after : List Point}

theorem trim_eq_self (hfirst : ∀ p ∈ ps.head?, p.isBlank = false)
    (hlast : ∀ p ∈ ps.getLast?, p.isBlank = false) : trim ps = ps := by
  have hstart : trimStart ps = ps := by
    cases ps with
    | nil => rfl
    | cons p ps =>
        have hp := hfirst p rfl
        simp [trimStart, hp]
  rw [trim, hstart, trimEnd]
  have hend : ps.reverse.dropWhile (·.isBlank) = ps.reverse := by
    cases hreverse : ps.reverse with
    | nil => rfl
    | cons p qs =>
        have hp := hlast p (by rw [← List.head?_reverse, hreverse]; rfl)
        simp [hp]
  rw [hend, List.reverse_reverse]

theorem trim_append_left (h : ∀ p ∈ before, p.isBlank = true) (ps : List Point) :
    trim (before ++ ps) = trim ps := by
  rw [trim, trimStart, List.dropWhile_append_of_pos h]
  rfl

theorem trimEnd_append (h : ∀ p ∈ after, p.isBlank = true) (ps : List Point) :
    trimEnd (ps ++ after) = trimEnd ps := by
  have hreverse : ∀ p ∈ after.reverse, p.isBlank = true := fun p hp => h p (List.mem_reverse.mp hp)
  rw [trimEnd, List.reverse_append, List.dropWhile_append_of_pos hreverse]
  rfl

theorem trim_append_right (h : ∀ p ∈ after, p.isBlank = true) (ps : List Point) :
    trim (ps ++ after) = trim ps := by
  rw [trim, trim, trimStart, trimStart, List.dropWhile_append]
  split
  · next hempty =>
    rw [List.isEmpty_iff.mp hempty, (List.dropWhile_eq_nil_iff).mpr h]
  · exact trimEnd_append h _

theorem trim_map {f : Point → Point} (h : ∀ p, (f p).isBlank = p.isBlank) (ps : List Point) :
    trim (ps.map f) = (trim ps).map f := by
  have hblank : (fun p : Point => p.isBlank) ∘ f = (·.isBlank) := funext h
  rw [trim, trim, trimStart, trimStart, trimEnd, trimEnd, List.dropWhile_map, hblank,
    ← List.map_reverse, List.dropWhile_map, hblank, List.map_reverse]

/-- What is trimmed is blank. -/
theorem exists_trim (ps : List Point) : ∃ left right,
    ps = left ++ (trim ps ++ right) ∧ (∀ p ∈ left, p.isBlank = true) ∧ ∀ p ∈ right, p.isBlank = true := by
  have hblank {ps : List Point} : ∀ p ∈ ps.takeWhile (·.isBlank), p.isBlank = true :=
    fun _ => List.mem_takeWhile_imp
  refine ⟨ps.takeWhile (·.isBlank), ((trimStart ps).reverse.takeWhile (·.isBlank)).reverse, ?_, hblank,
    fun p hp => hblank p (List.mem_reverse.mp hp)⟩
  rw [trim, trimEnd, ← List.reverse_append, List.takeWhile_append_dropWhile, List.reverse_reverse,
    trimStart, List.takeWhile_append_dropWhile]

theorem head?_trimStart (ps : List Point) : ∀ p ∈ (trimStart ps).head?, p.isBlank = false := by
  intro p hp
  have hnot := List.head?_dropWhile_not (·.isBlank) ps
  rw [trimStart] at hp
  rw [hp] at hnot
  exact hnot

theorem getLast?_trimEnd (ps : List Point) : ∀ p ∈ (trimEnd ps).getLast?, p.isBlank = false := by
  rw [trimEnd, List.getLast?_reverse]
  exact head?_trimStart ps.reverse

theorem trimEnd_prefix (ps : List Point) : trimEnd ps <+: ps := by
  have hsuffix := List.reverse_prefix.mpr (List.dropWhile_suffix (l := ps.reverse) (·.isBlank))
  rwa [List.reverse_reverse] at hsuffix

theorem trim_trim (ps : List Point) : trim (trim ps) = trim ps := by
  apply trim_eq_self
  · intro p hp
    have hfirst : (trimEnd (trimStart ps)).head? = some p := hp
    obtain ⟨right, hright⟩ := trimEnd_prefix (trimStart ps)
    apply head?_trimStart ps p
    rw [← hright, List.head?_append, hfirst]
    exact Option.some_or
  · exact getLast?_trimEnd (trimStart ps)

end TurretPunch.Text
