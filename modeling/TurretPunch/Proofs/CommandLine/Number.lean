import TurretPunch.CommandLine.Number
import TurretPunch.Proofs.Program.Numeral

namespace TurretPunch.CommandLine

/-!
# Numerals as arguments

A numeral is a number with nothing around it and no underscores in it. So it is read as an argument with
the value that it has in a line, and so are digits, unless there are too many of them.
-/

open Program (IsDigits IsForeign Spells SpellsSign)

variable {cs ds text : List Char} {n : Decimal.Numeral}

theorem dropMargins_eq_self (h : ∀ c ∈ cs, ¬ IsForeign c) : dropMargins cs = cs := by
  have hwhole {cs : List Char} (h : ∀ c ∈ cs, ¬ IsForeign c) : cs.dropWhile isMargin = cs := by
    cases cs with
    | nil => rfl
    | cons c cs =>
        have hc : c.toNat ∉ Text.blanks := fun hblank =>
          h c List.mem_cons_self (List.mem_append_right _ hblank)
        simp [isMargin, Text.isBlank, hc]
  rw [dropMargins, hwhole h, hwhole fun c hc => h c (List.mem_reverse.mp hc), List.reverse_reverse]

theorem dropUnderscores?_eq_self (h : ∀ c ∈ cs, ¬ IsForeign c) (afterDigit : Bool) :
    dropUnderscores? afterDigit cs = some cs := by
  fun_induction dropUnderscores? afterDigit cs with
  | case1 => rfl
  | case2 => exact absurd (by decide) (h '_' List.mem_cons_self)
  | case3 => exact absurd (by decide) (h '_' List.mem_cons_self)
  | case4 => exact absurd (by decide) (h '_' List.mem_cons_self)
  | case5 _ c rest _ _ ih => rw [ih fun d hd => h d (List.mem_cons_of_mem c hd), Option.map_some]

theorem bareNumber?_ofChars (h : ∀ c ∈ cs, ¬ IsForeign c) : bareNumber? (.ofChars cs) = some cs := by
  rw [bareNumber?, Text.Points.chars_ofChars, dropMargins_eq_self h, dropUnderscores?_eq_self h]

/-- A numeral is read as an argument, with its own value. -/
theorem readFloat?_of_spells (h : Spells n text) : readFloat? (.ofChars text) = some n.toFloat := by
  have hown := h.not_isForeign
  have hcapital : text.map (fun c => if c = 'e' then 'E' else c) = text := by
    rw [List.map_congr_left, List.map_id]
    intro c hc
    rw [if_neg, id]
    rintro rfl
    exact hown _ hc (by decide)
  unfold readFloat?
  rw [bareNumber?_ofChars hown]
  simp only [Option.bind_eq_bind, Option.bind_some, hcapital, h.scanNumeral?_eq]
  rfl

/-- Digits are read as an argument if there are not too many. -/
theorem readInt?_of_isDigits (h : IsDigits ds) (hne : ds ≠ []) (hlength : ds.length ≤ Text.maxDigits) :
    readInt? (.ofChars ds) = some (Text.digitsValue (Text.digitValues ds)) := by
  have hsign := SpellsSign.none.scanSign_append (h.startsUnsigned hne [])
  rw [List.append_nil, List.nil_append] at hsign
  unfold readInt?
  rw [bareNumber?_ofChars h.not_isForeign]
  simp only [Option.bind_eq_bind, Option.bind_some, hsign]
  rw [if_neg]
  · rfl
  · have hall : ds.all Text.isDigit = true := List.all_eq_true.mpr h
    simp [hall, hne, hlength]

end TurretPunch.CommandLine
