import Mathlib.Algebra.Group.Nat.Defs
import TurretPunch.Decimal.Fixed
import TurretPunch.Text.Digit

namespace TurretPunch

/-!
# Figures

Numbers are written with the figures `0` to `9`, and read again with what these are worth.
-/

namespace Text

/-- A text of figures alone. -/
def IsFigures (cs : List Char) : Prop := ∀ c ∈ cs, c.isDigit = true

variable {c : Char} {cs ds rest : List Char}

theorem IsFigures.append (h : IsFigures cs) (hds : IsFigures ds) : IsFigures (cs ++ ds) := by
  intro c hc
  rcases List.mem_append.mp hc with hc | hc
  · exact h c hc
  · exact hds c hc

theorem toNat_of_isDigit (h : c.isDigit = true) : 48 ≤ c.toNat ∧ c.toNat < 58 := by
  simp only [Char.isDigit, Bool.and_eq_true, decide_eq_true_eq] at h
  exact ⟨h.1, Nat.lt_succ_of_le h.2⟩

theorem digitValue?_of_isDigit (h : c.isDigit = true) :
    digitValue? c = some (c.toNat - '0'.toNat) := by
  have hrange := toNat_of_isDigit h
  unfold digitValue? zeroDigits
  rw [List.find?_cons_of_pos (by simpa using hrange)]
  rfl

theorem isDigit_of_isDigit (h : c.isDigit = true) : isDigit c = true := by
  rw [isDigit, digitValue?_of_isDigit h]
  rfl

theorem IsFigures.digitValues (h : IsFigures cs) :
    digitValues cs = cs.map fun c => c.toNat - '0'.toNat := by
  induction cs with
  | nil => rfl
  | cons c cs ih =>
      have hc := digitValue?_of_isDigit (h c List.mem_cons_self)
      have hrest := ih fun other hother => h other (List.mem_cons_of_mem c hother)
      unfold Text.digitValues at hrest ⊢
      rw [List.filterMap_cons_some hc, hrest, List.map_cons]

theorem IsFigures.digitsValue (h : IsFigures cs) :
    digitsValue (Text.digitValues cs) = Nat.ofDigitChars 10 cs 0 := by
  rw [h.digitValues, Text.digitsValue, List.foldl_map, Nat.ofDigitChars_eq_foldl]

theorem IsFigures.takeWhile (h : IsFigures cs) (hrest : ∀ c ∈ rest.head?, isDigit c = false) :
    (cs ++ rest).takeWhile isDigit = cs := by
  rw [List.takeWhile_append_of_pos fun c hc => isDigit_of_isDigit (h c hc)]
  cases rest with
  | nil => simp
  | cons c rest => simp [hrest c rfl]

theorem IsFigures.dropWhile (h : IsFigures cs) (hrest : ∀ c ∈ rest.head?, isDigit c = false) :
    (cs ++ rest).dropWhile isDigit = rest := by
  rw [List.dropWhile_append_of_pos fun c hc => isDigit_of_isDigit (h c hc)]
  cases rest with
  | nil => rfl
  | cons c rest => simp [hrest c rfl]

end Text

namespace Decimal

open Text (IsFigures)

theorem isFigures_digits (n : Nat) : IsFigures (digits n) :=
  fun _ hc => Nat.isDigit_of_mem_toDigits (by decide) (by decide) hc

theorem digits_ne_nil (n : Nat) : digits n ≠ [] := Nat.toDigits_ne_nil

theorem lastDigitsOnto_eq (places n : Nat) (after : List Char) :
    lastDigitsOnto places n after = lastDigits places n ++ after := by
  unfold lastDigits
  induction places generalizing n after with
  | zero => rfl
  | succ places ih => rw [lastDigitsOnto, lastDigitsOnto, ih, ih (n / 10) [_], List.append_assoc]; rfl

theorem lastDigits_succ (places n : Nat) :
    lastDigits (places + 1) n = lastDigits places (n / 10) ++ [(n % 10).digitChar] := by
  rw [lastDigits, lastDigitsOnto, lastDigitsOnto_eq]

theorem isFigures_lastDigits (places n : Nat) : IsFigures (lastDigits places n) := by
  induction places generalizing n with
  | zero => exact nofun
  | succ places ih =>
      rw [lastDigits_succ]
      apply (ih (n / 10)).append
      simp [IsFigures, Nat.isDigit_digitChar, Nat.mod_lt]

theorem ofDigitChars_lastDigits (places n : Nat) :
    Nat.ofDigitChars 10 (lastDigits places n) 0 = n % 10 ^ places := by
  induction places generalizing n with
  | zero => simp [lastDigits, lastDigitsOnto, Nat.mod_one]
  | succ places ih =>
      rw [lastDigits_succ, Nat.ofDigitChars_append, ih,
        Nat.ofDigitChars_cons_digitChar_of_lt_ten (Nat.mod_lt n (by decide)), Nat.ofDigitChars_nil,
        Nat.pow_succ', Nat.mod_mul, Nat.add_comm]

theorem dropTrailingZeros_append_cons {c : Char} (hc : c ≠ '0') (before cs : List Char) :
    dropTrailingZeros (before ++ c :: cs) = before ++ c :: dropTrailingZeros cs := by
  unfold dropTrailingZeros
  rw [List.reverse_append, List.reverse_cons, List.append_assoc, List.dropWhile_append]
  split
  · next hempty => simp [List.isEmpty_iff.mp hempty, hc]
  · simp

theorem getLast?_dropTrailingZeros (cs : List Char) :
    (dropTrailingZeros cs).getLast? ≠ some '0' := by
  rw [dropTrailingZeros, List.getLast?_reverse]
  intro hzero
  have hhead := List.head?_dropWhile_not (· == '0') cs.reverse
  rw [hzero] at hhead
  cases hhead

theorem exists_append_dropTrailingZeros (cs : List Char) :
    ∃ k, cs = dropTrailingZeros cs ++ List.replicate k '0' := by
  have hzeros : ∀ c ∈ (cs.reverse.takeWhile (· == '0')).reverse, c = '0' := by
    intro c hc
    simpa using List.all_eq_true.mp List.all_takeWhile c (List.mem_reverse.mp hc)
  refine ⟨(cs.reverse.takeWhile (· == '0')).reverse.length, ?_⟩
  rw [← List.eq_replicate_of_mem hzeros, dropTrailingZeros, ← List.reverse_append,
    List.takeWhile_append_dropWhile, List.reverse_reverse]

end Decimal

end TurretPunch
