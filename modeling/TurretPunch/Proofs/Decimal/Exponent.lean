import Mathlib.Algebra.Order.Field.Power
import TurretPunch.Decimal.Layout
import TurretPunch.Proofs.Decimal.Rounding

namespace TurretPunch.Decimal

/-!
# Exponents of fractions

The exponent of a fraction is that of the largest power that is not above it. It is found from the
lengths of the numerator and the denominator, which leave two exponents to choose from.
-/

section

variable {base num den a b : Nat}

theorem zpow_le_div_iff (num : Nat) (hbase : 0 < base) (hden : 0 < den) (e : ℤ) :
    (base : ℚ) ^ e ≤ num / den ↔ den * Nat.pow base e.toNat ≤ num * Nat.pow base (-e).toNat := by
  have hbase' : (0 : ℚ) < base := by exact_mod_cast hbase
  have hden' : (0 : ℚ) < den := by exact_mod_cast hden
  rw [zpow_eq_div hbase'.ne', div_le_div_iff₀ (by positivity) hden', mul_comm, Nat.pow_eq, Nat.pow_eq]
  exact_mod_cast Iff.rfl

/-- Two numbers of known length have a quotient whose exponent is known but for one. -/
theorem div_bounds (hnum : base ^ a ≤ num) (hnum' : num < base ^ (a + 1)) (hden : base ^ b ≤ den)
    (hden' : den < base ^ (b + 1)) (hbase : 0 < base) :
    (base : ℚ) ^ ((a : ℤ) - b - 1) ≤ num / den ∧ (num : ℚ) / den < base ^ ((a : ℤ) - b + 1) := by
  have hpos : (0 : ℚ) < base := by exact_mod_cast hbase
  have hdenpos : (0 : ℚ) < den := by exact_mod_cast (Nat.pow_pos hbase).trans_le hden
  constructor
  · rw [le_div_iff₀ hdenpos]
    calc (base : ℚ) ^ ((a : ℤ) - b - 1) * den
        ≤ base ^ ((a : ℤ) - b - 1) * base ^ ((b : ℤ) + 1) := by
          gcongr
          exact_mod_cast hden'.le
      _ = base ^ a := by
          rw [← zpow_add₀ hpos.ne', ← zpow_natCast]
          congr 1
          ring
      _ ≤ num := by exact_mod_cast hnum
  · rw [div_lt_iff₀ hdenpos]
    calc (num : ℚ) < base ^ (a + 1) := by exact_mod_cast hnum'
      _ = base ^ ((a : ℤ) - b + 1) * base ^ (b : ℤ) := by
          rw [← zpow_add₀ hpos.ne', ← zpow_natCast]
          congr 1
          push_cast
          ring
      _ ≤ base ^ ((a : ℤ) - b + 1) * den := by
          gcongr
          rw [zpow_natCast]
          exact_mod_cast hden

theorem exponent_spec (hnum : base ^ a ≤ num) (hnum' : num < base ^ (a + 1)) (hden : base ^ b ≤ den)
    (hden' : den < base ^ (b + 1)) (hbase : 0 < base) {e guess : ℤ} (hguess : guess = (a : ℤ) - b)
    (he : e = if den * Nat.pow base guess.toNat ≤ num * Nat.pow base (-guess).toNat then guess
      else guess - 1) :
    (base : ℚ) ^ e ≤ num / den ∧ (num : ℚ) / den < base ^ (e + 1) := by
  subst hguess
  obtain ⟨hlow, hhigh⟩ := div_bounds hnum hnum' hden hden' hbase
  have hiff := zpow_le_div_iff num hbase ((Nat.pow_pos hbase).trans_le hden) ((a : ℤ) - b)
  split at he
  · next hle =>
    rw [he]
    exact ⟨hiff.mpr hle, hhigh⟩
  · next hlt =>
    rw [he, sub_add_cancel]
    exact ⟨hlow, not_le.mp (mt hiff.mp hlt)⟩

end

variable {num den : Nat}

theorem binaryExponent_spec (hnum : 0 < num) (hden : 0 < den) :
    (2 : ℚ) ^ binaryExponent num den ≤ num / den ∧
      (num : ℚ) / den < 2 ^ (binaryExponent num den + 1) :=
  exponent_spec (Nat.log2_self_le hnum.ne') Nat.lt_log2_self (Nat.log2_self_le hden.ne')
    Nat.lt_log2_self two_pos rfl rfl

theorem digitCount_pos (n : Nat) : 0 < digitCount n := Nat.length_toDigits_pos

theorem lt_pow_digitCount (n : Nat) : n < 10 ^ digitCount n :=
  (Nat.length_toDigits_le_iff (by decide) (digitCount_pos n)).mp le_rfl

theorem pow_le_of_digitCount {n : Nat} (hn : 0 < n) : 10 ^ (digitCount n - 1) ≤ n := by
  by_contra hlt
  rw [not_le] at hlt
  by_cases hone : digitCount n = 1
  · rw [hone] at hlt
    omega
  · have hpos := digitCount_pos n
    have hle := (Nat.length_toDigits_le_iff (n := n) (b := 10) (by decide)
      (show 0 < digitCount n - 1 by omega)).mpr hlt
    have hle' : digitCount n ≤ digitCount n - 1 := hle
    omega

theorem digitCount_le_of_lt {n : Nat} {scale k : ℤ} (hn : 0 < n) (h : (n * 10 ^ scale : ℚ) < 10 ^ k) :
    digitCount n + scale ≤ k := by
  have hcount := digitCount_pos n
  have hlow : (10 : ℚ) ^ ((digitCount n - 1 : Nat) + scale) ≤ n * 10 ^ scale := by
    rw [zpow_add₀ (by norm_num), zpow_natCast]
    gcongr
    exact_mod_cast pow_le_of_digitCount hn
  have hlt := (zpow_lt_zpow_iff_right₀ (by norm_num : (1 : ℚ) < 10)).mp (hlow.trans_lt h)
  omega

theorem lt_digitCount_of_lt {n : Nat} {scale k : ℤ} (h : (10 : ℚ) ^ k < n * 10 ^ scale) :
    k < digitCount n + scale := by
  have hhigh : (n * 10 ^ scale : ℚ) ≤ 10 ^ (digitCount n + scale) := by
    rw [zpow_add₀ (by norm_num), zpow_natCast]
    gcongr
    exact_mod_cast (lt_pow_digitCount n).le
  exact (zpow_lt_zpow_iff_right₀ (by norm_num : (1 : ℚ) < 10)).mp (h.trans_le hhigh)

theorem decimalExponent_spec (hnum : 0 < num) (hden : 0 < den) :
    (10 : ℚ) ^ decimalExponent num den ≤ num / den ∧
      (num : ℚ) / den < 10 ^ (decimalExponent num den + 1) := by
  have hcount (n : Nat) : digitCount n - 1 + 1 = digitCount n := Nat.sub_add_cancel (digitCount_pos n)
  have hlt (n : Nat) : n < 10 ^ (digitCount n - 1 + 1) := by
    rw [hcount]
    exact lt_pow_digitCount n
  refine exponent_spec (pow_le_of_digitCount hnum) (hlt num) (pow_le_of_digitCount hden) (hlt den)
    (by decide) ?_ rfl
  have hnum' := hcount num
  have hden' := hcount den
  omega

end TurretPunch.Decimal
