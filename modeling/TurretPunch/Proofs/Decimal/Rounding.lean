import Mathlib.Algebra.Order.Field.Basic
import Mathlib.Data.Rat.Cast.Order
import Mathlib.Tactic.FieldSimp
import Mathlib.Tactic.Linarith
import Mathlib.Tactic.NormNum
import Mathlib.Tactic.Ring
import TurretPunch.Decimal.Fixed
import TurretPunch.Decimal.Numeral
import TurretPunch.Proofs.Decimal.Number

namespace TurretPunch.Decimal

/-!
# Exact values

A finite double and a numeral each stand for a fraction. Rounding is to a nearest multiple of a unit,
and to an even one where two are as near.
-/

/-- The number that is nearest to a fraction among the whole ones, and the even one of two that are as
near. -/
structure IsNearest (q : ℚ) (n : ℤ) : Prop where
  near : |q - n| ≤ 1 / 2
  even : |q - n| = 1 / 2 → Even n

theorem isNearest_neg {q : ℚ} {n : ℤ} (h : IsNearest q n) : IsNearest (-q) (-n) := by
  have habs : |-q - ((-n : ℤ) : ℚ)| = |q - n| := by
    rw [← abs_neg]
    push_cast
    ring_nf
  exact ⟨habs ▸ h.near, fun htie => (h.even (habs ▸ htie)).neg⟩

theorem isNearest_of_lt {q : ℚ} {n : ℤ} (h : |q - n| < 1 / 2) : IsNearest q n :=
  ⟨h.le, fun htie => absurd htie h.ne⟩

theorem isNearest_of_even {q : ℚ} {n : ℤ} (h : |q - n| = 1 / 2) (heven : Even n) : IsNearest q n :=
  ⟨h.le, fun _ => heven⟩

theorem isNearest_roundHalfEven (num : Nat) {den : Nat} (hden : 0 < den) :
    IsNearest ((num : ℚ) / den) (roundHalfEven num den) := by
  have hpos : (0 : ℚ) < den := by exact_mod_cast hden
  have hsplit : (den : ℚ) * (num / den : ℕ) + (num % den : ℕ) = num := by
    exact_mod_cast Nat.div_add_mod num den
  have hrest : (num : ℚ) / den - (num / den : ℕ) = (num % den : ℕ) / den := by
    rw [← hsplit]
    field_simp
    ring
  have hnext : (num : ℚ) / den - (num / den + 1 : ℕ) = (num % den : ℕ) / den - 1 := by
    rw [← hrest]
    push_cast
    ring
  have hnonneg : (0 : ℚ) ≤ (num % den : ℕ) / den := by positivity
  have hless : ((num % den : ℕ) : ℚ) / den < 1 := by
    rw [div_lt_one hpos]
    exact_mod_cast Nat.mod_lt num hden
  unfold roundHalfEven
  dsimp only
  split
  · next hlow =>
    have hlow' : ((num % den : ℕ) : ℚ) / den < 1 / 2 := by
      rw [div_lt_div_iff₀ hpos two_pos]
      exact_mod_cast (by omega)
    apply isNearest_of_lt
    rw [Int.cast_natCast, hrest, abs_of_nonneg hnonneg]
    exact hlow'
  · next hlow =>
    split
    · next hhigh =>
      have hhigh' : 1 / 2 < ((num % den : ℕ) : ℚ) / den := by
        rw [div_lt_div_iff₀ two_pos hpos]
        exact_mod_cast (by omega)
      apply isNearest_of_lt
      rw [Int.cast_natCast, hnext, abs_of_neg (by linarith)]
      linarith
    · next hhigh =>
      have htie : ((num % den : ℕ) : ℚ) / den = 1 / 2 := by
        rw [div_eq_div_iff hpos.ne' two_ne_zero]
        exact_mod_cast (by omega)
      split
      · next heven =>
        apply isNearest_of_even
        · rw [Int.cast_natCast, hrest, htie]
          norm_num
        · exact_mod_cast Nat.even_iff.mpr heven
      · next hodd =>
        apply isNearest_of_even
        · rw [Int.cast_natCast, hnext, htie]
          norm_num
        · exact_mod_cast Nat.even_iff.mpr (by omega)

theorem zpow_eq_div {base : ℚ} (hbase : base ≠ 0) (e : ℤ) :
    base ^ e = base ^ e.toNat / base ^ (-e).toNat := by
  have he : e = (e.toNat : ℤ) - ((-e).toNat : ℤ) := by omega
  conv_lhs => rw [he, zpow_sub₀ hbase, zpow_natCast, zpow_natCast]

open Float.Model in
theorem not_isFinite_unpack {b : BitVec Format.binary64.numBits}
    (h : UnpackedFloat.unpackExponent b = (-1#_)) :
    (UnpackedFloat.unpack Format.binary64 b).isFinite = false := by
  unfold UnpackedFloat.unpack
  dsimp only
  rw [if_pos h]
  split <;> rfl

open Float.Model in
theorem exists_reading_of_isFinite {x : Float} (h : x.isFinite = true) :
    ∃ b, Reading.ofFloat x = .finite b := by
  have hexponent : x.toBits.toNat / fractionBound % 2048 ≠ 2047 := by
    intro hlargest
    have hbits : x.toModel.toBits.toBitVec.toNat >>> 52 % 2 ^ 11 = 2047 := by
      rw [Nat.shiftRight_eq_div_pow]
      exact hlargest
    have hnot := not_isFinite_unpack (BitVec.eq_of_toNat_eq hbits)
    have hfinite :
        (UnpackedFloat.unpack Format.binary64 x.toModel.toBits.toBitVec).isFinite = true := h
    rw [hnot] at hfinite
    cases hfinite
  unfold Reading.ofFloat
  dsimp only
  rw [if_neg hexponent]
  split
  · exact ⟨_, rfl⟩
  · exact ⟨_, rfl⟩

/-- The number that a finite double stands for. -/
def BinaryFraction.value (b : BinaryFraction) : ℚ :=
  (if b.negative then -1 else 1) * b.mantissa * 2 ^ b.exponent

theorem BinaryFraction.denominator_pos (b : BinaryFraction) : 0 < b.denominator :=
  Nat.pow_pos two_pos

theorem BinaryFraction.value_eq (b : BinaryFraction) :
    b.value = (if b.negative then -1 else 1) * (b.numerator / b.denominator) := by
  rw [value, numerator, denominator, Nat.pow_eq, Nat.pow_eq, zpow_eq_div two_ne_zero]
  push_cast
  ring

/-- A finite double is written with the nearest number of units of its last place. -/
theorem BinaryFraction.isNearest_rounded (b : BinaryFraction) (places : Nat) :
    IsNearest (b.value * 10 ^ places)
      ((if b.negative then -1 else 1) * (b.rounded places : ℤ)) := by
  have hrounded := isNearest_roundHalfEven (b.numerator * Nat.pow 10 places) b.denominator_pos
  have hmagnitude : ((b.numerator * Nat.pow 10 places : ℕ) : ℚ) / b.denominator =
      b.numerator / b.denominator * 10 ^ places := by
    rw [Nat.pow_eq]
    push_cast
    ring
  rw [hmagnitude, ← rounded] at hrounded
  rw [b.value_eq, mul_assoc]
  cases b.negative with
  | true => simpa using isNearest_neg hrounded
  | false => simpa using hrounded

/-- The number that a numeral spells. -/
def Numeral.value (n : Numeral) : ℚ :=
  (if n.negative then -1 else 1) * n.mantissa * 10 ^ n.scale

end TurretPunch.Decimal
