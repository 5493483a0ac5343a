import Mathlib.Data.Prod.Lex
import TurretPunch.Proofs.Decimal.Bits

namespace TurretPunch.Decimal

/-!
# The order of doubles

Numbers are compared by their kind first: one end, the negative ones, both zeros, the positive ones, the
other end. Among those of one kind the exponent comes before the mantissa. This is an order in a line,
so that the doubles that are numbers have one too.
-/

open Float.Model UnpackedFloat

/-- Where a number stands in the line: its kind, and what counts among those of its kind. -/
def rank : UnpackedFloat → ℤ ×ₗ ℤ ×ₗ ℤ
  | .notANumber | .zero _ => toLex (0, toLex (0, 0))
  | .finite s m e _ => toLex (s.apply 1, toLex (s.apply e, s.apply m))
  | .infinity s => toLex (s.apply 2, toLex (0, 0))

theorem compare_neg (a b : ℤ) : compare (-a) (-b) = (compare a b).swap := by
  rw [Int.compare_swap]
  simp only [Int.compare_eq_ite_lt, Int.neg_lt_neg_iff]

theorem compare_natCast (m n : ℕ) : compare (m : ℤ) (n : ℤ) = compare m n := by
  simp only [Int.compare_eq_ite_lt, Nat.compare_eq_ite_lt, Int.ofNat_lt]

theorem compare_finite (s : Sign) {m n : ℕ} {e f : ℤ} (hm : 0 < m) (hn : 0 < n) :
    (UnpackedFloat.finite s m e hm).compare (.finite s n f hn) =
      some (compare (rank (.finite s m e hm)) (rank (.finite s n f hn))) := by
  cases s with
  | positive =>
      show some ((compare e f).then (compare m n)) =
        some ((compare e f).then (compare (m : ℤ) (n : ℤ)))
      rw [compare_natCast]
  | negative =>
      show some ((compare e f).then (compare m n)).swap =
        some ((compare (-e) (-f)).then (compare (-(m : ℤ)) (-(n : ℤ))))
      rw [compare_neg, compare_neg, compare_natCast, Ordering.swap_then]

/-- Numbers compare as their ranks do. -/
theorem compare_eq_rank {x y : UnpackedFloat} (hx : x.isNaN = false) (hy : y.isNaN = false) :
    x.compare y = some (compare (rank x) (rank y)) := by
  cases x with
  | notANumber => cases hx
  | infinity s =>
      cases y with
      | notANumber => cases hy
      | infinity t | finite t => cases s <;> cases t <;> rfl
      | zero => cases s <;> rfl
  | zero =>
      cases y with
      | notANumber => cases hy
      | infinity t | finite t => cases t <;> rfl
      | zero => rfl
  | finite s m e hm =>
      cases y with
      | notANumber => cases hy
      | infinity t => cases s <;> cases t <;> rfl
      | zero => cases s <;> rfl
      | finite t n f hn =>
          by_cases h : s = t
          · subst h
            exact compare_finite s hm hn
          · cases s <;> cases t <;> first | rfl | exact absurd rfl h

variable {x y z : Float}

protected theorem le_iff (hx : x.isNaN = false) (hy : y.isNaN = false) :
    x ≤ y ↔ rank x.toModel.unpack ≤ rank y.toModel.unpack := by
  have hle : x ≤ y ↔ x.toModel.unpack.le y.toModel.unpack = true :=
    ⟨of_decide_eq_true, decide_eq_true⟩
  rw [hle, UnpackedFloat.le, compare_eq_rank hx hy, Option.any_some, ← Ordering.ne_gt_iff_isLE]
  exact compare_le_iff_le

protected theorem lt_iff (hx : x.isNaN = false) (hy : y.isNaN = false) :
    x < y ↔ rank x.toModel.unpack < rank y.toModel.unpack := by
  have hlt : x < y ↔ x.toModel.unpack.lt y.toModel.unpack = true :=
    ⟨of_decide_eq_true, decide_eq_true⟩
  rw [hlt, UnpackedFloat.lt, compare_eq_rank hx hy, beq_iff_eq, Option.some_inj, compare_lt_iff_lt]

protected theorem le_refl (hx : x.isNaN = false) : x ≤ x :=
  (Decimal.le_iff hx hx).mpr le_rfl

protected theorem le_trans (h : x ≤ y) (h' : y ≤ z) : x ≤ z := by
  obtain ⟨hx, hy⟩ := isNaN_of_le h
  have hz := (isNaN_of_le h').2
  rw [Decimal.le_iff hx hy] at h
  rw [Decimal.le_iff hy hz] at h'
  exact (Decimal.le_iff hx hz).mpr (h.trans h')

protected theorem not_le (hx : x.isNaN = false) (hy : y.isNaN = false) : ¬ x ≤ y ↔ y < x := by
  rw [Decimal.le_iff hx hy, Decimal.lt_iff hy hx]
  exact not_le

protected theorem le_of_lt (h : x < y) : x ≤ y := by
  obtain ⟨hx, hy⟩ := isNaN_of_lt h
  rw [Decimal.lt_iff hx hy] at h
  exact (Decimal.le_iff hx hy).mpr h.le

protected theorem lt_of_lt_of_le (h : x < y) (h' : y ≤ z) : x < z := by
  obtain ⟨hx, hy⟩ := isNaN_of_lt h
  have hz := (isNaN_of_le h').2
  rw [Decimal.lt_iff hx hy] at h
  rw [Decimal.le_iff hy hz] at h'
  exact (Decimal.lt_iff hx hz).mpr (h.trans_le h')

/-- A double is unpacked to what it is packed from. -/
theorem ofModel_pack (x : Float) : Float.ofModel (.pack x.toModel.unpack) = x := by
  apply eq_of_toBits
  obtain ⟨⟨bits, hvalid⟩⟩ := x
  apply congrArg UInt64.ofBitVec
  show UnpackedFloat.pack Format.binary64 (UnpackedFloat.unpack Format.binary64 bits.toBitVec) =
    bits.toBitVec
  by_cases hnumber : @unpackExponent Format.binary64 bits.toBitVec = (-1#_) →
      @unpackMantissa Format.binary64 bits.toBitVec = 0#_
  · rw [← packComponents_parts bits.toBitVec]
    exact pack_unpack hnumber
  · obtain ⟨hexponent, hmantissa⟩ := Classical.not_imp.mp hnumber
    rw [hvalid.eq_packedNaN hexponent hmantissa]
    rfl

/-- What is not a zero is the same with zero added. -/
theorem add_zero_of_ne (h : (x == 0.0) = false) : x + 0.0 = x := by
  have hbeq : (x == 0.0) = (x.toModel.unpack.compare (.zero .positive) == some .eq) := rfl
  have hsum : UnpackedFloat.add Format.binary64 x.toModel.unpack (.zero .positive) =
      x.toModel.unpack := by
    rw [hbeq] at h
    revert h
    cases x.toModel.unpack with
    | notANumber | infinity | finite => exact fun _ => rfl
    | zero => exact fun h => nomatch h
  have hpack : x + 0.0 = Float.ofModel
      (.pack (UnpackedFloat.add Format.binary64 x.toModel.unpack (.zero .positive))) := rfl
  rw [hpack, hsum, ofModel_pack]

/-- A number above zero is the same with zero added. -/
theorem add_zero_of_lt (h : 0 < x) : x + 0.0 = x := by
  have hnumber := (isNaN_of_lt h).2
  rw [Decimal.lt_iff (by decide) hnumber] at h
  have hbeq : (x == 0.0) = (x.toModel.unpack.compare (.zero .positive) == some .eq) := rfl
  apply add_zero_of_ne
  rw [hbeq]
  revert h
  cases x.toModel.unpack with
  | notANumber | zero => exact fun h => absurd h (lt_irrefl _)
  | infinity s | finite s => exact fun _ => by cases s <;> rfl

/-- Zero of either sign is not above zero with zero added. -/
theorem add_zero_le (h : 0 ≤ x) (hzero : ¬ 0 < x) : x + 0.0 ≤ 0.0 := by
  have hnumber := (isNaN_of_le h).2
  rw [Decimal.le_iff (by decide) hnumber] at h
  rw [Decimal.lt_iff (by decide) hnumber] at hzero
  have hrank := le_antisymm (not_lt.mp hzero) h
  have hpack : x + 0.0 = Float.ofModel
      (.pack (UnpackedFloat.add Format.binary64 x.toModel.unpack (.zero .positive))) := rfl
  rw [hpack]
  revert hnumber hrank
  show x.toModel.unpack.isNaN = false → rank _ = rank (.zero .positive) → _
  cases x.toModel.unpack with
  | notANumber => exact fun h => nomatch h
  | infinity s | finite s => exact fun _ h => by cases s <;> cases h
  | zero s => exact fun _ _ => by cases s <;> decide

end TurretPunch.Decimal
