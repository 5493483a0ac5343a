import Mathlib.Algebra.Order.Field.Power
import TurretPunch.Proofs.Decimal.Order
import TurretPunch.Proofs.Decimal.Rounding

namespace TurretPunch.Decimal

/-!
# Doubles that are exact

A double that is finite stands for one fraction. Doubles are in the order of the fractions that they
stand for, because a larger exponent makes up for every mantissa.
-/

open Float.Model UnpackedFloat

namespace BinaryFraction

variable {f g : BinaryFraction}

def sign (f : BinaryFraction) : Sign := if f.negative then .negative else .positive

/-- Where the double that a fraction is stands in the line. -/
def rank (f : BinaryFraction) : ℤ ×ₗ ℤ ×ₗ ℤ :=
  if f.mantissa = 0 then toLex (0, toLex (0, 0))
  else toLex (f.sign.apply 1, toLex (f.sign.apply f.exponent, f.sign.apply f.mantissa))

/-- The magnitude that a fraction has. -/
def magnitude (f : BinaryFraction) : ℚ := f.mantissa * 2 ^ f.exponent

theorem value_of_positive (h : f.sign = .positive) : f.value = f.magnitude := by
  cases hnegative : f.negative <;> simp_all [value, magnitude, sign]

theorem value_of_negative (h : f.sign = .negative) : f.value = -f.magnitude := by
  cases hnegative : f.negative <;> simp_all [value, magnitude, sign]

theorem value_of_zero (h : f.mantissa = 0) : f.value = 0 := by simp [value, h]

theorem magnitude_pos (h : f.mantissa ≠ 0) : 0 < f.magnitude := by
  have hpos : (0 : ℚ) < f.mantissa := by exact_mod_cast Nat.pos_of_ne_zero h
  exact mul_pos hpos (by positivity)

theorem magnitude_lt (hf : f.IsDouble) (hg : g.IsDouble)
    (h : f.exponent < g.exponent ∨ f.exponent = g.exponent ∧ f.mantissa < g.mantissa) :
    f.magnitude < g.magnitude := by
  obtain hexponent | ⟨hexponent, hmantissa⟩ := h
  · have hless : (f.mantissa : ℚ) < 2 ^ (53 : ℤ) := by
      have hbound : f.mantissa < 2 ^ 53 := hf.mantissa_lt
      exact_mod_cast hbound
    have hfull : (2 : ℚ) ^ (52 : ℤ) ≤ g.mantissa := by
      have hbound : 2 ^ 52 ≤ g.mantissa := hg.mantissa_ge (lt_of_le_of_lt hf.exponent_ge hexponent)
      exact_mod_cast hbound
    calc f.magnitude < 2 ^ (53 : ℤ) * 2 ^ f.exponent :=
          mul_lt_mul_of_pos_right hless (by positivity)
      _ = 2 ^ (52 : ℤ) * 2 ^ (f.exponent + 1) := by
          rw [← zpow_add₀ two_ne_zero, ← zpow_add₀ two_ne_zero]
          congr 1
          ring
      _ ≤ 2 ^ (52 : ℤ) * 2 ^ g.exponent :=
          mul_le_mul_of_nonneg_left (zpow_le_zpow_right₀ one_le_two hexponent) (by positivity)
      _ ≤ g.magnitude := mul_le_mul_of_nonneg_right hfull (by positivity)
  · rw [magnitude, magnitude, hexponent]
    exact mul_lt_mul_of_pos_right (by exact_mod_cast hmantissa) (by positivity)

/-- A fraction is zero, or its sign says on which side of zero it is. -/
theorem side_cases (f : BinaryFraction) :
    f.rank = toLex (0, toLex (0, 0)) ∧ f.value = 0 ∨
    f.rank = toLex (1, toLex (f.exponent, (f.mantissa : ℤ))) ∧
      f.value = f.magnitude ∧ 0 < f.value ∨
    f.rank = toLex (-1, toLex (-f.exponent, -(f.mantissa : ℤ))) ∧
      f.value = -f.magnitude ∧ f.value < 0 := by
  by_cases hzero : f.mantissa = 0
  · exact .inl ⟨if_pos hzero, value_of_zero hzero⟩
  · have hrank : f.rank = _ := if_neg hzero
    have hpos := magnitude_pos hzero
    right
    cases hsign : f.sign with
    | positive =>
        rw [hsign] at hrank
        have hvalue := value_of_positive hsign
        exact .inl ⟨hrank, hvalue, hvalue ▸ hpos⟩
    | negative =>
        rw [hsign] at hrank
        have hvalue := value_of_negative hsign
        exact .inr ⟨hrank, hvalue, by linarith⟩

theorem value_lt_of_rank_lt (hf : f.IsDouble) (hg : g.IsDouble) (h : f.rank < g.rank) :
    f.value < g.value := by
  obtain ⟨hfr, hfv⟩ | ⟨hfr, hfv, hfpos⟩ | ⟨hfr, hfv, hfneg⟩ := f.side_cases
  all_goals obtain ⟨hgr, hgv⟩ | ⟨hgr, hgv, hgpos⟩ | ⟨hgr, hgv, hgneg⟩ := g.side_cases
  all_goals rw [hfr, hgr] at h
  · exact absurd h (lt_irrefl _)
  · rwa [hfv]
  · exact absurd h (by simp [Prod.Lex.toLex_lt_toLex])
  · exact absurd h (by simp [Prod.Lex.toLex_lt_toLex])
  · have hless : f.magnitude < g.magnitude := by
      apply magnitude_lt hf hg
      simpa [Prod.Lex.toLex_lt_toLex] using h
    rwa [hfv, hgv]
  · exact absurd h (by simp [Prod.Lex.toLex_lt_toLex])
  · rwa [hgv]
  · exact hfneg.trans hgpos
  · have hless : g.magnitude < f.magnitude := by
      apply magnitude_lt hg hf
      simpa [Prod.Lex.toLex_lt_toLex, eq_comm] using h
    rw [hfv, hgv]
    exact neg_lt_neg hless

theorem value_eq_of_rank_eq (h : f.rank = g.rank) : f.value = g.value := by
  obtain ⟨hfr, hfv⟩ | ⟨hfr, hfv, -⟩ | ⟨hfr, hfv, -⟩ := f.side_cases
  all_goals obtain ⟨hgr, hgv⟩ | ⟨hgr, hgv, -⟩ | ⟨hgr, hgv, -⟩ := g.side_cases
  all_goals rw [hfr, hgr] at h
  all_goals simp_all [magnitude]

theorem rank_lt_iff (hf : f.IsDouble) (hg : g.IsDouble) : f.rank < g.rank ↔ f.value < g.value := by
  refine ⟨value_lt_of_rank_lt hf hg, fun h => ?_⟩
  obtain hlt | heq | hgt := lt_trichotomy f.rank g.rank
  · exact hlt
  · exact absurd (value_eq_of_rank_eq heq) h.ne
  · exact absurd (value_lt_of_rank_lt hg hf hgt) h.asymm

end BinaryFraction

variable {x y : Float} {p q : ℚ} {f : BinaryFraction}

/-- What is stored for a finite double has the rank of its fraction. -/
theorem rank_unpackParts (s : Sign) {e : BitVec 11} (he : e ≠ -1#11) (m : BitVec 52) :
    rank (unpackParts s e m) = BinaryFraction.rank
      (if e.toNat = 0 then ⟨s == .negative, m.toNat, -1074⟩
        else ⟨s == .negative, m.toNat + fractionBound, e.toNat - 1075⟩) := by
  have hsign (mantissa : Nat) (exponent : Int) :
      BinaryFraction.sign ⟨s == .negative, mantissa, exponent⟩ = s := by cases s <;> rfl
  rw [unpackParts, if_neg he]
  by_cases hzero : e = 0#11
  · subst hzero
    have hfield : (0#11).toNat = 0 := rfl
    rw [if_pos rfl, if_pos hfield]
    by_cases hm : m = 0#52
    · subst hm
      rfl
    · have hne : m.toNat ≠ 0 := fun h => hm (BitVec.eq_of_toNat_eq h)
      rw [dif_neg hm, BinaryFraction.rank, if_neg hne, hsign]
      rfl
  · have hne : e.toNat ≠ 0 := fun h => hzero (BitVec.eq_of_toNat_eq h)
    have hpos : m.toNat + fractionBound ≠ 0 := Nat.ne_of_gt (Nat.add_pos_right _ (by decide))
    have hmantissa : (1#1 ++ m).toNat = m.toNat + fractionBound :=
      (toNat_one_append m).trans (Nat.add_comm _ _)
    rw [if_neg hzero, if_neg hne, BinaryFraction.rank, if_neg hpos, hsign, ← hmantissa]
    rfl

theorem isNaN_unpackParts (s : Sign) {e : BitVec 11} (he : e ≠ -1#11) (m : BitVec 52) :
    (unpackParts s e m).isNaN = false := by
  rw [unpackParts, if_neg he]
  by_cases hzero : e = 0#11
  · rw [if_pos hzero]
    by_cases hm : m = 0#52
    · rw [dif_pos hm]
      rfl
    · rw [dif_neg hm]
      rfl
  · rw [if_neg hzero]
    rfl

/-- What is stored for a finite double has the rank of its fraction. -/
theorem rank_of_reading (h : Reading.ofFloat x = .finite f) :
    rank x.toModel.unpack = f.rank ∧ x.isNaN = false := by
  have hparts : x.toModel.unpack = unpackParts
      (Sign.ofBitVec (@unpackSign Format.binary64 x.toBits.toBitVec))
      (@unpackExponent Format.binary64 x.toBits.toBitVec)
      (@unpackMantissa Format.binary64 x.toBits.toBitVec) := rfl
  have hexponent := toNat_unpackExponent x.toBits.toBitVec
  have hmantissa := toNat_unpackMantissa x.toBits.toBitVec
  rw [UInt64.toNat_toBitVec] at hexponent hmantissa
  have hnegative : (Sign.ofBitVec (@unpackSign Format.binary64 x.toBits.toBitVec) == .negative) =
      (x.toBits.toNat / 0x8000000000000000 == 1) := by
    rw [ofBitVec_unpackSign, UInt64.toNat_toBitVec]
    cases x.toBits.toNat / 0x8000000000000000 == 1 <;> rfl
  unfold Reading.ofFloat at h
  dsimp only at h
  split at h
  · split at h <;> cases h
  · next hlargest =>
    have he : @unpackExponent Format.binary64 x.toBits.toBitVec ≠ -1#11 := by
      intro heq
      rw [heq] at hexponent
      exact hlargest hexponent.symm
    refine ⟨?_, isNaN_unpackParts _ he _⟩
    rw [hparts, rank_unpackParts _ he, hexponent, hmantissa, hnegative]
    split at h
    · next hzero =>
      obtain rfl := Reading.finite.inj h
      rw [if_pos hzero]
    · next hzero =>
      obtain rfl := Reading.finite.inj h
      rw [if_neg hzero]

/-- A double stands for a number exactly. -/
def IsExactly (x : Float) (q : ℚ) : Prop := ∃ f, Reading.ofFloat x = .finite f ∧ f.value = q

theorem IsExactly.isNaN (h : IsExactly x q) : x.isNaN = false := by
  obtain ⟨f, hf, -⟩ := h
  exact (rank_of_reading hf).2

theorem IsExactly.beq_infinity (h : IsExactly x q) : (x == infinity) = false := by
  obtain ⟨f, hf, -⟩ := h
  rw [← Bool.not_eq_true, beq_infinity_iff]
  intro hinfinite
  have hrank : f.rank = toLex (2, toLex (0, 0)) :=
    (rank_of_reading hf).1.symm.trans (congrArg rank hinfinite)
  obtain ⟨hside, -⟩ | ⟨hside, -⟩ | ⟨hside, -⟩ := f.side_cases
  all_goals simp [hside] at hrank

theorem isExactly_zero : IsExactly 0 0 := ⟨⟨false, 0, -1074⟩, rfl, BinaryFraction.value_of_zero rfl⟩

theorem IsExactly.lt_iff (hx : IsExactly x p) (hy : IsExactly y q) : x < y ↔ p < q := by
  obtain ⟨f, hf, rfl⟩ := hx
  obtain ⟨g, hg, rfl⟩ := hy
  obtain ⟨hfrank, hfnumber⟩ := rank_of_reading hf
  obtain ⟨hgrank, hgnumber⟩ := rank_of_reading hg
  rw [Decimal.lt_iff hfnumber hgnumber, hfrank, hgrank]
  exact BinaryFraction.rank_lt_iff (isDouble_of_reading hf) (isDouble_of_reading hg)

theorem IsExactly.le_iff (hx : IsExactly x p) (hy : IsExactly y q) : x ≤ y ↔ p ≤ q := by
  rw [← not_iff_not, Decimal.not_le hx.isNaN hy.isNaN, hy.lt_iff hx, not_le]

end TurretPunch.Decimal
