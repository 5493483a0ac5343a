import TurretPunch.Decimal.Shortest
import TurretPunch.Proofs.Decimal.Bits
import TurretPunch.Proofs.Decimal.Exponent

namespace TurretPunch.Decimal

/-!
# What reads as a double

The fractions that lie in the reading interval of a double are those to which it is the nearest one.
Below a power of two the interval is shorter, since the doubles there lie twice as close.
-/

theorem IsNearest.unique {q : ℚ} {m n : ℤ} (hm : IsNearest q m) (hn : IsNearest q n) : m = n := by
  have hmn : |(m : ℚ) - n| ≤ 1 := by
    calc |(m : ℚ) - n| = |(q - n) - (q - m)| := by ring_nf
      _ ≤ |q - n| + |q - m| := abs_sub _ _
      _ ≤ 1 := by linarith [hm.near, hn.near]
  have hcast : |m - n| ≤ 1 := by exact_mod_cast hmn
  by_contra hne
  have hone : |m - n| = 1 := le_antisymm hcast (Int.one_le_abs (sub_ne_zero.mpr hne))
  have htie : |q - m| = 1 / 2 ∧ |q - n| = 1 / 2 := by
    have hsum : (1 : ℚ) ≤ |q - n| + |q - m| := by
      calc (1 : ℚ) = |(m : ℚ) - n| := by exact_mod_cast hone.symm
        _ = |(q - n) - (q - m)| := by ring_nf
        _ ≤ |q - n| + |q - m| := abs_sub _ _
    constructor <;> linarith [hm.near, hn.near]
  obtain ⟨j, hj⟩ := hm.even htie.1
  obtain ⟨k, hk⟩ := hn.even htie.2
  rcases abs_eq (by decide : (0 : ℤ) ≤ 1) |>.mp hone with h | h <;> omega

theorem roundHalfEven_eq {num den m : Nat} (hden : 0 < den) (h : IsNearest ((num : ℚ) / den) m) :
    roundHalfEven num den = m := by
  exact_mod_cast (isNearest_roundHalfEven num hden).unique h

/-- The fractions that a reading interval has in it. -/
def ReadingInterval.Contains (i : ReadingInterval) (q : ℚ) : Prop :=
  if i.closed then (i.low : ℚ) / i.denominator ≤ q ∧ q ≤ i.high / i.denominator
  else (i.low : ℚ) / i.denominator < q ∧ q < i.high / i.denominator

variable {f : BinaryFraction} {q : ℚ}

/-- How far the reading interval reaches down, in quarters of the unit. -/
def BinaryFraction.lowStep (f : BinaryFraction) : Nat :=
  if f.mantissa = fractionBound ∧ -1074 < f.exponent then 1 else 2

theorem lowStep_le (f : BinaryFraction) : f.lowStep ≤ 2 := by
  unfold BinaryFraction.lowStep
  split <;> decide

theorem quarter_units (k : Nat) (e : ℤ) :
    ((k * Nat.pow 2 (e - 2).toNat : Nat) : ℚ) / (Nat.pow 2 (2 - e).toNat : Nat) =
      (k : ℚ) / 4 * 2 ^ e := by
  have hquarter : (2 : ℚ) ^ e = 4 * (2 ^ (e - 2).toNat / 2 ^ (2 - e).toNat) := by
    have hsplit := zpow_eq_div (two_ne_zero (α := ℚ)) (e - 2)
    rw [neg_sub] at hsplit
    rw [← hsplit, zpow_sub₀ two_ne_zero]
    norm_num
    ring
  rw [hquarter, Nat.pow_eq, Nat.pow_eq]
  push_cast
  ring

theorem contains_iff (hpos : 0 < f.mantissa) : (ReadingInterval.ofFraction f).Contains q ↔
    if f.mantissa % 2 = 0 then
      (f.mantissa - (f.lowStep : ℚ) / 4) * 2 ^ f.exponent ≤ q ∧
        q ≤ (f.mantissa + 1 / 2) * 2 ^ f.exponent
    else
      (f.mantissa - (f.lowStep : ℚ) / 4) * 2 ^ f.exponent < q ∧
        q < (f.mantissa + 1 / 2) * 2 ^ f.exponent := by
  have hlow : ((ReadingInterval.ofFraction f).low : ℚ) / (ReadingInterval.ofFraction f).denominator =
      (f.mantissa - (f.lowStep : ℚ) / 4) * 2 ^ f.exponent := by
    have hle := lowStep_le f
    refine (quarter_units (4 * f.mantissa - f.lowStep) f.exponent).trans ?_
    rw [Nat.cast_sub (by omega)]
    push_cast
    ring
  have hhigh : ((ReadingInterval.ofFraction f).high : ℚ) / (ReadingInterval.ofFraction f).denominator =
      (f.mantissa + 1 / 2) * 2 ^ f.exponent := by
    refine (quarter_units (4 * f.mantissa + 2) f.exponent).trans ?_
    push_cast
    ring
  have hclosed : (ReadingInterval.ofFraction f).closed = (f.mantissa % 2 == 0) := rfl
  rw [ReadingInterval.Contains, hlow, hhigh, hclosed]
  simp only [beq_iff_eq]

/-- What reads as a double is nearest to its mantissa, in units of its last place. -/
theorem isNearest_of_contains (hpos : 0 < f.mantissa)
    (h : (ReadingInterval.ofFraction f).Contains q) :
    IsNearest (q / 2 ^ f.exponent) f.mantissa := by
  have hunit : (0 : ℚ) < 2 ^ f.exponent := by positivity
  have hstep : (f.lowStep : ℚ) / 4 ≤ 1 / 2 := by
    have hle : (f.lowStep : ℚ) ≤ 2 := by exact_mod_cast lowStep_le f
    linarith
  rw [contains_iff hpos] at h
  split at h
  · next heven =>
    rw [← le_div_iff₀ hunit, ← div_le_iff₀ hunit] at h
    refine ⟨?_, fun _ => ?_⟩
    · rw [Int.cast_natCast, abs_le]
      constructor <;> linarith
    · exact_mod_cast Nat.even_iff.mpr heven
  · rw [← lt_div_iff₀ hunit, ← div_lt_iff₀ hunit] at h
    apply isNearest_of_lt
    rw [Int.cast_natCast, abs_lt]
    constructor <;> linarith

theorem le_of_contains (hpos : 0 < f.mantissa) (h : (ReadingInterval.ofFraction f).Contains q) :
    f.mantissa - (f.lowStep : ℚ) / 4 ≤ q / 2 ^ f.exponent := by
  rw [contains_iff hpos] at h
  rw [le_div_iff₀ (by positivity)]
  split at h
  · exact h.1
  · exact h.1.le

variable {num den : Nat}

theorem binaryExponent_le {k : ℤ} (hnum : 0 < num) (hden : 0 < den)
    (h : (num : ℚ) / den < 2 ^ (k + 1)) : binaryExponent num den ≤ k := by
  have hlow := (binaryExponent_spec hnum hden).1
  have hlt := (zpow_lt_zpow_iff_right₀ (one_lt_two (α := ℚ))).mp (hlow.trans_lt h)
  omega

theorem le_binaryExponent {k : ℤ} (hnum : 0 < num) (hden : 0 < den)
    (h : (2 : ℚ) ^ k ≤ num / den) : k ≤ binaryExponent num den := by
  have hhigh := (binaryExponent_spec hnum hden).2
  have hlt := (zpow_lt_zpow_iff_right₀ (one_lt_two (α := ℚ))).mp (h.trans_lt hhigh)
  omega

/-- The nearest double has the exponent of its last place and the nearest number of such units. -/
theorem nearestBits_eq {e : ℤ} {m : Nat} (hnum : 0 < num) (hden : 0 < den)
    (he : e = max (binaryExponent num den - 52) (-1074))
    (hm : IsNearest ((num : ℚ) / den / 2 ^ e) m) :
    nearestBits num den = min ((e + 1074).toNat * fractionBound + m) (2047 * fractionBound) := by
  have hround : roundHalfEven (num * Nat.pow 2 (-e).toNat) (den * Nat.pow 2 e.toNat) = m := by
    have hscaled : ((num * Nat.pow 2 (-e).toNat : Nat) : ℚ) / (den * Nat.pow 2 e.toNat : Nat) =
        num / den / 2 ^ e := by
      have hden' : (den : ℚ) ≠ 0 := by exact_mod_cast hden.ne'
      rw [zpow_eq_div two_ne_zero, Nat.pow_eq, Nat.pow_eq]
      push_cast
      field_simp
    exact roundHalfEven_eq (Nat.mul_pos hden (Nat.pow_pos two_pos)) (hscaled ▸ hm)
  unfold nearestBits
  rw [if_neg hnum.ne']
  dsimp only
  rw [← he, hround]

theorem bits_le (hf : f.IsDouble) : f.bits ≤ 2047 * fractionBound := by
  have hexponent : (f.exponent + 1074).toNat ≤ 2045 := by
    have hle := hf.exponent_le
    omega
  have hmantissa := hf.mantissa_lt
  calc f.bits = (f.exponent + 1074).toNat * fractionBound + f.mantissa := rfl
    _ ≤ 2045 * fractionBound + 2 * fractionBound :=
        Nat.add_le_add (Nat.mul_le_mul_right _ hexponent) hmantissa.le
    _ = 2047 * fractionBound := by rw [← Nat.add_mul]

theorem lt_zpow_add_iff {q : ℚ} (e k : ℤ) : q < 2 ^ (e + k) ↔ q / 2 ^ e < 2 ^ k := by
  rw [zpow_add₀ two_ne_zero, mul_comm, ← div_lt_iff₀ (by positivity)]

theorem zpow_add_le_iff {q : ℚ} (e k : ℤ) : (2 : ℚ) ^ (e + k) ≤ q ↔ 2 ^ k ≤ q / 2 ^ e := by
  rw [zpow_add₀ two_ne_zero, mul_comm, ← le_div_iff₀ (by positivity)]

theorem BinaryFraction.IsDouble.mantissa_le (hf : f.IsDouble) : (f.mantissa : ℚ) + 1 ≤ 2 ^ (53 : ℤ) := by
  have hlt := hf.mantissa_lt
  unfold fractionBound at hlt
  exact_mod_cast hlt

/-- What reads as a double is nearest to its mantissa, as two bounds. -/
theorem bounds_of_isNearest {m : Nat} (h : IsNearest q m) : m - 1 / 2 ≤ q ∧ q ≤ m + 1 / 2 := by
  have habs := abs_le.mp h.near
  rw [Int.cast_natCast] at habs
  constructor <;> linarith

theorem binaryExponent_le_of_contains (hf : f.IsDouble) (hpos : 0 < f.mantissa) (hnum : 0 < num)
    (hden : 0 < den) (h : (ReadingInterval.ofFraction f).Contains (num / den)) :
    binaryExponent num den ≤ f.exponent + 52 := by
  apply binaryExponent_le hnum hden
  rw [add_assoc, lt_zpow_add_iff]
  have hhigh := (bounds_of_isNearest (isNearest_of_contains hpos h)).2
  have hmantissa := hf.mantissa_le
  exact lt_of_le_of_lt hhigh (by norm_num at hmantissa ⊢; linarith)

/-- Above the least power of two with the exponent of a double, the units are those of the double. -/
theorem exponent_eq (hf : f.IsDouble) (hpos : 0 < f.mantissa) (hnum : 0 < num) (hden : 0 < den)
    (h : (ReadingInterval.ofFraction f).Contains (num / den))
    (hlow : f.exponent = -1074 ∨ (2 : ℚ) ^ (52 : ℤ) ≤ num / den / 2 ^ f.exponent) :
    f.exponent = max (binaryExponent num den - 52) (-1074) := by
  have hle := binaryExponent_le_of_contains hf hpos hnum hden h
  rcases hlow with hleast | hlow
  · omega
  · have hge := le_binaryExponent hnum hden ((zpow_add_le_iff f.exponent 52).mpr hlow)
    have hleast := hf.exponent_ge
    omega

/-- Below a power of two the unit is half as large, and rounding goes up to that power. -/
theorem nearestBits_below_power (hf : f.IsDouble) (hleast : f.mantissa = fractionBound)
    (hexponent : -1074 < f.exponent) (hnum : 0 < num) (hden : 0 < den)
    (h : (ReadingInterval.ofFraction f).Contains (num / den))
    (hlow : (num : ℚ) / den / 2 ^ f.exponent < 2 ^ (52 : ℤ)) : nearestBits num den = f.bits := by
  have hbound : (fractionBound : ℚ) = 2 ^ (52 : ℤ) := by norm_num [fractionBound]
  have hclose : 2 ^ (52 : ℤ) - 1 / 4 ≤ (num : ℚ) / den / 2 ^ f.exponent := by
    have hstep : f.lowStep = 1 := if_pos ⟨hleast, hexponent⟩
    have hclose := le_of_contains (hleast ▸ by decide) h
    rwa [hstep, hleast, hbound, Nat.cast_one] at hclose
  have he : f.exponent - 1 = max (binaryExponent num den - 52) (-1074) := by
    have hle : binaryExponent num den ≤ f.exponent + 51 := by
      apply binaryExponent_le hnum hden
      rw [add_assoc, lt_zpow_add_iff]
      exact hlow
    have hge : f.exponent + 51 ≤ binaryExponent num den := by
      apply le_binaryExponent hnum hden
      rw [zpow_add_le_iff]
      exact le_trans (by norm_num) hclose
    omega
  have hnear : IsNearest ((num : ℚ) / den / 2 ^ (f.exponent - 1)) (2 * fractionBound : Nat) := by
    have hhalf : (num : ℚ) / den / 2 ^ (f.exponent - 1) = 2 * (num / den / 2 ^ f.exponent) := by
      rw [zpow_sub₀ two_ne_zero, zpow_one]
      field_simp
    refine ⟨?_, fun _ => ⟨fractionBound, by push_cast; ring⟩⟩
    rw [hhalf, abs_le]
    push_cast
    rw [hbound]
    constructor <;> linarith
  have hbits : (f.exponent - 1 + 1074).toNat * fractionBound + 2 * fractionBound = f.bits := by
    have hsucc : (f.exponent + 1074).toNat = (f.exponent - 1 + 1074).toNat + 1 := by omega
    rw [BinaryFraction.bits, hsucc, hleast]
    ring
  rw [nearestBits_eq hnum hden he hnear, hbits]
  exact Nat.min_eq_left (bits_le hf)

/-- A fraction in the reading interval of a double reads as that double. -/
theorem nearestBits_of_contains (hf : f.IsDouble) (hpos : 0 < f.mantissa) (hnum : 0 < num)
    (hden : 0 < den) (h : (ReadingInterval.ofFraction f).Contains (num / den)) :
    nearestBits num den = f.bits := by
  have hnear := isNearest_of_contains hpos h
  by_cases hregular : f.exponent = -1074 ∨ (2 : ℚ) ^ (52 : ℤ) ≤ num / den / 2 ^ f.exponent
  · rw [nearestBits_eq hnum hden (exponent_eq hf hpos hnum hden h hregular) hnear]
    exact Nat.min_eq_left (bits_le hf)
  · obtain ⟨hexponent, hlow⟩ := not_or.mp hregular
    rw [not_le] at hlow
    have hge := hf.exponent_ge
    refine nearestBits_below_power hf ?_ (by omega) hnum hden h hlow
    by_contra hne
    have hnormal := hf.mantissa_ge (by omega)
    have hgt : (fractionBound : ℚ) + 1 ≤ f.mantissa := by
      exact_mod_cast (show fractionBound + 1 ≤ f.mantissa by omega)
    have hbound : (fractionBound : ℚ) = 2 ^ (52 : ℤ) := by norm_num [fractionBound]
    have hclose := (bounds_of_isNearest hnear).1
    linarith

theorem lt_ten_pow : 2 * 2 ^ 1074 < 10 ^ 330 ∧ 2 ^ 53 * 2 ^ 971 < 10 ^ 309 := by decide +kernel

/-- What reads as a double has an order of magnitude that doubles have. -/
theorem bounds_of_contains (hf : f.IsDouble) (hpos : 0 < f.mantissa)
    (h : (ReadingInterval.ofFraction f).Contains q) : (10 : ℚ) ^ (-330 : ℤ) < q ∧ q < 10 ^ (309 : ℤ) := by
  have hunit : (0 : ℚ) < 2 ^ f.exponent := by positivity
  obtain ⟨hnear, hnear'⟩ := bounds_of_isNearest (isNearest_of_contains hpos h)
  have hone : (1 : ℚ) ≤ f.mantissa := by exact_mod_cast hpos
  have hmantissa := hf.mantissa_le
  have hlow : (1 : ℚ) / 2 * 2 ^ (-1074 : ℤ) ≤ q := by
    calc (1 : ℚ) / 2 * 2 ^ (-1074 : ℤ) ≤ 1 / 2 * 2 ^ f.exponent := by
          gcongr
          · norm_num
          · exact hf.exponent_ge
      _ ≤ q := by
          rw [← le_div_iff₀ hunit]
          linarith
  have hhigh : q < 2 ^ (53 : ℤ) * 2 ^ (971 : ℤ) := by
    calc q < 2 ^ (53 : ℤ) * 2 ^ f.exponent := by
          rw [← div_lt_iff₀ hunit]
          linarith
      _ ≤ 2 ^ (53 : ℤ) * 2 ^ (971 : ℤ) := by
          gcongr
          · norm_num
          · exact hf.exponent_le
  have hless : (10 : ℚ) ^ (-330 : ℤ) < 1 / 2 * 2 ^ (-1074 : ℤ) := by
    have hpow : (2 * 2 ^ 1074 : ℚ) < 10 ^ 330 := by exact_mod_cast lt_ten_pow.1
    calc (10 : ℚ) ^ (-330 : ℤ) = 1 / 10 ^ 330 := by rw [zpow_neg, one_div]; rfl
      _ < 1 / (2 * 2 ^ 1074) := one_div_lt_one_div_of_lt (by positivity) hpow
      _ = 1 / 2 * (1 / 2 ^ 1074) := (one_div_mul_one_div 2 _).symm
      _ = 1 / 2 * 2 ^ (-1074 : ℤ) := by rw [zpow_neg, one_div (2 ^ 1074 : ℚ)]; rfl
  have hmore : (2 : ℚ) ^ (53 : ℤ) * 2 ^ (971 : ℤ) < 10 ^ (309 : ℤ) := by
    exact_mod_cast lt_ten_pow.2
  exact ⟨hless.trans_le hlow, hhigh.trans hmore⟩

theorem pos_of_contains {n : Nat} {scale : ℤ} (hf : f.IsDouble) (hpos : 0 < f.mantissa)
    (h : (ReadingInterval.ofFraction f).Contains (n * 10 ^ scale)) : 0 < n := by
  rcases Nat.eq_zero_or_pos n with rfl | hn
  · have hlow := (bounds_of_contains hf hpos h).1
    rw [Nat.cast_zero, zero_mul] at hlow
    exact absurd hlow (not_lt.mpr (by positivity))
  · exact hn

theorem magnitude_of_contains {mantissa : Nat} {scale : ℤ} (hf : f.IsDouble) (hpos : 0 < f.mantissa)
    (h : (ReadingInterval.ofFraction f).Contains (mantissa * 10 ^ scale)) :
    Numeral.magnitude mantissa scale = Float.ofBits f.bits.toUInt64 := by
  obtain ⟨hlow, hhigh⟩ := bounds_of_contains hf hpos h
  have hmantissa := pos_of_contains hf hpos h
  have hbig := digitCount_le_of_lt hmantissa hhigh
  have hsmall := lt_digitCount_of_lt hlow
  have hquotient : (mantissa * 10 ^ scale : ℚ) =
      (mantissa * Nat.pow 10 scale.toNat : Nat) / (Nat.pow 10 (-scale).toNat : Nat) := by
    rw [zpow_eq_div (by norm_num), Nat.pow_eq, Nat.pow_eq]
    push_cast
    ring
  unfold Numeral.magnitude
  rw [if_neg hmantissa.ne']
  dsimp only
  rw [if_neg (by omega), if_neg (by omega), nearest]
  congr 2
  exact nearestBits_of_contains hf hpos (Nat.mul_pos hmantissa (Nat.pow_pos (by decide)))
    (Nat.pow_pos (by decide)) (hquotient ▸ h)

/-- A numeral reads as a double if it has its sign and lies in its reading interval. -/
theorem Numeral.toFloat_of_contains {n : Numeral} {x : Float} (hx : Reading.ofFloat x = .finite f)
    (hpos : 0 < f.mantissa) (hsign : n.negative = f.negative)
    (h : (ReadingInterval.ofFraction f).Contains (n.mantissa * 10 ^ n.scale)) : n.toFloat = x := by
  rw [toFloat, magnitude_of_contains (isDouble_of_reading hx) hpos h, hsign]
  exact (eq_of_reading hx).symm

theorem Numeral.toFloat_of_zero {n : Numeral} {x : Float} (hx : Reading.ofFloat x = .finite f)
    (hzero : f.mantissa = 0) (hsign : n.negative = f.negative) (h : n.mantissa = 0) :
    n.toFloat = x := by
  have hf := isDouble_of_reading hx
  have hbits : f.bits = 0 := by
    have hexponent : f.exponent = -1074 := by
      by_contra hne
      have hge := hf.exponent_ge
      have hnormal := hf.mantissa_ge (by omega)
      rw [hzero] at hnormal
      exact absurd hnormal (by decide)
    rw [BinaryFraction.bits, hexponent, hzero]
    rfl
  have hx' := eq_of_reading hx
  rw [hbits] at hx'
  rw [toFloat, magnitude, if_pos h, hsign]
  exact hx'.symm

end TurretPunch.Decimal
