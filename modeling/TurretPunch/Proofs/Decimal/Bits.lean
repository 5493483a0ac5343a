import Mathlib.Algebra.Group.Nat.Defs
import TurretPunch.Proofs.Decimal.Number

namespace TurretPunch.Decimal

/-!
# Doubles by their bits

A double is told by its sign bit, its exponent bits and its fraction bits. Unpacked and packed again
it is the same, and what is negated differs in the sign bit alone.
-/

open Float.Model UnpackedFloat

variable {s : Sign} {e : BitVec 11} {m : BitVec 52} {b : BitVec 64}

theorem ofBitVec_toBitVec (s : Sign) : Sign.ofBitVec s.toBitVec = s := by
  cases s <;> rfl

theorem toBitVec_ofBitVec (b : BitVec 1) : (Sign.ofBitVec b).toBitVec = b := by
  rcases BitVec.eq_zero_or_eq_one b with rfl | rfl <;> rfl

theorem toNat_packComponents (s : Sign) (e : BitVec 11) (m : BitVec 52) :
    (packComponents Format.binary64 s e m).toNat =
      s.toBitVec.toNat * 2 ^ 63 + e.toNat * 2 ^ 52 + m.toNat := by
  unfold packComponents
  rw [BitVec.toNat_append, BitVec.toNat_append, Nat.shiftLeft_eq, Nat.shiftLeft_eq,
    Nat.mul_comm _ (2 ^ Format.binary64.exponentBits), ← Nat.two_pow_add_eq_or_of_lt e.isLt,
    Nat.mul_comm _ (2 ^ Format.binary64.mantissaBitsWithoutImplicit),
    ← Nat.two_pow_add_eq_or_of_lt m.isLt]
  omega

theorem toNat_unpackSign (b : BitVec 64) :
    (@unpackSign Format.binary64 b).toNat = b.toNat / 2 ^ 63 := by
  show b.toNat >>> 63 % 2 ^ 1 = _
  rw [Nat.shiftRight_eq_div_pow, Nat.mod_eq_of_lt]
  have hlt := b.isLt
  omega

theorem toNat_unpackExponent (b : BitVec 64) :
    (@unpackExponent Format.binary64 b).toNat = b.toNat / fractionBound % 2048 := by
  show b.toNat >>> 52 % 2 ^ 11 = _
  rw [Nat.shiftRight_eq_div_pow]
  rfl

theorem toNat_unpackMantissa (b : BitVec 64) :
    (@unpackMantissa Format.binary64 b).toNat = b.toNat % fractionBound := by
  show b.toNat >>> 0 % 2 ^ 52 = _
  rw [Nat.shiftRight_zero]
  rfl

theorem unpackSign_packComponents (s : Sign) (e : BitVec 11) (m : BitVec 52) :
    unpackSign (packComponents Format.binary64 s e m) = s.toBitVec := by
  apply BitVec.eq_of_toNat_eq
  rw [toNat_unpackSign, toNat_packComponents]
  have he := e.isLt
  have hm := m.isLt
  omega

/-- The bits are those of the sign, of the exponent and of the fraction, one after the other. -/
theorem packComponents_parts (b : BitVec 64) :
    packComponents Format.binary64 (Sign.ofBitVec (@unpackSign Format.binary64 b))
      (@unpackExponent Format.binary64 b) (@unpackMantissa Format.binary64 b) = b := by
  apply BitVec.eq_of_toNat_eq
  rw [toNat_packComponents, toBitVec_ofBitVec, toNat_unpackSign, toNat_unpackExponent,
    toNat_unpackMantissa, fractionBound]
  have hb := b.isLt
  omega

theorem toNat_one_append (m : BitVec 52) : (1#1 ++ m).toNat = 2 ^ 52 + m.toNat := by
  rw [BitVec.toNat_append, Nat.shiftLeft_eq, Nat.mul_comm, ← Nat.two_pow_add_eq_or_of_lt m.isLt]
  rfl

/-- What is stored with a sign, exponent bits and fraction bits. -/
def unpackParts (s : Sign) (e : BitVec 11) (m : BitVec 52) : UnpackedFloat :=
  if e = -1#11 then if m = 0#52 then .infinity s else .notANumber
  else if e = 0#11 then
    if h : m = 0#52 then .zero s
    else
      .finite s m.toNat (e.toNat - 1075 + 1)
        (Nat.pos_of_ne_zero fun hm => h (BitVec.eq_of_toNat_eq hm))
  else
    .finite s (1#1 ++ m).toNat (e.toNat - 1075)
      (toNat_one_append m ▸ Nat.add_pos_left (by decide) m.toNat)

theorem unpack_packComponents (s : Sign) (e : BitVec 11) (m : BitVec 52) :
    UnpackedFloat.unpack Format.binary64 (packComponents Format.binary64 s e m) =
      unpackParts s e m := by
  have hparts (b : BitVec 64) : UnpackedFloat.unpack Format.binary64 b =
      unpackParts (Sign.ofBitVec (@unpackSign Format.binary64 b))
        (@unpackExponent Format.binary64 b) (@unpackMantissa Format.binary64 b) := rfl
  rw [hparts, unpackSign_packComponents, ofBitVec_toBitVec, unpackExponent_packComponents,
    unpackMantissa_packComponents]

theorem pack_subnormal (s : Sign) (m : BitVec 52) (hm : 0 < m.toNat) :
    UnpackedFloat.pack Format.binary64 (.finite s m.toNat (-1074) hm) =
      packComponents Format.binary64 s 0#11 m := by
  have hlog : m.toNat.log2 + 1 ≠ Format.binary64.mantissaBits := by
    have hlt : m.toNat.log2 < 52 := (Nat.log2_lt (Nat.pos_iff_ne_zero.mp hm)).mpr m.isLt
    have hbits : Format.binary64.mantissaBits = 53 := rfl
    omega
  unfold UnpackedFloat.pack
  dsimp only
  rw [if_neg (by decide), if_neg hlog, BitVec.ofNat_toNat, BitVec.setWidth_eq]

theorem pack_normal (s : Sign) {e : BitVec 11} (he : e ≠ (-1#11)) (m : BitVec 52)
    (hm : 0 < (1#1 ++ m).toNat) :
    UnpackedFloat.pack Format.binary64 (.finite s (1#1 ++ m).toNat (e.toNat - 1075) hm) =
      packComponents Format.binary64 s e m := by
  have hlog : (1#1 ++ m).toNat.log2 + 1 = Format.binary64.mantissaBits := by
    have hlog2 : (1#1 ++ m).toNat.log2 = 52 := by
      rw [Nat.log2_eq_iff (Nat.pos_iff_ne_zero.mp hm), toNat_one_append]
      have hlt := m.isLt
      omega
    rw [hlog2]
    rfl
  have hexponent : (e.toNat - 1075 + Format.binary64.exponentBias +
      Format.binary64.mantissaBitsWithoutImplicit : Int).toNat = e.toNat := by
    have hbias : Format.binary64.exponentBias = 1023 := rfl
    have hbits : Format.binary64.mantissaBitsWithoutImplicit = 52 := rfl
    omega
  have hsmall : ¬ 2 ^ Format.binary64.exponentBits ≤ e.toNat + 1 := by
    have hlt := e.isLt
    have hne : e.toNat ≠ 2047 := fun h => he (BitVec.eq_of_toNat_eq h)
    have hsize : 2 ^ Format.binary64.exponentBits = 2048 := rfl
    omega
  unfold UnpackedFloat.pack
  dsimp only
  rw [hexponent, if_neg hsmall, if_pos hlog, BitVec.ofNat_toNat, BitVec.setWidth_eq]
  congr 1
  apply BitVec.eq_of_toNat_eq
  rw [BitVec.toNat_ofNat, toNat_one_append]
  exact (Nat.add_mod_left _ _).trans (Nat.mod_eq_of_lt m.isLt)

/-- What is not one of the many ways to write that there is no number is packed again as it was. -/
theorem pack_unpack (h : e = (-1#_) → m = 0#_) :
    UnpackedFloat.pack Format.binary64 (UnpackedFloat.unpack Format.binary64
      (packComponents Format.binary64 s e m)) = packComponents Format.binary64 s e m := by
  rw [unpack_packComponents, unpackParts]
  by_cases he : e = -1#11
  · rw [if_pos he, if_pos (h he), he, h he]
    rfl
  · rw [if_neg he]
    by_cases hzero : e = 0#11
    · rw [if_pos hzero]
      by_cases hm : m = 0#52
      · rw [dif_pos hm, hzero, hm]
        rfl
      · rw [dif_neg hm]
        subst hzero
        exact pack_subnormal s m _
    · rw [if_neg hzero]
      exact pack_normal s he m _

theorem neg_unpack (s : Sign) (e : BitVec 11) (m : BitVec 52) :
    (UnpackedFloat.unpack Format.binary64 (packComponents Format.binary64 s e m)).neg =
      UnpackedFloat.unpack Format.binary64 (packComponents Format.binary64 (-s) e m) := by
  rw [unpack_packComponents, unpack_packComponents, unpackParts, unpackParts]
  by_cases he : e = -1#11
  · rw [if_pos he, if_pos he]
    by_cases hm : m = 0#52
    · rw [if_pos hm, if_pos hm]
      rfl
    · rw [if_neg hm, if_neg hm]
      rfl
  · rw [if_neg he, if_neg he]
    by_cases hzero : e = 0#11
    · rw [if_pos hzero, if_pos hzero]
      by_cases hm : m = 0#52
      · rw [dif_pos hm, dif_pos hm]
        rfl
      · rw [dif_neg hm, dif_neg hm]
        rfl
    · rw [if_neg hzero, if_neg hzero]
      rfl

theorem eq_of_toBits {x y : Float} (h : x.toBits = y.toBits) : x = y := by
  obtain ⟨⟨a, ha⟩⟩ := x
  obtain ⟨⟨b, hb⟩⟩ := y
  obtain rfl : a = b := h
  rfl

/-- The double with a sign, exponent bits and fraction bits. -/
def ofParts (s : Sign) (e : BitVec 11) (m : BitVec 52) : Float :=
  Float.ofBits (UInt64.ofBitVec (packComponents Format.binary64 s e m))

theorem toBits_ofParts (h : e = (-1#_) → m = 0#_) :
    (ofParts s e m).toBits = UInt64.ofBitVec (packComponents Format.binary64 s e m) :=
  congrArg UInt64.ofBitVec (pack_unpack h)

theorem neg_ofParts (h : e = (-1#_) → m = 0#_) : -ofParts s e m = ofParts (-s) e m := by
  apply eq_of_toBits
  rw [toBits_ofParts h]
  show UInt64.ofBitVec (UnpackedFloat.pack Format.binary64 (UnpackedFloat.unpack Format.binary64
    (ofParts s e m).toBits.toBitVec).neg) = _
  rw [toBits_ofParts h]
  exact congrArg UInt64.ofBitVec ((congrArg _ (neg_unpack s e m)).trans (pack_unpack h))

theorem eq_ofParts {x : Float}
    (h : @unpackExponent Format.binary64 x.toBits.toBitVec = (-1#_) →
      @unpackMantissa Format.binary64 x.toBits.toBitVec = 0#_) :
    x = ofParts (Sign.ofBitVec (@unpackSign Format.binary64 x.toBits.toBitVec))
      (@unpackExponent Format.binary64 x.toBits.toBitVec)
      (@unpackMantissa Format.binary64 x.toBits.toBitVec) := by
  apply eq_of_toBits
  rw [toBits_ofParts h, packComponents_parts]

/-- The bits of the double that a fraction is without its sign. -/
def BinaryFraction.bits (b : BinaryFraction) : Nat :=
  (b.exponent + 1074).toNat * fractionBound + b.mantissa

/-- The fractions that doubles stand for. -/
structure BinaryFraction.IsDouble (b : BinaryFraction) : Prop where
  exponent_ge : -1074 ≤ b.exponent
  exponent_le : b.exponent ≤ 971
  mantissa_lt : b.mantissa < 2 * fractionBound
  mantissa_ge : -1074 < b.exponent → fractionBound ≤ b.mantissa

theorem ofBitVec_unpackSign (b : BitVec 64) :
    Sign.ofBitVec (@unpackSign Format.binary64 b) =
      if b.toNat / 0x8000000000000000 == 1 then .negative else .positive := by
  have hvalue : (@unpackSign Format.binary64 b).toNat = b.toNat / 0x8000000000000000 :=
    toNat_unpackSign b
  rcases BitVec.eq_zero_or_eq_one (@unpackSign Format.binary64 b) with hsign | hsign
  · rw [hsign] at hvalue ⊢
    rw [← hvalue]
    rfl
  · rw [hsign] at hvalue ⊢
    rw [← hvalue]
    rfl

theorem ofParts_eq (s : Sign) (e : BitVec 11) (m : BitVec 52) :
    ofParts s e m = Float.ofBits (s.toBitVec.toNat * 2 ^ 63 + e.toNat * 2 ^ 52 + m.toNat).toUInt64 := by
  unfold ofParts
  rw [← toNat_packComponents]
  congr 1
  apply UInt64.toBitVec_inj.mp
  apply BitVec.eq_of_toNat_eq
  exact (Nat.mod_eq_of_lt (packComponents Format.binary64 s e m).isLt).symm

theorem ofParts_positive (e : BitVec 11) (m : BitVec 52) :
    ofParts .positive e m = Float.ofBits (e.toNat * fractionBound + m.toNat).toUInt64 := by
  rw [ofParts_eq]
  exact congrArg (fun n => Float.ofBits (n + m.toNat).toUInt64) (Nat.zero_add _)

/-- A double that is a number is the one with its exponent bits and fraction bits, or the negation of
that. -/
theorem eq_signed {x : Float} (h : x.toBits.toNat / fractionBound % 2048 = 2047 →
      x.toBits.toNat % fractionBound = 0) :
    let magnitude := Float.ofBits (x.toBits.toNat / fractionBound % 2048 * fractionBound +
      x.toBits.toNat % fractionBound).toUInt64
    x = if x.toBits.toNat / 0x8000000000000000 == 1 then -magnitude else magnitude := by
  have hnumber : @unpackExponent Format.binary64 x.toBits.toBitVec = (-1#_) →
      @unpackMantissa Format.binary64 x.toBits.toBitVec = 0#_ := by
    intro hexponent
    apply BitVec.eq_of_toNat_eq
    rw [toNat_unpackMantissa]
    apply h
    have hvalue := congrArg BitVec.toNat hexponent
    rwa [toNat_unpackExponent] at hvalue
  intro magnitude
  have hmagnitude : magnitude = ofParts .positive
      (@unpackExponent Format.binary64 x.toBits.toBitVec)
      (@unpackMantissa Format.binary64 x.toBits.toBitVec) := by
    rw [ofParts_positive, toNat_unpackExponent, toNat_unpackMantissa]
    rfl
  have hx := eq_ofParts hnumber
  rw [ofBitVec_unpackSign, UInt64.toNat_toBitVec] at hx
  rw [hmagnitude, neg_ofParts hnumber]
  refine hx.trans ?_
  split <;> rfl

variable {x : Float} {f : BinaryFraction}

theorem isDouble_of_reading (h : Reading.ofFloat x = .finite f) : f.IsDouble := by
  have hfraction : x.toBits.toNat % fractionBound < fractionBound := Nat.mod_lt _ (by decide)
  have hexponent : x.toBits.toNat / fractionBound % 2048 < 2048 := Nat.mod_lt _ (by decide)
  unfold Reading.ofFloat at h
  dsimp only at h
  split at h
  · split at h <;> cases h
  · next hlargest =>
    split at h
    · obtain rfl := Reading.finite.inj h
      exact ⟨by simp, by simp, by dsimp only; omega, fun hlt => absurd hlt (by simp)⟩
    · next hzero =>
      obtain rfl := Reading.finite.inj h
      exact ⟨by dsimp only; omega, by dsimp only; omega, by dsimp only; omega,
        fun _ => Nat.le_add_left _ _⟩

/-- A finite double is the one with the bits of its fraction, or the negation of that. -/
theorem eq_of_reading (h : Reading.ofFloat x = .finite f) :
    x = if f.negative then -Float.ofBits f.bits.toUInt64 else Float.ofBits f.bits.toUInt64 := by
  unfold Reading.ofFloat at h
  dsimp only at h
  split at h
  · split at h <;> cases h
  · next hlargest =>
    have hsigned := eq_signed fun h => absurd h hlargest
    split at h
    · next hzero =>
      obtain rfl := Reading.finite.inj h
      simpa [BinaryFraction.bits, hzero] using hsigned
    · next hzero =>
      obtain rfl := Reading.finite.inj h
      have hbits (e m : Nat) (negative : Bool) (he : e ≠ 0) :
          BinaryFraction.bits ⟨negative, m + fractionBound, (e : Int) - 1075⟩ =
            e * fractionBound + m := by
        obtain ⟨k, rfl⟩ := Nat.exists_eq_succ_of_ne_zero he
        have hexponent : ((k.succ : Nat) - 1075 + 1074 : Int).toNat = k := by omega
        show ((k.succ : Nat) - 1075 + 1074 : Int).toNat * fractionBound + (m + fractionBound) = _
        rw [hexponent, Nat.succ_mul]
        omega
      rw [hbits _ _ _ hzero]
      exact hsigned

theorem eq_of_reading_infinite {negative : Bool} (h : Reading.ofFloat x = .infinite negative) :
    x = if negative then -infinity else infinity := by
  unfold Reading.ofFloat at h
  dsimp only at h
  split at h
  · next hlargest =>
    split at h
    · next hzero =>
      obtain rfl := Reading.infinite.inj h
      have hsigned := eq_signed fun _ => hzero
      rw [hlargest, hzero] at hsigned
      exact hsigned
    · cases h
  · split at h <;> cases h

theorem isNaN_of_reading (h : Reading.ofFloat x = .nan) : x.isNaN = true := by
  unfold Reading.ofFloat at h
  dsimp only at h
  split at h
  · next hlargest =>
    split at h
    · cases h
    · next hfraction =>
      have hexponent : @unpackExponent Format.binary64 x.toBits.toBitVec = (-1#_) := by
        apply BitVec.eq_of_toNat_eq
        rw [toNat_unpackExponent]
        exact hlargest
      have hmantissa : @unpackMantissa Format.binary64 x.toBits.toBitVec ≠ 0#_ := by
        intro hzero
        apply hfraction
        have hvalue := congrArg BitVec.toNat hzero
        rwa [toNat_unpackMantissa] at hvalue
      show (UnpackedFloat.unpack Format.binary64 x.toBits.toBitVec).isNaN = true
      unfold UnpackedFloat.unpack
      dsimp only
      rw [if_pos hexponent, if_neg hmantissa]
      rfl
  · split at h <;> cases h

end TurretPunch.Decimal
