import TurretPunch.Decimal.Numeral

namespace TurretPunch.Decimal

/-!
# Which doubles are numbers

A sum or a difference of two numbers is a number unless both are infinite and cancel each other. What
is compared successfully is a number on both sides.
-/

open Float.Model UnpackedFloat

theorem isNaN_finite_or_zero (sign : Sign) (mantissa : Nat) (exponent : Int) :
    (if h : mantissa = 0 then UnpackedFloat.zero sign
      else .finite sign mantissa exponent (Nat.pos_of_ne_zero h)).isNaN = false := by
  by_cases h : mantissa = 0
  · rw [dif_pos h]
    rfl
  · rw [dif_neg h]
    rfl

/-- Rounding a number to the format of doubles gives a number. -/
theorem isNaN_normalize (mantissa exponent : Int) :
    (UnpackedFloat.normalize Format.binary64 mantissa exponent .positive).isNaN = false := by
  have hround (sign : Sign) (m : Nat) :
      (UnpackedFloat.round Format.binary64 sign m exponent).isNaN = false := by
    unfold UnpackedFloat.round UnpackedFloat.roundWithAccuracy
    exact isNaN_finite_or_zero sign _ _
  unfold UnpackedFloat.normalize
  split
  · exact hround .negative _
  · rfl
  · exact hround .positive _

/-- What has no mantissa, or not the largest exponent, is a number. -/
theorem isNaN_unpack {b : BitVec Format.binary64.numBits}
    (h : unpackExponent b = (-1#_) → unpackMantissa b = 0#_) :
    (UnpackedFloat.unpack Format.binary64 b).isNaN = false := by
  unfold UnpackedFloat.unpack
  by_cases hexponent : unpackExponent b = (-1#_)
  · rw [if_pos hexponent, if_pos (h hexponent)]
    rfl
  · rw [if_neg hexponent]
    by_cases hsmall : unpackExponent b = 0#_
    · rw [if_pos hsmall]
      by_cases hmantissa : unpackMantissa b = 0#_
      · rw [dif_pos hmantissa]
        rfl
      · rw [dif_neg hmantissa]
        rfl
    · rw [if_neg hsmall]
      rfl

/-- A finite number is packed as infinity, or with an exponent below the largest one. -/
theorem pack_finite_cases (s : Sign) (m : Nat) (e : Int) (hm : 0 < m) :
    UnpackedFloat.pack Format.binary64 (.finite s m e hm) = packedInfinity Format.binary64 s ∨
      ∃ (exponent : Nat) (mantissa : BitVec Format.binary64.mantissaBitsWithoutImplicit),
        exponent < 2047 ∧ UnpackedFloat.pack Format.binary64 (.finite s m e hm) =
          packComponents Format.binary64 s (BitVec.ofNat _ exponent) mantissa := by
  let exponent :=
    (e + Format.binary64.exponentBias + Format.binary64.mantissaBitsWithoutImplicit).toNat
  by_cases hlarge : 2 ^ Format.binary64.exponentBits ≤ exponent + 1
  · left
    exact if_pos hlarge
  · right
    have hsize : 2 ^ Format.binary64.exponentBits = 2048 := rfl
    by_cases hnormal : m.log2 + 1 = Format.binary64.mantissaBits
    · exact ⟨exponent, BitVec.ofNat _ m, by omega, (if_neg hlarge).trans (if_pos hnormal)⟩
    · exact ⟨0, BitVec.ofNat _ m, by omega, (if_neg hlarge).trans (if_neg hnormal)⟩

/-- A double is a number if it was packed from a number. -/
theorem isNaN_pack {f : UnpackedFloat} (h : f.isNaN = false) :
    (Float.Model.pack f).isNaN = false := by
  show (UnpackedFloat.unpack Format.binary64 (UnpackedFloat.pack Format.binary64 f)).isNaN = false
  refine isNaN_unpack ?_
  cases f with
  | notANumber => cases h
  | infinity s =>
      have hpack : UnpackedFloat.pack Format.binary64 (.infinity s) = packedInfinity _ s := rfl
      simp [hpack, packedInfinity]
  | zero s =>
      have hpack : UnpackedFloat.pack Format.binary64 (.zero s) = packedZero _ s := rfl
      simp [hpack, packedZero]
  | finite s m e hm =>
      rcases pack_finite_cases s m e hm with hpack | ⟨exponent, mantissa, hbound, hpack⟩
      · rw [hpack]
        simp [packedInfinity]
      · rw [hpack, unpackExponent_packComponents]
        intro hexponent
        have hvalue : (BitVec.ofNat 11 exponent).toNat = (-1#11 : BitVec 11).toNat :=
          congrArg BitVec.toNat hexponent
        have hlargest : (-1#11 : BitVec 11).toNat = 2047 := by decide
        rw [BitVec.toNat_ofNat, hlargest] at hvalue
        omega

theorem isNaN_pack_eq (f : UnpackedFloat) : (Float.Model.pack f).isNaN = f.isNaN := by
  cases h : f.isNaN with
  | false => exact isNaN_pack h
  | true =>
      cases f with
      | notANumber => decide
      | infinity | zero | finite => cases h

/-- A double at one of the two ends, which the sign tells. -/
def IsInfinite (s : Sign) (x : Float) : Prop := x.toModel.unpack = .infinity s

theorem not_isInfinite {s : Sign} {x : Float} (hx : x.isFinite = true) : ¬ IsInfinite s x := by
  intro h
  have hfinite : x.toModel.unpack.isFinite = true := hx
  rw [h] at hfinite
  cases hfinite

theorem isNaN_of_isFinite {x : Float} (hx : x.isFinite = true) : x.isNaN = false := by
  have hfinite : x.toModel.unpack.isFinite = true := hx
  show x.toModel.unpack.isNaN = false
  revert hfinite
  cases x.toModel.unpack with
  | notANumber => exact nofun
  | infinity | zero | finite => exact fun _ => rfl

theorem isNaN_add_infinity (s t : Sign) :
    (UnpackedFloat.add Format.binary64 (.infinity s) (.infinity t)).isNaN = true ↔ t = -s := by
  cases s <;> cases t
  · exact iff_of_false nofun nofun
  · exact iff_of_true rfl rfl
  · exact iff_of_true rfl rfl
  · exact iff_of_false nofun nofun

theorem isNaN_iff_of_numbers {f x y : UnpackedFloat} (hf : f.isNaN = false) (hx : x.isNaN = false)
    (hy : y.isNaN = false) (hends : ∀ s, x = .infinity s → y ≠ .infinity (-s)) :
    f.isNaN = true ↔ x.isNaN = true ∨ y.isNaN = true ∨ ∃ s, x = .infinity s ∧ y = .infinity (-s) := by
  rw [hf, hx, hy]
  constructor
  · intro h
    cases h
  · rintro (h | h | ⟨s, hxs, hys⟩)
    · exact h
    · exact h
    · exact absurd hys (hends s hxs)

theorem isNaN_add_unpacked (x y : UnpackedFloat) :
    (UnpackedFloat.add Format.binary64 x y).isNaN = true ↔
      x.isNaN = true ∨ y.isNaN = true ∨ ∃ s, x = .infinity s ∧ y = .infinity (-s) := by
  have hnever {u v : UnpackedFloat} (h : ∀ s, u ≠ .infinity s) :
      ∀ s, u = .infinity s → v ≠ .infinity (-s) :=
    fun s hu => absurd hu (h s)
  cases x with
  | notANumber => exact iff_of_true rfl (Or.inl rfl)
  | infinity s =>
      cases y with
      | notANumber => exact iff_of_true rfl (Or.inr (Or.inl rfl))
      | infinity t =>
          rw [isNaN_add_infinity]
          constructor
          · rintro rfl
            exact Or.inr (Or.inr ⟨s, rfl, rfl⟩)
          · rintro (h | h | ⟨r, hr, ht⟩)
            · cases h
            · cases h
            · rw [UnpackedFloat.infinity.inj hr, UnpackedFloat.infinity.inj ht]
      | zero | finite => exact isNaN_iff_of_numbers rfl rfl rfl fun r _ h => by cases h
  | zero s =>
      have hzero : ∀ r, UnpackedFloat.zero s ≠ .infinity r := fun r h => by cases h
      cases y with
      | notANumber => exact iff_of_true rfl (Or.inr (Or.inl rfl))
      | zero t =>
          have hnumber : (UnpackedFloat.add Format.binary64 (.zero s) (.zero t)).isNaN = false := by
            cases s <;> cases t <;> rfl
          exact isNaN_iff_of_numbers hnumber rfl rfl (hnever hzero)
      | infinity | finite => exact isNaN_iff_of_numbers rfl rfl rfl (hnever hzero)
  | finite s m e hm =>
      have hfinite : ∀ r, UnpackedFloat.finite s m e hm ≠ .infinity r := fun r h => by cases h
      cases y with
      | notANumber => exact iff_of_true rfl (Or.inr (Or.inl rfl))
      | finite t n f hn =>
          have hnumber : (UnpackedFloat.add Format.binary64 (.finite s m e hm)
              (.finite t n f hn)).isNaN = false := isNaN_normalize _ _
          exact isNaN_iff_of_numbers hnumber rfl rfl (hnever hfinite)
      | infinity | zero => exact isNaN_iff_of_numbers rfl rfl rfl (hnever hfinite)

/-- A difference is a sum with the other sign. -/
theorem sub_eq_add_neg_unpacked (x y : UnpackedFloat) :
    UnpackedFloat.sub Format.binary64 x y = UnpackedFloat.add Format.binary64 x y.neg := by
  cases x with
  | notANumber => rfl
  | infinity | zero => cases y <;> rfl
  | finite s m e hm =>
      cases y with
      | notANumber | infinity | zero => rfl
      | finite t n f hn =>
          have happly (k : Int) : (-t).apply k = -t.apply k := by
            cases t with
            | negative => exact (Int.neg_neg k).symm
            | positive => rfl
          have hmantissa (a b : Int) : s.apply a - t.apply b = s.apply a + (-t).apply b := by
            rw [happly, Int.sub_eq_add_neg]
          exact congrArg (normalize Format.binary64 · (min e f) .positive) (hmantissa _ _)

theorem isNaN_neg_unpacked (x : UnpackedFloat) : x.neg.isNaN = x.isNaN := by
  cases x <;> rfl

theorem neg_eq_infinity {x : UnpackedFloat} {s : Sign} : x.neg = .infinity (-s) ↔ x = .infinity s := by
  cases x with
  | infinity t =>
      have hneg (r : Sign) : - -r = r := by cases r <;> rfl
      constructor
      · intro h
        rw [← hneg t, UnpackedFloat.infinity.inj h, hneg]
      · intro h
        rw [UnpackedFloat.infinity.inj h]
        rfl
  | notANumber | zero | finite => exact iff_of_false (fun h => by cases h) (fun h => by cases h)

/-- A sum of numbers is none exactly if they lie at the two ends. -/
theorem isNaN_add_iff (x y : Float) :
    (x + y).isNaN = true ↔
      x.isNaN = true ∨ y.isNaN = true ∨ ∃ s, IsInfinite s x ∧ IsInfinite (-s) y := by
  have hpack := isNaN_pack_eq (UnpackedFloat.add Format.binary64 x.toModel.unpack y.toModel.unpack)
  show (Float.Model.pack _).isNaN = true ↔ _
  rw [hpack]
  exact isNaN_add_unpacked _ _

/-- A difference of numbers is none exactly if they lie at the same end. -/
theorem isNaN_sub_iff (x y : Float) :
    (x - y).isNaN = true ↔
      x.isNaN = true ∨ y.isNaN = true ∨ ∃ s, IsInfinite s x ∧ IsInfinite s y := by
  have hpack := isNaN_pack_eq (UnpackedFloat.sub Format.binary64 x.toModel.unpack y.toModel.unpack)
  show (Float.Model.pack _).isNaN = true ↔ _
  rw [hpack, sub_eq_add_neg_unpacked, isNaN_add_unpacked, isNaN_neg_unpacked]
  simp only [neg_eq_infinity]
  rfl

theorem isNaN_of_compare {x y : UnpackedFloat} (h : (x.compare y).isSome = true) :
    x.isNaN = false ∧ y.isNaN = false := by
  cases x with
  | notANumber => cases h
  | infinity s =>
      cases y with
      | notANumber => cases s <;> cases h
      | infinity | zero | finite => exact ⟨rfl, rfl⟩
  | zero | finite =>
      cases y with
      | notANumber => cases h
      | infinity | zero | finite => exact ⟨rfl, rfl⟩

theorem compare_of_le {x y : Float} (h : x ≤ y) :
    ∃ o, x.toModel.unpack.compare y.toModel.unpack = some o ∧ o.isLE = true := by
  have hle : x.toModel.unpack.le y.toModel.unpack = true := of_decide_eq_true h
  exact (Option.any_eq_true _ _).mp hle

theorem isNaN_of_le {x y : Float} (h : x ≤ y) : x.isNaN = false ∧ y.isNaN = false := by
  obtain ⟨o, hcompare, _⟩ := compare_of_le h
  exact isNaN_of_compare (by rw [hcompare]; rfl)

theorem isNaN_of_lt {x y : Float} (h : x < y) : x.isNaN = false ∧ y.isNaN = false := by
  have hlt : x.toModel.unpack.lt y.toModel.unpack = true := of_decide_eq_true h
  have hcompare : x.toModel.unpack.compare y.toModel.unpack = some .lt := eq_of_beq hlt
  exact isNaN_of_compare (by rw [hcompare]; rfl)

theorem unpack_infinity : infinity.toModel.unpack = .infinity .positive := rfl

theorem beq_infinity_iff {x : Float} : (x == infinity) = true ↔ IsInfinite .positive x := by
  have hbeq : (x == infinity) = (x.toModel.unpack.compare (.infinity .positive) == some .eq) := by
    rw [← unpack_infinity]
    rfl
  rw [hbeq, IsInfinite]
  cases x.toModel.unpack with
  | infinity s =>
      cases s with
      | positive => exact iff_of_true rfl rfl
      | negative => exact iff_of_false nofun nofun
  | notANumber | zero | finite => exact iff_of_false nofun nofun

/-- Above infinity there is nothing else. -/
theorem beq_infinity_of_le {x y : Float} (hx : (x == infinity) = true) (h : x ≤ y) :
    (y == infinity) = true := by
  obtain ⟨o, hcompare, hle⟩ := compare_of_le h
  rw [beq_infinity_iff.mp hx] at hcompare
  rw [beq_infinity_iff, IsInfinite]
  revert hcompare
  cases y.toModel.unpack with
  | infinity s =>
      cases s with
      | negative =>
          intro hcompare
          obtain rfl := Option.some.inj hcompare
          cases hle
      | positive => exact fun _ => rfl
  | notANumber => exact fun hcompare => nomatch hcompare
  | zero | finite =>
      intro hcompare
      obtain rfl := Option.some.inj hcompare
      cases hle

theorem IsInfinite.add {s : Sign} {x y : Float} (hx : IsInfinite s x) (hy : IsInfinite s y) :
    IsInfinite s (x + y) := by
  show (Float.Model.pack (UnpackedFloat.add _ x.toModel.unpack y.toModel.unpack)).unpack = _
  rw [hx, hy]
  cases s <;> rfl

/-- What is above zero and infinite lies at the upper end. -/
theorem IsInfinite.positive_of_lt {s : Sign} {x : Float} (hx : IsInfinite s x) (h : 0 < x) :
    s = .positive := by
  cases s with
  | positive => rfl
  | negative =>
      have hlt : (0 : Float).toModel.unpack.lt x.toModel.unpack = true := of_decide_eq_true h
      rw [hx] at hlt
      cases hlt

theorem isNaN_neg (x : Float) : (-x).isNaN = x.isNaN :=
  (isNaN_pack_eq x.toModel.unpack.neg).trans (isNaN_neg_unpacked _)

/-- The bits of infinity are the largest ones that are used. -/
theorem nearestBits_le (num den : Nat) : nearestBits num den ≤ 2047 * fractionBound := by
  unfold nearestBits
  split
  · exact Nat.zero_le _
  · exact Nat.min_le_right _ _

theorem isNaN_nearest (num den : Nat) : (nearest num den).isNaN = false := by
  have hle := nearestBits_le num den
  unfold nearest fractionBound at *
  generalize nearestBits num den = n at hle
  have hbits : n.toUInt64.toBitVec.toNat = n := by
    have hsize : n < 2 ^ 64 := by omega
    exact Nat.mod_eq_of_lt hsize
  refine (isNaN_pack_eq _).trans (isNaN_unpack ?_)
  intro hexponent
  have hlargest : n / 2 ^ 52 % 2 ^ 11 = 2047 := by
    have hvalue := congrArg BitVec.toNat hexponent
    have hshift : n.toUInt64.toBitVec.toNat >>> 52 % 2 ^ 11 = 2047 := hvalue
    rwa [hbits, Nat.shiftRight_eq_div_pow] at hshift
  apply BitVec.eq_of_toNat_eq
  show n.toUInt64.toBitVec.toNat >>> 0 % 2 ^ 52 = 0
  rw [hbits, Nat.shiftRight_zero]
  omega

theorem Numeral.isNaN_toFloat (n : Numeral) : n.toFloat.isNaN = false := by
  have hmagnitude : (magnitude n.mantissa n.scale).isNaN = false := by
    unfold magnitude
    split
    · decide
    · dsimp only
      split
      · decide
      · split
        · decide
        · exact isNaN_nearest _ _
  unfold toFloat
  dsimp only
  split
  · rw [isNaN_neg, hmagnitude]
  · exact hmagnitude

end TurretPunch.Decimal
