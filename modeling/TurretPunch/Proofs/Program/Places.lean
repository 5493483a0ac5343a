import TurretPunch.Proofs.Program.Coordinate

namespace TurretPunch.Program

/-!
# Numbers with any number of places

A number with a place after the point is tidy, and it is worth the nearest multiple of a unit of its
last place. A number without places has no point at which the zeros at its end would stop: the whole
number loses its own zeros.
-/

open Text (IsFigures)
open Decimal (BinaryFraction Reading IsNearest)

variable {x : Float} {b : BinaryFraction} {cs : List Char} {places n : ℕ}

/-- A text is a tidy numeral of a value. -/
def Denotes (text : String) (q : ℚ) : Prop :=
  ∃ negative whole fraction, text.toList = pointText negative whole fraction ∧
    IsTidy negative whole fraction ∧ (pointNumeral negative whole fraction).value = q

theorem not_denotes_of_not_mem {text : String} (h : '.' ∉ text.toList) (q : ℚ) :
    ¬Denotes text q := by
  rintro ⟨negative, whole, fraction, htext, _⟩
  rw [htext] at h
  apply h
  simp [pointText]

/-- A text is a whole number, without a point and less all zeros at its end. -/
structure LosesZeros (text : String) (negative : Bool) (n : ℕ) : Prop where
  figures : ∃ shown zeros, text.toList = (if negative then ['-'] else []) ++ shown ∧
    Decimal.digits n = shown ++ List.replicate zeros '0' ∧ (zeros = 0 ↔ ¬10 ∣ n)
  point : '.' ∉ text.toList

theorem tidied_of_not_mem (h : '.' ∉ cs) : tidied cs = Decimal.dropTrailingZeros cs := by
  have hpoint : '.' ∉ Decimal.dropTrailingZeros cs := by
    obtain ⟨zeros, hzeros⟩ := Decimal.exists_append_dropTrailingZeros cs
    rw [hzeros] at h
    exact fun hmem => h (List.mem_append_left _ hmem)
  have hlast : (Decimal.dropTrailingZeros cs).getLast? ≠ some '.' :=
    fun hlast => hpoint (List.mem_of_getLast? hlast)
  have hzero : ¬(Decimal.dropTrailingZeros cs = ['-', '0', '.', '0'] ∨
      Decimal.dropTrailingZeros cs = ['-', '0']) := by
    rintro (heq | heq)
    · apply hpoint
      rw [heq]
      decide
    · apply Decimal.getLast?_dropTrailingZeros cs
      rw [heq]
      rfl
  unfold tidied
  dsimp only
  rw [if_neg hlast, if_neg hzero]

theorem point_not_mem_digits (n : ℕ) : '.' ∉ Decimal.digits n := by
  intro h
  cases Decimal.isFigures_digits n '.' h

/-- The last figure of a whole number is a zero if ten divides it. -/
theorem zeros_eq_zero_iff {shown : List Char} {zeros : ℕ} (hshown : shown.getLast? ≠ some '0')
    (h : Decimal.digits n = shown ++ List.replicate zeros '0') : zeros = 0 ↔ ¬10 ∣ n := by
  have hvalue : n = Nat.ofDigitChars 10 (Decimal.digits n) 0 :=
    Nat.ofDigitChars_ten_toDigits.symm
  constructor
  · rintro rfl
    rw [List.replicate_zero, List.append_nil] at h
    have hne : shown ≠ [] := h ▸ Decimal.digits_ne_nil n
    have hfigure := Decimal.isFigures_digits n (shown.getLast hne) (h ▸ List.getLast_mem hne)
    have hlast : shown.getLast hne ≠ '0' := by
      rintro heq
      exact hshown (List.getLast?_eq_some_getLast hne ▸ congrArg some heq)
    have hrange := Text.toNat_of_isDigit hfigure
    have hcode : (shown.getLast hne).toNat ≠ 48 := fun hcode =>
      hlast (Char.toNat_inj.mp (hcode : _ = '0'.toNat))
    rw [h, ← List.dropLast_append_getLast hne, Nat.ofDigitChars_append, Nat.ofDigitChars_cons,
      Nat.ofDigitChars_nil] at hvalue
    simp only [show '0'.toNat = 48 from rfl] at hvalue
    omega
  · intro hten
    by_contra hzeros
    apply hten
    obtain ⟨zeros, rfl⟩ := Nat.exists_eq_succ_of_ne_zero hzeros
    rw [hvalue, h, Nat.ofDigitChars_append, Nat.ofDigitChars_replicate_zero]
    exact Dvd.dvd.mul_right (dvd_pow_self 10 (Nat.succ_ne_zero zeros)) _

theorem losesZeros_number (h : Reading.ofFloat x = .finite b) :
    LosesZeros (number 0 x) b.negative (b.rounded 0) := by
  have hfixed : (Decimal.fixed 0 x).toList =
      (if b.negative then ['-'] else []) ++ Decimal.digits (b.rounded 0) := by
    rw [Decimal.fixed, h]
    dsimp only [Decimal.signed, Decimal.pointed]
    rw [String.toList_ofList, if_pos rfl, List.append_nil, Nat.pow_eq, Nat.pow_zero, Nat.div_one]
    cases b.negative <;> rfl
  have hpoint : '.' ∉ (Decimal.fixed 0 x).toList := by
    rw [hfixed]
    cases b.negative <;> simpa using point_not_mem_digits (b.rounded 0)
  have htext : (number 0 x).toList = (if b.negative then ['-'] else []) ++
      Decimal.dropTrailingZeros (Decimal.digits (b.rounded 0)) := by
    rw [number, String.toList_ofList, tidied_of_not_mem hpoint, hfixed]
    cases b.negative with
    | false => rfl
    | true => exact Decimal.dropTrailingZeros_append_cons (by decide) [] _
  obtain ⟨zeros, hzeros⟩ := Decimal.exists_append_dropTrailingZeros (Decimal.digits (b.rounded 0))
  refine ⟨⟨_, zeros, htext, hzeros,
    zeros_eq_zero_iff (Decimal.getLast?_dropTrailingZeros _) hzeros⟩, ?_⟩
  rw [number, String.toList_ofList, tidied_of_not_mem hpoint]
  obtain ⟨zeros, hzeros⟩ := Decimal.exists_append_dropTrailingZeros (Decimal.fixed 0 x).toList
  rw [hzeros] at hpoint
  exact fun hmem => hpoint (List.mem_append_left _ hmem)

/-- A finite number with a number of places after the point, or without places. -/
theorem number_rounds {x : Float} (hx : x.isFinite = true) :
    ∃ b, Reading.ofFloat x = .finite b ∧ ∀ places : ℤ,
      (0 ≤ places ∧ places ≤ maxPlaces → ∃ text, numberWith places x = .ok text ∧
        (0 < places → ∃ k : ℤ, IsNearest (b.value * 10 ^ places.toNat) k ∧
          Denotes text (k / 10 ^ places.toNat)) ∧
        (places = 0 → ∃ n : ℕ, IsNearest b.value ((if b.negative then -1 else 1) * (n : ℤ)) ∧
          LosesZeros text b.negative n)) ∧
      (¬(0 ≤ places ∧ places ≤ maxPlaces) → numberWith places x = .error .badPlaces) := by
  obtain ⟨b, hb⟩ := Decimal.exists_reading_of_isFinite hx
  refine ⟨b, hb, fun places => ⟨?_, fun hplaces => if_neg hplaces⟩⟩
  intro hplaces
  refine ⟨_, if_pos hplaces, ?_, ?_⟩
  · intro hpos
    have hsome : places.toNat ≠ 0 := by omega
    obtain ⟨negative, whole, fraction, k, htext, htidy, hvalue, hnearest⟩ := exists_tidy hb hsome
    exact ⟨k, hnearest, negative, whole, fraction, htext, htidy, hvalue⟩
  · rintro rfl
    have hnearest := b.isNearest_rounded 0
    rw [pow_zero, mul_one] at hnearest
    exact ⟨b.rounded 0, hnearest, losesZeros_number hb⟩

/-- A half goes to the even neighbour. -/
theorem number_rounds_even : (1.0625 : Float).isFinite = true ∧
    ∃ b, Reading.ofFloat 1.0625 = .finite b ∧ ∃ k : ℤ, IsNearest (b.value * 10 ^ 3) k ∧
      numberWith 3 1.0625 = .ok "1.062" ∧ Denotes "1.062" (k / 10 ^ 3) := by
  have hfinite : (1.0625 : Float).isFinite = true := by decide +kernel
  have hwritten : number 3 1.0625 = "1.062" := by decide +kernel
  obtain ⟨b, hb, hnumber⟩ := number_rounds hfinite
  obtain ⟨text, htext, hsome, _⟩ := (hnumber 3).1 (by decide)
  obtain ⟨k, hnearest, hdenotes⟩ := hsome (by decide)
  obtain rfl : "1.062" = text := by
    rw [← hwritten]
    exact Except.ok.inj htext
  exact ⟨hfinite, b, hb, k, hnearest, htext, hdenotes⟩

/-- Ten without places is written as one. -/
theorem number_loses_zeros :
    (10.0 : Float).isFinite = true ∧ numberWith 0 10.0 = .ok "1" ∧ ∀ q, ¬Denotes "1" q := by
  have hwritten : number 0 10.0 = "1" := by decide +kernel
  refine ⟨by decide +kernel, congrArg Except.ok hwritten, not_denotes_of_not_mem ?_⟩
  decide

end TurretPunch.Program
