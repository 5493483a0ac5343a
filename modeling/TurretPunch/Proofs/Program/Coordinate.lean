import TurretPunch.Program.Instruction
import TurretPunch.Program.Word
import TurretPunch.Proofs.Decimal.Figure
import TurretPunch.Proofs.Decimal.Rounding

namespace TurretPunch.Program

/-!
# Coordinates as they are written

A coordinate is written as figures with a point among them, and with a sign if it is negative. Read
again, it is the nearest multiple of a thousandth.
-/

open Text (IsFigures)

/-- Figures with a point among them. -/
def pointText (negative : Bool) (whole fraction : List Char) : List Char :=
  (if negative then ['-'] else []) ++ (whole ++ '.' :: fraction)

variable {negative : Bool} {whole fraction rest : List Char}

theorem scanSign_of_isDigit {c : Char} (h : c.isDigit = true) (cs : List Char) :
    scanSign (c :: cs) = (false, c :: cs) := by
  unfold scanSign
  split
  · next heq =>
    obtain ⟨rfl, _⟩ := List.cons.inj heq
    cases h
  · next heq =>
    obtain ⟨rfl, _⟩ := List.cons.inj heq
    cases h
  · rfl

theorem scanSign_pointText (hwhole : IsFigures whole) (hne : whole ≠ []) (rest : List Char) :
    scanSign (pointText negative whole fraction ++ rest) =
      (negative, whole ++ '.' :: fraction ++ rest) := by
  cases negative with
  | true => rfl
  | false =>
      cases whole with
      | nil => exact absurd rfl hne
      | cons c whole => exact scanSign_of_isDigit (hwhole c List.mem_cons_self) _

theorem scanMantissa?_point (hwhole : IsFigures whole) (hne : whole ≠ [])
    (hfraction : IsFigures fraction) (hrest : ∀ c ∈ rest.head?, Text.isDigit c = false) :
    scanMantissa? (whole ++ '.' :: fraction ++ rest) = some (whole, fraction, rest) := by
  have hpoint : ∀ c ∈ ('.' :: (fraction ++ rest)).head?, Text.isDigit c = false := by
    intro c hc
    obtain rfl : '.' = c := Option.some.inj hc
    decide
  unfold scanMantissa?
  rw [List.append_assoc, List.cons_append, hwhole.takeWhile hpoint, hwhole.dropWhile hpoint]
  split
  · next tail htail =>
    obtain rfl : fraction ++ rest = tail := (List.cons.inj htail).2
    rw [hfraction.takeWhile hrest, hfraction.dropWhile hrest]
    simp [hne]
  · next _ hnone => exact absurd rfl (hnone _)

/-- After a numeral a line is over, or a blank follows. -/
def EndsWord (rest : List Char) : Prop := rest = [] ∨ ∃ more, rest = ' ' :: more

theorem scanNumeral?_pointText (hwhole : IsFigures whole) (hne : whole ≠ [])
    (hfraction : IsFigures fraction) (hrest : EndsWord rest) :
    scanNumeral? (pointText negative whole fraction ++ rest) =
      some (⟨negative, Text.digitValues whole, Text.digitValues fraction, 0⟩, rest) := by
  have hdigit : ∀ c ∈ rest.head?, Text.isDigit c = false := by
    rcases hrest with rfl | ⟨more, rfl⟩
    · exact nofun
    · intro c hc
      obtain rfl : ' ' = c := Option.some.inj hc
      decide
  have hexponent : scanExponent rest = (0, rest) := by
    rcases hrest with rfl | ⟨more, rfl⟩ <;> rfl
  unfold scanNumeral?
  rw [scanSign_pointText hwhole hne]
  dsimp only
  rw [scanMantissa?_point hwhole hne hfraction hdigit]
  dsimp only
  rw [hexponent]

/-- Of the figures after the point the zeros at the end are left out, but not all figures. -/
def shortened (fraction : List Char) : List Char :=
  if Decimal.dropTrailingZeros fraction = [] then ['0'] else Decimal.dropTrailingZeros fraction

theorem isFigures_dropTrailingZeros (h : IsFigures fraction) :
    IsFigures (Decimal.dropTrailingZeros fraction) := by
  obtain ⟨k, hfraction⟩ := Decimal.exists_append_dropTrailingZeros fraction
  intro c hc
  apply h
  rw [hfraction]
  exact List.mem_append_left _ hc

theorem isFigures_shortened (h : IsFigures fraction) : IsFigures (shortened fraction) := by
  unfold shortened
  split
  · simp [IsFigures]
  · exact isFigures_dropTrailingZeros h

theorem shortened_ne_nil (fraction : List Char) : shortened fraction ≠ [] := by
  unfold shortened
  split
  · simp
  · next hne => exact hne

theorem ofDigitChars_shortened (fraction : List Char) :
    Nat.ofDigitChars 10 (shortened fraction) 0 * 10 ^ fraction.length =
      Nat.ofDigitChars 10 fraction 0 * 10 ^ (shortened fraction).length := by
  obtain ⟨k, hfraction⟩ := Decimal.exists_append_dropTrailingZeros fraction
  generalize hshort : Decimal.dropTrailingZeros fraction = short at hfraction
  have hvalue : Nat.ofDigitChars 10 fraction 0 = 10 ^ k * Nat.ofDigitChars 10 short 0 := by
    rw [hfraction, Nat.ofDigitChars_append, Nat.ofDigitChars_replicate_zero]
  have hlength : fraction.length = short.length + k := by
    rw [hfraction, List.length_append, List.length_replicate]
  unfold shortened
  rw [hshort, hvalue, hlength]
  split
  · next hnil => simp [hnil, Nat.ofDigitChars]
  · rw [Nat.pow_add]
    ring

theorem pointText_eq (negative : Bool) (whole fraction : List Char) :
    pointText negative whole fraction =
      (if negative then ['-'] else []) ++ whole ++ '.' :: fraction := by
  rw [pointText, List.append_assoc]

theorem dropTrailingZeros_pointText (negative : Bool) (whole fraction : List Char) :
    Decimal.dropTrailingZeros (pointText negative whole fraction) =
      pointText negative whole (Decimal.dropTrailingZeros fraction) := by
  rw [pointText_eq, Decimal.dropTrailingZeros_append_cons (by decide), ← pointText_eq]

theorem getLast?_pointText (hfraction : IsFigures fraction) :
    (pointText negative whole fraction).getLast? = some '.' ↔ fraction = [] := by
  rw [pointText_eq, List.getLast?_append]
  cases fraction with
  | nil => simp
  | cons c cs =>
      have hlast := hfraction _ (List.getLast_mem (List.cons_ne_nil c cs))
      have hne : (c :: cs).getLast (List.cons_ne_nil c cs) ≠ '.' := by
        intro hpoint
        rw [hpoint] at hlast
        cases hlast
      simp [List.getLast?_eq_getLast_of_ne_nil, hne]

theorem pointText_inj {negative' : Bool} {whole' fraction' : List Char} (hwhole : IsFigures whole)
    (hne : whole ≠ []) (hfraction : IsFigures fraction) (hwhole' : IsFigures whole')
    (hne' : whole' ≠ []) (hfraction' : IsFigures fraction')
    (h : pointText negative whole fraction = pointText negative' whole' fraction') :
    negative = negative' ∧ whole = whole' ∧ fraction = fraction' := by
  have hsign : scanSign (pointText negative whole fraction ++ []) =
      scanSign (pointText negative' whole' fraction' ++ []) := by
    rw [h]
  rw [scanSign_pointText hwhole hne, scanSign_pointText hwhole' hne'] at hsign
  obtain ⟨hnegative, hrest⟩ := Prod.mk.inj hsign
  have hend : ∀ c ∈ ([] : List Char).head?, Text.isDigit c = false := nofun
  have hmantissa := congrArg scanMantissa? hrest
  rw [scanMantissa?_point hwhole hne hfraction hend,
    scanMantissa?_point hwhole' hne' hfraction' hend] at hmantissa
  obtain ⟨hwhole, hrest⟩ := Prod.mk.inj (Option.some.inj hmantissa)
  exact ⟨hnegative, hwhole, (Prod.mk.inj hrest).1⟩

/-- Zeros are left out at the end, and the sign as well if all figures are zero. -/
theorem tidied_pointText (hwhole : IsFigures whole) (hne : whole ≠ [])
    (hfraction : IsFigures fraction) :
    tidied (pointText negative whole fraction) =
      if negative = true ∧ whole = ['0'] ∧ shortened fraction = ['0'] then ['0', '.', '0']
      else pointText negative whole (shortened fraction) := by
  have hfull : (if (pointText negative whole (Decimal.dropTrailingZeros fraction)).getLast? = some '.'
      then pointText negative whole (Decimal.dropTrailingZeros fraction) ++ ['0']
      else pointText negative whole (Decimal.dropTrailingZeros fraction)) =
        pointText negative whole (shortened fraction) := by
    unfold shortened
    by_cases hnil : Decimal.dropTrailingZeros fraction = []
    · rw [if_pos ((getLast?_pointText (isFigures_dropTrailingZeros hfraction)).mpr hnil),
        if_pos hnil, hnil]
      simp [pointText]
    · rw [if_neg (mt (getLast?_pointText (isFigures_dropTrailingZeros hfraction)).mp hnil),
        if_neg hnil]
  have hshort := isFigures_shortened hfraction
  have hzero : IsFigures ['0'] := by simp [IsFigures]
  have hpoint : pointText negative whole (shortened fraction) ≠ ['-', '0'] := by
    intro h
    have hmem : '.' ∈ pointText negative whole (shortened fraction) := by simp [pointText]
    rw [h] at hmem
    simp at hmem
  have hall : (pointText negative whole (shortened fraction) = ['-', '0', '.', '0'] ∨
      pointText negative whole (shortened fraction) = ['-', '0']) ↔
        negative = true ∧ whole = ['0'] ∧ shortened fraction = ['0'] := by
    rw [or_iff_left hpoint]
    constructor
    · intro h
      have hspelled : pointText negative whole (shortened fraction) = pointText true ['0'] ['0'] := h
      exact pointText_inj hwhole hne hshort hzero (by simp) hzero hspelled
    · rintro ⟨rfl, rfl, hfraction⟩
      rw [hfraction]
      rfl
  unfold tidied
  dsimp only
  rw [dropTrailingZeros_pointText, hfull]
  simp only [hall]

open Decimal (BinaryFraction Numeral Reading IsNearest)

/-- The numeral of figures with a point among them. -/
def pointNumeral (negative : Bool) (whole fraction : List Char) : Numeral :=
  ⟨negative, Text.digitValues whole, Text.digitValues fraction, 0⟩

theorem pointNumeral_mantissa (hwhole : IsFigures whole) (hfraction : IsFigures fraction) :
    (pointNumeral negative whole fraction).mantissa =
      10 ^ fraction.length * Nat.ofDigitChars 10 whole 0 + Nat.ofDigitChars 10 fraction 0 := by
  have hfigures := (hwhole.append hfraction).digitsValue
  rw [Text.digitValues, List.filterMap_append] at hfigures
  rw [Numeral.mantissa]
  exact hfigures.trans
    (Nat.ofDigitChars_append _ |>.trans Nat.ofDigitChars_eq_ofDigitChars_zero)

theorem pointNumeral_scale (hfraction : IsFigures fraction) :
    (pointNumeral negative whole fraction).scale = -(fraction.length : ℤ) := by
  simp [Numeral.scale, pointNumeral, hfraction.digitValues]

theorem pointNumeral_value (hwhole : IsFigures whole) (hfraction : IsFigures fraction) :
    (pointNumeral negative whole fraction).value =
      (if negative then -1 else 1) * (Nat.ofDigitChars 10 whole 0 +
        Nat.ofDigitChars 10 fraction 0 / 10 ^ fraction.length) := by
  rw [Numeral.value, pointNumeral_mantissa hwhole hfraction, pointNumeral_scale hfraction, zpow_neg,
    zpow_natCast]
  push_cast
  field_simp
  exact mul_comm _ _

/-- Figures with a point among them, of which the last is a zero only if it is the first one after the
point, and which have a sign only if they are worth something. -/
structure IsTidy (negative : Bool) (whole fraction : List Char) : Prop where
  figures : IsFigures whole ∧ IsFigures fraction
  nonempty : whole ≠ [] ∧ fraction ≠ []
  ending : fraction.getLast? = some '0' → fraction = ['0']
  sign : negative = true → (pointNumeral negative whole fraction).value ≠ 0

theorem ending_shortened (h : (shortened fraction).getLast? = some '0') :
    shortened fraction = ['0'] := by
  unfold shortened at h ⊢
  split
  · rfl
  · next hne =>
    rw [if_neg hne] at h
    exact absurd h (Decimal.getLast?_dropTrailingZeros fraction)

theorem shortened_zeros (places : ℕ) : shortened (Decimal.lastDigits places 0) = ['0'] := by
  have hzeros : Decimal.dropTrailingZeros (Decimal.lastDigits places 0) = [] := by
    induction places with
    | zero => rfl
    | succ places ih =>
        rw [Decimal.lastDigits_succ, Decimal.dropTrailingZeros, List.reverse_append]
        exact ih
  rw [shortened, if_pos hzeros]

/-- The figures of a whole number of units of the last place, without zeros at the end. -/
theorem figures_value (places n : ℕ) :
    (Nat.ofDigitChars 10 (Decimal.digits (n / 10 ^ places)) 0 : ℚ) +
      Nat.ofDigitChars 10 (shortened (Decimal.lastDigits places n)) 0 /
        10 ^ (shortened (Decimal.lastDigits places n)).length = n / 10 ^ places := by
  have hwhole : Nat.ofDigitChars 10 (Decimal.digits (n / 10 ^ places)) 0 = n / 10 ^ places :=
    Nat.ofDigitChars_ten_toDigits
  have hfraction := ofDigitChars_shortened (Decimal.lastDigits places n)
  rw [Decimal.ofDigitChars_lastDigits, Decimal.length_lastDigits] at hfraction
  have hfraction' : (Nat.ofDigitChars 10 (shortened (Decimal.lastDigits places n)) 0 : ℚ) *
      10 ^ places =
        (n % 10 ^ places : ℕ) * 10 ^ (shortened (Decimal.lastDigits places n)).length := by
    exact_mod_cast hfraction
  have hsplit : (10 : ℚ) ^ places * (n / 10 ^ places : ℕ) + (n % 10 ^ places : ℕ) = n := by
    exact_mod_cast Nat.div_add_mod n (10 ^ places)
  have hpower : (0 : ℚ) < 10 ^ (shortened (Decimal.lastDigits places n)).length := by positivity
  have hplaces : (0 : ℚ) < 10 ^ places := by positivity
  rw [hwhole, ← hsplit]
  field_simp
  linarith

variable {x : Float} {b : BinaryFraction} {places : ℕ}

theorem number_toList (h : Reading.ofFloat x = .finite b) (hplaces : places ≠ 0) :
    (number places x).toList = tidied (pointText b.negative
      (Decimal.digits (b.rounded places / 10 ^ places))
      (Decimal.lastDigits places (b.rounded places))) := by
  rw [number, String.toList_ofList, Decimal.fixed, h]
  dsimp only [Decimal.signed, Decimal.pointed]
  rw [String.toList_ofList, if_neg hplaces]
  cases b.negative <;> rfl

/-- How a finite number is spelled: tidily, by figures that are worth the nearest multiple of a unit of
the last place. -/
theorem exists_tidy (h : Reading.ofFloat x = .finite b) (hplaces : places ≠ 0) :
    ∃ negative whole fraction, ∃ k : ℤ,
      (number places x).toList = pointText negative whole fraction ∧
        IsTidy negative whole fraction ∧
        (pointNumeral negative whole fraction).value = k / 10 ^ places ∧
        IsNearest (b.value * 10 ^ places) k := by
  have htext := number_toList h hplaces
  have hnearest := b.isNearest_rounded places
  have hvalue := figures_value places (b.rounded places)
  generalize b.rounded places = n at *
  have hwhole := Decimal.isFigures_digits (n / 10 ^ places)
  have hfraction := isFigures_shortened (Decimal.isFigures_lastDigits places n)
  have hpower : (10 : ℚ) ^ places ≠ 0 := pow_ne_zero _ (by norm_num)
  rw [tidied_pointText hwhole (Decimal.digits_ne_nil _) (Decimal.isFigures_lastDigits places n)]
    at htext
  split at htext
  · next hzero =>
    obtain ⟨_, hdigits, hshort⟩ := hzero
    have hnone : n = 0 := by
      rw [hdigits, hshort] at hvalue
      have hquotient : (n : ℚ) / 10 ^ places = 0 := by
        rw [← hvalue]
        simp [Nat.ofDigitChars]
      exact_mod_cast (div_eq_zero_iff.mp hquotient).resolve_right hpower
    have hfigures : IsFigures ['0'] := by simp [IsFigures]
    have htidy : IsTidy false ['0'] ['0'] :=
      ⟨⟨hfigures, hfigures⟩, by simp, fun _ => rfl, fun h => Bool.noConfusion h⟩
    refine ⟨false, ['0'], ['0'], 0, htext, htidy, ?_, ?_⟩
    · rw [pointNumeral_value hfigures hfigures]
      simp [Nat.ofDigitChars]
    · simpa [hnone] using hnearest
  · next hsome =>
    have hworth : (pointNumeral b.negative (Decimal.digits (n / 10 ^ places))
        (shortened (Decimal.lastDigits places n))).value =
          (if b.negative then -1 else 1) * (n / 10 ^ places) := by
      rw [pointNumeral_value hwhole hfraction, hvalue]
    refine ⟨_, _, _, _, htext, ⟨⟨hwhole, hfraction⟩,
      ⟨Decimal.digits_ne_nil _, shortened_ne_nil _⟩, ending_shortened, ?_⟩, ?_, hnearest⟩
    · rintro hnegative hnothing
      apply hsome
      have hnone : n = 0 := by
        rw [hworth] at hnothing
        simpa [hnegative, hpower] using hnothing
      rw [hnone, Nat.zero_div]
      exact ⟨hnegative, rfl, shortened_zeros places⟩
    · rw [hworth]
      cases b.negative <;> push_cast <;> ring

/-- How a coordinate is spelled: by figures that are worth the nearest multiple of a thousandth. -/
structure Spelled (x : Float) (b : BinaryFraction) (negative : Bool) (whole fraction : List Char) :
    Prop where
  text : (coordinateText x).toList = pointText negative whole fraction
  figures : IsFigures whole ∧ IsFigures fraction
  nonempty : whole ≠ [] ∧ fraction ≠ []
  value : ∃ k : ℤ, (pointNumeral negative whole fraction).value = k / 1000 ∧
    IsNearest (b.value * 1000) k

theorem exists_spelled (h : Reading.ofFloat x = .finite b) :
    ∃ negative whole fraction, Spelled x b negative whole fraction := by
  obtain ⟨negative, whole, fraction, k, htext, htidy, hvalue, hnearest⟩ :=
    exists_tidy h (by decide : 3 ≠ 0)
  norm_num only at hvalue hnearest
  exact ⟨negative, whole, fraction, htext, htidy.figures, htidy.nonempty, k, hvalue, hnearest⟩

end TurretPunch.Program
