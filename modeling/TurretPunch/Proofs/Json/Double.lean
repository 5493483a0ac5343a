import TurretPunch.Proofs.Json.Number

namespace TurretPunch.Json

/-!
# Doubles that are read again

A double is written with digits that lie in its reading interval, with a plain point or with an exponent
mark. However it is written, it is read as the same double.
-/

open Text (IsFigures)
open Decimal (Numeral)

variable {cs ds whole fraction rest : List Char} {negative : Bool} {ws : List Nat} {e : ℤ}

theorem finishNumber_exponent (hrest : EndsValue rest) :
    finishNumber negative ws (Decimal.exponentText e ++ rest) =
      .ok (.float (Numeral.toFloat ⟨negative, ws, [], e⟩), rest) := by
  have hpoint : spanFraction (Decimal.exponentText e ++ rest) =
      ([], Decimal.exponentText e ++ rest) := by
    apply spanFraction_of_ne
    rintro c ⟨⟩
    decide
  unfold finishNumber
  rw [hpoint]
  dsimp only
  rw [spanExponent?_exponentText e hrest.isDigit_head?]

theorem finishNumber_fraction (hfraction : IsFigures fraction) (hne : fraction ≠ [])
    (hrest : EndsValue rest) :
    finishNumber negative ws ('.' :: (fraction ++ rest)) =
      .ok (.float (Numeral.toFloat ⟨negative, ws, worths fraction, 0⟩), rest) := by
  unfold finishNumber
  rw [spanFraction_point hfraction hne hrest.isDigit_head?]
  dsimp only
  rw [hrest.no_exponent]
  cases fraction with
  | nil => exact absurd rfl hne
  | cons c cs => rfl

theorem finishNumber_both (hfraction : IsFigures fraction) (hne : fraction ≠ [])
    (hrest : EndsValue rest) :
    finishNumber negative ws ('.' :: (fraction ++ (Decimal.exponentText e ++ rest))) =
      .ok (.float (Numeral.toFloat ⟨negative, ws, worths fraction, e⟩), rest) := by
  have hmark : ∀ c ∈ (Decimal.exponentText e ++ rest).head?, c.isDigit = false := by
    rintro c ⟨⟩
    rfl
  unfold finishNumber
  rw [spanFraction_point hfraction hne hmark]
  dsimp only
  rw [spanExponent?_exponentText e hrest.isDigit_head?]
  cases fraction with
  | nil => exact absurd rfl hne
  | cons c cs => rfl

/-- What a numeral is worth without its sign. -/
theorem mantissa_mul_scale (negative : Bool) (whole fraction : List Char) (e : ℤ) :
    let n : Numeral := ⟨negative, worths whole, worths fraction, e⟩
    (n.mantissa * 10 ^ n.scale : ℚ) =
      Nat.ofDigitChars 10 (whole ++ fraction) 0 * 10 ^ (e - fraction.length) := by
  intro n
  have hmantissa : n.mantissa = Nat.ofDigitChars 10 (whole ++ fraction) 0 := by
    rw [← digitsValue_worths, worths_append]
    rfl
  have hscale : n.scale = e - fraction.length := by
    rw [← length_worths fraction]
    rfl
  rw [hmantissa, hscale]

/-- A text is read as the numeral with a sign and a value. -/
def ReadsAs (text : List Char) (negative : Bool) (value : ℚ) : Prop :=
  ∀ rest, EndsValue rest → ∃ n : Numeral, n.negative = negative ∧
    (n.mantissa * 10 ^ n.scale : ℚ) = value ∧
    readScalar (signText negative ++ (text ++ rest)) = .ok (.float n.toFloat, rest)

/-- A numeral that is finished behind a whole part is read as its value. -/
theorem readsAs_of_finish {text after : List Char} {value : ℚ} (fraction : List Char) (e : ℤ)
    (htext : text = whole ++ after)
    (hwhole : IsWhole whole) (hafter : ∀ rest, ∀ c ∈ (after ++ rest).head?, c.isDigit = false)
    (hfinish : ∀ rest, EndsValue rest → finishNumber negative (worths whole) (after ++ rest) =
      .ok (.float (Numeral.toFloat ⟨negative, worths whole, worths fraction, e⟩), rest))
    (hvalue : Nat.ofDigitChars 10 (whole ++ fraction) 0 * 10 ^ (e - fraction.length) = value) :
    ReadsAs text negative value := by
  intro rest hrest
  refine ⟨⟨negative, worths whole, worths fraction, e⟩, rfl, ?_, ?_⟩
  · rw [mantissa_mul_scale, hvalue]
  · rw [htext, List.append_assoc, readScalar_of_whole negative hwhole (hafter rest), hfinish rest hrest]

theorem isWhole_singleton {c : Char} (hc : c.isDigit = true) : IsWhole [c] := by
  refine ⟨by simpa [IsFigures] using hc, List.cons_ne_nil _ _, ?_⟩
  by_cases hzero : c = '0'
  · exact .inl (by rw [hzero])
  · exact .inr (by simpa using hzero)

theorem readsAs_exponent (hds : IsFigures ds) (hne : ds ≠ []) (negative : Bool) (e : ℤ) :
    ReadsAs (ds.take 1 ++ (if ds.length ≤ 1 then [] else '.' :: ds.drop 1) ++ Decimal.exponentText e)
      negative (Nat.ofDigitChars 10 ds 0 * 10 ^ (e + 1 - ds.length)) := by
  cases ds with
  | nil => exact absurd rfl hne
  | cons c cs =>
      have hwhole : IsWhole [c] := isWhole_singleton (hds c List.mem_cons_self)
      have hcs : IsFigures cs := fun d hd => hds d (List.mem_cons_of_mem c hd)
      cases cs with
      | nil =>
          have htext : [c] ++ [] ++ Decimal.exponentText e = [c] ++ Decimal.exponentText e := rfl
          refine readsAs_of_finish [] e htext hwhole ?_ (fun _ => finishNumber_exponent) ?_
          · rintro rest d ⟨⟩
            rfl
          · simp
      | cons d cs =>
          have htext : [c] ++ '.' :: d :: cs ++ Decimal.exponentText e =
              [c] ++ ('.' :: (d :: cs ++ Decimal.exponentText e)) := rfl
          refine readsAs_of_finish (d :: cs) e htext hwhole ?_ (fun rest hrest => ?_) ?_
          · rintro rest d ⟨⟩
            rfl
          · rw [List.cons_append, List.append_assoc]
            exact finishNumber_both hcs (List.cons_ne_nil d cs) hrest
          · congr 2
            simp

theorem isFigures_zeros (k : Nat) : IsFigures (List.replicate k '0') := by
  intro c hc
  rw [List.eq_of_mem_replicate hc]
  rfl

theorem readsAs_zero (negative : Bool) : ReadsAs ['0', '.', '0'] negative 0 := by
  refine readsAs_of_finish ['0'] 0 rfl (isWhole_singleton rfl) ?_ (fun rest hrest => ?_) ?_
  · rintro rest c ⟨⟩
    rfl
  · exact finishNumber_fraction (isFigures_zeros 1) (List.cons_ne_nil _ _) hrest
  · have hzero : Nat.ofDigitChars 10 (['0'] ++ ['0']) 0 = 0 := rfl
    rw [hzero, Nat.cast_zero, zero_mul]

theorem readsAs_point (hds : IsFigures ds) (hne : ds ≠ []) (negative : Bool) {e : ℤ} (he : e < 0) :
    ReadsAs ('0' :: '.' :: (List.replicate (-e - 1).toNat '0' ++ ds)) negative
      (Nat.ofDigitChars 10 ds 0 * 10 ^ (e + 1 - ds.length)) := by
  have hfraction : IsFigures (List.replicate (-e - 1).toNat '0' ++ ds) :=
    (isFigures_zeros _).append hds
  refine readsAs_of_finish (List.replicate (-e - 1).toNat '0' ++ ds) 0 rfl (isWhole_singleton rfl) ?_
    (fun rest hrest => ?_) ?_
  · rintro rest c ⟨⟩
    rfl
  · exact finishNumber_fraction hfraction (List.append_ne_nil_of_right_ne_nil _ hne) hrest
  · have hscale : (0 : ℤ) - (List.replicate (-e - 1).toNat '0' ++ ds).length = e + 1 - ds.length := by
      rw [List.length_append, List.length_replicate]
      omega
    rw [hscale, ← List.append_assoc, Nat.ofDigitChars_append, Nat.ofDigitChars_append,
      Nat.ofDigitChars_replicate_zero]
    rfl

theorem isWhole_append {more : List Char} (hds : IsFigures ds) (hne : ds ≠ []) (hhead : ds.head? ≠ some '0')
    (hmore : IsFigures more) : IsWhole (ds ++ more) := by
  refine ⟨hds.append hmore, List.append_ne_nil_of_left_ne_nil hne _, .inr ?_⟩
  rwa [List.head?_append_of_ne_nil _ hne]

theorem readsAs_whole (hds : IsFigures ds) (hne : ds ≠ []) (hhead : ds.head? ≠ some '0') (negative : Bool)
    {e : ℤ} (he : 0 ≤ e) (hlong : ds.length ≤ e.toNat + 1) :
    ReadsAs (ds ++ List.replicate (e.toNat + 1 - ds.length) '0' ++ ['.', '0']) negative
      (Nat.ofDigitChars 10 ds 0 * 10 ^ (e + 1 - ds.length)) := by
  refine readsAs_of_finish ['0'] 0 rfl (isWhole_append hds hne hhead (isFigures_zeros _)) ?_
    (fun rest hrest => ?_) ?_
  · rintro rest c ⟨⟩
    rfl
  · exact finishNumber_fraction (isFigures_zeros 1) (List.cons_ne_nil _ _) hrest
  · have hvalue : Nat.ofDigitChars 10 (ds ++ List.replicate (e.toNat + 1 - ds.length) '0' ++ ['0']) 0 =
        Nat.ofDigitChars 10 ds 0 * 10 ^ (e.toNat + 1 - ds.length + 1) := by
      have hzero : ['0'] = List.replicate 1 '0' := rfl
      rw [List.append_assoc, hzero, List.replicate_append_replicate, Nat.ofDigitChars_append,
        Nat.ofDigitChars_replicate_zero, Nat.mul_comm]
    have hscale : e + 1 - ds.length = (e.toNat + 1 - ds.length + 1 : Nat) + (0 - 1 : ℤ) := by omega
    rw [hvalue, hscale, zpow_add₀ (by norm_num), zpow_natCast, Nat.cast_mul, Nat.cast_pow, mul_assoc]
    rfl

theorem readsAs_split (hds : IsFigures ds) (hne : ds ≠ []) (hhead : ds.head? ≠ some '0') (negative : Bool)
    {e : ℤ} (he : 0 ≤ e) (hlong : e.toNat + 1 < ds.length) :
    ReadsAs (ds.take (e.toNat + 1) ++ '.' :: ds.drop (e.toNat + 1)) negative
      (Nat.ofDigitChars 10 ds 0 * 10 ^ (e + 1 - ds.length)) := by
  have hwhole : IsWhole (ds.take (e.toNat + 1)) := by
    refine ⟨fun c hc => hds c (List.mem_of_mem_take hc), ?_, .inr ?_⟩
    · rw [Ne, List.take_eq_nil_iff, not_or]
      exact ⟨Nat.succ_ne_zero _, hne⟩
    · rwa [List.head?_take, if_neg (Nat.succ_ne_zero _)]
  refine readsAs_of_finish (ds.drop (e.toNat + 1)) 0 rfl hwhole ?_ (fun rest hrest => ?_) ?_
  · rintro rest c ⟨⟩
    rfl
  · refine finishNumber_fraction (fun c hc => hds c (List.mem_of_mem_drop hc)) ?_ hrest
    rw [Ne, List.drop_eq_nil_iff, not_le]
    exact hlong
  · rw [List.take_append_drop, List.length_drop]
    congr 2
    omega

/-- However a decimal is laid out, it is read as its value. -/
theorem readsAs_write (hds : IsFigures ds) (hne : ds ≠ []) (hhead : ds.head? ≠ some '0')
    (negative : Bool) (e : ℤ) :
    ReadsAs (Decimal.shortestLayout.write ds e) negative
      (Nat.ofDigitChars 10 ds 0 * 10 ^ (e + 1 - ds.length)) := by
  unfold Decimal.Layout.write
  split
  · exact readsAs_exponent hds hne negative e
  · split
    · next he => exact readsAs_point hds hne negative he
    · next he =>
      rw [not_lt] at he
      dsimp only
      split
      · next hempty =>
        have hlong : ds.length ≤ e.toNat + 1 := List.drop_eq_nil_iff.mp (List.isEmpty_iff.mp hempty)
        rw [List.take_of_length_le hlong]
        exact readsAs_whole hds hne hhead negative he hlong
      · next hempty =>
        rw [List.isEmpty_iff, List.drop_eq_nil_iff, not_le] at hempty
        have hzeros : e.toNat + 1 - ds.length = 0 := by omega
        rw [hzeros, List.replicate_zero, List.append_nil]
        exact readsAs_split hds hne hhead negative he hempty

theorem signed_eq (negative : Bool) (text : List Char) :
    (Decimal.signed negative text).toList = signText negative ++ text := by
  rw [Decimal.signed, String.toList_ofList]
  cases negative <;> rfl

/-- The digits of a number without the zeros at the end, and what they are worth. -/
theorem exists_shortened {n : Nat} (hn : 0 < n) :
    ∃ k, n = Nat.ofDigitChars 10 (Decimal.dropTrailingZeros (Decimal.digits n)) 0 * 10 ^ k ∧
      Decimal.digitCount n = (Decimal.dropTrailingZeros (Decimal.digits n)).length + k ∧
      IsWhole (Decimal.dropTrailingZeros (Decimal.digits n)) ∧
      (Decimal.dropTrailingZeros (Decimal.digits n)).head? ≠ some '0' := by
  obtain ⟨k, hk⟩ := Decimal.exists_append_dropTrailingZeros (Decimal.digits n)
  generalize Decimal.dropTrailingZeros (Decimal.digits n) = ds at hk
  have hhead := head?_digits hn
  have hne : ds ≠ [] := by
    rintro rfl
    rw [List.nil_append] at hk
    cases k with
    | zero => exact Decimal.digits_ne_nil n hk
    | succ k =>
        rw [hk] at hhead
        exact hhead rfl
  have hfigures := Decimal.isFigures_digits n
  rw [hk] at hhead hfigures
  rw [List.head?_append_of_ne_nil _ hne] at hhead
  refine ⟨k, ?_, ?_, ⟨fun c hc => hfigures c (List.mem_append_left _ hc), hne, .inr hhead⟩, hhead⟩
  · calc n = Nat.ofDigitChars 10 (Decimal.digits n) 0 := Nat.ofDigitChars_ten_toDigits.symm
      _ = Nat.ofDigitChars 10 ds 0 * 10 ^ k := by
          rw [hk, Nat.ofDigitChars_append, Nat.ofDigitChars_replicate_zero, Nat.mul_comm]
  · rw [Decimal.digitCount, hk, List.length_append, List.length_replicate]

theorem readScalar_shortest {x : Float} {f : Decimal.BinaryFraction}
    (hx : Decimal.Reading.ofFloat x = .finite f) (hrest : EndsValue rest) :
    readScalar ((Decimal.shortest x).toList ++ rest) = .ok (.float x, rest) := by
  unfold Decimal.shortest
  rw [hx]
  dsimp only
  split
  · next hzero =>
    obtain ⟨n, hsign, hvalue, hread⟩ := readsAs_zero f.negative rest hrest
    have hmantissa : n.mantissa = 0 := by
      rcases mul_eq_zero.mp hvalue with hcast | hpower
      · exact_mod_cast hcast
      · exact absurd hpower (zpow_ne_zero _ (by norm_num))
    rw [signed_eq, List.append_assoc, hread, Decimal.Numeral.toFloat_of_zero hx hzero hsign hmantissa]
  · next hpos =>
    have hpos' : 0 < f.mantissa := Nat.pos_of_ne_zero hpos
    have hf := Decimal.isDouble_of_reading hx
    obtain ⟨n, first, hdigits, hcontains⟩ := Decimal.shortestDigits_spec hf hpos'
    obtain ⟨k, hvalue, hcount, hwhole, hhead⟩ :=
      exists_shortened (Decimal.pos_of_contains hf hpos' hcontains)
    rw [hdigits]
    dsimp only
    generalize Decimal.dropTrailingZeros (Decimal.digits n) = ds at *
    obtain ⟨numeral, hsign, hnumeral, hread⟩ :=
      readsAs_write hwhole.figures hwhole.ne_nil hhead f.negative first rest hrest
    rw [signed_eq, List.append_assoc, hread,
      Decimal.Numeral.toFloat_of_contains hx hpos' hsign]
    have hsame : (Nat.ofDigitChars 10 ds 0 * 10 ^ (first + 1 - ds.length) : ℚ) =
        n * 10 ^ (first + 1 - Decimal.digitCount n) := by
      have hscale : first + 1 - (ds.length : ℤ) = k + (first + 1 - Decimal.digitCount n) := by
        rw [hcount]
        push_cast
        ring
      rw [hscale, zpow_add₀ (by norm_num), zpow_natCast, ← mul_assoc]
      congr 1
      exact_mod_cast hvalue.symm
    rw [hnumeral, hsame]
    exact hcontains

/-- Every double that is a number is read as it was written. -/
theorem readScalar_floatText {x : Float} (hx : x.isNaN = false) (hrest : EndsValue rest) :
    readScalar ((floatText x).toList ++ rest) = .ok (.float x, rest) := by
  unfold floatText
  cases hreading : Decimal.Reading.ofFloat x with
  | nan => cases hx.symm.trans (Decimal.isNaN_of_reading hreading)
  | infinite negative =>
      obtain rfl := Decimal.eq_of_reading_infinite hreading
      cases negative <;> rfl
  | finite f => exact readScalar_shortest hreading hrest

end TurretPunch.Json
