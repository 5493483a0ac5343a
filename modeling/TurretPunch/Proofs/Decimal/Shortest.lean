import TurretPunch.Proofs.Decimal.Nearest

namespace TurretPunch.Decimal

/-!
# Shortest digits

The digits that are found for a double lie in its reading interval. Seventeen of them are always
enough, since the grid of such decimals is finer than the interval is long.
-/

variable {i : ReadingInterval} {f : BinaryFraction} {e : ℤ} {count : Nat} {ds : List Char}

/-- Whether a decimal lies in a reading interval, all of it brought to whole numbers. -/
def ReadingInterval.isInside (i : ReadingInterval) (shift : ℤ) (n : Nat) : Bool :=
  let scale := Nat.pow 10 shift.toNat
  let grid := i.denominator * Nat.pow 10 (-shift).toNat
  if i.closed then i.low * scale ≤ n * grid && n * grid ≤ i.high * scale
  else i.low * scale < n * grid && n * grid < i.high * scale

theorem mul_zpow_eq_div (hden : 0 < i.denominator) (n : Nat) (shift : ℤ) :
    (n : ℚ) * 10 ^ (-shift) = (n * (i.denominator * Nat.pow 10 (-shift).toNat) : Nat) /
      (i.denominator * Nat.pow 10 shift.toNat : Nat) := by
  have hden' : (i.denominator : ℚ) ≠ 0 := by exact_mod_cast hden.ne'
  rw [zpow_eq_div (by norm_num), neg_neg, Nat.pow_eq, Nat.pow_eq]
  push_cast
  field_simp

theorem div_eq_div (hden : 0 < i.denominator) (a : Nat) (shift : ℤ) :
    (a : ℚ) / i.denominator =
      (a * Nat.pow 10 shift.toNat : Nat) / (i.denominator * Nat.pow 10 shift.toNat : Nat) := by
  have hden' : (i.denominator : ℚ) ≠ 0 := by exact_mod_cast hden.ne'
  rw [Nat.pow_eq]
  push_cast
  field_simp

theorem isInside_iff (hden : 0 < i.denominator) (shift : ℤ) (n : Nat) :
    i.isInside shift n = true ↔ i.Contains (n * 10 ^ (-shift)) := by
  have hpos : (0 : ℚ) < (i.denominator * Nat.pow 10 shift.toNat : Nat) := by
    exact_mod_cast Nat.mul_pos hden (Nat.pow_pos (by decide))
  unfold ReadingInterval.isInside ReadingInterval.Contains
  rw [mul_zpow_eq_div hden, div_eq_div hden i.low shift, div_eq_div hden i.high shift,
    div_le_div_iff_of_pos_right hpos, div_le_div_iff_of_pos_right hpos,
    div_lt_div_iff_of_pos_right hpos, div_lt_div_iff_of_pos_right hpos]
  dsimp only
  split
  · rw [Bool.and_eq_true, decide_eq_true_iff, decide_eq_true_iff, Nat.cast_le, Nat.cast_le]
  · rw [Bool.and_eq_true, decide_eq_true_iff, decide_eq_true_iff, Nat.cast_lt, Nat.cast_lt]

/-- The decimal below a value, on the grid with a number of digits. -/
def ReadingInterval.below (i : ReadingInterval) (shift : ℤ) : Nat :=
  i.value * Nat.pow 10 shift.toNat / (i.denominator * Nat.pow 10 (-shift).toNat)

theorem below_le (hden : 0 < i.denominator) (shift : ℤ) :
    (i.below shift : ℚ) * 10 ^ (-shift) ≤ i.value / i.denominator := by
  have hpos : (0 : ℚ) < (i.denominator * Nat.pow 10 shift.toNat : Nat) := by
    exact_mod_cast Nat.mul_pos hden (Nat.pow_pos (by decide))
  rw [mul_zpow_eq_div hden, div_eq_div hden i.value shift, div_le_div_iff_of_pos_right hpos,
    Nat.cast_le]
  exact Nat.div_mul_le_self _ _

theorem lt_above (hden : 0 < i.denominator) (shift : ℤ) :
    (i.value : ℚ) / i.denominator < (i.below shift + 1 : Nat) * 10 ^ (-shift) := by
  have hpos : (0 : ℚ) < (i.denominator * Nat.pow 10 shift.toNat : Nat) := by
    exact_mod_cast Nat.mul_pos hden (Nat.pow_pos (by decide))
  rw [mul_zpow_eq_div hden, div_eq_div hden i.value shift, div_lt_div_iff_of_pos_right hpos,
    Nat.cast_lt]
  exact Nat.lt_mul_of_div_lt (Nat.lt_succ_self _) (Nat.mul_pos hden (Nat.pow_pos (by decide)))

/-- The digits of the decimal below or above a value: of the one that is inside, and where both are,
of the nearer. -/
def ReadingInterval.choose? (i : ReadingInterval) (shift : ℤ) : Bool → Bool → Option (List Char)
  | false, false => none
  | true, false => some (digits (i.below shift))
  | false, true => some (digits (i.below shift + 1))
  | true, true =>
    let grid := i.denominator * Nat.pow 10 (-shift).toNat
    let toBelow := i.value * Nat.pow 10 shift.toNat - i.below shift * grid
    let toAbove := (i.below shift + 1) * grid - i.value * Nat.pow 10 shift.toNat
    if toBelow < toAbove then some (digits (i.below shift))
    else if toAbove < toBelow then some (digits (i.below shift + 1))
    else if i.below shift % 2 = 0 then some (digits (i.below shift))
    else some (digits (i.below shift + 1))

theorem candidate?_eq (i : ReadingInterval) (e : ℤ) (count : Nat) :
    let shift := (count : ℤ) - 1 - e
    i.candidate? e count =
      i.choose? shift (i.isInside shift (i.below shift)) (i.isInside shift (i.below shift + 1)) := rfl

theorem choose?_both (i : ReadingInterval) (shift : ℤ) :
    i.choose? shift true true = some (digits (i.below shift)) ∨
      i.choose? shift true true = some (digits (i.below shift + 1)) := by
  unfold ReadingInterval.choose?
  dsimp only
  split
  · exact .inl rfl
  · split
    · exact .inr rfl
    · split
      · exact .inl rfl
      · exact .inr rfl

/-- A candidate is the decimal below or the one above, whichever is inside. -/
theorem candidate?_cases (i : ReadingInterval) (e : ℤ) (count : Nat) :
    let shift := (count : ℤ) - 1 - e
    (i.candidate? e count = none ∧ i.isInside shift (i.below shift) = false ∧
        i.isInside shift (i.below shift + 1) = false) ∨
      (i.candidate? e count = some (digits (i.below shift)) ∧
        i.isInside shift (i.below shift) = true) ∨
      (i.candidate? e count = some (digits (i.below shift + 1)) ∧
        i.isInside shift (i.below shift + 1) = true) := by
  intro shift
  rw [candidate?_eq]
  cases i.isInside shift (i.below shift) with
  | false =>
      cases i.isInside shift (i.below shift + 1) with
      | false => exact .inl ⟨rfl, rfl, rfl⟩
      | true => exact .inr (.inr ⟨rfl, rfl⟩)
  | true =>
      cases i.isInside shift (i.below shift + 1) with
      | false => exact .inr (.inl ⟨rfl, rfl⟩)
      | true =>
          rcases choose?_both i shift with h | h
          · exact .inr (.inl ⟨h, rfl⟩)
          · exact .inr (.inr ⟨h, rfl⟩)

theorem contains_of_candidate? (hden : 0 < i.denominator) (h : i.candidate? e count = some ds) :
    ∃ n, ds = digits n ∧ i.Contains (n * 10 ^ (e + 1 - count)) := by
  have hshift : e + 1 - count = -((count : ℤ) - 1 - e) := by ring
  rw [hshift]
  rcases candidate?_cases i e count with ⟨hnone, _⟩ | ⟨hsome, hinside⟩ | ⟨hsome, hinside⟩
  · cases hnone.symm.trans h
  · exact ⟨_, Option.some.inj (h.symm.trans hsome), (isInside_iff hden _ _).mp hinside⟩
  · exact ⟨_, Option.some.inj (h.symm.trans hsome), (isInside_iff hden _ _).mp hinside⟩

theorem ofFraction_denominator_pos (f : BinaryFraction) : 0 < (ReadingInterval.ofFraction f).denominator :=
  Nat.pow_pos two_pos

theorem ofFraction_value (f : BinaryFraction) :
    ((ReadingInterval.ofFraction f).value : ℚ) / (ReadingInterval.ofFraction f).denominator =
      f.mantissa * 2 ^ f.exponent := by
  refine (quarter_units (4 * f.mantissa) f.exponent).trans ?_
  push_cast
  ring

/-- A step that is shorter than the interval does not lead across it. -/
theorem contains_or_of_step {a step : ℚ} (hpos : 0 < f.mantissa) (ha : a ≤ f.mantissa * 2 ^ f.exponent)
    (hstep : f.mantissa * 2 ^ f.exponent < a + step)
    (hshort : step < (1 / 2 + (f.lowStep : ℚ) / 4) * 2 ^ f.exponent) :
    (ReadingInterval.ofFraction f).Contains a ∨ (ReadingInterval.ofFraction f).Contains (a + step) := by
  have hunit : (0 : ℚ) < 2 ^ f.exponent := by positivity
  have hlow : (0 : ℚ) ≤ (f.lowStep : ℚ) / 4 * 2 ^ f.exponent := by positivity
  rw [contains_iff hpos, contains_iff hpos]
  by_cases hinside : (f.mantissa - (f.lowStep : ℚ) / 4) * 2 ^ f.exponent < a
  · left
    split
    · exact ⟨hinside.le, by linarith⟩
    · exact ⟨hinside, by linarith⟩
  · right
    rw [not_lt] at hinside
    split
    · constructor <;> linarith
    · constructor <;> linarith

theorem seventeen_digits_short (hf : f.IsDouble) :
    (f.mantissa : ℚ) * 2 ^ f.exponent / 10 ^ 16 <
      (1 / 2 + (f.lowStep : ℚ) / 4) * 2 ^ f.exponent := by
  have hunit : (0 : ℚ) < 2 ^ f.exponent := by positivity
  have hmantissa : (f.mantissa : ℚ) / 10 ^ 16 < 1 / 2 + (f.lowStep : ℚ) / 4 := by
    rw [div_lt_iff₀ (by positivity)]
    by_cases hpower : f.mantissa = fractionBound ∧ -1074 < f.exponent
    · have hstep : f.lowStep = 1 := if_pos hpower
      rw [hstep, hpower.1]
      norm_num [fractionBound]
    · have hstep : f.lowStep = 2 := if_neg hpower
      have hlt : (f.mantissa : ℚ) < 2 * fractionBound := by exact_mod_cast hf.mantissa_lt
      rw [hstep]
      refine hlt.trans ?_
      norm_num [fractionBound]
  calc (f.mantissa : ℚ) * 2 ^ f.exponent / 10 ^ 16 = f.mantissa / 10 ^ 16 * 2 ^ f.exponent := by ring
    _ < _ := mul_lt_mul_of_pos_right hmantissa hunit

theorem candidate?_seventeen (hf : f.IsDouble) (hpos : 0 < f.mantissa) :
    let i := ReadingInterval.ofFraction f
    (i.candidate? (decimalExponent i.value i.denominator) 17).isSome = true := by
  intro i
  have hden : 0 < i.denominator := ofFraction_denominator_pos f
  have hvalue : (i.value : ℚ) / i.denominator = f.mantissa * 2 ^ f.exponent := ofFraction_value f
  have hnum : 0 < i.value := Nat.mul_pos (Nat.mul_pos (by decide) hpos) (Nat.pow_pos two_pos)
  have hlow := (decimalExponent_spec hnum hden).1
  generalize decimalExponent i.value i.denominator = e at hlow
  have hstep : (10 : ℚ) ^ (-((17 : Nat) - 1 - e : ℤ)) = 10 ^ e / 10 ^ 16 := by
    have hsplit : -((17 : Nat) - 1 - e : ℤ) = e - (16 : Nat) := by push_cast; ring
    rw [hsplit, zpow_sub₀ (by norm_num), zpow_natCast]
  have hshort : (10 : ℚ) ^ (-((17 : Nat) - 1 - e : ℤ)) <
      (1 / 2 + (f.lowStep : ℚ) / 4) * 2 ^ f.exponent := by
    rw [hstep]
    refine lt_of_le_of_lt ?_ (seventeen_digits_short hf)
    rw [← hvalue]
    gcongr
  have hbelow := below_le hden ((17 : Nat) - 1 - e : ℤ)
  have habove := lt_above hden ((17 : Nat) - 1 - e : ℤ)
  rw [hvalue] at hbelow habove
  have hsucc (n : Nat) (g : ℚ) : (n : ℚ) * g + g = (n + 1 : Nat) * g := by push_cast; ring
  have hinside := contains_or_of_step hpos hbelow ((hsucc _ _).symm ▸ habove) hshort
  rw [hsucc, ← isInside_iff hden, ← isInside_iff hden] at hinside
  rcases candidate?_cases i e 17 with ⟨_, hbelow', habove'⟩ | ⟨hsome, _⟩ | ⟨hsome, _⟩
  · rcases hinside with hinside | hinside
    · cases hbelow'.symm.trans hinside
    · cases habove'.symm.trans hinside
  · rw [hsome]
    rfl
  · rw [hsome]
    rfl

/-- The digits that are found, with the exponent of the first of them, are of a decimal that reads as
the double. -/
theorem shortestDigits_spec (hf : f.IsDouble) (hpos : 0 < f.mantissa) :
    ∃ n first, shortestDigits f = (digits n, first) ∧
      (ReadingInterval.ofFraction f).Contains (n * 10 ^ (first + 1 - digitCount n)) := by
  let i := ReadingInterval.ofFraction f
  let e := decimalExponent i.value i.denominator
  let found := (List.range 17).findSome? fun k =>
    (i.candidate? e (k + 1)).map fun ds => (ds, e + (ds.length - (k + 1) : Int))
  have hsome : found.isSome = true := by
    rw [List.findSome?_isSome_iff]
    refine ⟨16, by decide, ?_⟩
    rw [Option.isSome_map]
    exact candidate?_seventeen hf hpos
  obtain ⟨⟨ds, first⟩, hfound⟩ := Option.isSome_iff_exists.mp hsome
  obtain ⟨k, _, hk⟩ := List.exists_of_findSome?_eq_some hfound
  obtain ⟨ds', hcandidate, heq⟩ := Option.map_eq_some_iff.mp hk
  obtain ⟨rfl, rfl⟩ := Prod.mk.inj heq
  obtain ⟨n, rfl, hcontains⟩ := contains_of_candidate? (ofFraction_denominator_pos f) hcandidate
  refine ⟨n, _, (congrArg (·.getD ([], e)) hfound : _), ?_⟩
  have hexponent : e + ((digits n).length - (k + 1) : ℤ) + 1 - digitCount n =
      e + 1 - (k + 1 : Nat) := by
    rw [digitCount]
    push_cast
    ring
  rw [hexponent]
  exact hcontains

end TurretPunch.Decimal
