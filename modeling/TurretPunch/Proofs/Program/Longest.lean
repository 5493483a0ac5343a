import TurretPunch.Proofs.Program.Numeral

namespace TurretPunch.Program

/-!
# The longest numeral after a letter

A scan takes its digits, its point and its exponent wherever it can. So it goes at least as far as every
numeral that begins where it does, and the value of a word is the value of the longest numeral after the
first letter of its kind that any numeral follows.
-/

variable {letter : Char} {cs rest mantissa tail whole fraction text text' other : List Char}
  {before before' after after' : List Char} {exponent : Int} {n m : Decimal.Numeral}

theorem scanExponent_suffix (cs : List Char) : (scanExponent cs).2 <:+ cs := by
  obtain ⟨tail, _, hcs⟩ := exists_exponent cs
  exact ⟨tail, hcs.symm⟩

/-- Digits, a point and digits are scanned to their end at least. -/
theorem SpellsMantissa.exists_scanMantissa? (h : SpellsMantissa whole fraction mantissa)
    (rest : List Char) : ∃ whole' fraction' after,
      scanMantissa? (mantissa ++ rest) = some (whole', fraction', after) ∧ after <:+ rest := by
  have hfound := h.scanMantissa?_isSome rest
  obtain ⟨⟨whole', fraction', after⟩, hscanned⟩ := Option.isSome_iff_exists.mp hfound
  refine ⟨whole', fraction', after, hscanned, ?_⟩
  unfold scanMantissa? at hscanned
  cases h with
  | whole h hne =>
      rw [h.takeWhile_append, h.dropWhile_append] at hscanned
      have hdropped := List.dropWhile_suffix Text.isDigit (l := rest)
      split at hscanned
      · next marked hpoint =>
        obtain ⟨rfl, rfl, rfl⟩ : _ ∧ _ ∧ _ := by simpa [hne] using hscanned
        have hmarked : marked <:+ rest := (List.suffix_cons '.' marked).trans (hpoint ▸ hdropped)
        exact (List.dropWhile_suffix _).trans hmarked
      · obtain ⟨rfl, rfl, rfl⟩ : _ ∧ _ ∧ _ := by simpa [hne] using hscanned
        exact hdropped
  | point hwhole hfraction hne =>
      rw [List.append_assoc, List.cons_append, hwhole.dropWhile_append,
        List.dropWhile_cons_of_neg (by decide)] at hscanned
      simp only [hfraction.dropWhile_append] at hscanned
      split at hscanned
      · cases hscanned
      · obtain ⟨rfl, rfl, rfl⟩ : _ ∧ _ ∧ _ := by simpa using hscanned
        exact List.dropWhile_suffix _

/-- An exponent is scanned to its end at least. -/
theorem SpellsExponent.scanExponent_append_suffix (h : SpellsExponent exponent tail)
    (rest : List Char) (hne : tail ≠ []) : (scanExponent (tail ++ rest)).2 <:+ rest := by
  cases h with
  | none => exact absurd rfl hne
  | @some negative sign ds hsign hds hsome =>
      have hscanned := hsign.scanSign_append (hds.startsUnsigned hsome rest)
      have hdigits : (ds ++ rest).takeWhile Text.isDigit ≠ [] := by
        simp [hds.takeWhile_append, hsome]
      simp only [scanExponent, List.cons_append, List.append_assoc, hscanned, List.isEmpty_iff,
        if_neg hdigits, hds.dropWhile_append]
      exact List.dropWhile_suffix _

theorem EndsMantissa.append (h : EndsMantissa tail) (hne : tail ≠ []) (rest : List Char) :
    EndsMantissa (tail ++ rest) := by
  obtain ⟨c, tail, rfl⟩ := List.exists_cons_of_ne_nil hne
  exact h

/-- A numeral in front of a text is scanned to its end at least. -/
theorem Spells.exists_scanNumeral? (h : Spells n text) (rest : List Char) :
    ∃ m after, scanNumeral? (text ++ rest) = some (m, after) ∧ after <:+ rest := by
  obtain @⟨negative, exponent, sign, whole, fraction, mantissa, tail, hsign, hmantissa, htail⟩ := h
  have hunsigned := hsign.scanSign_append (hmantissa.startsUnsigned (tail ++ rest))
  rw [List.append_assoc, List.append_assoc]
  unfold scanNumeral?
  by_cases hne : tail = []
  · obtain ⟨whole', fraction', after, hscanned, hafter⟩ :=
      hmantissa.exists_scanMantissa? (tail ++ rest)
    have hsuffix := (scanExponent_suffix after).trans hafter
    simp only [hunsigned, hscanned]
    exact ⟨_, _, rfl, by simpa [hne] using hsuffix⟩
  · -- the exponent mark ends the digits, whatever comes after the numeral
    have hscanned := hmantissa.scanMantissa?_append (htail.endsMantissa.append hne rest)
    simp only [hunsigned, hscanned]
    exact ⟨_, _, rfl, htail.scanExponent_append_suffix rest hne⟩

/-- A text in front of `cs` that spells a numeral, and none in front of `cs` is longer. -/
structure IsLongestNumeral (n : Decimal.Numeral) (text cs : List Char) : Prop where
  spells : Spells n text
  start : text <+: cs
  longest : ∀ m other, Spells m other → other <+: cs → other.length ≤ text.length

theorem isLongestNumeral_of_scanNumeral? (h : scanNumeral? cs = some (n, rest)) :
    ∃ text, cs = text ++ rest ∧ IsLongestNumeral n text cs := by
  obtain ⟨text, hspells, rfl⟩ := exists_numeral h
  refine ⟨text, rfl, hspells, List.prefix_append text rest, fun m other hother hstart => ?_⟩
  obtain ⟨left, hleft⟩ := hstart
  obtain ⟨m', after, hscanned, hsuffix⟩ := hother.exists_scanNumeral? left
  rw [hleft, h] at hscanned
  obtain ⟨-, rfl⟩ := Prod.mk.inj (Option.some.inj hscanned)
  have hlength := congrArg List.length hleft
  have hle := hsuffix.length_le
  simp only [List.length_append] at hlength
  omega

theorem IsLongestNumeral.text_eq (h : IsLongestNumeral n text cs)
    (h' : IsLongestNumeral m other cs) : text = other := by
  have hle := h'.longest n text h.spells h.start
  have hge := h.longest m other h'.spells h'.start
  exact (List.prefix_of_prefix_length_le h.start h'.start hle).eq_of_length (by omega)

/-- A text spells one numeral. -/
theorem Spells.eq (h : Spells n text) (h' : Spells m text) : n = m := by
  have hscanned := h.scanNumeral?_eq
  rw [h'.scanNumeral?_eq] at hscanned
  exact (Prod.mk.inj (Option.some.inj hscanned)).1.symm

/-- A line as what comes before the letter, the letter, the longest numeral after it and what comes
after that. No letter of its kind that a numeral follows stands further to the left. -/
structure IsFirstNumeral (letter : Char) (n : Decimal.Numeral) (before text after cs : List Char) :
    Prop where
  line : cs = before ++ letter :: (text ++ after)
  longest : IsLongestNumeral n text (text ++ after)
  leftmost : ∀ early late, cs = early ++ letter :: late →
    (∃ m other, Spells m other ∧ other <+: late) → before.length ≤ early.length

theorem exists_isFirstNumeral (h : numeralAfter? letter cs = some n) :
    ∃ before text after, IsFirstNumeral letter n before text after cs := by
  induction cs with
  | nil => cases h
  | cons c cs ih =>
      rw [numeralAfter?] at h
      split at h
      · next m rest hscanned =>
        obtain rfl := Option.some.inj h
        obtain ⟨hletter, hscanned⟩ : c = letter ∧ scanNumeral? cs = some (m, rest) := by
          simpa using hscanned
        obtain ⟨text, rfl, hlongest⟩ := isLongestNumeral_of_scanNumeral? hscanned
        exact ⟨[], text, rest, by simp [hletter], hlongest, fun _ _ _ _ => Nat.zero_le _⟩
      · next hnone =>
        obtain ⟨before, text, after, hline, hlongest, hleftmost⟩ := ih h
        refine ⟨c :: before, text, after, by simp [hline], hlongest, ?_⟩
        intro early late heq hnumeral
        cases early with
        | nil =>
            obtain ⟨rfl, rfl⟩ := List.cons.inj heq
            rw [beq_self_eq_true, if_pos rfl] at hnone
            exact absurd (scanNumeral?_isSome_iff.mpr hnumeral) (by simp [hnone])
        | cons e early =>
            have hle := hleftmost early late (List.cons.inj heq).2 hnumeral
            simpa using hle

theorem IsFirstNumeral.hasNumeral (h : IsFirstNumeral letter n before text after cs) :
    HasNumeral letter cs := by
  refine ⟨n, text, h.longest.spells, before, after, ?_⟩
  simp [h.line]

theorem IsFirstNumeral.before_length_le (h : IsFirstNumeral letter n before text after cs)
    (h' : IsFirstNumeral letter m before' text' after' cs) : before.length ≤ before'.length :=
  h.leftmost before' _ h'.line ⟨m, text', h'.longest.spells, h'.longest.start⟩

theorem IsFirstNumeral.text_eq (h : IsFirstNumeral letter n before text after cs)
    (h' : IsFirstNumeral letter m before' text' after' cs) : text = text' := by
  have hlength := Nat.le_antisymm (h.before_length_le h') (h'.before_length_le h)
  have hline := h.line.symm.trans h'.line
  have hfollowing := (List.cons.inj (List.append_inj hline hlength).2).2
  have hlongest := h.longest
  rw [hfollowing] at hlongest
  exact hlongest.text_eq h'.longest

theorem IsFirstNumeral.numeralAfter?_eq (h : IsFirstNumeral letter n before text after cs) :
    numeralAfter? letter cs = some n := by
  have hfound := valueOf?_isSome_iff.mpr h.hasNumeral
  rw [valueOf?, Option.isSome_map] at hfound
  obtain ⟨m, hm⟩ := Option.isSome_iff_exists.mp hfound
  obtain ⟨before', text', after', h'⟩ := exists_isFirstNumeral hm
  obtain rfl := h.text_eq h'
  rw [hm, h.longest.spells.eq h'.longest.spells]

theorem numeralAfter?_eq_some_iff : numeralAfter? letter cs = some n ↔
    ∃ before text after, IsFirstNumeral letter n before text after cs :=
  ⟨exists_isFirstNumeral, fun ⟨_, _, _, h⟩ => h.numeralAfter?_eq⟩

/-- The value of a word is missing where no letter of its kind stands right before a numeral. Else it is
the value of the longest numeral right after the first such letter, and lines that have this numeral
in common have this value in common, whatever else stands in them. -/
theorem value_of_first_longest_numeral (letter : Char) (cs : List Char) :
    (valueOf? letter cs = none ↔ ¬ HasNumeral letter cs) ∧
      (∀ value, valueOf? letter cs = some value ↔
        ∃ n before text after, IsFirstNumeral letter n before text after cs ∧ n.toFloat = value) ∧
      ∀ letter' cs' text n n' before after before' after',
        IsFirstNumeral letter n before text after cs →
          IsFirstNumeral letter' n' before' text after' cs' →
            valueOf? letter' cs' = valueOf? letter cs := by
  refine ⟨?_, fun value => ?_, ?_⟩
  · rw [← valueOf?_isSome_iff, Option.not_isSome_iff_eq_none]
  · simp only [valueOf?, Option.map_eq_some_iff, numeralAfter?_eq_some_iff, exists_and_right]
  · intro letter' cs' text n n' before after before' after' h h'
    have heq : n' = n := h'.longest.spells.eq h.longest.spells
    rw [valueOf?, valueOf?, h.numeralAfter?_eq, h'.numeralAfter?_eq, heq]

theorem value_of_first_longest_numeral_point_mark :
    valueOf? 'D' "D-1.5".toList = valueOf? 'X' "XX.X-1.5E+X2".toList ∧
      valueOf? 'X' "XX.X-1.5E+X2".toList = some (Decimal.Numeral.toFloat ⟨true, [1], [5], 0⟩) ∧
      ¬ HasNumeral 'X' "XX.E1X+E".toList := by
  have hfirst : IsFirstNumeral 'X' ⟨true, [1], [5], 0⟩ "XX.".toList "-1.5".toList "E+X2".toList
      "XX.X-1.5E+X2".toList := by
    obtain ⟨text, hline, hlongest⟩ := isLongestNumeral_of_scanNumeral?
      (show scanNumeral? "-1.5E+X2".toList = some (⟨true, [1], [5], 0⟩, "E+X2".toList) by decide)
    obtain rfl : "-1.5".toList = text := List.append_cancel_right hline
    refine ⟨by decide, hlongest, fun early late heq hnumeral => ?_⟩
    have hscanned := scanNumeral?_isSome_iff.mpr hnumeral
    rcases early with _ | ⟨c, _ | ⟨d, _ | ⟨e, early⟩⟩⟩
    · obtain ⟨-, rfl⟩ := List.cons.inj heq
      exact absurd hscanned (by decide)
    · obtain ⟨-, rfl⟩ := List.cons.inj (List.cons.inj heq).2
      exact absurd hscanned (by decide)
    · exact absurd (List.cons.inj (List.cons.inj (List.cons.inj heq).2).2).1 (by decide)
    · exact Nat.le_add_left 3 early.length
  have hfirst' : IsFirstNumeral 'D' ⟨true, [1], [5], 0⟩ [] "-1.5".toList [] "D-1.5".toList := by
    obtain ⟨text, hline, hlongest⟩ := isLongestNumeral_of_scanNumeral?
      (show scanNumeral? "-1.5".toList = some (⟨true, [1], [5], 0⟩, []) by decide)
    obtain rfl : "-1.5".toList = text := hline.trans (List.append_nil text)
    exact ⟨rfl, hlongest, fun _ _ _ _ => Nat.zero_le _⟩
  obtain ⟨-, hvalue, hsame⟩ := value_of_first_longest_numeral 'X' "XX.X-1.5E+X2".toList
  obtain ⟨hmissing, -, -⟩ := value_of_first_longest_numeral 'X' "XX.E1X+E".toList
  refine ⟨hsame _ _ _ _ _ _ _ _ _ hfirst hfirst', (hvalue _).mpr ⟨_, _, _, _, hfirst, rfl⟩, ?_⟩
  exact hmissing.mp (by decide)

end TurretPunch.Program
