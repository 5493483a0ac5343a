import Mathlib.Data.List.TakeWhile
import TurretPunch.Program.Word
import TurretPunch.Text.Blank

namespace TurretPunch.Program

/-!
# Numerals and digits in a line

A numeral is a sign, digits with a point or without one, and an exponent, of which only some digits are
never missing. What is scanned is a numeral of this grammar, and it is found wherever there is one.
-/

variable {letter : Char} {cs ds rest sign mantissa tail whole fraction : List Char} {negative : Bool}
  {exponent : Int} {n : Decimal.Numeral}

/-- Decimal digits of any script. -/
def IsDigits (ds : List Char) : Prop := ∀ d ∈ ds, Text.isDigit d = true

theorem isDigits_takeWhile (cs : List Char) : IsDigits (cs.takeWhile Text.isDigit) :=
  fun _ => List.mem_takeWhile_imp

theorem IsDigits.takeWhile_append (h : IsDigits ds) (rest : List Char) :
    (ds ++ rest).takeWhile Text.isDigit = ds ++ rest.takeWhile Text.isDigit :=
  List.takeWhile_append_of_pos h

theorem IsDigits.dropWhile_append (h : IsDigits ds) (rest : List Char) :
    (ds ++ rest).dropWhile Text.isDigit = rest.dropWhile Text.isDigit :=
  List.dropWhile_append_of_pos h

inductive SpellsSign : Bool → List Char → Prop
  | none : SpellsSign false []
  | plus : SpellsSign false ['+']
  | minus : SpellsSign true ['-']

/-- Digits before a point and after it, some on one side at least. Without a point all are before it. -/
inductive SpellsMantissa : List Char → List Char → List Char → Prop
  | whole {whole : List Char} (h : IsDigits whole) (hne : whole ≠ []) : SpellsMantissa whole [] whole
  | point {whole fraction : List Char} (hwhole : IsDigits whole) (hfraction : IsDigits fraction)
      (hne : whole ≠ [] ∨ fraction ≠ []) : SpellsMantissa whole fraction (whole ++ '.' :: fraction)

inductive SpellsExponent : Int → List Char → Prop
  | none : SpellsExponent 0 []
  | some {negative : Bool} {sign ds : List Char} (hsign : SpellsSign negative sign) (h : IsDigits ds)
      (hne : ds ≠ []) :
      SpellsExponent (if negative then -Text.digitsValue (Text.digitValues ds)
        else Text.digitsValue (Text.digitValues ds)) ('E' :: (sign ++ ds))

/-- A text spells a numeral. -/
inductive Spells : Decimal.Numeral → List Char → Prop
  | intro {negative : Bool} {exponent : Int} {sign whole fraction mantissa tail : List Char}
      (hsign : SpellsSign negative sign) (hmantissa : SpellsMantissa whole fraction mantissa)
      (hexponent : SpellsExponent exponent tail) :
      Spells ⟨negative, Text.digitValues whole, Text.digitValues fraction, exponent⟩
        (sign ++ (mantissa ++ tail))

/-- The code points of parentheses, of the underscore, of the small exponent mark and of blanks. -/
def foreignCodes : List Nat := [0x28, 0x29, 0x5F, 0x65] ++ Text.blanks

/-- A character of those that no numeral has in it. -/
def IsForeign (c : Char) : Prop := c.toNat ∈ foreignCodes

instance : DecidablePred IsForeign := fun c => inferInstanceAs (Decidable (c.toNat ∈ foreignCodes))

theorem IsDigits.not_isForeign (h : IsDigits ds) : ∀ d ∈ ds, ¬ IsForeign d := by
  intro d hd hforeign
  have hnone : ∀ code ∈ foreignCodes,
      Text.zeroDigits.find? (fun start => start ≤ code && code < start + 10) = none := by decide
  have hdigit := h d hd
  rw [Text.isDigit, Text.digitValue?, hnone _ hforeign] at hdigit
  cases hdigit

theorem SpellsSign.not_isForeign (h : SpellsSign negative sign) : ∀ c ∈ sign, ¬ IsForeign c := by
  cases h with
  | none => exact nofun
  | plus | minus => exact List.forall_mem_singleton.mpr (by decide)

theorem SpellsMantissa.not_isForeign (h : SpellsMantissa whole fraction mantissa) :
    ∀ c ∈ mantissa, ¬ IsForeign c := by
  cases h with
  | whole h => exact h.not_isForeign
  | point hwhole hfraction =>
      rw [List.forall_mem_append, List.forall_mem_cons]
      exact ⟨hwhole.not_isForeign, by decide, hfraction.not_isForeign⟩

theorem SpellsExponent.not_isForeign (h : SpellsExponent exponent tail) :
    ∀ c ∈ tail, ¬ IsForeign c := by
  cases h with
  | none => exact nofun
  | some hsign h =>
      rw [List.forall_mem_cons, List.forall_mem_append]
      exact ⟨by decide, hsign.not_isForeign, h.not_isForeign⟩

theorem Spells.not_isForeign (h : Spells n cs) : ∀ c ∈ cs, ¬ IsForeign c := by
  obtain ⟨hsign, hmantissa, hexponent⟩ := h
  rw [List.forall_mem_append, List.forall_mem_append]
  exact ⟨hsign.not_isForeign, hmantissa.not_isForeign, hexponent.not_isForeign⟩

/-- What follows a sign begins with none. -/
def StartsUnsigned (cs : List Char) : Prop := ∀ c ∈ cs.head?, c ≠ '+' ∧ c ≠ '-'

theorem startsUnsigned_cons_of_isDigit {c : Char} (h : Text.isDigit c = true) (cs : List Char) :
    StartsUnsigned (c :: cs) := by
  intro d hd
  obtain rfl : c = d := Option.some.inj hd
  constructor <;> rintro rfl <;> exact absurd h (by decide)

theorem IsDigits.startsUnsigned (h : IsDigits ds) (hne : ds ≠ []) (rest : List Char) :
    StartsUnsigned (ds ++ rest) := by
  cases ds with
  | nil => exact absurd rfl hne
  | cons d ds => exact startsUnsigned_cons_of_isDigit (h d List.mem_cons_self) _

theorem exists_sign (cs : List Char) :
    ∃ sign, SpellsSign (scanSign cs).1 sign ∧ cs = sign ++ (scanSign cs).2 := by
  unfold scanSign
  split
  · exact ⟨_, .minus, rfl⟩
  · exact ⟨_, .plus, rfl⟩
  · exact ⟨_, .none, rfl⟩

theorem SpellsSign.scanSign_append (h : SpellsSign negative sign) (hrest : StartsUnsigned rest) :
    scanSign (sign ++ rest) = (negative, rest) := by
  cases h with
  | plus | minus => rfl
  | none =>
      rw [List.nil_append]
      unfold scanSign
      split
      · exact absurd rfl (hrest _ rfl).2
      · exact absurd rfl (hrest _ rfl).1
      · rfl

theorem exists_mantissa (h : scanMantissa? cs = some (whole, fraction, rest)) :
    ∃ mantissa, SpellsMantissa whole fraction mantissa ∧ cs = mantissa ++ rest := by
  have hsplit := (List.takeWhile_append_dropWhile (p := Text.isDigit) (l := cs)).symm
  unfold scanMantissa? at h
  dsimp only at h
  split at h
  · next after hpoint =>
    split at h
    · cases h
    · next hne =>
      obtain ⟨rfl, rfl, rfl⟩ : _ ∧ _ ∧ _ := by simpa using h
      refine ⟨_, .point (isDigits_takeWhile cs) (isDigits_takeWhile after) ?_, ?_⟩
      · simpa [List.isEmpty_iff, imp_iff_not_or] using hne
      · rw [hpoint] at hsplit
        rw [List.append_assoc, List.cons_append, List.takeWhile_append_dropWhile]
        exact hsplit
  · split at h
    · cases h
    · next hne =>
      obtain ⟨rfl, rfl, rfl⟩ : _ ∧ _ ∧ _ := by simpa using h
      exact ⟨_, .whole (isDigits_takeWhile cs) (by simpa using hne), hsplit⟩

/-- What follows a mantissa does not go on with it. -/
def EndsMantissa (rest : List Char) : Prop := ∀ c ∈ rest.head?, Text.isDigit c = false ∧ c ≠ '.'

theorem EndsMantissa.takeWhile (h : EndsMantissa rest) : rest.takeWhile Text.isDigit = [] := by
  cases rest with
  | nil => rfl
  | cons c rest => simp [(h c rfl).1]

theorem EndsMantissa.dropWhile (h : EndsMantissa rest) : rest.dropWhile Text.isDigit = rest := by
  cases rest with
  | nil => rfl
  | cons c rest => simp [(h c rfl).1]

theorem SpellsMantissa.scanMantissa?_append (h : SpellsMantissa whole fraction mantissa)
    (hrest : EndsMantissa rest) :
    scanMantissa? (mantissa ++ rest) = some (whole, fraction, rest) := by
  unfold scanMantissa?
  cases h with
  | whole h hne =>
      rw [h.takeWhile_append, h.dropWhile_append, hrest.takeWhile, hrest.dropWhile, List.append_nil]
      split
      · exact absurd rfl (hrest _ rfl).2
      · simp [hne]
  | point hwhole hfraction hne =>
      rw [List.append_assoc, List.cons_append, hwhole.takeWhile_append, hwhole.dropWhile_append,
        List.takeWhile_cons_of_neg (by decide), List.dropWhile_cons_of_neg (by decide),
        List.append_nil]
      simp only [hfraction.takeWhile_append, hfraction.dropWhile_append, hrest.takeWhile,
        hrest.dropWhile, List.append_nil]
      rw [if_neg (by simpa [imp_iff_not_or] using hne)]

theorem SpellsMantissa.scanMantissa?_isSome (h : SpellsMantissa whole fraction mantissa)
    (rest : List Char) : (scanMantissa? (mantissa ++ rest)).isSome = true := by
  unfold scanMantissa?
  cases h with
  | whole h hne =>
      rw [h.takeWhile_append]
      split <;> simp [hne]
  | point hwhole hfraction hne =>
      rw [List.append_assoc, List.cons_append, hwhole.takeWhile_append, hwhole.dropWhile_append,
        List.takeWhile_cons_of_neg (by decide), List.dropWhile_cons_of_neg (by decide),
        List.append_nil]
      simp only [hfraction.takeWhile_append]
      rw [if_neg]
      · rfl
      · rcases hne with hne | hne <;> simp [hne]

theorem SpellsMantissa.startsUnsigned (h : SpellsMantissa whole fraction mantissa)
    (rest : List Char) : StartsUnsigned (mantissa ++ rest) := by
  cases h with
  | whole h hne => exact h.startsUnsigned hne rest
  | point hwhole hfraction hne =>
      rw [List.append_assoc]
      cases whole with
      | nil =>
          intro c hc
          obtain rfl : '.' = c := Option.some.inj hc
          decide
      | cons d whole => exact startsUnsigned_cons_of_isDigit (hwhole d List.mem_cons_self) _

theorem exists_exponent (cs : List Char) :
    ∃ tail, SpellsExponent (scanExponent cs).1 tail ∧ cs = tail ++ (scanExponent cs).2 := by
  unfold scanExponent
  split
  · next marked =>
    obtain ⟨sign, hsign, hmarked⟩ := exists_sign marked
    dsimp only
    split
    · exact ⟨[], .none, rfl⟩
    · next hne =>
      have hsplit := (List.takeWhile_append_dropWhile (p := Text.isDigit)
        (l := (scanSign marked).2)).symm
      refine ⟨_, .some hsign (isDigits_takeWhile _) (by simpa using hne), ?_⟩
      rw [List.cons_append, List.append_assoc, ← hsplit, ← hmarked]
  · exact ⟨[], .none, rfl⟩

theorem SpellsExponent.endsMantissa (h : SpellsExponent exponent tail) : EndsMantissa tail := by
  cases h with
  | none => exact nofun
  | some =>
      intro c hc
      obtain rfl : 'E' = c := Option.some.inj hc
      decide

theorem SpellsExponent.scanExponent_eq (h : SpellsExponent exponent tail) :
    scanExponent tail = (exponent, []) := by
  cases h with
  | none => rfl
  | @some negative sign ds hsign hds hne =>
      have hunsigned := hds.startsUnsigned hne []
      rw [List.append_nil] at hunsigned
      have htaken := hds.takeWhile_append []
      have hdropped := hds.dropWhile_append []
      rw [List.append_nil, List.takeWhile_nil, List.append_nil] at htaken
      rw [List.append_nil, List.dropWhile_nil] at hdropped
      unfold scanExponent
      simp only [hsign.scanSign_append hunsigned, htaken, hdropped]
      rw [if_neg (by simpa using hne)]

/-! ## Numerals -/

theorem exists_numeral (h : scanNumeral? cs = some (n, rest)) :
    ∃ text, Spells n text ∧ cs = text ++ rest := by
  unfold scanNumeral? at h
  dsimp only at h
  obtain ⟨sign, hsign, hcs⟩ := exists_sign cs
  split at h
  · cases h
  · next whole fraction after hscanned =>
    obtain ⟨mantissa, hmantissa, hunsigned⟩ := exists_mantissa hscanned
    obtain ⟨tail, htail, hafter⟩ := exists_exponent after
    obtain ⟨rfl, rfl⟩ := Prod.mk.inj (Option.some.inj h)
    refine ⟨_, .intro hsign hmantissa htail, ?_⟩
    rw [List.append_assoc, List.append_assoc, ← hafter, ← hunsigned, ← hcs]

theorem Spells.scanNumeral?_eq {text : List Char} (h : Spells n text) :
    scanNumeral? text = some (n, []) := by
  cases h with
  | intro hsign hmantissa hexponent =>
      unfold scanNumeral?
      simp only [hsign.scanSign_append (hmantissa.startsUnsigned _),
        hmantissa.scanMantissa?_append hexponent.endsMantissa, hexponent.scanExponent_eq]

theorem scanNumeral?_isSome_iff :
    (scanNumeral? cs).isSome = true ↔ ∃ n text, Spells n text ∧ text <+: cs := by
  constructor
  · intro h
    obtain ⟨⟨n, rest⟩, hscanned⟩ := Option.isSome_iff_exists.mp h
    obtain ⟨text, hspelled, rfl⟩ := exists_numeral hscanned
    exact ⟨n, text, hspelled, List.prefix_append text rest⟩
  · rintro ⟨n, text, @⟨_, _, _, _, _, _, tail, hsign, hmantissa, _⟩, rest, rfl⟩
    rw [List.append_assoc, List.append_assoc]
    have hfound := hmantissa.scanMantissa?_isSome (tail ++ rest)
    obtain ⟨parts, hparts⟩ := Option.isSome_iff_exists.mp hfound
    unfold scanNumeral?
    simp only [hsign.scanSign_append (hmantissa.startsUnsigned _), hparts]
    rfl

/-- The value of a word is that of a numeral which its letter stands right before. -/
theorem exists_word {value : Float} (h : valueOf? letter cs = some value) :
    ∃ before n text rest, cs = before ++ letter :: (text ++ rest) ∧ Spells n text ∧
      n.toFloat = value := by
  obtain ⟨n, hfound, hvalue⟩ := Option.map_eq_some_iff.mp h
  clear h
  induction cs with
  | nil => cases hfound
  | cons c cs ih =>
      rw [numeralAfter?] at hfound
      split at hfound
      · next m rest hscanned =>
        obtain rfl := Option.some.inj hfound
        split at hscanned
        · next hletter =>
          obtain ⟨text, hspelled, rfl⟩ := exists_numeral hscanned
          obtain rfl : c = letter := by simpa using hletter
          exact ⟨[], m, text, rest, rfl, hspelled, hvalue⟩
        · cases hscanned
      · obtain ⟨before, m, text, rest, rfl, hspelled, hm⟩ := ih hfound
        exact ⟨c :: before, m, text, rest, rfl, hspelled, hm⟩

/-- A letter stands right before a numeral. -/
def HasNumeral (letter : Char) (cs : List Char) : Prop :=
  ∃ n text, Spells n text ∧ letter :: text <:+: cs

theorem hasNumeral_cons {c : Char} : HasNumeral letter (c :: cs) ↔
    (letter = c ∧ ∃ n text, Spells n text ∧ text <+: cs) ∨ HasNumeral letter cs := by
  simp only [HasNumeral, List.infix_cons_iff, List.cons_prefix_cons]
  constructor
  · rintro ⟨n, text, hspelled, ⟨hletter, hprefix⟩ | hlater⟩
    · exact Or.inl ⟨hletter, n, text, hspelled, hprefix⟩
    · exact Or.inr ⟨n, text, hspelled, hlater⟩
  · rintro (⟨hletter, n, text, hspelled, hprefix⟩ | ⟨n, text, hspelled, hlater⟩)
    · exact ⟨n, text, hspelled, Or.inl ⟨hletter, hprefix⟩⟩
    · exact ⟨n, text, hspelled, Or.inr hlater⟩

theorem valueOf?_isSome_iff : (valueOf? letter cs).isSome = true ↔ HasNumeral letter cs := by
  rw [valueOf?, Option.isSome_map]
  induction cs with
  | nil => simp [numeralAfter?, HasNumeral]
  | cons c cs ih =>
      rw [hasNumeral_cons, ← scanNumeral?_isSome_iff, ← ih, numeralAfter?]
      by_cases hletter : letter = c
      · subst hletter
        cases hscanned : scanNumeral? cs <;> simp
      · have hne : (c == letter) = false := by simpa using Ne.symm hletter
        simp [hne, hletter]

/-- A letter stands right before a digit. -/
def HasDigit (letter : Char) (cs : List Char) : Prop :=
  ∃ d, Text.isDigit d = true ∧ [letter, d] <:+: cs

theorem hasDigit_cons {c : Char} : HasDigit letter (c :: cs) ↔
    (letter = c ∧ ∃ d ∈ cs.head?, Text.isDigit d = true) ∨ HasDigit letter cs := by
  have hhead (d : Char) : [d] <+: cs ↔ d ∈ cs.head? := by
    cases cs <;> simp [eq_comm]
  simp only [HasDigit, List.infix_cons_iff, List.cons_prefix_cons, hhead]
  constructor
  · rintro ⟨d, hd, ⟨hletter, hmem⟩ | hlater⟩
    · exact Or.inl ⟨hletter, d, hmem, hd⟩
    · exact Or.inr ⟨d, hd, hlater⟩
  · rintro (⟨hletter, d, hmem, hd⟩ | ⟨d, hd, hlater⟩)
    · exact ⟨d, hd, Or.inl ⟨hletter, hmem⟩⟩
    · exact ⟨d, hd, Or.inr hlater⟩

theorem takeWhile_isDigit_eq_nil_iff :
    cs.takeWhile Text.isDigit = [] ↔ ¬ ∃ d ∈ cs.head?, Text.isDigit d = true := by
  cases cs with
  | nil => simp
  | cons c cs => cases hc : Text.isDigit c <;> simp [hc]

theorem digitsAfter?_cons_of_ne {c : Char} (h : c ≠ letter) (cs : List Char) :
    digitsAfter? letter (c :: cs) = digitsAfter? letter cs := by
  simp [digitsAfter?, h]

theorem digitsAfter?_cons_self (letter : Char) (cs : List Char) :
    digitsAfter? letter (letter :: cs) =
      if cs.takeWhile Text.isDigit = [] then digitsAfter? letter cs
      else some (cs.takeWhile Text.isDigit) := by
  simp [digitsAfter?]

theorem digitsAfter?_isSome_iff : (digitsAfter? letter cs).isSome = true ↔ HasDigit letter cs := by
  induction cs with
  | nil => simp [digitsAfter?, HasDigit]
  | cons c cs ih =>
      rw [hasDigit_cons, ← ih]
      by_cases hletter : c = letter
      · subst hletter
        rw [digitsAfter?_cons_self]
        split
        · next hnone =>
          have hlead := takeWhile_isDigit_eq_nil_iff.mp hnone
          exact (or_iff_right fun h => hlead h.2).symm
        · next hsome =>
          have hlead := not_not.mp (mt takeWhile_isDigit_eq_nil_iff.mpr hsome)
          exact iff_of_true rfl (Or.inl ⟨rfl, hlead⟩)
      · rw [digitsAfter?_cons_of_ne hletter]
        simp [Ne.symm hletter]

/-- The digits, as many as there are, after the first letter of its kind that a digit follows. -/
inductive FirstDigits (letter : Char) (ds : List Char) : List Char → Prop
  | intro {before rest : List Char} (h : IsDigits ds) (hne : ds ≠ [])
      (hend : ∀ c ∈ rest.head?, Text.isDigit c = false) (hfirst : ¬ HasDigit letter before) :
      FirstDigits letter ds (before ++ letter :: (ds ++ rest))

theorem FirstDigits.cons (h : FirstDigits letter ds cs) {c : Char}
    (hc : c = letter → ¬ ∃ d ∈ cs.head?, Text.isDigit d = true) :
    FirstDigits letter ds (c :: cs) := by
  obtain @⟨before, rest, hdigits, hne, hend, hfirst⟩ := h
  have hfirst' : ¬ HasDigit letter (c :: before) := by
    rw [hasDigit_cons, not_or]
    refine ⟨?_, hfirst⟩
    rintro ⟨rfl, d, hd, hdigit⟩
    obtain ⟨tail, rfl⟩ := List.head?_eq_some_iff.mp hd
    exact hc rfl ⟨d, rfl, hdigit⟩
  exact .intro hdigits hne hend hfirst'

theorem firstDigits_of_digitsAfter? (h : digitsAfter? letter cs = some ds) :
    FirstDigits letter ds cs := by
  induction cs with
  | nil => cases h
  | cons c cs ih =>
      by_cases hletter : c = letter
      · subst hletter
        rw [digitsAfter?_cons_self] at h
        split at h
        · next hnone => exact (ih h).cons fun _ => takeWhile_isDigit_eq_nil_iff.mp hnone
        · next hsome =>
          obtain rfl := Option.some.inj h
          have hend : ∀ d ∈ (cs.dropWhile Text.isDigit).head?, Text.isDigit d = false := by
            intro d hd
            have hnot := List.head?_dropWhile_not Text.isDigit cs
            rw [hd] at hnot
            exact hnot
          have hdigits : FirstDigits c (cs.takeWhile Text.isDigit)
              ([] ++ c :: (cs.takeWhile Text.isDigit ++ cs.dropWhile Text.isDigit)) :=
            .intro (isDigits_takeWhile cs) hsome hend (by simp [HasDigit])
          rwa [List.takeWhile_append_dropWhile] at hdigits
      · rw [digitsAfter?_cons_of_ne hletter] at h
        exact (ih h).cons fun heq => absurd heq hletter

theorem FirstDigits.digitsAfter?_eq (h : FirstDigits letter ds cs)
    (hletter : Text.isDigit letter = false) : digitsAfter? letter cs = some ds := by
  obtain @⟨before, rest, hdigits, hne, hend, hfirst⟩ := h
  induction before with
  | nil =>
      have hrest : rest.takeWhile Text.isDigit = [] := by
        rw [takeWhile_isDigit_eq_nil_iff]
        rintro ⟨d, hd, hdigit⟩
        exact absurd hdigit (by simp [hend d hd])
      rw [List.nil_append, digitsAfter?_cons_self, hdigits.takeWhile_append, hrest, List.append_nil,
        if_neg hne]
  | cons c before ih =>
      rw [hasDigit_cons, not_or] at hfirst
      rw [List.cons_append]
      by_cases hc : c = letter
      · -- the letter stands here too, but without a digit
        have hnone : (before ++ letter :: (ds ++ rest)).takeWhile Text.isDigit = [] := by
          rw [takeWhile_isDigit_eq_nil_iff]
          rintro ⟨d, hd, hdigit⟩
          cases before with
          | nil =>
              obtain rfl : letter = d := Option.some.inj hd
              exact absurd hdigit (by simp [hletter])
          | cons b before => exact hfirst.1 ⟨hc.symm, d, hd, hdigit⟩
        rw [hc, digitsAfter?_cons_self, if_pos hnone]
        exact ih hfirst.2
      · rw [digitsAfter?_cons_of_ne hc]
        exact ih hfirst.2

end TurretPunch.Program
