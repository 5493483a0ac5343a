import Mathlib.Data.List.TakeWhile
import Mathlib.Tactic.IntervalCases
import TurretPunch.Program.Statement
import TurretPunch.Proofs.Program.Comment
import TurretPunch.Proofs.Program.Coordinate
import TurretPunch.Proofs.Text.Blank

namespace TurretPunch.Program

/-!
# Words as they are written

A line that is written consists of figures, signs, points, blanks and the letters of its words, each
of which stands there once. So a word is found where it was written, and nowhere else.
-/

open Text (IsFigures)

variable {letter : Char} {cs rest : List Char}

/-- The characters that all instructions but comments are written with. -/
def plainCharacters : List Char :=
  ['0', '1', '2', '3', '4', '5', '6', '7', '8', '9', '-', '.', ' ', 'G', 'T', 'X', 'Y', 'D', 'M']

def IsPlain (cs : List Char) : Prop := ∀ c ∈ cs, c ∈ plainCharacters

theorem IsPlain.append (h : IsPlain cs) (hrest : IsPlain rest) : IsPlain (cs ++ rest) := by
  intro c hc
  rcases List.mem_append.mp hc with hc | hc
  · exact h c hc
  · exact hrest c hc

theorem isPlain_cons {c : Char} : IsPlain (c :: cs) ↔ c ∈ plainCharacters ∧ IsPlain cs :=
  List.forall_mem_cons

theorem mem_plainCharacters_of_isDigit {c : Char} (h : c.isDigit = true) : c ∈ plainCharacters := by
  have hrange := Text.toNat_of_isDigit h
  rw [← Char.ofNat_toNat c]
  generalize c.toNat = n at hrange
  obtain ⟨hlow, hhigh⟩ := hrange
  interval_cases n <;> decide

theorem isPlain_of_isFigures (h : IsFigures cs) : IsPlain cs :=
  fun c hc => mem_plainCharacters_of_isDigit (h c hc)

theorem plainCharacters_spec :
    ∀ c ∈ plainCharacters, Text.capital c = [c] ∧ c ≠ '(' ∧ c ≠ '\n' ∧
      (c ≠ ' ' → Text.isBlank c = false) := by
  rw [← List.forall_iff_forall_mem]
  decide

theorem IsPlain.capitals (h : IsPlain cs) : Text.capitals cs = cs := by
  induction cs with
  | nil => rfl
  | cons c cs ih =>
      obtain ⟨hc, hcs⟩ := isPlain_cons.mp h
      have hrest := ih hcs
      unfold Text.capitals at hrest ⊢
      rw [List.flatMap_cons, (plainCharacters_spec c hc).1, hrest, List.singleton_append]

theorem IsPlain.ofLine (h : IsPlain cs) (hfirst : ∀ c ∈ cs.head?, Text.isBlank c = false)
    (hlast : ∀ c ∈ cs.getLast?, Text.isBlank c = false) :
    Statement.ofLine (cs.map .char) = Statement.ofCapitals cs := by
  have hopen : Text.Point.char '(' ∉ cs.map .char := by
    intro hmem
    obtain ⟨c, hc, heq⟩ := List.mem_map.mp hmem
    obtain rfl := Text.Point.char.inj heq
    exact (plainCharacters_spec _ (h _ hc)).2.1 rfl
  have hstripped : stripComments (cs.map .char) = cs.map .char := by
    rw [stripComments, removeComments_of_not_mem hopen]
    apply Text.trim_eq_self
    · intro p hp
      rw [List.head?_map] at hp
      obtain ⟨c, hc, rfl⟩ := Option.map_eq_some_iff.mp hp
      exact hfirst c hc
    · intro p hp
      rw [List.getLast?_map] at hp
      obtain ⟨c, hc, rfl⟩ := Option.map_eq_some_iff.mp hp
      exact hlast c hc
  rw [Statement.ofLine, hstripped, List.map_map]
  have hchars : cs.map (Text.Point.replacement ∘ .char) = cs := by
    simp [Function.comp_def, Text.Point.replacement]
  rw [hchars, h.capitals]

theorem numeralAfter?_append_of_not_mem (h : letter ∉ cs) (rest : List Char) :
    numeralAfter? letter (cs ++ rest) = numeralAfter? letter rest := by
  induction cs with
  | nil => rfl
  | cons c cs ih =>
      have hne : (c == letter) = false := by simpa using Ne.symm (List.ne_of_not_mem_cons h)
      rw [List.cons_append, numeralAfter?, hne]
      exact ih (List.not_mem_of_not_mem_cons h)

theorem numeralAfter?_eq_none (h : letter ∉ cs) : numeralAfter? letter cs = none := by
  rw [← List.append_nil cs, numeralAfter?_append_of_not_mem h]
  rfl

theorem digitsAfter?_eq_none (h : letter ∉ cs) : digitsAfter? letter cs = none := by
  induction cs with
  | nil => rfl
  | cons c cs ih =>
      have hne : (c == letter) = false := by simpa using Ne.symm (List.ne_of_not_mem_cons h)
      rw [digitsAfter?, hne]
      exact ih (List.not_mem_of_not_mem_cons h)

theorem mentions_eq_false (h : letter ∉ cs) (word : List Char) :
    mentions (letter :: word) cs = false := by
  induction cs with
  | nil => rfl
  | cons c cs ih =>
      have hne := List.ne_of_not_mem_cons h
      rw [mentions, ih (List.not_mem_of_not_mem_cons h), Bool.or_false, List.isPrefixOf_cons_cons]
      simp [hne]

/-- A word as it is written after another one, if it has a value. -/
def written (letter : Char) : Option Float → List Char
  | some x => ' ' :: letter :: (coordinateText x).toList
  | none => []

/-- The value of a coordinate when its text is read again. -/
def reread (x : Float) : Float :=
  match scanNumeral? (coordinateText x).toList with
  | some (n, _) => n.toFloat
  | none => 0.0

theorem reread_eq {x : Float} {n : Decimal.Numeral}
    (h : scanNumeral? (coordinateText x).toList = some (n, rest)) : reread x = n.toFloat := by
  unfold reread
  split
  · next heq =>
    rw [h] at heq
    obtain ⟨rfl, _⟩ := Prod.mk.inj (Option.some.inj heq)
    rfl
  · next heq =>
    rw [h] at heq
    cases heq

/-- A value that is finite if it is there. -/
def IsFiniteIfAny (value : Option Float) : Prop := ∀ x ∈ value, x.isFinite = true

variable {value : Option Float}

theorem scanNumeral?_coordinateText {x : Float} (hx : x.isFinite = true) (hrest : EndsWord rest) :
    ∃ n, scanNumeral? ((coordinateText x).toList ++ rest) = some (n, rest) ∧ n.toFloat = reread x := by
  obtain ⟨b, hreading⟩ := Decimal.exists_reading_of_isFinite hx
  obtain ⟨negative, whole, fraction, hspelled⟩ := exists_spelled hreading
  have hread (rest : List Char) (hrest : EndsWord rest) :
      scanNumeral? ((coordinateText x).toList ++ rest) =
        some (pointNumeral negative whole fraction, rest) := by
    rw [hspelled.text]
    exact scanNumeral?_pointText hspelled.figures.1 hspelled.nonempty.1 hspelled.figures.2 hrest
  have hself := hread [] (Or.inl rfl)
  rw [List.append_nil] at hself
  exact ⟨pointNumeral negative whole fraction, hread rest hrest, (reread_eq hself).symm⟩

/-- The letters that words begin with. -/
def letters : List Char := ['G', 'T', 'X', 'Y', 'D', 'M']

theorem letters_spec :
    ∀ c ∈ letters, c.isDigit = false ∧ c ≠ '-' ∧ c ≠ '.' ∧ c ≠ ' ' ∧ c ∈ plainCharacters := by
  rw [← List.forall_iff_forall_mem]
  decide

theorem forall_mem_coordinateText {x : Float} (hx : x.isFinite = true) :
    ∀ c ∈ (coordinateText x).toList, c.isDigit = true ∨ c = '-' ∨ c = '.' := by
  obtain ⟨b, hreading⟩ := Decimal.exists_reading_of_isFinite hx
  obtain ⟨negative, whole, fraction, hspelled⟩ := exists_spelled hreading
  rw [hspelled.text, pointText]
  intro c hc
  rcases List.mem_append.mp hc with hsign | hc
  · cases negative with
    | true => exact Or.inr (Or.inl (List.mem_singleton.mp hsign))
    | false => cases hsign
  · rcases List.mem_append.mp hc with hwhole | hc
    · exact Or.inl (hspelled.figures.1 c hwhole)
    · rcases List.mem_cons.mp hc with hpoint | hfraction
      · exact Or.inr (Or.inr hpoint)
      · exact Or.inl (hspelled.figures.2 c hfraction)

theorem not_mem_coordinateText {x : Float} (hx : x.isFinite = true) (hletter : letter ∈ letters) :
    letter ∉ (coordinateText x).toList := by
  intro hmem
  obtain ⟨hdigit, hminus, hpoint, _⟩ := letters_spec letter hletter
  rcases forall_mem_coordinateText hx letter hmem with h | h | h
  · rw [hdigit] at h
    cases h
  · exact hminus h
  · exact hpoint h

theorem isPlain_written (hvalue : IsFiniteIfAny value) (hletter : letter ∈ letters) :
    IsPlain (written letter value) := by
  cases value with
  | none => exact nofun
  | some x =>
      rw [written, isPlain_cons, isPlain_cons]
      refine ⟨by decide, (letters_spec letter hletter).2.2.2.2, fun c hc => ?_⟩
      rcases forall_mem_coordinateText (hvalue x rfl) c hc with h | rfl | rfl
      · exact mem_plainCharacters_of_isDigit h
      · decide
      · decide

theorem not_mem_written {other : Char} (hvalue : IsFiniteIfAny value) (hletter : letter ∈ letters)
    (hne : letter ≠ other) : letter ∉ written other value := by
  cases value with
  | none => exact List.not_mem_nil
  | some x =>
      have hblank := (letters_spec letter hletter).2.2.2.1
      have htext := not_mem_coordinateText (hvalue x rfl) hletter
      simp [written, hblank, hne, htext]

theorem endsWord_written (letter : Char) (value : Option Float) (hrest : EndsWord rest) :
    EndsWord (written letter value ++ rest) := by
  cases value with
  | none => exact hrest
  | some x => exact Or.inr ⟨_, rfl⟩

theorem endsWord_written_last (letter : Char) (value : Option Float) :
    EndsWord (written letter value) := by
  rw [← List.append_nil (written letter value)]
  exact endsWord_written letter value (Or.inl rfl)

theorem valueOf?_written (hvalue : IsFiniteIfAny value) (hletter : letter ∈ letters)
    (hbefore : letter ∉ cs) (hafter : letter ∉ rest) (hrest : EndsWord rest) :
    valueOf? letter (cs ++ (written letter value ++ rest)) = value.map reread := by
  rw [valueOf?, numeralAfter?_append_of_not_mem hbefore]
  cases value with
  | none =>
      rw [written, List.nil_append, numeralAfter?_eq_none hafter]
      rfl
  | some x =>
      obtain ⟨n, hread, hn⟩ := scanNumeral?_coordinateText (hvalue x rfl) hrest
      have hblank : (' ' == letter) = false := by
        simpa using Ne.symm (letters_spec letter hletter).2.2.2.1
      rw [written, List.cons_append, List.cons_append, numeralAfter?, hblank]
      simp only [Bool.false_eq_true, if_false, numeralAfter?, beq_self_eq_true, if_true, hread,
        Option.map_some, hn]

/-- The words of a motion, each after a blank. -/
def writtenWords (x y size : Option Float) : List Char :=
  written 'X' x ++ (written 'Y' y ++ written 'D' size)

variable {x y size : Option Float}

theorem isPlain_writtenWords (hx : IsFiniteIfAny x) (hy : IsFiniteIfAny y)
    (hsize : IsFiniteIfAny size) : IsPlain (writtenWords x y size) := by
  apply (isPlain_written hx (by decide)).append
  exact (isPlain_written hy (by decide)).append (isPlain_written hsize (by decide))

theorem not_mem_writtenWords (hx : IsFiniteIfAny x) (hy : IsFiniteIfAny y)
    (hsize : IsFiniteIfAny size) (hletter : letter ∈ letters) (hneX : letter ≠ 'X')
    (hneY : letter ≠ 'Y') (hneD : letter ≠ 'D') : letter ∉ writtenWords x y size := by
  simp only [writtenWords, List.mem_append, not_or]
  exact ⟨not_mem_written hx hletter hneX, not_mem_written hy hletter hneY,
    not_mem_written hsize hletter hneD⟩

theorem endsWord_writtenWords (x y size : Option Float) : EndsWord (writtenWords x y size) := by
  apply endsWord_written
  apply endsWord_written
  exact endsWord_written_last 'D' size

/-- Each word of a motion is read from where it was written. -/
theorem words_ofLine (hx : IsFiniteIfAny x) (hy : IsFiniteIfAny y) (hsize : IsFiniteIfAny size)
    (hcommand : 'X' ∉ cs ∧ 'Y' ∉ cs ∧ 'D' ∉ cs) :
    Words.ofLine (cs ++ writtenWords x y size) =
      ⟨x.map reread, y.map reread, size.map reread⟩ := by
  have hend := endsWord_written_last 'D' size
  have hX : valueOf? 'X' (cs ++ writtenWords x y size) = x.map reread := by
    apply valueOf?_written hx (by decide) hcommand.1
    · simp only [List.mem_append, not_or]
      exact ⟨not_mem_written hy (by decide) (by decide), not_mem_written hsize (by decide) (by decide)⟩
    · exact endsWord_written 'Y' y hend
  have hY : valueOf? 'Y' (cs ++ writtenWords x y size) = y.map reread := by
    rw [writtenWords, ← List.append_assoc]
    apply valueOf?_written hy (by decide)
    · simp only [List.mem_append, not_or]
      exact ⟨hcommand.2.1, not_mem_written hx (by decide) (by decide)⟩
    · exact not_mem_written hsize (by decide) (by decide)
    · exact hend
  have hD : valueOf? 'D' (cs ++ writtenWords x y size) = size.map reread := by
    rw [writtenWords, ← List.append_assoc, ← List.append_assoc, ← List.append_nil (written 'D' size)]
    apply valueOf?_written hsize (by decide)
    · simp only [List.mem_append, not_or]
      exact ⟨⟨hcommand.2.2, not_mem_written hx (by decide) (by decide)⟩,
        not_mem_written hy (by decide) (by decide)⟩
    · exact List.not_mem_nil
    · exact Or.inl rfl
  rw [Words.ofLine, hX, hY, hD]

theorem EndsWord.isDigit_head? (h : EndsWord rest) : ∀ c ∈ rest.head?, Text.isDigit c = false := by
  rcases h with rfl | ⟨more, rfl⟩
  · exact nofun
  · intro c hc
    obtain rfl : ' ' = c := Option.some.inj hc
    decide

theorem ne_of_isDigit {c : Char} (hletter : letter ∈ letters) (hc : c.isDigit = true) :
    letter ≠ c := by
  rintro rfl
  rw [(letters_spec _ hletter).1] at hc
  cases hc

theorem isFigures_pair {a b : Char} (ha : a.isDigit = true) (hb : b.isDigit = true) :
    IsFigures [a, b] := by
  simp [IsFigures, ha, hb]

theorem ofCapitals_motion (hx : IsFiniteIfAny x) (hy : IsFiniteIfAny y) (hsize : IsFiniteIfAny size)
    {a b : Char} (ha : a.isDigit = true) (hb : b.isDigit = true) (hne : a ≠ '9') :
    Statement.ofCapitals ('G' :: a :: b :: writtenWords x y size) =
      .command (Motion.ofDigits? [a, b]) ⟨x.map reread, y.map reread, size.map reread⟩ := by
  have hcommand {letter : Char} (hletter : letter ∈ letters) (hG : letter ≠ 'G') :
      letter ∉ ['G', a, b] := by
    simp [hG, ne_of_isDigit hletter ha, ne_of_isDigit hletter hb]
  have hwords : Words.ofLine ('G' :: a :: b :: writtenWords x y size) = _ :=
    words_ofLine hx hy hsize ⟨hcommand (by decide) (by decide), hcommand (by decide) (by decide),
      hcommand (by decide) (by decide)⟩
  have htool : digitsAfter? 'T' ('G' :: a :: b :: writtenWords x y size) = none := by
    apply digitsAfter?_eq_none
    show 'T' ∉ ['G', a, b] ++ writtenWords x y size
    rw [List.mem_append, not_or]
    exact ⟨hcommand (by decide) (by decide),
      not_mem_writtenWords hx hy hsize (by decide) (by decide) (by decide) (by decide)⟩
  have hdigits : digitsAfter? 'G' ('G' :: a :: b :: writtenWords x y size) = some [a, b] := by
    have htaken : (a :: b :: writtenWords x y size).takeWhile Text.isDigit = [a, b] :=
      (isFigures_pair ha hb).takeWhile (endsWord_writtenWords x y size).isDigit_head?
    rw [digitsAfter?, beq_self_eq_true, if_pos rfl, htaken]
    rfl
  have hmode (c : Char) : mentions ['G', '9', c] ('G' :: a :: b :: writtenWords x y size) = false := by
    have hrest : 'G' ∉ a :: b :: writtenWords x y size := by
      have hG : 'G' ∈ letters := by decide
      have habsent := not_mem_writtenWords hx hy hsize hG (by decide) (by decide) (by decide)
      simp [ne_of_isDigit hG ha, ne_of_isDigit hG hb, habsent]
    rw [mentions, mentions_eq_false hrest]
    simp [List.isPrefixOf, Ne.symm hne]
  unfold Statement.ofCapitals
  rw [hmode, hmode, htool, hdigits, hwords]
  rfl

/-- A text that ends with a figure. -/
def EndsInFigure (cs : List Char) : Prop := ∃ before c, cs = before ++ [c] ∧ c.isDigit = true

theorem EndsInFigure.getLast? (h : EndsInFigure cs) : ∀ c ∈ cs.getLast?, Text.isBlank c = false := by
  obtain ⟨before, d, rfl, hd⟩ := h
  intro c hc
  obtain rfl : d = c := by simpa using hc
  apply (plainCharacters_spec d (mem_plainCharacters_of_isDigit hd)).2.2.2
  rintro rfl
  cases hd

theorem endsInFigure_append (h : EndsInFigure rest) (cs : List Char) : EndsInFigure (cs ++ rest) := by
  obtain ⟨before, c, rfl, hc⟩ := h
  exact ⟨cs ++ before, c, (List.append_assoc ..).symm, hc⟩

theorem endsInFigure_of_isFigures (h : IsFigures cs) (hne : cs ≠ []) : EndsInFigure cs :=
  ⟨cs.dropLast, cs.getLast hne, (List.dropLast_append_getLast hne).symm, h _ (List.getLast_mem hne)⟩

theorem EndsInFigure.written (h : EndsInFigure cs) (hvalue : IsFiniteIfAny value) (letter : Char) :
    EndsInFigure (cs ++ written letter value) := by
  cases value with
  | none =>
      rw [Program.written, List.append_nil]
      exact h
  | some x =>
      obtain ⟨b, hreading⟩ := Decimal.exists_reading_of_isFinite (hvalue x rfl)
      obtain ⟨negative, whole, fraction, hspelled⟩ := exists_spelled hreading
      have hfigures := endsInFigure_of_isFigures hspelled.figures.2 hspelled.nonempty.2
      rw [Program.written, hspelled.text, pointText_eq]
      apply endsInFigure_append
      apply endsInFigure_append _ [' ', letter]
      apply endsInFigure_append
      exact endsInFigure_append hfigures ['.']

end TurretPunch.Program
