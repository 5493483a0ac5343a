import TurretPunch.Json.Printer
import TurretPunch.Json.Reader

namespace TurretPunch.Json

/-!
# Strings that are read again

A string is written in ASCII, with a pair of escapes for each character beyond the first 65536 code
points, and is read as the characters that it had.
-/

variable {c : Char} {cs rest more start : List Char} {done : List Nat} {n : Nat}

theorem hexDigit?_digitChar (hn : n < 16) : hexDigit? n.digitChar = some n :=
  (show ∀ n : Fin 16, hexDigit? n.val.digitChar = some n.val by decide) ⟨n, hn⟩

/-- Four hexadecimal digits, with zeros in front. -/
theorem hexadecimal_four (hn : n < 0x10000) : Text.hexadecimal 4 n =
    [(n / 4096).digitChar, (n / 256 % 16).digitChar, (n / 16 % 16).digitChar, (n % 16).digitChar] := by
  have hstep (m : Nat) (hm : 16 ≤ m) :
      Nat.toDigits 16 m = Nat.toDigits 16 (m / 16) ++ [(m % 16).digitChar] :=
    Nat.toDigits_of_base_le (by decide) hm
  have hlast (m : Nat) (hm : m < 16) : Nat.toDigits 16 m = [m.digitChar] :=
    Nat.toDigits_of_lt_base hm
  have hthird : n / 16 / 16 = n / 256 := Nat.div_div_eq_div_mul _ _ _
  have hfirst : n / 256 / 16 = n / 4096 := Nat.div_div_eq_div_mul _ _ _
  unfold Text.hexadecimal
  by_cases hone : n < 16
  · have hzeros : n / 4096 = 0 ∧ n / 256 % 16 = 0 ∧ n / 16 % 16 = 0 ∧ n % 16 = n := by omega
    rw [hlast n hone, hzeros.1, hzeros.2.1, hzeros.2.2.1, hzeros.2.2.2]
    rfl
  · by_cases htwo : n < 256
    · have hzeros : n / 4096 = 0 ∧ n / 256 % 16 = 0 ∧ n / 16 % 16 = n / 16 := by omega
      rw [hstep n (by omega), hlast (n / 16) (by omega), hzeros.1, hzeros.2.1, hzeros.2.2]
      rfl
    · by_cases hthree : n < 4096
      · have hzeros : n / 4096 = 0 ∧ n / 256 % 16 = n / 256 := by omega
        rw [hstep n (by omega), hstep (n / 16) (by omega), hthird, hlast (n / 256) (by omega),
          hzeros.1, hzeros.2]
        rfl
      · rw [hstep n (by omega), hstep (n / 16) (by omega), hthird, hstep (n / 256) (by omega), hfirst,
          hlast (n / 4096) (by omega)]
        rfl

theorem hexNumber?_digits (hn : n < 0x10000) : hexNumber? (n / 4096).digitChar
    (n / 256 % 16).digitChar (n / 16 % 16).digitChar (n % 16).digitChar = some n := by
  have hvalue : ((n / 4096 * 16 + n / 256 % 16) * 16 + n / 16 % 16) * 16 + n % 16 = n := by omega
  rw [hexNumber?, hexDigit?_digitChar (by omega), hexDigit?_digitChar (by omega),
    hexDigit?_digitChar (by omega), hexDigit?_digitChar (by omega)]
  exact congrArg some hvalue

theorem scanString_unitEscape (hn : n < 0x10000) (hmore : more ≠ []) :
    scanString start done (unitEscape n ++ more) = scanString start (n :: done) more := by
  have hempty : more.isEmpty = false := by
    rw [Bool.eq_false_iff, Ne, List.isEmpty_iff]
    exact hmore
  rw [unitEscape, hexadecimal_four hn]
  simp only [List.cons_append, List.nil_append]
  rw [scanString, hexNumber?_digits hn, hempty]

/-- The numbers by which a character is written: its code point, or a surrogate pair. -/
def units (c : Char) : List Nat :=
  if c.toNat < 0x10000 then [c.toNat]
  else [0xD800 + (c.toNat - 0x10000) / 0x400, 0xDC00 + c.toNat % 0x400]

theorem scanString_escaped {e : Char} (hc : c ≠ 'u') (he : escapedChar? c = some e) :
    scanString start done ('\\' :: c :: more) = scanString start (e.toNat :: done) more := by
  rw [scanString]
  · rw [if_neg hc, he]
  · intro a b c' d rest heq
    exact hc (List.cons.inj heq).1

theorem scanString_plain (hquote : c ≠ '"') (hescape : c ≠ '\\') (hc : 0x20 ≤ c.toNat) :
    scanString start done (c :: more) = scanString start (c.toNat :: done) more := by
  rw [scanString, if_neg (Nat.not_lt.mpr hc)]
  · exact hquote
  · intro a b c' d rest heq
    exact absurd heq hescape
  · exact hescape

/-- A character is written with a letter for it, as it is, by its code point or as a surrogate pair. -/
theorem stringChar_cases (c : Char) :
    (∃ letter, letter ≠ 'u' ∧ escapedChar? letter = some c ∧ c.toNat < 0x10000 ∧
      stringChar c = ['\\', letter]) ∨
    (c ≠ '"' ∧ c ≠ '\\' ∧ 0x20 ≤ c.toNat ∧ c.toNat < 0x7F ∧ stringChar c = [c]) ∨
    (c.toNat < 0x10000 ∧ stringChar c = unitEscape c.toNat) ∨
    (0x10000 ≤ c.toNat ∧ stringChar c = unitEscape (0xD800 + (c.toNat - 0x10000) / 0x400) ++
      unitEscape (0xDC00 + c.toNat % 0x400)) := by
  by_cases hletter : c ∈ ['"', '\\', '\n', '\r', '\t', '\x0c', '\x08']
  · left
    simp only [List.mem_cons, List.not_mem_nil, or_false] at hletter
    rcases hletter with rfl | rfl | rfl | rfl | rfl | rfl | rfl <;>
      exact ⟨_, by decide, by decide, by decide, rfl⟩
  · right
    have hchar : stringChar c = if ' ' ≤ c ∧ c ≤ '~' then [c]
        else if c.toNat < 0x10000 then unitEscape c.toNat
        else unitEscape (0xD800 + (c.toNat - 0x10000) / 0x400) ++
          unitEscape (0xDC00 + c.toNat % 0x400) := by
      simp only [List.mem_cons, List.not_mem_nil, or_false, not_or] at hletter
      simp [stringChar, hletter]
    rw [hchar]
    split
    · next hprints =>
      left
      refine ⟨?_, ?_, hprints.1, Nat.lt_succ_of_le hprints.2, rfl⟩
      · rintro rfl
        exact hletter (by decide)
      · rintro rfl
        exact hletter (by decide)
    · right
      split
      · next hc => exact .inl ⟨hc, rfl⟩
      · next hc => exact .inr ⟨Nat.not_lt.mp hc, rfl⟩

theorem scanString_stringChar (c : Char) (hmore : more ≠ []) :
    scanString start done (stringChar c ++ more) =
      scanString start ((units c).reverse ++ done) more := by
  have hunit (hc : c.toNat < 0x10000) : (units c).reverse ++ done = c.toNat :: done := by
    rw [units, if_pos hc]
    rfl
  rcases stringChar_cases c with ⟨letter, hu, he, hc, htext⟩ | ⟨hquote, hescape, hlow, hhigh, htext⟩ |
    ⟨hc, htext⟩ | ⟨hc, htext⟩
  · rw [htext, hunit hc]
    exact scanString_escaped hu he
  · rw [htext, hunit (by omega)]
    exact scanString_plain hquote hescape hlow
  · rw [htext, hunit hc]
    exact scanString_unitEscape hc hmore
  · have hvalid : c.toNat.isValidChar := c.valid
    unfold Nat.isValidChar at hvalid
    rw [htext, List.append_assoc, scanString_unitEscape (by omega) (by simp [unitEscape]),
      scanString_unitEscape (by omega) hmore, units, if_neg (Nat.not_lt.mpr hc)]
    rfl

theorem scanString_flatMap (cs : List Char) (start : List Char) (done : List Nat) (rest : List Char) :
    scanString start done (cs.flatMap stringChar ++ '"' :: rest) =
      .ok (done.reverse ++ cs.flatMap units, rest) := by
  induction cs generalizing done with
  | nil =>
      rw [List.flatMap_nil, List.nil_append, scanString, List.flatMap_nil, List.append_nil]
  | cons c cs ih =>
      rw [List.flatMap_cons, List.append_assoc, scanString_stringChar c (by simp), ih,
        List.reverse_append, List.reverse_reverse, List.flatMap_cons, List.append_assoc]

theorem joinPairs_cons {ns : List Nat} (hn : isHighSurrogate n = false) :
    joinPairs (n :: ns) = .ofCode n :: joinPairs ns := by
  cases ns with
  | nil => rfl
  | cons m ns => rw [joinPairs, hn, Bool.false_and, if_neg Bool.false_ne_true]

theorem ofCode_toNat (c : Char) : Text.Point.ofCode c.toNat = .char c := by
  have hvalid : c.toNat.isValidChar := c.valid
  rw [Text.Point.ofCode, if_pos hvalid, Char.ofNat_toNat]

theorem joinPairs_units (cs : List Char) : joinPairs (cs.flatMap units) = cs.map .char := by
  induction cs with
  | nil => rfl
  | cons c cs ih =>
      have hvalid : c.toNat.isValidChar := c.valid
      unfold Nat.isValidChar at hvalid
      rw [List.flatMap_cons, List.map_cons, units]
      split
      · have hhigh : isHighSurrogate c.toNat = false := by
          simp only [isHighSurrogate, Bool.and_eq_false_iff, decide_eq_false_iff_not]
          omega
        rw [List.singleton_append, joinPairs_cons hhigh, ih, ofCode_toNat]
      · next hc =>
        have hpair : (isHighSurrogate (0xD800 + (c.toNat - 0x10000) / 0x400) &&
            isLowSurrogate (0xDC00 + c.toNat % 0x400)) = true := by
          simp only [isHighSurrogate, isLowSurrogate, Bool.and_eq_true, decide_eq_true_iff]
          omega
        have hjoin : joinSurrogates (0xD800 + (c.toNat - 0x10000) / 0x400)
            (0xDC00 + c.toNat % 0x400) = c.toNat := by
          unfold joinSurrogates
          omega
        rw [List.cons_append, List.singleton_append, joinPairs, if_pos hpair, hjoin, ih, ofCode_toNat]

/-- A string is read as it was written. -/
theorem readString_stringText (s : String) (rest : List Char) :
    readString (s.toList.flatMap stringChar ++ '"' :: rest) = .ok (.ofString s, rest) := by
  rw [readString, scanString_flatMap, List.reverse_nil, List.nil_append]
  exact congrArg (fun ps => Except.ok (Text.Points.mk ps, rest)) (joinPairs_units s.toList)

theorem ne_return_of_hexDigit (hn : n < 16) : n.digitChar ≠ '\r' :=
  (show ∀ n : Fin 16, n.val.digitChar ≠ '\r' by decide) ⟨n, hn⟩

theorem return_not_mem_unitEscape (hn : n < 0x10000) : '\r' ∉ unitEscape n := by
  rw [unitEscape, hexadecimal_four hn]
  simp only [List.mem_cons, List.not_mem_nil, or_false, not_or]
  exact ⟨by decide, by decide, (ne_return_of_hexDigit (by omega)).symm,
    (ne_return_of_hexDigit (by omega)).symm, (ne_return_of_hexDigit (by omega)).symm,
    (ne_return_of_hexDigit (by omega)).symm⟩

theorem return_not_mem_stringChar (c : Char) : '\r' ∉ stringChar c := by
  have hvalid : c.toNat.isValidChar := c.valid
  unfold Nat.isValidChar at hvalid
  rcases stringChar_cases c with ⟨letter, _, he, _, htext⟩ | ⟨_, _, hlow, _, htext⟩ | ⟨hc, htext⟩ |
    ⟨hc, htext⟩
  · rw [htext]
    intro hmem
    simp only [List.mem_cons, List.not_mem_nil, or_false] at hmem
    rcases hmem with heq | rfl
    · exact absurd heq (by decide)
    · cases he
  · rw [htext, List.mem_singleton]
    rintro rfl
    exact absurd hlow (by decide)
  · rw [htext]
    exact return_not_mem_unitEscape hc
  · rw [htext, List.mem_append, not_or]
    exact ⟨return_not_mem_unitEscape (by omega), return_not_mem_unitEscape (by omega)⟩

end TurretPunch.Json
