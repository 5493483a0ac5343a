import TurretPunch.Proofs.CommandLine.Number
import TurretPunch.Proofs.Outcome
import TurretPunch.Proofs.Program.Shape
import TurretPunch.Proofs.Program.Writing

namespace TurretPunch.Program

/-!
# Stations that cannot be read

Only a station with too many digits keeps a text from being read. The line of the first one gives the
fault, whatever the lines before it have left in force. All other numbers in a text can be read, however
they are spelled.
-/

open Text (Point)

variable {tooling : Tooling} {state : ReaderState} {line : Int} {fault : Fault}
  {lines : List (List Point)} {ps : List Point} {cs ds : List Char} {n : Nat}

/-- A line sets no mode, and its first station has more digits than can be read. -/
structure Overlong (ps : List Point) (n : Nat) : Prop where
  unset : ¬ ['G', '9', '0'] <:+: capitals ps ∧ ¬ ['G', '9', '1'] <:+: capitals ps
  station : ∃ ds, FirstDigits 'T' ds (capitals ps) ∧ ds.length = n
  long : 4300 < n

theorem ofCapitals_eq_changeTool_iff : Statement.ofCapitals cs = .changeTool ds ↔
    (¬ ['G', '9', '0'] <:+: cs ∧ ¬ ['G', '9', '1'] <:+: cs) ∧ FirstDigits 'T' ds cs := by
  have hfirst : FirstDigits 'T' ds cs ↔ digitsAfter? 'T' cs = some ds :=
    ⟨fun h => h.digitsAfter?_eq (by decide), firstDigits_of_digitsAfter?⟩
  rw [hfirst, ← mentions_iff, ← mentions_iff]
  unfold Statement.ofCapitals
  by_cases habsolute : mentions ['G', '9', '0'] cs = true
  · simp [habsolute]
  by_cases hrelative : mentions ['G', '9', '1'] cs = true
  · simp [habsolute, hrelative]
  cases digitsAfter? 'T' cs with
  | some station => simp [habsolute, hrelative]
  | none =>
      cases digitsAfter? 'G' cs with
      | some command => simp [habsolute, hrelative]
      | none =>
          simp only [habsolute, hrelative, Bool.false_eq_true, if_false]
          split <;> simp

theorem overlong_iff :
    Overlong ps n ↔ ∃ ds, Statement.ofLine ps = .changeTool ds ∧ ds.length = n ∧ 4300 < n := by
  constructor
  · rintro ⟨hunset, ⟨ds, hfirst, hlength⟩, hlong⟩
    exact ⟨ds, ofCapitals_eq_changeTool_iff.mpr ⟨hunset, hfirst⟩, hlength, hlong⟩
  · rintro ⟨ds, hstatement, hlength, hlong⟩
    obtain ⟨hunset, hfirst⟩ := ofCapitals_eq_changeTool_iff.mp hstatement
    exact ⟨hunset, ⟨ds, hfirst, hlength⟩, hlong⟩

theorem execute_eq_error_iff : execute tooling state line (.ofLine ps) = .error fault ↔
    ∃ n, Overlong ps n ∧ fault = .longInteger n := by
  simp only [overlong_iff]
  cases hstatement : Statement.ofLine ps with
  | nothing | setMode | command | again => simp [execute]
  | changeTool ds =>
      rw [execute, stationNumber]
      split
      · next hlong =>
        have hlimit : 4300 < ds.length := hlong
        simp [Except.map, hlimit, eq_comm]
      · next hshort =>
        have hlimit : ¬ 4300 < ds.length := hshort
        simp [Except.map, hlimit]

/-- Lines are read up to the first one that cannot be. -/
theorem readLines_eq_error_iff : (readLines tooling state line lines).2 = .error fault ↔
    ∃ before ps after, lines = before ++ ps :: after ∧ (∀ qs ∈ before, ∀ n, ¬ Overlong qs n) ∧
      ∃ n, Overlong ps n ∧ fault = .longInteger n := by
  induction lines generalizing state line with
  | nil => simp [readLines]
  | cons first rest ih =>
      have herror (fault : Fault) : execute tooling state line (.ofLine first) = .error fault ↔
          ∃ n, Overlong first n ∧ fault = .longInteger n := execute_eq_error_iff
      rw [exists_first_cons, ← herror]
      cases hexecuted : execute tooling state line (.ofLine first) with
      | error other =>
          obtain ⟨n, hlong, _⟩ := (herror other).mp hexecuted
          have hread : (readLines tooling state line (first :: rest)).2 = .error other := by
            rw [readLines, hexecuted]
          rw [hread, or_iff_left fun h => h.1 n hlong, Except.error.injEq, Except.error.injEq]
      | ok executed =>
          obtain ⟨added, mid⟩ := executed
          have hshort (n : Nat) : ¬ Overlong first n := by
            intro hlong
            cases hexecuted.symm.trans ((herror _).mpr ⟨n, hlong, rfl⟩)
          rw [readLines_cons _ _ _ _ _ hexecuted, ih]
          simp only [reduceCtorEq, false_or, hshort, not_false_eq_true, implies_true, true_and]

theorem exists_first_overlong (h : ps ∈ lines) (hlong : Overlong ps n) :
    ∃ before ps after, lines = before ++ ps :: after ∧ (∀ qs ∈ before, ∀ n, ¬ Overlong qs n) ∧
      ∃ n, Overlong ps n := by
  induction lines with
  | nil => cases h
  | cons first rest ih =>
      rw [exists_first_cons]
      by_cases hfirst : ∃ m, Overlong first m
      · exact Or.inl hfirst
      · right
        refine ⟨not_exists.mp hfirst, ih ?_⟩
        rcases List.mem_cons.mp h with rfl | h
        · exact absurd ⟨n, hlong⟩ hfirst
        · exact h

theorem ofText_eq_error_iff {text : Text.Points} : ofText tooling text = .error fault ↔
    ∃ before ps after, Text.lines text.toList = before ++ ps :: after ∧
      (∀ qs ∈ before, ∀ n, ¬ Overlong qs n) ∧ ∃ n, Overlong ps n ∧ fault = .longInteger n := by
  rw [← @readLines_eq_error_iff tooling {} 0]
  unfold ofText readText
  split
  · next heq => rw [heq, Except.error.injEq, Except.error.injEq]
  · next heq =>
    rw [heq]
    simp

theorem exists_fault_iff {text : Text.Points} : (∃ fault, ofText tooling text = .error fault) ↔
    ∃ ps ∈ Text.lines text.toList, ∃ n, Overlong ps n := by
  simp only [ofText_eq_error_iff]
  constructor
  · rintro ⟨fault, before, ps, after, hlines, _, n, hlong, _⟩
    rw [hlines]
    exact ⟨ps, List.mem_append_right _ List.mem_cons_self, n, hlong⟩
  · rintro ⟨ps, hps, n, hlong⟩
    obtain ⟨before, first, after, hlines, hbefore, m, hfirst⟩ := exists_first_overlong hps hlong
    exact ⟨_, before, first, after, hlines, hbefore, m, hfirst, rfl⟩

/-- A text cannot be read exactly if a line of it has a station with too many digits. The first such
line gives the fault. All numerals after the letters of coordinates and sizes are numbers, and digits
after the letter of a station are one if there are not too many. -/
theorem ofText_fails_iff (tooling : Tooling) (text : Text.Points) :
    ((∃ fault, ofText tooling text = .error fault) ↔
        ∃ ps ∈ Text.lines text.toList, ∃ n, Overlong ps n) ∧
      ((∃ program, ofText tooling text = .ok program) ↔
        ∀ ps ∈ Text.lines text.toList, ∀ n, ¬ Overlong ps n) ∧
      (∀ fault, ofText tooling text = .error fault ↔ ∃ before ps after,
        Text.lines text.toList = before ++ ps :: after ∧ (∀ qs ∈ before, ∀ n, ¬ Overlong qs n) ∧
          ∃ n, Overlong ps n ∧ fault = .longInteger n) ∧
      (∀ n numeral, Spells n numeral →
        CommandLine.readFloat? (.ofChars numeral) = some n.toFloat) ∧
      (∀ letter cs value, valueOf? letter cs = some value → ∃ before n numeral rest,
        cs = before ++ letter :: (numeral ++ rest) ∧ Spells n numeral ∧ n.toFloat = value) ∧
      ∀ ds, IsDigits ds → ds ≠ [] → ds.length ≤ 4300 → ∃ station,
        CommandLine.readInt? (.ofChars ds) = some station ∧ stationNumber ds = .ok station := by
  refine ⟨exists_fault_iff, ?_, fun fault => ofText_eq_error_iff,
    fun n numeral => CommandLine.readFloat?_of_spells, fun letter cs value => exists_word,
    fun ds h hne hlength => ?_⟩
  · constructor
    · rintro ⟨program, hread⟩ ps hps n hlong
      obtain ⟨fault, hfault⟩ := exists_fault_iff.mpr ⟨ps, hps, n, hlong⟩
      cases hread.symm.trans hfault
    · intro hshort
      cases hread : ofText tooling text with
      | ok program => exact ⟨program, rfl⟩
      | error fault =>
          obtain ⟨ps, hps, n, hlong⟩ := exists_fault_iff.mp ⟨fault, hread⟩
          exact absurd hlong (hshort ps hps n)
  · refine ⟨_, CommandLine.readInt?_of_isDigits h hne hlength, ?_⟩
    rw [stationNumber, if_neg (show ¬ Text.maxDigits < ds.length from Nat.not_lt.mpr hlength)]

/-- A station of one digit too many after one that can be read, a numeral in two scripts, and as many
zeros as can be read. -/
theorem ofText_fails_iff_station :
    let tooling : Tooling := ⟨⟨[]⟩, .real 8.0⟩
    let long : List Char := List.replicate 4301 '7'
    let text : Text.Points := .ofChars ('T' :: '5' :: '\n' :: 'T' :: long)
    ofText tooling text = .error (.longInteger 4301) ∧
      Spells ⟨true, [1, 2], [], -3⟩ ['-', '1', '٢', '.', 'E', '-', '3'] ∧
      CommandLine.readFloat? (.ofChars ['-', '1', '٢', '.', 'E', '-', '3']) =
        some (Decimal.Numeral.toFloat ⟨true, [1, 2], [], -3⟩) ∧
      ∃ station, CommandLine.readInt? (.ofChars (List.replicate 4300 '0')) = some station ∧
        stationNumber (List.replicate 4300 '0') = .ok station := by
  intro tooling long text
  obtain ⟨_, _, hfault, hfloat, _, hint⟩ := ofText_fails_iff tooling text
  have hfigures (c : Char) (hc : c.isDigit = true) (n : Nat) :
      Text.IsFigures (List.replicate n c) := by
    intro d hd
    rwa [List.eq_of_mem_replicate hd]
  have hne (c : Char) (n : Nat) : List.replicate (n + 1) c ≠ [] := List.cons_ne_nil _ _
  have hlines : Text.lines text.toList = [['T', '5'].map .char, ('T' :: long).map .char] := by
    have hnewline := (@isPlain_word 'T' (by decide) _ (hfigures '7' rfl 4301)).newline_not_mem
    have htext : text.toList = ['T', '5'].map .char ++ .char '\n' :: ('T' :: long).map .char := rfl
    rw [htext, Text.lines_append, Text.lines_of_newline_not_mem hnewline]
    rfl
  have hshort (n : Nat) : ¬ Overlong (['T', '5'].map .char) n := by
    intro hlong
    obtain ⟨ds, hstatement, rfl, hlength⟩ := overlong_iff.mp hlong
    rw [@ofLine_tool ['5'] (hfigures '5' rfl 1) (List.cons_ne_nil _ _)] at hstatement
    obtain rfl := Statement.changeTool.inj hstatement
    simp at hlength
  have hlong : Overlong (('T' :: long).map .char) 4301 := by
    rw [overlong_iff]
    exact ⟨long, ofLine_tool (hfigures '7' rfl 4301) (hne '7' 4300), List.length_replicate, by decide⟩
  have hspelled : Spells ⟨true, [1, 2], [], -3⟩ ['-', '1', '٢', '.', 'E', '-', '3'] :=
    @Spells.intro true (-3) ['-'] ['1', '٢'] [] ['1', '٢', '.'] ['E', '-', '3'] .minus
      (.point (List.forall_mem_cons.mpr ⟨rfl, List.forall_mem_singleton.mpr rfl⟩) nofun (Or.inl (by decide)))
      (@SpellsExponent.some true ['-'] ['3'] .minus (List.forall_mem_singleton.mpr rfl) (by decide))
  refine ⟨?_, hspelled, hfloat _ _ hspelled, ?_⟩
  · rw [hfault, hlines]
    refine ⟨[_], _, [], rfl, ?_, 4301, hlong, rfl⟩
    simpa using hshort
  · have hzeros : IsDigits (List.replicate 4300 '0') :=
      fun c hc => Text.isDigit_of_isDigit (hfigures '0' rfl 4300 c hc)
    exact hint _ hzeros (hne '0' 4299) (Nat.le_of_eq List.length_replicate)

end TurretPunch.Program
