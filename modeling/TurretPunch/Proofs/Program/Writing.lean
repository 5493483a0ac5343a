import TurretPunch.Proofs.Program.Composition
import TurretPunch.Proofs.Program.Spelling

namespace TurretPunch

/-!
# What is written is read

A program that is written instruction by instruction is read as if each instruction had been carried
out at once, in a line of its own.
-/

namespace Program

open Text (IsFigures)

variable {x y size : Option Float} {tooling : Tooling} {letter a b : Char}

/-- What can be written so that it is read again: a station that is not negative and has no more digits
than can be read, finite numbers, and comments of one line. -/
def Instruction.IsWritable : Instruction → Prop
  | changeTool station => 0 ≤ station ∧ (Decimal.digits station.toNat).length ≤ Text.maxDigits
  | rapid x y => IsFiniteIfAny x ∧ IsFiniteIfAny y
  | punch x y size => IsFiniteIfAny x ∧ IsFiniteIfAny y ∧ IsFiniteIfAny size
  | comment text => .char '\n' ∉ text.toList
  | absolute | relative | endOfProgram => True

/-- What the line of an instruction says. A coordinate is there if it was given. -/
def Instruction.statement : Instruction → Statement
  | absolute => .setMode .absolute
  | relative => .setMode .relative
  | changeTool station => .changeTool (Decimal.zeroPadded 2 station).toList
  | rapid x y => .command (some .rapid) ⟨x.map reread, y.map reread, none⟩
  | punch x y size => .command (some .punch) ⟨x.map reread, y.map reread, size.map reread⟩
  | comment _ | endOfProgram => .nothing

/-- What an instruction does when it is carried out in a line. -/
def Instruction.obey (tooling : Tooling) (state : ReaderState) (line : Int) :
    Instruction → Program × ReaderState
  | absolute => ({}, { state with mode := .absolute })
  | relative => ({}, { state with mode := .relative })
  | changeTool station =>
    (Program.changeTool tooling state.mode line station, { state with tool := station })
  | rapid x y =>
    makeMotion tooling { state with motion := some .rapid } line .rapid
      ⟨x.map reread, y.map reread, none⟩
  | punch x y size =>
    makeMotion tooling { state with motion := some .punch } line .punch
      ⟨x.map reread, y.map reread, size.map reread⟩
  | comment _ | endOfProgram => ({}, state)

/-- What instructions do one after the other, each in the next line. -/
def obeyAll (tooling : Tooling) (state : ReaderState) (line : Int) :
    List Instruction → Program × ReaderState
  | [] => ({}, state)
  | i :: rest =>
    let (added, state) := i.obey tooling state line
    let (more, last) := obeyAll tooling state (line + 1) rest
    (added ++ more, last)

theorem isFiniteIfAny_none : IsFiniteIfAny none := by
  intro x hx
  cases hx

theorem toList_ofString (s : String) : (Text.Points.ofString s).toList = s.toList.map .char := rfl

theorem intercalate_cons {α : Type} (between first : List α) (rest : List (List α)) :
    between.intercalate (first :: rest) = first ++ rest.flatMap (between ++ ·) := by
  induction rest generalizing first with
  | nil => simp
  | cons next rest ih =>
      rw [List.intercalate_cons_cons, ih, List.flatMap_cons, List.append_assoc, List.append_assoc]

theorem toList_intercalate_words (command : String) (words : List String) :
    (" ".intercalate (command :: words)).toList =
      command.toList ++ words.flatMap (' ' :: ·.toList) := by
  rw [String.toList_intercalate, List.map_cons, intercalate_cons, List.flatMap_map]
  rfl

theorem flatMap_word {text : String} (letter : Char) (h : text.toList = [letter])
    (value : Option Float) :
    (Instruction.word text value).flatMap (' ' :: ·.toList) = written letter value := by
  cases value with
  | none => rfl
  | some x => simp [Instruction.word, written, h]

theorem toList_rapid (x y : Option Float) :
    (Instruction.rapid x y).line.toList = ('G' :: '0' :: '0' :: writtenWords x y none).map .char := by
  rw [Instruction.line, toList_ofString, List.cons_append, toList_intercalate_words,
    List.flatMap_append, flatMap_word 'X' rfl, flatMap_word 'Y' rfl]
  simp [writtenWords, written]

theorem toList_punch (x y size : Option Float) :
    (Instruction.punch x y size).line.toList =
      ('G' :: '8' :: '1' :: writtenWords x y size).map .char := by
  rw [Instruction.line, toList_ofString, List.cons_append, List.cons_append,
    toList_intercalate_words, List.flatMap_append, List.flatMap_append, flatMap_word 'X' rfl,
    flatMap_word 'Y' rfl, flatMap_word 'D' rfl]
  simp [writtenWords]

theorem toList_changeTool (station : Int) :
    (Instruction.changeTool station).line.toList =
      ('T' :: (Decimal.zeroPadded 2 station).toList).map .char := by
  rw [Instruction.line]
  rfl

theorem toList_comment (text : Text.Points) :
    (Instruction.comment text).line.toList =
      .char '(' :: ((Instruction.commentText text).toList ++ [.char ')']) := by
  rw [Instruction.line]
  rfl

theorem toList_zeroPadded {station : Int} (h : 0 ≤ station) :
    (Decimal.zeroPadded 2 station).toList =
      List.replicate (2 - (Decimal.digits station.toNat).length) '0' ++
        Decimal.digits station.toNat := by
  have habs : station.natAbs = station.toNat := by omega
  simp [Decimal.zeroPadded, Int.not_lt.mpr h, habs]

theorem isFigures_zeroPadded {station : Int} (h : 0 ≤ station) :
    IsFigures (Decimal.zeroPadded 2 station).toList := by
  rw [toList_zeroPadded h]
  apply IsFigures.append _ (Decimal.isFigures_digits _)
  intro c hc
  rw [List.eq_of_mem_replicate hc]
  rfl

theorem zeroPadded_ne_nil {station : Int} (h : 0 ≤ station) :
    (Decimal.zeroPadded 2 station).toList ≠ [] := by
  rw [toList_zeroPadded h]
  simp [Decimal.digits_ne_nil]

/-- Zeros in front do not change a station. -/
theorem stationNumber_zeroPadded {station : Int} (h : 0 ≤ station)
    (hlength : (Decimal.digits station.toNat).length ≤ Text.maxDigits) :
    stationNumber (Decimal.zeroPadded 2 station).toList = .ok station := by
  have hpadded : (Decimal.zeroPadded 2 station).toList.length ≤ Text.maxDigits := by
    rw [toList_zeroPadded h, List.length_append, List.length_replicate]
    unfold Text.maxDigits at hlength ⊢
    omega
  rw [stationNumber, if_neg (Nat.not_lt.mpr hpadded), (isFigures_zeroPadded h).digitsValue,
    toList_zeroPadded h, Nat.ofDigitChars_append, Nat.ofDigitChars_replicate_zero, Nat.mul_zero,
    Decimal.digits, Nat.ofDigitChars_ten_toDigits, Int.toNat_of_nonneg h]

theorem isPlain_word (hletter : letter ∈ letters) {ds : List Char} (h : IsFigures ds) :
    IsPlain (letter :: ds) :=
  isPlain_cons.mpr ⟨(letters_spec letter hletter).2.2.2.2, isPlain_of_isFigures h⟩

theorem isBlank_head? (hletter : letter ∈ letters) (cs : List Char) :
    ∀ c ∈ (letter :: cs).head?, Text.isBlank c = false := by
  intro c hc
  obtain rfl : letter = c := Option.some.inj hc
  obtain ⟨_, _, _, hblank, hplain⟩ := letters_spec letter hletter
  exact (plainCharacters_spec letter hplain).2.2.2 hblank

theorem ofLine_word (hletter : letter ∈ letters) {ds : List Char} (h : IsFigures ds) (hne : ds ≠ []) :
    Statement.ofLine ((letter :: ds).map .char) = Statement.ofCapitals (letter :: ds) := by
  have hend := endsInFigure_append (endsInFigure_of_isFigures h hne) [letter]
  exact (isPlain_word hletter h).ofLine (isBlank_head? hletter ds) hend.getLast?

theorem isPlain_code (hletter : letter ∈ letters) (ha : a.isDigit = true) (hb : b.isDigit = true) :
    IsPlain [letter, a, b] :=
  isPlain_word hletter (isFigures_pair ha hb)

theorem ofLine_code (hletter : letter ∈ letters) (ha : a.isDigit = true) (hb : b.isDigit = true) :
    Statement.ofLine ([letter, a, b].map .char) = Statement.ofCapitals [letter, a, b] :=
  ofLine_word hletter (isFigures_pair ha hb) (List.cons_ne_nil _ _)

theorem isPlain_motion (hx : IsFiniteIfAny x) (hy : IsFiniteIfAny y) (hsize : IsFiniteIfAny size)
    (ha : a.isDigit = true) (hb : b.isDigit = true) :
    IsPlain ('G' :: a :: b :: writtenWords x y size) := by
  have hcommand : IsPlain ['G', a, b] := isPlain_code (by decide) ha hb
  exact hcommand.append (isPlain_writtenWords hx hy hsize)

theorem ofLine_motion (hx : IsFiniteIfAny x) (hy : IsFiniteIfAny y) (hsize : IsFiniteIfAny size)
    (ha : a.isDigit = true) (hb : b.isDigit = true) (hne : a ≠ '9') :
    Statement.ofLine (('G' :: a :: b :: writtenWords x y size).map .char) =
      .command (Motion.ofDigits? [a, b]) ⟨x.map reread, y.map reread, size.map reread⟩ := by
  have hend : EndsInFigure ('G' :: a :: b :: writtenWords x y size) := by
    have hcommand : EndsInFigure ['G', a, b] := ⟨['G', a], b, rfl, hb⟩
    have hwords := ((hcommand.written hx 'X').written hy 'Y').written hsize 'D'
    simpa [writtenWords] using hwords
  rw [(isPlain_motion hx hy hsize ha hb).ofLine (isBlank_head? (by decide) _) hend.getLast?,
    ofCapitals_motion hx hy hsize ha hb hne]

theorem ofLine_tool {ds : List Char} (h : IsFigures ds) (hne : ds ≠ []) :
    Statement.ofLine (('T' :: ds).map .char) = .changeTool ds := by
  have hG : 'G' ∉ 'T' :: ds := by
    intro hmem
    rcases List.mem_cons.mp hmem with heq | hmem
    · cases heq
    · cases h 'G' hmem
  have hend' : ∀ c ∈ ([] : List Char).head?, Text.isDigit c = false := nofun
  have htaken : ds.takeWhile Text.isDigit = ds := by
    simpa using h.takeWhile hend'
  have htool : digitsAfter? 'T' ('T' :: ds) = some ds := by
    rw [digitsAfter?, beq_self_eq_true, if_pos rfl, htaken]
    simp [hne]
  rw [ofLine_word (by decide) h hne, Statement.ofCapitals, mentions_eq_false hG,
    mentions_eq_false hG, htool]
  rfl

theorem ofLine_comment (text : Text.Points) :
    Statement.ofLine (Instruction.comment text).line.toList = .nothing := by
  have hinner : .char ')' ∉ (Instruction.commentText text).toList := by
    simp [Instruction.commentText]
  rw [Statement.ofLine, stripComments, toList_comment, removeComments_comment hinner, removeComments_nil]
  rfl

/-- The line of an instruction says what the instruction is, and nothing else. -/
theorem ofLine_line {i : Instruction} (h : i.IsWritable) :
    Statement.ofLine i.line.toList = i.statement := by
  cases i with
  | absolute => exact @ofLine_code 'G' '9' '0' (by decide) rfl rfl
  | relative => exact @ofLine_code 'G' '9' '1' (by decide) rfl rfl
  | changeTool station =>
      rw [toList_changeTool]
      exact ofLine_tool (isFigures_zeroPadded h.1) (zeroPadded_ne_nil h.1)
  | rapid x y =>
      rw [toList_rapid, ofLine_motion h.1 h.2 isFiniteIfAny_none rfl rfl (by decide)]
      rfl
  | punch x y size =>
      rw [toList_punch, ofLine_motion h.1 h.2.1 h.2.2 rfl rfl (by decide)]
      rfl
  | comment text => exact ofLine_comment text
  | endOfProgram => exact @ofLine_code 'M' '3' '0' (by decide) rfl rfl

theorem execute_line {i : Instruction} (h : i.IsWritable) (state : ReaderState) (line : Int) :
    execute tooling state line (.ofLine i.line.toList) = .ok (i.obey tooling state line) := by
  rw [ofLine_line h]
  cases i with
  | changeTool station =>
      rw [Instruction.statement, execute, stationNumber_zeroPadded h.1 h.2]
      rfl
  | absolute | relative | rapid | punch | comment | endOfProgram => rfl

theorem IsPlain.newline_not_mem {cs : List Char} (h : IsPlain cs) :
    Text.Point.char '\n' ∉ cs.map .char := by
  intro hmem
  obtain ⟨c, hc, heq⟩ := List.mem_map.mp hmem
  obtain rfl := Text.Point.char.inj heq
  exact (plainCharacters_spec _ (h _ hc)).2.2.1 rfl

theorem newline_not_mem_line {i : Instruction} (h : i.IsWritable) :
    Text.Point.char '\n' ∉ i.line.toList := by
  cases i with
  | absolute => exact (@isPlain_code 'G' '9' '0' (by decide) rfl rfl).newline_not_mem
  | relative => exact (@isPlain_code 'G' '9' '1' (by decide) rfl rfl).newline_not_mem
  | changeTool station =>
      rw [toList_changeTool]
      exact (isPlain_word (by decide) (isFigures_zeroPadded h.1)).newline_not_mem
  | rapid x y =>
      rw [toList_rapid]
      exact (isPlain_motion h.1 h.2 isFiniteIfAny_none rfl rfl).newline_not_mem
  | punch x y size =>
      rw [toList_punch]
      exact (isPlain_motion h.1 h.2.1 h.2.2 rfl rfl).newline_not_mem
  | comment text =>
      have htext : Text.Point.char '\n' ∉ text.toList := h
      simp [toList_comment, Instruction.commentText, htext]
  | endOfProgram => exact (@isPlain_code 'M' '3' '0' (by decide) rfl rfl).newline_not_mem

theorem lines_write {instructions : List Instruction} (hne : instructions ≠ [])
    (h : ∀ i ∈ instructions, i.IsWritable) :
    Text.lines (write instructions).toList = instructions.map (·.line.toList) := by
  have htext : (write instructions).toList =
      List.intercalate [.char '\n'] (instructions.map (·.line.toList)) := by
    rw [write, joinLines, Text.Points.intercalate, List.map_map]
    rfl
  rw [htext]
  apply Text.lines_intercalate_eq_self (by simpa using hne)
  intro ps hps
  obtain ⟨i, hi, rfl⟩ := List.mem_map.mp hps
  exact newline_not_mem_line (h i hi)

theorem readLines_line {instructions : List Instruction} (h : ∀ i ∈ instructions, i.IsWritable)
    (state : ReaderState) (line : Int) :
    readLines tooling state line (instructions.map (·.line.toList)) =
      ((obeyAll tooling state line instructions).1,
        .ok (obeyAll tooling state line instructions).2) := by
  induction instructions generalizing state line with
  | nil => rfl
  | cons i rest ih =>
      obtain ⟨hi, hrest⟩ := List.forall_mem_cons.mp h
      rw [List.map_cons, readLines_cons _ _ _ _ _ (execute_line hi state line), ih hrest]
      rfl

/-- A program that is written is read as what its instructions do, each in its own line, and ends in the
last one. Each line is read as its own instruction. A coordinate is read as the value of the numeral
that it is written as, which stands for the nearest multiple of a thousandth, the even one if two are as
near. -/
theorem ofText_write (tooling : Tooling) {instructions : List Instruction} (hne : instructions ≠ [])
    (h : ∀ i ∈ instructions, i.IsWritable) :
    let (program, state) := obeyAll tooling {} 0 instructions
    ofText tooling (write instructions) =
        .ok (program ++ ofOperation state.mode (.finish (instructions.length - 1))) ∧
      (∀ i ∈ instructions, Statement.ofLine i.line.toList = i.statement) ∧
      ∀ x : Float, x.isFinite = true → ∃ b n, ∃ k : ℤ,
        Decimal.Reading.ofFloat x = .finite b ∧
        scanNumeral? (coordinateText x).toList = some (n, []) ∧
        n.value = k / 1000 ∧ Decimal.IsNearest (b.value * 1000) k ∧ reread x = n.toFloat := by
  have hlines := lines_write hne h
  have hread : readText tooling (write instructions) =
      ((obeyAll tooling {} 0 instructions).1, .ok (obeyAll tooling {} 0 instructions).2) := by
    rw [readText, hlines, readLines_line h]
  refine ⟨?_, fun i hi => ofLine_line (h i hi), fun x hx => ?_⟩
  · rw [ofText, hread]
    dsimp only
    rw [ending, hlines, List.length_map]
  · obtain ⟨b, hreading⟩ := Decimal.exists_reading_of_isFinite hx
    obtain ⟨negative, whole, fraction, hspelled⟩ := exists_spelled hreading
    obtain ⟨k, hvalue, hnearest⟩ := hspelled.value
    have hscan : scanNumeral? (coordinateText x).toList =
        some (pointNumeral negative whole fraction, []) := by
      rw [hspelled.text, ← List.append_nil (pointText negative whole fraction)]
      exact scanNumeral?_pointText hspelled.figures.1 hspelled.nonempty.1 hspelled.figures.2
        (Or.inl rfl)
    exact ⟨b, _, k, hreading, hscan, hvalue, hnearest, reread_eq hscan⟩

set_option maxRecDepth 2000 in
theorem ofText_write_oneOfEach :
    let tooling : Tooling := ⟨⟨[]⟩, .real 8.0⟩
    let instructions : List Instruction :=
      [.relative, .changeTool 2, .rapid none (some (-0.0004)), .comment "G81 (X1) Y1",
        .punch (some 1.0625) (some 2.0) none, .absolute, .punch none (some 1e6) (some 0.5),
        .endOfProgram]
    (∀ i ∈ instructions, i.IsWritable) ∧ ofText tooling (write instructions) = .ok
      ⟨[.toolChange 1 2, .move 2 0.0 0.0 2, .hit 4 1.062 2.0 (.real 8.0) 2,
          .hit 6 1.062 1e6 (.real 0.5) 2, .finish 7],
        [.relative, .relative, .relative, .absolute, .absolute], [⟨1, .unknownStation 2⟩]⟩ := by
  intro tooling instructions
  have hfinite {x : Float} (hx : x.isFinite = true) : IsFiniteIfAny (some x) := by
    intro y hy
    obtain rfl : x = y := Option.some.inj hy
    exact hx
  have hwritable : ∀ i ∈ instructions, i.IsWritable := by
    simp only [instructions, List.forall_mem_cons]
    refine ⟨trivial, ⟨by decide, by decide⟩, ⟨isFiniteIfAny_none, hfinite (by decide +kernel)⟩,
      by unfold Instruction.IsWritable; decide,
      ⟨hfinite (by decide +kernel), hfinite (by decide +kernel), isFiniteIfAny_none⟩, trivial,
      ⟨isFiniteIfAny_none, hfinite (by decide +kernel), hfinite (by decide +kernel)⟩, trivial,
      List.forall_mem_nil _⟩
  obtain ⟨hread, _⟩ := ofText_write tooling (List.cons_ne_nil _ _) hwritable
  refine ⟨hwritable, hread.trans ?_⟩
  with_unfolding_all rfl

end Program

end TurretPunch
