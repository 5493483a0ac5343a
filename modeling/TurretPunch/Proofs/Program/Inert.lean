import Mathlib.Data.List.Basic
import TurretPunch.Proofs.Program.Comment
import TurretPunch.Proofs.Program.Composition
import TurretPunch.Proofs.Program.Numeral
import TurretPunch.Proofs.Program.Shape
import TurretPunch.Proofs.Text.Blank

namespace TurretPunch

/-!
# Lines that say nothing

A line with neither a mode nor a tool nor a command in it, and with no word that would go with the last
command, says nothing. It adds nothing and changes nothing that a reader keeps, in whatever state the
reader is, and only moves the lines after it further down.
-/

/-- The same operation when `n` lines are put in before line `i`: it stands further down if its line
does. The end always stands further down, since it is in the last line. -/
def Operation.makeRoom (i n : Int) (op : Operation) : Operation :=
  if i ≤ op.line ∨ op.isFinish = true then op.movedDown n else op

def LineError.makeRoom (i n : Int) (e : LineError) : LineError :=
  if i ≤ e.line then e.movedDown n else e

open Text (Point)

namespace Program

variable {tooling : Tooling} {i n : Int} {p : Program} {ps : List Point} {cs : List Char}
  {inner : List (List Point)}

def makeRoom (i n : Int) (p : Program) : Program :=
  ⟨p.operations.map (·.makeRoom i n), p.modes, p.errors.map (·.makeRoom i n)⟩

@[simp] theorem makeRoom_append (i n : Int) (p q : Program) :
    (p ++ q).makeRoom i n = p.makeRoom i n ++ q.makeRoom i n := by
  simp only [makeRoom, operations_append, modes_append, errors_append, List.map_append]
  rfl

/-- What stands before the new lines stays. -/
theorem IsOpen.makeRoom_eq (hopen : p.IsOpen) (hops : ∀ op ∈ p.operations, op.line < i)
    (herrors : ∀ e ∈ p.errors, e.line < i) : p.makeRoom i n = p := by
  have hoperation : ∀ op ∈ p.operations, op.makeRoom i n = op := by
    intro op hop
    refine if_neg (not_or.mpr ⟨Int.not_le.mpr (hops op hop), ?_⟩)
    rw [hopen op hop]
    exact Bool.false_ne_true
  have herror : ∀ e ∈ p.errors, e.makeRoom i n = e := fun e he =>
    if_neg (Int.not_le.mpr (herrors e he))
  rw [makeRoom, List.map_congr_left hoperation, List.map_congr_left herror, List.map_id', List.map_id']

/-- What stands after the new lines stands further down. -/
theorem makeRoom_eq_movedDown (hops : ∀ op ∈ p.operations, i ≤ op.line)
    (herrors : ∀ e ∈ p.errors, i ≤ e.line) : p.makeRoom i n = p.movedDown n := by
  have hoperation : ∀ op ∈ p.operations, op.makeRoom i n = op.movedDown n := fun op hop =>
    if_pos (Or.inl (hops op hop))
  have herror : ∀ e ∈ p.errors, e.makeRoom i n = e.movedDown n := fun e he => if_pos (herrors e he)
  rw [makeRoom, List.map_congr_left hoperation, List.map_congr_left herror]
  rfl

/-- A line has nothing in it that is read: no mode, no digits of a tool or of a command, and no numerals
of coordinates or sizes, unless some other code stands in front of digits. -/
structure Inert (ps : List Point) : Prop where
  unset : ¬ ['G', '9', '0'] <:+: capitals ps ∧ ¬ ['G', '9', '1'] <:+: capitals ps
  tool : ¬ HasDigit 'T' (capitals ps)
  command : ¬ HasDigit 'G' (capitals ps)
  words : HasDigit 'M' (capitals ps) ∨ ∀ letter ∈ ['X', 'Y', 'D'], ¬ HasNumeral letter (capitals ps)

theorem Words.isEmpty_ofLine_iff :
    (Words.ofLine cs).isEmpty = true ↔ ∀ letter ∈ ['X', 'Y', 'D'], ¬ HasNumeral letter cs := by
  simp [Words.isEmpty, Words.ofLine, ← valueOf?_isSome_iff, and_assoc]

theorem Statement.ofCapitals_eq_nothing_iff : Statement.ofCapitals cs = .nothing ↔
    (¬ ['G', '9', '0'] <:+: cs ∧ ¬ ['G', '9', '1'] <:+: cs) ∧ ¬ HasDigit 'T' cs ∧ ¬ HasDigit 'G' cs ∧
      (HasDigit 'M' cs ∨ ∀ letter ∈ ['X', 'Y', 'D'], ¬ HasNumeral letter cs) := by
  rw [← mentions_iff, ← mentions_iff, ← digitsAfter?_isSome_iff, ← digitsAfter?_isSome_iff,
    ← digitsAfter?_isSome_iff, ← Words.isEmpty_ofLine_iff]
  unfold Statement.ofCapitals
  by_cases habsolute : mentions ['G', '9', '0'] cs = true
  · simp [habsolute]
  by_cases hrelative : mentions ['G', '9', '1'] cs = true
  · simp [habsolute, hrelative]
  cases digitsAfter? 'T' cs with
  | some station => simp [habsolute, hrelative]
  | none =>
      cases digitsAfter? 'G' cs with
      | some command => simp [habsolute, hrelative]
      | none =>
          cases digitsAfter? 'M' cs with
          | some other => simp [habsolute, hrelative]
          | none => simp [habsolute, hrelative]

theorem inert_iff : Inert ps ↔ Statement.ofLine ps = .nothing := by
  have hstatement : Statement.ofLine ps = .nothing ↔ _ :=
    @Statement.ofCapitals_eq_nothing_iff (capitals ps)
  rw [hstatement]
  exact ⟨fun ⟨hunset, htool, hcommand, hwords⟩ => ⟨hunset, htool, hcommand, hwords⟩,
    fun ⟨hunset, htool, hcommand, hwords⟩ => ⟨hunset, htool, hcommand, hwords⟩⟩

theorem infix_append_left_iff {α : Type} {word before rest : List α} (hne : word ≠ [])
    (h : ∀ a ∈ before, a ∉ word) : word <:+: before ++ rest ↔ word <:+: rest := by
  induction before with
  | nil => rfl
  | cons a before ih =>
      obtain ⟨ha, hbefore⟩ := List.forall_mem_cons.mp h
      rw [List.cons_append, List.infix_cons_iff, ih hbefore, or_iff_right]
      intro hprefix
      cases word with
      | nil => exact hne rfl
      | cons b word =>
          obtain ⟨rfl, _⟩ := List.cons_prefix_cons.mp hprefix
          exact ha List.mem_cons_self

theorem infix_enclosed_iff {α : Type} {word before inner after : List α} (hne : word ≠ [])
    (hbefore : ∀ a ∈ before, a ∉ word) (hafter : ∀ a ∈ after, a ∉ word) :
    word <:+: before ++ (inner ++ after) ↔ word <:+: inner := by
  have hreverse : ∀ a ∈ after.reverse, a ∉ word.reverse := by simpa using hafter
  rw [infix_append_left_iff hne hbefore, ← List.reverse_infix, List.reverse_append,
    infix_append_left_iff (by simpa using hne) hreverse, List.reverse_infix]

/-- Blanks and parentheses around a line say nothing. -/
theorem Statement.ofCapitals_enclosed {left right : List Char} (hleft : ∀ c ∈ left, IsForeign c)
    (hright : ∀ c ∈ right, IsForeign c) :
    Statement.ofCapitals (left ++ (cs ++ right)) = .nothing ↔ Statement.ofCapitals cs = .nothing := by
  have hword {word : List Char} (hne : word ≠ []) (h : ∀ c ∈ word, ¬ IsForeign c) :
      word <:+: left ++ (cs ++ right) ↔ word <:+: cs :=
    infix_enclosed_iff hne (fun c hc hmem => h c hmem (hleft c hc))
      fun c hc hmem => h c hmem (hright c hc)
  have hdigit {letter : Char} (h : ¬ IsForeign letter) :
      HasDigit letter (left ++ (cs ++ right)) ↔ HasDigit letter cs := by
    refine exists_congr fun d => and_congr_right fun hd => hword (List.cons_ne_nil _ _) ?_
    have hdigit : IsDigits [d] := List.forall_mem_singleton.mpr hd
    exact List.forall_mem_cons.mpr ⟨h, hdigit.not_isForeign⟩
  have hnumeral {letter : Char} (h : ¬ IsForeign letter) :
      HasNumeral letter (left ++ (cs ++ right)) ↔ HasNumeral letter cs := by
    refine exists_congr fun n => exists_congr fun text => and_congr_right fun hspelled =>
      hword (List.cons_ne_nil _ _) ?_
    exact List.forall_mem_cons.mpr ⟨h, hspelled.not_isForeign⟩
  have hletters : ∀ letter ∈ ['X', 'Y', 'D'], ¬ IsForeign letter := by
    rw [← List.forall_iff_forall_mem]
    decide
  have hwords : (∀ letter ∈ ['X', 'Y', 'D'], ¬ HasNumeral letter (left ++ (cs ++ right))) ↔
      ∀ letter ∈ ['X', 'Y', 'D'], ¬ HasNumeral letter cs :=
    forall₂_congr fun letter hletter => not_congr (hnumeral (hletters letter hletter))
  have hmode {c : Char} (h : ¬ IsForeign c) :
      ['G', '9', c] <:+: left ++ (cs ++ right) ↔ ['G', '9', c] <:+: cs := by
    apply hword (List.cons_ne_nil _ _)
    simp only [List.forall_mem_cons]
    exact ⟨by decide, by decide, h, List.forall_mem_nil _⟩
  rw [ofCapitals_eq_nothing_iff, ofCapitals_eq_nothing_iff, hmode (by decide), hmode (by decide),
    hdigit (by decide), hdigit (by decide), hdigit (by decide), hwords]

theorem isForeign_of_isBlank {blanks : List Point} (h : ∀ p ∈ blanks, p.isBlank = true) :
    ∀ c ∈ Text.capitals (blanks.map (·.replacement)), IsForeign c := by
  have hcapital : ∀ code ∈ Text.blanks, (Text.capital (Char.ofNat code)).Forall IsForeign := by decide
  intro c hc
  obtain ⟨d, hd, hc⟩ := List.mem_flatMap.mp hc
  obtain ⟨p, hp, rfl⟩ := List.mem_map.mp hd
  cases p with
  | half surrogate => cases h _ hp
  | char d =>
      have hblank : d.toNat ∈ Text.blanks := by simpa [Point.isBlank, Text.isBlank] using h _ hp
      exact List.forall_iff_forall_mem.mp (hcapital _ hblank) c (by simpa [Point.replacement] using hc)

/-- Where no comment is closed, a line says nothing if its characters do not. -/
theorem inert_iff_of_unclosed (h : removeComments ps = ps) :
    Inert ps ↔ Statement.ofCapitals (Text.capitals (ps.map (·.replacement))) = .nothing := by
  obtain ⟨left, right, hps, hleft, hright⟩ := Text.exists_trim ps
  have hcapitals : Text.capitals (ps.map (·.replacement)) =
      Text.capitals (left.map (·.replacement)) ++
        (Text.capitals ((Text.trim ps).map (·.replacement)) ++
          Text.capitals (right.map (·.replacement))) := by
    conv_lhs => rw [hps]
    simp only [Text.capitals, List.map_append, List.flatMap_append]
  rw [hcapitals, Statement.ofCapitals_enclosed (isForeign_of_isBlank hleft)
    (isForeign_of_isBlank hright), inert_iff, Statement.ofLine, stripComments, h]

/-- A parenthesis that is not closed says nothing. -/
theorem inert_cons_iff (hopen : .char '(' ∉ ps) (hclose : .char ')' ∉ ps) :
    Inert (.char '(' :: ps) ↔ Inert ps := by
  rw [inert_iff_of_unclosed (removeComments_unclosed hclose),
    inert_iff_of_unclosed (removeComments_of_not_mem hopen)]
  have henclosed := @Statement.ofCapitals_enclosed (Text.capitals (ps.map (·.replacement))) ['('] []
    (List.forall_mem_singleton.mpr (by decide)) (List.forall_mem_nil _)
  rw [List.append_nil] at henclosed
  exact henclosed

/-- Neither does one that was not opened. -/
theorem inert_concat_iff (hopen : .char '(' ∉ ps) : Inert (ps ++ [.char ')']) ↔ Inert ps := by
  have hopen' : .char '(' ∉ ps ++ [.char ')'] := by simpa using hopen
  rw [inert_iff_of_unclosed (removeComments_of_not_mem hopen'),
    inert_iff_of_unclosed (removeComments_of_not_mem hopen)]
  have henclosed := @Statement.ofCapitals_enclosed (Text.capitals (ps.map (·.replacement))) [] [')']
    (List.forall_mem_nil _) (List.forall_mem_singleton.mpr (by decide))
  rw [List.map_append, Text.capitals, List.flatMap_append]
  exact henclosed

/-- Inert lines leave the state of a reader as it is, and the lines after them are read in it. -/
theorem readLines_inert (h : ∀ ps ∈ inner, Inert ps) (state : ReaderState) (line : Int)
    (rest : List (List Point)) :
    readLines tooling state line (inner ++ rest) =
      readLines tooling state (line + inner.length) rest := by
  induction inner generalizing line with
  | nil => simp
  | cons ps inner ih =>
      obtain ⟨hps, hinner⟩ := List.forall_mem_cons.mp h
      have hexecuted : execute tooling state line (.ofLine ps) = .ok ({}, state) := by
        rw [inert_iff.mp hps]
        rfl
      have hline : line + 1 + (inner.length : Int) = line + (ps :: inner).length := by
        rw [List.length_cons]
        omega
      rw [List.cons_append, readLines_cons _ _ _ _ _ hexecuted, ih hinner, hline]
      rfl

/-- Inert lines among other ones only move the lines after them. -/
theorem readLines_insert (tooling : Tooling) (h : ∀ ps ∈ inner, Inert ps) (state : ReaderState)
    (line : Int) (before rest : List (List Point)) :
    let read := readLines tooling state line (before ++ rest)
    readLines tooling state line (before ++ (inner ++ rest)) =
      (read.1.makeRoom (line + before.length) inner.length, read.2) := by
  intro read
  induction before generalizing state line with
  | nil =>
      have hbegin : line + (([] : List (List Point)).length : Int) = line := Int.add_zero line
      obtain ⟨hops, herrors⟩ := readLines_line_le tooling state line rest
      rw [hbegin, List.nil_append, readLines_inert h, readLines_movedDown]
      exact Prod.ext (makeRoom_eq_movedDown hops herrors).symm rfl
  | cons ps before ih =>
      cases hexecuted : execute tooling state line (.ofLine ps) with
      | error fault =>
          simp only [read, List.cons_append, readLines, hexecuted]
          rfl
      | ok executed =>
          obtain ⟨added, mid⟩ := executed
          have hnext : line + 1 + (before.length : Int) = line + (ps :: before).length := by
            rw [List.length_cons]
            omega
          have heffect := effect_of_execute hexecuted
          obtain ⟨hops, herrors⟩ := heffect.line_eq
          have hadded : added.makeRoom (line + (ps :: before).length) inner.length = added := by
            apply heffect.isOpen.makeRoom_eq
            · intro op hop
              rw [hops op hop]
              omega
            · intro e he
              rw [herrors e he]
              omega
          simp only [read, List.cons_append, readLines_cons _ _ _ _ _ hexecuted, ih mid (line + 1),
            hnext, makeRoom_append, hadded]

/-- A text with one more line. -/
def insertLine (text : Text.Points) (i : Nat) (ps : List Point) : Text.Points :=
  let lines := Text.lines text.toList
  ⟨List.intercalate [.char '\n'] (lines.take i ++ ps :: lines.drop i)⟩

theorem lines_insertLine (text : Text.Points) (i : Nat) (hps : .char '\n' ∉ ps) :
    Text.lines (insertLine text i ps).toList =
      (Text.lines text.toList).take i ++ ([ps] ++ (Text.lines text.toList).drop i) := by
  apply Text.lines_intercalate_eq_self (by simp)
  intro line hline
  rcases List.mem_append.mp hline with htake | hdrop
  · exact Text.newline_not_mem_of_mem_lines (List.mem_of_mem_take htake)
  · rcases List.mem_cons.mp hdrop with rfl | hdrop
    · exact hps
    · exact Text.newline_not_mem_of_mem_lines (List.mem_of_mem_drop hdrop)

/-- An inert line can be put in anywhere. The text has the same operations with the same modes, and the
same errors, or else the same fault; what comes from the lines after the new one, and the end, stands
one line further down. -/
theorem ofText_insertLine (tooling : Tooling) (text : Text.Points) {i : Nat}
    (hi : i ≤ (Text.lines text.toList).length) (hline : .char '\n' ∉ ps) (h : Inert ps) :
    ofText tooling (insertLine text i ps) = (ofText tooling text).map (·.makeRoom i 1) := by
  have hlines := lines_insertLine text i hline
  have hlength : (Text.lines (insertLine text i ps).toList).length =
      (Text.lines text.toList).length + 1 := by
    rw [hlines]
    simp only [List.length_append, List.length_take, List.length_drop, List.length_singleton]
    omega
  have hread : readText tooling (insertLine text i ps) =
      ((readText tooling text).1.makeRoom i 1, (readText tooling text).2) := by
    have hinner : ∀ qs ∈ [ps], Inert qs := List.forall_mem_singleton.mpr h
    have hinserted := readLines_insert tooling hinner {} 0
      ((Text.lines text.toList).take i) ((Text.lines text.toList).drop i)
    rw [List.take_append_drop, List.length_take_of_le hi, Int.zero_add] at hinserted
    rw [readText, hlines]
    exact hinserted
  have hending (mode : Mode) :
      ending (insertLine text i ps) mode = (ending text mode).makeRoom i 1 := by
    have hlast : ((Text.lines (insertLine text i ps).toList).length - 1 : Int) =
        ((Text.lines text.toList).length - 1 : Int) + 1 := by omega
    have hroom : (Operation.finish ((Text.lines text.toList).length - 1 : Int)).makeRoom i 1 =
        .finish (((Text.lines text.toList).length - 1 : Int) + 1) := if_pos (Or.inr rfl)
    rw [ending, hlast, ← hroom]
    rfl
  unfold ofText
  rw [hread]
  cases houtcome : readText tooling text with
  | mk read outcome =>
      cases outcome with
      | error fault => rfl
      | ok final => simp only [Except.map, hending, makeRoom_append]

/-- The end of the program and a size word that does not count stand between two lines of one rapid. -/
theorem ofText_insertLine_endOfProgram :
    let tooling : Tooling := ⟨⟨[]⟩, .real 8.0⟩
    let text : Text.Points := "T2\nG91\nG00 X1\nY2"
    let ps : List Point := (Text.Points.ofString " (G90) m30 d5").toList
    (3 ≤ (Text.lines text.toList).length ∧ .char '\n' ∉ ps ∧ Inert ps) ∧
      ofText tooling (insertLine text 3 ps) =
        .ok ⟨[.toolChange 0 2, .move 2 1.0 0.0 2, .move 4 1.0 2.0 2, .finish 4],
          [.absolute, .relative, .relative, .relative], [⟨0, .unknownStation 2⟩]⟩ := by
  intro tooling text ps
  have hi : 3 ≤ (Text.lines text.toList).length := by decide
  have hline : .char '\n' ∉ ps := by decide
  have hinert : Inert ps := inert_iff.mpr (by with_unfolding_all rfl)
  refine ⟨⟨hi, hline, hinert⟩, (ofText_insertLine tooling text hi hline hinert).trans ?_⟩
  with_unfolding_all rfl

end Program

end TurretPunch
