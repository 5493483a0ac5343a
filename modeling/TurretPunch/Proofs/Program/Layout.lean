import Mathlib.Data.List.Basic
import Mathlib.Data.List.Infix
import Mathlib.Logic.Relation
import Mathlib.Tactic.IntervalCases
import TurretPunch.Program.Reader
import TurretPunch.Proofs.Program.Comment
import TurretPunch.Proofs.Text.Blank
import TurretPunch.Proofs.Text.Line

namespace TurretPunch

/-!
# The layout of lines

A line says the same with more or fewer blanks at its ends, in small or in capital letters, and with a
comment wherever none is open. So a text can be laid out in many ways, and all of them are read alike.
-/

namespace Text

def smallLetters : List Char := "abcdefghijklmnopqrstuvwxyz".toList

theorem toUpper_eq_self {c : Char} (h : c ∉ smallLetters) : c.toUpper = c := by
  unfold Char.toUpper
  split
  · next hsmall =>
    exfalso
    apply h
    have hlow : 97 ≤ c.toNat := hsmall.1
    have hhigh : c.toNat ≤ 122 := hsmall.2
    rw [← Char.ofNat_toNat c]
    generalize c.toNat = n at hlow hhigh
    interval_cases n <;> decide
  · rfl

theorem smallLetters_spec : ∀ c ∈ smallLetters,
    capital c.toUpper = capital c ∧ isBlank c.toUpper = isBlank c ∧
      c ∉ ['(', ')', '\n'] ∧ c.toUpper ∉ ['(', ')', '\n'] := by
  rw [← List.forall_iff_forall_mem]
  decide

theorem capital_toUpper (c : Char) : capital c.toUpper = capital c := by
  by_cases h : c ∈ smallLetters
  · exact (smallLetters_spec c h).1
  · rw [toUpper_eq_self h]

theorem isBlank_toUpper (c : Char) : isBlank c.toUpper = isBlank c := by
  by_cases h : c ∈ smallLetters
  · exact (smallLetters_spec c h).2.1
  · rw [toUpper_eq_self h]

theorem toUpper_eq_iff {c d : Char} (hd : d ∈ ['(', ')', '\n']) : c.toUpper = d ↔ c = d := by
  by_cases h : c ∈ smallLetters
  · obtain ⟨hown, hcapital⟩ := (smallLetters_spec c h).2.2
    exact iff_of_false (fun heq => hcapital (heq ▸ hd)) fun heq => hown (heq ▸ hd)
  · rw [toUpper_eq_self h]

/-- A letter from `a` to `z` as a capital, and all else as it is. -/
def Point.upper : Point → Point
  | char c => char c.toUpper
  | half surrogate => half surrogate

namespace Point

theorem upper_eq_char_iff {d : Char} (hd : d ∈ ['(', ')', '\n']) (p : Point) :
    p.upper = char d ↔ p = char d := by
  cases p with
  | char c => simpa [upper] using toUpper_eq_iff hd
  | half surrogate => simp [upper]

theorem isBlank_upper (p : Point) : p.upper.isBlank = p.isBlank := by
  cases p with
  | char c => exact isBlank_toUpper c
  | half surrogate => rfl

theorem capital_upper (p : Point) : capital p.upper.replacement = capital p.replacement := by
  cases p with
  | char c => exact capital_toUpper c
  | half surrogate => rfl

end Point

theorem lines_map_upper (ps : List Point) :
    lines (ps.map Point.upper) = (lines ps).map (·.map Point.upper) := by
  induction ps with
  | nil => rfl
  | cons p ps ih =>
      have hnewline := Point.upper_eq_char_iff (d := '\n') (by decide) p
      by_cases hp : p = .char '\n'
      · rw [List.map_cons, hnewline.mpr hp, hp, lines_newline, lines_newline, ih]
        rfl
      · obtain ⟨first, more, hlines, hcons⟩ := lines_cons_of_ne hp ps
        rw [List.map_cons, lines, if_neg (mt hnewline.mp hp), ih, hlines, hcons]
        rfl

end Text

namespace Program

open Text (Point)

variable {tooling : Tooling} {ps qs before after : List Point}

theorem ofLine_map_upper (ps : List Point) :
    Statement.ofLine (ps.map Point.upper) = Statement.ofLine ps := by
  unfold Statement.ofLine stripComments
  rw [removeComments_map (Point.upper_eq_char_iff (by decide)) (Point.upper_eq_char_iff (by decide)),
    Text.trim_map Point.isBlank_upper]
  unfold Text.capitals
  rw [List.flatMap_map, List.flatMap_map, List.flatMap_map]
  simp only [Point.capital_upper]

theorem ofLine_insert_comment {inner : List Point} (h : IsClosed before) (hinner : .char ')' ∉ inner) :
    Statement.ofLine (before ++ (.char '(' :: (inner ++ [.char ')']) ++ after)) =
      Statement.ofLine (before ++ after) := by
  have hcomment : .char '(' :: (inner ++ [Point.char ')']) ++ after =
      .char '(' :: (inner ++ .char ')' :: after) := by simp
  unfold Statement.ofLine stripComments
  rw [hcomment, h.removeComments_insert hinner]

theorem parentheses_not_mem {blanks : List Point} (h : ∀ p ∈ blanks, p.isBlank = true) :
    .char '(' ∉ blanks ∧ .char ')' ∉ blanks :=
  ⟨fun hmem => absurd (h _ hmem) (by decide), fun hmem => absurd (h _ hmem) (by decide)⟩

theorem ofLine_append_left {blanks : List Point} (h : ∀ p ∈ blanks, p.isBlank = true)
    (ps : List Point) : Statement.ofLine (blanks ++ ps) = Statement.ofLine ps := by
  have hopen := (parentheses_not_mem h).1
  unfold Statement.ofLine stripComments
  rw [(isClosed_of_not_mem hopen).removeComments_append, removeComments_of_not_mem hopen,
    Text.trim_append_left h]

theorem ofLine_append_right {blanks : List Point} (h : ∀ p ∈ blanks, p.isBlank = true)
    (ps : List Point) : Statement.ofLine (ps ++ blanks) = Statement.ofLine ps := by
  obtain ⟨hopen, hclose⟩ := parentheses_not_mem h
  unfold Statement.ofLine stripComments
  rw [removeComments_append_of_not_mem hopen hclose, Text.trim_append_right h]

/-- What lines add depends only on what each of them says. -/
theorem readLines_congr {lines lines' : List (List Point)}
    (h : lines.map Statement.ofLine = lines'.map Statement.ofLine) (state : ReaderState)
    (number : Int) : readLines tooling state number lines = readLines tooling state number lines' := by
  induction lines generalizing lines' state number with
  | nil =>
      obtain rfl := List.map_eq_nil_iff.mp h.symm
      rfl
  | cons first rest ih =>
      obtain ⟨first', rest', rfl, hfirst, hrest⟩ := List.map_eq_cons_iff.mp h.symm
      rw [readLines, readLines, hfirst]
      split
      · rfl
      · next added after _ => rw [ih hrest.symm after (number + 1)]

theorem ofText_congr {a b : Text.Points} (h : (Text.lines a.toList).map Statement.ofLine =
    (Text.lines b.toList).map Statement.ofLine) : ofText tooling a = ofText tooling b := by
  have hlength : (Text.lines a.toList).length = (Text.lines b.toList).length := by
    rw [← List.length_map Statement.ofLine, h, List.length_map]
  unfold ofText readText ending
  rw [readLines_congr h, hlength]

/-- A place at an end of a line. -/
def AtLineEnd (before after : List Point) : Prop :=
  (before = [] ∨ before.getLast? = some (.char '\n')) ∨ after = [] ∨ after.head? = some (.char '\n')

/-- A place where no comment is open: each parenthesis before it in its line is closed before it. -/
def OutsideComments (before : List Point) : Prop :=
  ∀ earlier later, before = earlier ++ .char '(' :: later →
    .char ')' ∈ later ∨ .char '\n' ∈ later

theorem outsideComments_iff : OutsideComments before ↔ ∀ later ∈ before.tails,
    later.head? = some (.char '(') → .char ')' ∈ later ∨ .char '\n' ∈ later := by
  constructor
  · intro h later hlater hhead
    obtain ⟨earlier, rfl⟩ := (List.mem_tails _ _).mp hlater
    obtain ⟨rest, rfl⟩ := List.head?_eq_some_iff.mp hhead
    have hrest := h earlier rest rfl
    exact hrest.imp (List.mem_cons_of_mem _) (List.mem_cons_of_mem _)
  · rintro h earlier later rfl
    have hlater := h (.char '(' :: later) ((List.mem_tails _ _).mpr ⟨earlier, rfl⟩) rfl
    simpa using hlater

instance : DecidablePred OutsideComments := fun _ => decidable_of_iff _ outsideComments_iff.symm

instance (before after : List Point) : Decidable (AtLineEnd before after) :=
  inferInstanceAs (Decidable ((_ ∨ _) ∨ _ ∨ _))

/-- A change of the layout within a line. -/
inductive LayoutChange : List Point → List Point → Prop
  | blanks {before blanks after : List Point}
      (hblanks : ∀ p ∈ blanks, p.isBlank = true ∧ p ≠ .char '\n') (hplace : AtLineEnd before after) :
      LayoutChange (before ++ after) (before ++ (blanks ++ after))
  | comment {before inner after : List Point} (hinner : .char ')' ∉ inner ∧ .char '\n' ∉ inner)
      (hplace : OutsideComments before) :
      LayoutChange (before ++ after) (before ++ (.char '(' :: (inner ++ [.char ')']) ++ after))
  | letterCase {ps qs : List Point} (h : ps.map Point.upper = qs.map Point.upper) :
      LayoutChange ps qs

theorem isClosed_of_outsideComments {first : List Point} (h : OutsideComments before)
    (hfirst : first <:+ before) (hnewline : .char '\n' ∉ first) : IsClosed first := by
  obtain ⟨earlier, rfl⟩ := hfirst
  rintro left right rfl
  rcases h (earlier ++ left) right (List.append_assoc ..).symm with hclosed | hmem
  · exact hclosed
  · exact absurd (List.mem_append_right _ (List.mem_cons_of_mem _ hmem)) hnewline

theorem AtLineEnd.eq_nil {first last : List Point} (h : AtLineEnd before after)
    (hfirst : first <:+ before) (hlast : last <+: after) (hnewline : .char '\n' ∉ first)
    (hnewline' : .char '\n' ∉ last) : first = [] ∨ last = [] := by
  rcases h with (rfl | hend) | (rfl | hstart)
  · exact Or.inl (List.suffix_nil.mp hfirst)
  · left
    obtain ⟨earlier, rfl⟩ := hfirst
    rcases List.eq_nil_or_concat first with rfl | ⟨init, p, rfl⟩
    · rfl
    · rw [List.getLast?_append] at hend
      obtain rfl : p = .char '\n' := by simpa using hend
      simp at hnewline
  · exact Or.inr (List.prefix_nil.mp hlast)
  · right
    obtain ⟨later, rfl⟩ := hlast
    cases last with
    | nil => rfl
    | cons p last =>
        obtain rfl : p = .char '\n' := by simpa using hstart
        simp at hnewline'

theorem LayoutChange.statements (h : LayoutChange ps qs) :
    (Text.lines ps).map Statement.ofLine = (Text.lines qs).map Statement.ofLine := by
  have hinserted {before after inner : List Point} (hinner : .char '\n' ∉ inner)
      (hline : ∀ {first last}, first <:+ before → last <+: after → .char '\n' ∉ first →
        .char '\n' ∉ last →
          Statement.ofLine (first ++ last) = Statement.ofLine (first ++ (inner ++ last))) :
      (Text.lines (before ++ after)).map Statement.ofLine =
        (Text.lines (before ++ (inner ++ after))).map Statement.ofLine := by
    obtain ⟨lines, first, last, more, hfirst, hlast, hnewline, hlines⟩ :=
      Text.exists_lines_around before after
    have hbare := hlines [] List.not_mem_nil
    rw [List.nil_append, List.nil_append] at hbare
    rw [hbare, hlines inner hinner, List.map_append, List.map_append, List.map_cons, List.map_cons,
      hline hfirst hlast hnewline.1 hnewline.2]
  cases h with
  | @blanks before blanks after hblanks hplace =>
      apply hinserted fun hmem => (hblanks _ hmem).2 rfl
      intro first last hfirst hlast hnewline hnewline'
      have hblank : ∀ p ∈ blanks, p.isBlank = true := fun p hp => (hblanks p hp).1
      rcases hplace.eq_nil hfirst hlast hnewline hnewline' with rfl | rfl
      · rw [List.nil_append, List.nil_append, ofLine_append_left hblank]
      · rw [List.append_nil, List.append_nil, ofLine_append_right hblank]
  | @comment before inner after hinner hplace =>
      have hnewline : .char '\n' ∉ .char '(' :: (inner ++ [.char ')']) := by simpa using hinner.2
      apply hinserted hnewline
      intro first last hfirst _ hnewline _
      have hclosed := isClosed_of_outsideComments hplace hfirst hnewline
      exact (ofLine_insert_comment hclosed hinner.1).symm
  | letterCase h =>
      have hupper (ps : List Point) : (Text.lines ps).map Statement.ofLine =
          (Text.lines (ps.map Point.upper)).map Statement.ofLine := by
        rw [Text.lines_map_upper, List.map_map]
        exact List.map_congr_left fun line _ => (ofLine_map_upper line).symm
      rw [hupper ps, h, ← hupper qs]

theorem statements_of_layout (h : Relation.EqvGen LayoutChange ps qs) :
    (Text.lines ps).map Statement.ofLine = (Text.lines qs).map Statement.ofLine := by
  induction h with
  | rel ps qs hchange => exact hchange.statements
  | refl ps => rfl
  | symm ps qs _ ih => exact ih.symm
  | trans ps qs rs _ _ hfirst hsecond => exact hfirst.trans hsecond

/-- Texts that differ in their layout only are read alike: they have the same operations with the same
modes, and the same errors, all in the same lines, or else the same fault. -/
theorem ofText_of_layout (tooling : Tooling) {a b : Text.Points}
    (h : Relation.EqvGen LayoutChange a.toList b.toList) : ofText tooling a = ofText tooling b :=
  ofText_congr (statements_of_layout h)

/-- A comment that holds a mode and a parenthesis stands within a word, and another one before a
parenthesis that is not closed. -/
theorem ofText_of_layout_words :
    let tooling : Tooling := ⟨⟨[]⟩, .real 8.0⟩
    let a : Text.Points := "G81 X1 Y2 (\nG91\nx3"
    let b : Text.Points := "\tg8(G90 (T5)1 X1 Y2 ()(\ng91 \r\nX3"
    Relation.EqvGen LayoutChange a.toList b.toList ∧ ofText tooling a = ofText tooling b ∧
      ofText tooling b = .ok ⟨[.hit 0 1.0 2.0 (.real 8.0) 1, .hit 2 4.0 2.0 (.real 8.0) 1, .finish 2],
        [.absolute, .relative, .relative], []⟩ := by
  intro tooling a b
  let text (s : String) : List Point := (Text.Points.ofString s).toList
  have hcase : LayoutChange (text "G81 X1 Y2 (\nG91\nx3") (text "g81 X1 Y2 (\ng91\nX3") :=
    .letterCase (by decide)
  have hword : LayoutChange (text "g81 X1 Y2 (\ng91\nX3") (text "g8(G90 (T5)1 X1 Y2 (\ng91\nX3") :=
    @LayoutChange.comment (text "g8") (text "G90 (T5") (text "1 X1 Y2 (\ng91\nX3") (by decide)
      (by decide)
  have hopen : LayoutChange (text "g8(G90 (T5)1 X1 Y2 (\ng91\nX3")
      (text "g8(G90 (T5)1 X1 Y2 ()(\ng91\nX3") :=
    @LayoutChange.comment (text "g8(G90 (T5)1 X1 Y2 ") [] (text "(\ng91\nX3") (by decide) (by decide)
  have hstart : LayoutChange (text "g8(G90 (T5)1 X1 Y2 ()(\ng91\nX3")
      (text "\tg8(G90 (T5)1 X1 Y2 ()(\ng91\nX3") :=
    @LayoutChange.blanks [] (text "\t") (text "g8(G90 (T5)1 X1 Y2 ()(\ng91\nX3") (by decide) (by decide)
  have hend : LayoutChange (text "\tg8(G90 (T5)1 X1 Y2 ()(\ng91\nX3") b.toList :=
    @LayoutChange.blanks (text "\tg8(G90 (T5)1 X1 Y2 ()(\ng91") (text " \r") (text "\nX3") (by decide)
      (by decide)
  have hlayout : Relation.EqvGen LayoutChange a.toList b.toList :=
    .trans _ _ _ (.rel _ _ hcase) <| .trans _ _ _ (.rel _ _ hword) <| .trans _ _ _ (.rel _ _ hopen) <|
      .trans _ _ _ (.rel _ _ hstart) (.rel _ _ hend)
  refine ⟨hlayout, ofText_of_layout tooling hlayout, ?_⟩
  with_unfolding_all rfl

end Program

end TurretPunch
