import TurretPunch.Proofs.Program.Comment
import TurretPunch.Proofs.Text.Blank

namespace TurretPunch.Program

/-!
# Comments in one pass

The comments of a line can be removed in one pass from left to right: what was read since a parenthesis
was opened is put aside, and taken back if the line ends before the parenthesis is closed. What is left
has no comment in it, so that a second pass finds nothing to remove.
-/

open Text (Point)

variable {ps rest inner last : List Point} {parts : List (List Point × List Point)}

/-- Goes over a line once. What was put aside since a parenthesis was opened has its last character
first. -/
def scanComments : Option (List Point) → List Point → List Point
  | none, [] => []
  | none, p :: rest =>
    if p = .char '(' then scanComments (some [p]) rest else p :: scanComments none rest
  | some aside, [] => aside.reverse
  | some aside, p :: rest =>
    if p = .char ')' then scanComments none rest else scanComments (some (p :: aside)) rest

theorem scanComments_closed (h : .char ')' ∉ inner) (aside rest : List Point) :
    scanComments (some aside) (inner ++ .char ')' :: rest) = scanComments none rest := by
  induction inner generalizing aside with
  | nil => simp [scanComments]
  | cons p inner ih =>
      obtain ⟨hp, hinner⟩ := not_or.mp (mt List.mem_cons.mpr h)
      simpa [scanComments, Ne.symm hp] using ih hinner (p :: aside)

theorem scanComments_unclosed (h : .char ')' ∉ rest) (aside : List Point) :
    scanComments (some aside) rest = aside.reverse ++ rest := by
  induction rest generalizing aside with
  | nil => simp [scanComments]
  | cons p rest ih =>
      obtain ⟨hp, hrest⟩ := not_or.mp (mt List.mem_cons.mpr h)
      simpa [scanComments, Ne.symm hp] using ih hrest (p :: aside)

/-- One pass leaves what is left when one comment after another is removed. -/
theorem removeComments_eq_scanComments (ps : List Point) :
    removeComments ps = scanComments none ps := by
  induction ps using comment_induction with
  | nil => simp [scanComments]
  | char p rest hp ih => simp [removeComments_cons hp, scanComments, hp, ih]
  | comment inner rest hinner ih =>
      simp [removeComments_comment hinner, scanComments, scanComments_closed hinner, ih]
  | unclosed rest hrest =>
      simp [removeComments_unclosed hrest, scanComments, scanComments_unclosed hrest]

/-- No parenthesis is opened and closed later. -/
def IsUncommented (ps : List Point) : Prop :=
  ∀ before after, ps = before ++ .char '(' :: after → .char ')' ∉ after

theorem isUncommented_of_not_mem (h : .char ')' ∉ ps) : IsUncommented ps := by
  rintro before after rfl hafter
  exact h (List.mem_append_right _ (List.mem_cons_of_mem _ hafter))

theorem IsUncommented.cons {p : Point} (h : IsUncommented ps) (hp : p ≠ .char '(') :
    IsUncommented (p :: ps) := by
  intro before after heq
  cases before with
  | nil => exact absurd (List.cons.inj heq).1 hp
  | cons q before => exact h before after (List.cons.inj heq).2

/-- What lies between two parts of a line without comments has none. -/
theorem IsUncommented.middle {left right : List Point}
    (h : IsUncommented (left ++ (ps ++ right))) : IsUncommented ps := by
  rintro before after rfl hafter
  refine h (left ++ before) (after ++ right) ?_ (List.mem_append_left _ hafter)
  simp

theorem isUncommented_removeComments (ps : List Point) : IsUncommented (removeComments ps) := by
  induction ps using comment_induction with
  | nil => exact isUncommented_of_not_mem (by simp)
  | char p rest hp ih =>
      rw [removeComments_cons hp]
      exact ih.cons hp
  | comment inner rest hinner ih =>
      rw [removeComments_comment hinner]
      exact ih
  | unclosed rest hrest =>
      rw [removeComments_unclosed hrest]
      exact isUncommented_of_not_mem (by simpa using hrest)

theorem IsUncommented.removeComments_eq_self (h : IsUncommented ps) : removeComments ps = ps := by
  induction ps using comment_induction with
  | nil => exact removeComments_nil
  | char p rest hp ih =>
      have hrest : IsUncommented rest := @IsUncommented.middle rest [p] [] (by simpa using h)
      rw [removeComments_cons hp, ih hrest]
  | comment inner rest => exact absurd (by simp) (h [] _ rfl)
  | unclosed rest hrest => exact removeComments_unclosed hrest

theorem isUncommented_stripComments (ps : List Point) : IsUncommented (stripComments ps) := by
  obtain ⟨left, right, heq, _, _⟩ := Text.exists_trim (removeComments ps)
  have hleft := isUncommented_removeComments ps
  rw [heq] at hleft
  exact hleft.middle

/-- A line as texts that a comment follows each, and what comes after the last comment. -/
structure IsDivided (parts : List (List Point × List Point)) (last ps : List Point) : Prop where
  line : ps = (parts.flatMap fun part => part.1 ++ .char '(' :: (part.2 ++ [.char ')'])) ++ last
  text : ∀ part ∈ parts, .char '(' ∉ part.1
  comment : ∀ part ∈ parts, .char ')' ∉ part.2
  last : IsUncommented last

theorem isDivided_nil (h : IsUncommented last) : IsDivided [] last last :=
  ⟨by simp, by simp, by simp, h⟩

theorem IsDivided.comment_cons (h : IsDivided parts last ps) (hinner : .char ')' ∉ inner) :
    IsDivided (([], inner) :: parts) last (.char '(' :: (inner ++ .char ')' :: ps)) := by
  refine ⟨?_, ?_, ?_, h.last⟩
  · simp [h.line]
  · exact List.forall_mem_cons.mpr ⟨by simp, h.text⟩
  · exact List.forall_mem_cons.mpr ⟨hinner, h.comment⟩

theorem IsDivided.char_cons (h : IsDivided parts last ps) {p : Point} (hp : p ≠ .char '(') :
    ∃ parts' last', IsDivided parts' last' (p :: ps) := by
  cases parts with
  | nil =>
      obtain rfl : ps = last := by simpa using h.line
      exact ⟨[], p :: ps, isDivided_nil (h.last.cons hp)⟩
  | cons part parts =>
      obtain ⟨htext, htexts⟩ := List.forall_mem_cons.mp h.text
      obtain ⟨hcomment, hcomments⟩ := List.forall_mem_cons.mp h.comment
      refine ⟨(p :: part.1, part.2) :: parts, last, ?_, ?_, ?_, h.last⟩
      · simp [h.line]
      · exact List.forall_mem_cons.mpr ⟨by simp [Ne.symm hp, htext], htexts⟩
      · exact List.forall_mem_cons.mpr ⟨hcomment, hcomments⟩

theorem exists_isDivided (ps : List Point) : ∃ parts last, IsDivided parts last ps := by
  induction ps using comment_induction with
  | nil => exact ⟨[], [], isDivided_nil (isUncommented_of_not_mem (by simp))⟩
  | char p rest hp ih =>
      obtain ⟨parts, last, hrest⟩ := ih
      exact hrest.char_cons hp
  | comment inner rest hinner ih =>
      obtain ⟨parts, last, hrest⟩ := ih
      exact ⟨_, _, hrest.comment_cons hinner⟩
  | unclosed rest hrest =>
      exact ⟨[], _, isDivided_nil (isUncommented_of_not_mem (by simpa using hrest))⟩

/-- The texts are left, in their order. -/
theorem IsDivided.removeComments_eq (h : IsDivided parts last ps) :
    removeComments ps = parts.flatMap (·.1) ++ last := by
  obtain ⟨rfl, htext, hcomment, hlast⟩ := h
  induction parts with
  | nil => simpa using hlast.removeComments_eq_self
  | cons part parts ih =>
      obtain ⟨htext, htexts⟩ := List.forall_mem_cons.mp htext
      obtain ⟨hcomment, hcomments⟩ := List.forall_mem_cons.mp hcomment
      have hfirst := (isClosed_of_not_mem htext).removeComments_append
        (.char '(' :: (part.2 ++ .char ')' ::
          ((parts.flatMap fun part => part.1 ++ .char '(' :: (part.2 ++ [.char ')'])) ++ last)))
      rw [removeComments_comment hcomment, removeComments_of_not_mem htext,
        ih htexts hcomments] at hfirst
      simpa using hfirst

/-- The comments of a line are removed in one pass, and blanks at the ends with them. What is left has no
comment in it and stays as it is when that is done again. However a line is made of texts and comments in
turn, nothing is lost of its texts but blanks at the two ends, and what is left has their order. -/
theorem comments_removed_in_one_pass (ps : List Point) :
    stripComments ps = Text.trim (scanComments none ps) ∧
      (∀ before after, stripComments ps = before ++ .char '(' :: after → .char ')' ∉ after) ∧
      stripComments (stripComments ps) = stripComments ps ∧
      (∃ parts last, IsDivided parts last ps) ∧
      ∀ parts last, IsDivided parts last ps → ∃ left right,
        parts.flatMap (·.1) ++ last = left ++ (stripComments ps ++ right) ∧
          (∀ p ∈ left, p.isBlank = true) ∧ ∀ p ∈ right, p.isBlank = true := by
  refine ⟨?_, isUncommented_stripComments ps, ?_, exists_isDivided ps, fun parts last h => ?_⟩
  · rw [stripComments, removeComments_eq_scanComments]
  · have hsame := (isUncommented_stripComments ps).removeComments_eq_self
    calc stripComments (stripComments ps)
        = Text.trim (stripComments ps) := congrArg Text.trim hsame
      _ = stripComments ps := Text.trim_trim _
  · rw [← h.removeComments_eq]
    exact Text.exists_trim (removeComments ps)

theorem comments_removed_in_one_pass_nested :
    stripComments (Text.Points.ofString " G00(a(b) X1)(Y2 ").toList =
        (Text.Points.ofString "G00 X1)(Y2").toList ∧
      ∃ left right, (Text.Points.ofString " G00 X1)(Y2 ").toList =
        left ++ ((Text.Points.ofString "G00 X1)(Y2").toList ++ right) ∧
          (∀ p ∈ left, p.isBlank = true) ∧ ∀ p ∈ right, p.isBlank = true := by
  obtain ⟨hscan, -, -, -, hkept⟩ :=
    comments_removed_in_one_pass (Text.Points.ofString " G00(a(b) X1)(Y2 ").toList
  have hstrip : stripComments (Text.Points.ofString " G00(a(b) X1)(Y2 ").toList =
      (Text.Points.ofString "G00 X1)(Y2").toList := hscan.trans (by decide)
  have hlast : IsUncommented (Text.Points.ofString " X1)(Y2 ").toList := by
    have hleft := isUncommented_removeComments (Text.Points.ofString " G00(a(b) X1)(Y2 ").toList
    have heq : scanComments none (Text.Points.ofString " G00(a(b) X1)(Y2 ").toList =
        (Text.Points.ofString " G00").toList ++
          ((Text.Points.ofString " X1)(Y2 ").toList ++ []) := by decide
    rw [removeComments_eq_scanComments, heq] at hleft
    exact hleft.middle
  have hdivided : IsDivided
      [((Text.Points.ofString " G00").toList, (Text.Points.ofString "a(b").toList)]
      (Text.Points.ofString " X1)(Y2 ").toList (Text.Points.ofString " G00(a(b) X1)(Y2 ").toList :=
    ⟨by decide, by decide, by decide, hlast⟩
  obtain ⟨left, right, heq, hends⟩ := hkept _ _ hdivided
  rw [hstrip] at heq
  exact ⟨hstrip, left, right, heq, hends⟩

end TurretPunch.Program
