import TurretPunch.Proofs.Program.Inert
import TurretPunch.Proofs.Program.Writing

namespace TurretPunch

/-!
# Lines that change no program

A text that is put among the lines of a program is harmless if what is read is the same with it and
without it, whatever the other lines are. This is so exactly if each of its own lines is inert: a line
with a code in it shows in some program. A comment is written to be harmless, and it is if it stands in
one line; but a newline in it ends the comment.
-/

/-- An operation without its line. -/
def Operation.unnumbered : Operation → Operation
  | toolChange _ station => .toolChange 0 station
  | move _ x y tool => .move 0 x y tool
  | hit _ x y diameter tool => .hit 0 x y diameter tool
  | finish _ => .finish 0

theorem Operation.unnumbered_makeRoom (i n : Int) (op : Operation) :
    (op.makeRoom i n).unnumbered = op.unnumbered := by
  unfold makeRoom
  split
  · cases op <;> rfl
  · rfl

def LineError.unnumbered (e : LineError) : LineError := ⟨0, e.problem⟩

theorem LineError.unnumbered_makeRoom (i n : Int) (e : LineError) :
    (e.makeRoom i n).unnumbered = e.unnumbered := by
  unfold makeRoom
  split <;> rfl

open Text (Point)

namespace Program

variable {tooling : Tooling} {state mid final : ReaderState} {line : Int} {read added : Program}
  {lines : List (List Point)} {text : Text.Points} {texts before after : List Text.Points}

def unnumbered (p : Program) : Program :=
  ⟨p.operations.map (·.unnumbered), p.modes, p.errors.map (·.unnumbered)⟩

theorem unnumbered_append (p q : Program) : (p ++ q).unnumbered = p.unnumbered ++ q.unnumbered := by
  simp only [unnumbered, operations_append, modes_append, errors_append, List.map_append]
  rfl

theorem unnumbered_makeRoom (i n : Int) (p : Program) :
    (p.makeRoom i n).unnumbered = p.unnumbered := by
  simp [unnumbered, makeRoom, Operation.unnumbered_makeRoom, LineError.unnumbered_makeRoom,
    Function.comp_def]

/-- The lines of texts, each of which may have several. -/
def allLines (texts : List Text.Points) : List (List Point) :=
  texts.flatMap fun text => Text.lines text.toList

theorem allLines_insert (before after : List Text.Points) (text : Text.Points) :
    allLines (before ++ text :: after) =
      allLines before ++ (Text.lines text.toList ++ allLines after) := by
  simp [allLines]

theorem lines_joinLines (hne : texts ≠ []) : Text.lines (joinLines texts).toList = allLines texts := by
  have hsome : texts.map (·.toList) ≠ [] := mt List.map_eq_nil_iff.mp hne
  have hlines := Text.lines_intercalate hsome
  rwa [List.flatMap_map] at hlines

theorem inert_nil : Inert [] := inert_iff.mpr (by with_unfolding_all rfl)

/-- What is seen in the end of lines that were read, but for their numbers. -/
def observed (outcome : Program × Except Fault ReaderState) : Except Fault Program :=
  outcome.2.map fun final => outcome.1.unnumbered ++ ofOperation final.mode (.finish 0)

theorem map_ofText_joinLines (tooling : Tooling) (texts : List Text.Points) :
    (ofText tooling (joinLines texts)).map unnumbered =
      observed (readLines tooling {} 0 (allLines texts)) := by
  have hread : readText tooling (joinLines texts) = readLines tooling {} 0 (allLines texts) := by
    cases texts with
    | nil =>
        have hempty : ∀ ps ∈ [[]], Inert ps := List.forall_mem_singleton.mpr inert_nil
        exact readLines_inert hempty {} 0 []
    | cons first rest => rw [readText, lines_joinLines (List.cons_ne_nil _ _)]
  unfold ofText
  rw [hread]
  cases readLines tooling {} 0 (allLines texts) with
  | mk program outcome =>
      cases outcome with
      | error fault => rfl
      | ok final => exact congrArg Except.ok (unnumbered_append _ _)

theorem observed_append (read : Program) (outcome : Program × Except Fault ReaderState) :
    observed (read ++ outcome.1, outcome.2) = (observed outcome).map (read.unnumbered ++ ·) := by
  obtain ⟨program, _ | final⟩ := outcome
  · rfl
  · have hend := append_assoc read.unnumbered program.unnumbered (ofOperation final.mode (.finish 0))
    rw [← unnumbered_append] at hend
    exact congrArg Except.ok hend

theorem append_left_cancel {p q r : Program} (h : p ++ q = p ++ r) : q = r := by
  have hops := List.append_cancel_left (congrArg Program.operations h)
  have hmodes := List.append_cancel_left (congrArg Program.modes h)
  have herrors := List.append_cancel_left (congrArg Program.errors h)
  cases q
  cases r
  exact congr (congr (congrArg Program.mk hops) hmodes) herrors

theorem map_append_inj {p : Program} {a b : Except Fault Program}
    (h : a.map (p ++ ·) = b.map (p ++ ·)) : a = b := by
  match a, b with
  | .ok q, .ok r => exact congrArg Except.ok (append_left_cancel (Except.ok.inj h))
  | .error fault, .error fault' => exact congrArg Except.error (Except.error.inj h)

/-- A text can be put among the lines of any program, and what is read is the same but for the numbers
of the lines. -/
def Harmless (text : Text.Points) : Prop :=
  ∀ (tooling : Tooling) (before after : List Text.Points),
    (ofText tooling (joinLines (before ++ text :: after))).map unnumbered =
      (ofText tooling (joinLines (before ++ after))).map unnumbered

theorem harmless_of_inert (h : ∀ ps ∈ Text.lines text.toList, Inert ps) : Harmless text := by
  intro tooling before after
  have hinsert := readLines_insert tooling h {} 0 (allLines before) (allLines after)
  have hbare : allLines (before ++ after) = allLines before ++ allLines after := List.flatMap_append
  rw [map_ofText_joinLines, map_ofText_joinLines, allLines_insert, hbare, hinsert]
  simp only [observed, unnumbered_makeRoom]

/-- Lines that add nothing and leave a motion in force say nothing, or set a mode. -/
theorem quiet_of_readLines (hread : readLines tooling state line lines = (added, .ok final))
    (hops : added.operations = []) (herrors : added.errors = []) (hmotion : final.motion ≠ none) :
    state.motion ≠ none ∧
      ∀ ps ∈ lines, Statement.ofLine ps = .nothing ∨ ∃ mode, Statement.ofLine ps = .setMode mode := by
  induction lines generalizing state line added with
  | nil =>
      obtain rfl := Except.ok.inj (congrArg Prod.snd hread)
      exact ⟨hmotion, List.forall_mem_nil _⟩
  | cons ps rest ih =>
      obtain ⟨own, mid, more, hexecuted, hmore, rfl⟩ := exists_of_readLines_cons hread
      obtain ⟨hown, hlater⟩ := List.append_eq_nil_iff.mp hops
      obtain ⟨hown', hlater'⟩ := List.append_eq_nil_iff.mp herrors
      obtain ⟨hmid, hrest⟩ := ih hmore hlater hlater'
      cases effect_of_execute hexecuted with
      | nothing h => exact ⟨hmid, List.forall_mem_cons.mpr ⟨Or.inl h, hrest⟩⟩
      | mode h => exact ⟨hmid, List.forall_mem_cons.mpr ⟨Or.inr ⟨_, h⟩, hrest⟩⟩
      | toolChange =>
          rw [operations_changeTool] at hown
          cases hown
      | idle => exact absurd rfl hmid
      | rapid | hit => cases hown
      | refused => cases hown'

/-- A harmless text can be left out after any lines. -/
theorem Harmless.observed_eq (h : Harmless text)
    (hbefore : readLines tooling {} 0 (allLines before) = (read, .ok mid))
    (after : List Text.Points) :
    observed (readLines tooling mid (allLines before).length
        (Text.lines text.toList ++ allLines after)) =
      observed (readLines tooling mid (allLines before).length (allLines after)) := by
  have hsame := h tooling before after
  have hbare : allLines (before ++ after) = allLines before ++ allLines after := List.flatMap_append
  rw [map_ofText_joinLines, map_ofText_joinLines, allLines_insert, hbare, readLines_append hbefore,
    readLines_append hbefore, Int.zero_add, observed_append read, observed_append read] at hsame
  exact map_append_inj hsame

/-- After any lines, those of a harmless text are read without a fault. They add nothing, and leave the
mode as it is. -/
theorem Harmless.readLines_eq (h : Harmless text)
    (hbefore : readLines tooling {} 0 (allLines before) = (read, .ok mid)) :
    ∃ added final, readLines tooling mid (allLines before).length (Text.lines text.toList) =
        (added, .ok final) ∧
      added.operations = [] ∧ added.errors = [] ∧ final.mode = mid.mode := by
  have hsame := h.observed_eq hbefore []
  have hnothing : allLines [] = [] := rfl
  rw [hnothing, List.append_nil, readLines] at hsame
  cases hread : readLines tooling mid (allLines before).length (Text.lines text.toList) with
  | mk added outcome =>
      rw [hread] at hsame
      cases outcome with
      | error fault => cases hsame
      | ok final =>
          have hprogram := Except.ok.inj hsame
          have hops := congrArg Program.operations hprogram
          have hmodes := congrArg (·.modes.getLast?) hprogram
          have herrors := congrArg Program.errors hprogram
          refine ⟨added, final, rfl, ?_, ?_, ?_⟩
          · simpa [unnumbered, ofOperation] using hops
          · simpa [unnumbered, ofOperation, errors_append] using herrors
          · simpa [unnumbered, ofOperation] using hmodes

/-- A word that goes with the last command shows whether there is a motion. -/
theorem Harmless.motion_ne_none (h : Harmless text)
    (hbefore : readLines tooling {} 0 (allLines before) = (read, .ok mid))
    (hread : readLines tooling mid (allLines before).length (Text.lines text.toList) =
      (added, .ok final)) (hops : added.operations = []) (hmotion : mid.motion = some .rapid) :
    final.motion ≠ none := by
  intro hnone
  let word : Text.Points := "X0"
  obtain ⟨words, hword⟩ : ∃ words, Statement.ofLine word.toList = .again words :=
    ⟨_, by with_unfolding_all rfl⟩
  have hidle (line : Int) : execute tooling final line (.ofLine word.toList) = .ok ({}, final) := by
    rw [hword, execute, repeatMotion, hnone]
  obtain ⟨op, moved, hmoved⟩ : ∃ op moved,
      execute tooling mid (allLines before).length (.ofLine word.toList) =
        .ok (ofOperation mid.mode op, moved) := by
    rw [hword, execute, repeatMotion, hmotion]
    exact ⟨_, _, rfl⟩
  have hsame := h.observed_eq hbefore [word]
  have hlines : allLines [word] = [word.toList] := rfl
  rw [hlines, readLines_append hread, readLines_cons _ _ _ _ _ (hidle _),
    readLines_cons _ _ _ _ _ hmoved] at hsame
  have hlength := congrArg (·.operations.length) (Except.ok.inj hsame)
  simp [unnumbered, ofOperation, readLines, hops] at hlength

/-- The lines of a harmless text set no mode, since there are programs in either mode. -/
theorem Harmless.mode?_eq_none (h : Harmless text) :
    ∀ ps ∈ Text.lines text.toList, (Statement.ofLine ps).mode? = none := by
  let tooling : Tooling := ⟨⟨[]⟩, .real 8.0⟩
  have hkept {before : List Text.Points} {mid : ReaderState}
      (hbefore : readLines tooling {} 0 (allLines before) = ({}, .ok mid)) :
      ((Text.lines text.toList).filterMap fun ps => (Statement.ofLine ps).mode?).getLastD mid.mode =
        mid.mode := by
    obtain ⟨added, final, hread, _, _, hmode⟩ := h.readLines_eq hbefore
    have hhistory : History tooling (allLines before) {} mid := History.start.readLines hbefore
    have hlater := (hhistory.readLines hread).mode
    rwa [modeAfter_append, ← hhistory.mode, hmode, eq_comm] at hlater
  have habsolute := @hkept [] {} rfl
  have hrelative := @hkept [Text.Points.ofString "G91"] { mode := .relative }
    (by with_unfolding_all rfl)
  apply List.filterMap_eq_nil_iff.mp
  cases hmodes : (Text.lines text.toList).filterMap fun ps => (Statement.ofLine ps).mode? with
  | nil => rfl
  | cons mode more =>
      rw [hmodes, List.getLastD_cons] at habsolute hrelative
      cases habsolute.symm.trans hrelative

/-- A text is harmless exactly if each of its lines is inert. -/
theorem harmless_iff : Harmless text ↔ ∀ ps ∈ Text.lines text.toList, Inert ps := by
  refine ⟨fun h ps hps => inert_iff.mpr ?_, harmless_of_inert⟩
  have hbefore : readLines ⟨⟨[]⟩, .real 8.0⟩ {} 0 (allLines [Text.Points.ofString "G00"]) =
      (ofOperation .absolute (.move 0 0.0 0.0 1),
        .ok { motion := some .rapid, position := some (0.0, 0.0) }) := by
    with_unfolding_all rfl
  obtain ⟨added, final, hread, hops, herrors, _⟩ := h.readLines_eq hbefore
  have hmotion := h.motion_ne_none hbefore hread hops rfl
  rcases (quiet_of_readLines hread hops herrors hmotion).2 ps hps with hnothing | ⟨mode, hset⟩
  · exact hnothing
  · have hnone := h.mode?_eq_none ps hps
    rw [hset] at hnone
    cases hnone

/-- The parentheses around a text stand in its first line and in its last one. -/
theorem inert_lines_comment_iff {inner : List Point} (hopen : .char '(' ∉ inner)
    (hclose : .char ')' ∉ inner) (hnewline : .char '\n' ∈ inner) :
    (∀ ps ∈ Text.lines (.char '(' :: (inner ++ [.char ')'])), Inert ps) ↔
      ∀ ps ∈ Text.lines inner, Inert ps := by
  obtain ⟨first, rest, rfl, hfirst⟩ := List.eq_append_cons_of_mem hnewline
  obtain ⟨before, last, hlast, _, hlines⟩ := Text.exists_last_line rest
  have hclosed : Text.lines (rest ++ [.char ')']) = before ++ [last ++ [.char ')']] := hlines rfl
  have hbare : Text.lines rest = before ++ [last] := by
    have hlines : Text.lines (rest ++ []) = before ++ [last ++ []] := hlines rfl
    rwa [List.append_nil, List.append_nil] at hlines
  have hfirst' : .char '\n' ∉ .char '(' :: first := by simpa using hfirst
  have hcomment : Text.lines (.char '(' :: (first ++ .char '\n' :: rest ++ [.char ')'])) =
      [.char '(' :: first] ++ (before ++ [last ++ [.char ')']]) := by
    rw [List.append_assoc, List.cons_append, ← List.cons_append, Text.lines_append,
      Text.lines_of_newline_not_mem hfirst', hclosed]
  have hopened : Inert (.char '(' :: first) ↔ Inert first :=
    inert_cons_iff (mt (List.mem_append_left _) hopen) (mt (List.mem_append_left _) hclose)
  have hended : Inert (last ++ [.char ')']) ↔ Inert last :=
    inert_concat_iff fun hmem =>
      hopen (List.mem_append_right _ (List.mem_cons_of_mem _ (hlast.mem hmem)))
  rw [hcomment, Text.lines_append, Text.lines_of_newline_not_mem hfirst, hbare]
  simp only [List.forall_mem_append, List.forall_mem_singleton, hopened, hended]

/-- A comment is harmless exactly if it stands in one line, or if none of the lines that its text has
says anything of its own. -/
theorem comment_harmless_iff (text : Text.Points) : Harmless (Instruction.comment text).line ↔
    .char '\n' ∉ text.toList ∨
      ∀ ps ∈ Text.lines (Instruction.commentText text).toList, Inert ps := by
  have hnewline : .char '\n' ∈ (Instruction.commentText text).toList ↔ .char '\n' ∈ text.toList := by
    simp [Instruction.commentText]
  rw [harmless_iff]
  by_cases hmem : .char '\n' ∈ text.toList
  · rw [toList_comment, or_iff_right (not_not_intro hmem)]
    exact inert_lines_comment_iff (by simp [Instruction.commentText])
      (by simp [Instruction.commentText]) (hnewline.mpr hmem)
  · have hline : .char '\n' ∉ (Instruction.comment text).line.toList := by
      simpa [toList_comment] using mt hnewline.mp hmem
    rw [Text.lines_of_newline_not_mem hline]
    exact iff_of_true (List.forall_mem_singleton.mpr (inert_iff.mpr (ofLine_comment text))) (Or.inl hmem)

/-- The second line of a comment sets the relative mode, and the motion after it goes twice as far. -/
theorem comment_sets_mode :
    let tooling : Tooling := ⟨⟨[]⟩, .real 8.0⟩
    let before : List Text.Points := [Text.Points.ofString "G00 X10"]
    let after : List Text.Points := [Text.Points.ofString "X10"]
    let text : Text.Points := "x\nG91"
    ofText tooling (joinLines (before ++ after)) =
        .ok ⟨[.move 0 10.0 0.0 1, .move 1 10.0 0.0 1, .finish 1], [.absolute, .absolute, .absolute], []⟩ ∧
      ofText tooling (joinLines (before ++ (Instruction.comment text).line :: after)) =
        .ok ⟨[.move 0 10.0 0.0 1, .move 3 20.0 0.0 1, .finish 3], [.absolute, .relative, .relative], []⟩ ∧
      ¬ Harmless (Instruction.comment text).line := by
  intro tooling before after text
  have hbare : ofText tooling (joinLines (before ++ after)) = .ok
      ⟨[.move 0 10.0 0.0 1, .move 1 10.0 0.0 1, .finish 1], [.absolute, .absolute, .absolute], []⟩ := by
    with_unfolding_all rfl
  have hcomment : ofText tooling (joinLines (before ++ (Instruction.comment text).line :: after)) = .ok
      ⟨[.move 0 10.0 0.0 1, .move 3 20.0 0.0 1, .finish 3], [.absolute, .relative, .relative], []⟩ := by
    with_unfolding_all rfl
  refine ⟨hbare, hcomment, fun h => ?_⟩
  have hsame := h tooling before after
  rw [hbare, hcomment] at hsame
  cases congrArg Program.modes (Except.ok.inj hsame)

end Program

end TurretPunch
