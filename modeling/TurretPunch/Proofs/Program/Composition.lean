import TurretPunch.Proofs.Program.Ending
import TurretPunch.Proofs.Program.Tooling
import TurretPunch.Proofs.Text.Line

namespace TurretPunch

/-!
# Texts one after the other

A text of which the lines of another one follow is read in two parts. The second part is read from the
state that the first one leaves, and stands further down; nothing else goes from one part to the other.
-/

/-- The operation of the same line, when the line stands `n` lines further down. -/
def Operation.movedDown (n : Int) : Operation → Operation
  | toolChange line station => .toolChange (line + n) station
  | move line x y tool => .move (line + n) x y tool
  | hit line x y diameter tool => .hit (line + n) x y diameter tool
  | finish line => .finish (line + n)

def LineError.movedDown (n : Int) (e : LineError) : LineError := ⟨e.line + n, e.problem⟩

namespace Program

def movedDown (n : Int) (p : Program) : Program :=
  ⟨p.operations.map (·.movedDown n), p.modes, p.errors.map (·.movedDown n)⟩

@[simp] theorem movedDown_empty (n : Int) : movedDown n {} = {} := rfl

@[simp] theorem movedDown_append (n : Int) (p q : Program) :
    (p ++ q).movedDown n = p.movedDown n ++ q.movedDown n := by
  simp only [movedDown, operations_append, modes_append, errors_append, List.map_append]
  rfl

@[simp] theorem movedDown_ofOperation (n : Int) (mode : Mode) (op : Operation) :
    (ofOperation mode op).movedDown n = ofOperation mode (op.movedDown n) := rfl

@[simp] theorem movedDown_ofError (n line : Int) (problem : LineProblem) :
    (ofError line problem).movedDown n = ofError (line + n) problem := rfl

variable {tooling : Tooling} {state : ReaderState} {line : Int} {p q : Program}
  {lines : List (List Text.Point)}

theorem changeTool_movedDown (tooling : Tooling) (mode : Mode) (line station n : Int) :
    changeTool tooling mode (line + n) station =
      (changeTool tooling mode line station).movedDown n := by
  unfold changeTool
  split <;> simp [Operation.movedDown]

theorem makeMotion_movedDown (tooling : Tooling) (state : ReaderState) (line n : Int)
    (motion : Motion) (words : Words) :
    makeMotion tooling state (line + n) motion words =
      ((makeMotion tooling state line motion words).1.movedDown n,
        (makeMotion tooling state line motion words).2) := by
  unfold makeMotion
  cases motion with
  | rapid => rfl
  | punch =>
      cases coordinate state.mode (state.position.map (·.1)) words.x <;>
        cases coordinate state.mode (state.position.map (·.2)) words.y <;> rfl

theorem repeatMotion_movedDown (tooling : Tooling) (state : ReaderState) (line n : Int)
    (words : Words) :
    repeatMotion tooling state (line + n) words =
      ((repeatMotion tooling state line words).1.movedDown n,
        (repeatMotion tooling state line words).2) := by
  unfold repeatMotion
  cases state.motion with
  | none => rfl
  | some motion => exact makeMotion_movedDown tooling state line n motion words

theorem execute_movedDown (tooling : Tooling) (state : ReaderState) (line n : Int)
    (statement : Statement) :
    execute tooling state (line + n) statement =
      (execute tooling state line statement).map fun added => (added.1.movedDown n, added.2) := by
  cases statement with
  | nothing | setMode => rfl
  | changeTool ds =>
      rw [execute, execute]
      cases stationNumber ds with
      | error fault => rfl
      | ok station => simp [Except.map, changeTool_movedDown]
  | command motion words | again words =>
      rw [execute, execute, repeatMotion_movedDown]
      rfl

theorem readLines_movedDown (tooling : Tooling) (state : ReaderState) (line n : Int)
    (lines : List (List Text.Point)) :
    readLines tooling state (line + n) lines =
      ((readLines tooling state line lines).1.movedDown n,
        (readLines tooling state line lines).2) := by
  induction lines generalizing state line with
  | nil => rfl
  | cons ps rest ih =>
      rw [readLines, readLines, execute_movedDown]
      cases execute tooling state line (.ofLine ps) with
      | error fault => rfl
      | ok executed =>
          have hline : line + n + 1 = line + 1 + n := by omega
          simp only [Except.map, hline, ih, movedDown_append]

/-- Lines that begin by setting all that a reader keeps: the absolute mode, a tool, and a rapid to a
position. -/
inductive StartsOver : List (List Text.Point) → Prop
  | intro {first second third : List Text.Point} {rest : List (List Text.Point)} {ds : List Char}
      {words : Words} {x y : Float} (hmode : Statement.ofLine first = .setMode .absolute)
      (htool : Statement.ofLine second = .changeTool ds)
      (hrapid : Statement.ofLine third = .command (some .rapid) words) (hx : words.x = some x)
      (hy : words.y = some y) : StartsOver (first :: second :: third :: rest)

theorem StartsOver.readLines_eq (h : StartsOver lines) (tooling : Tooling)
    (state state' : ReaderState) (line : Int) :
    readLines tooling state line lines = readLines tooling state' line lines := by
  obtain ⟨hmode, htool, hrapid, hx, hy⟩ := h
  -- line by line the two states come to agree: on the mode, on the tool, on the motion and position
  unfold readLines
  simp only [hmode, execute]
  unfold readLines
  simp only [htool, execute]
  cases stationNumber _ with
  | error fault => rfl
  | ok station =>
      simp only [Except.map]
      unfold readLines
      simp only [hrapid, execute, repeatMotion, makeMotion, coordinate, hx, hy]
      rfl

theorem readLines_line_le (tooling : Tooling) (state : ReaderState) (line : Int)
    (lines : List (List Text.Point)) :
    (∀ op ∈ (readLines tooling state line lines).1.operations, line ≤ op.line) ∧
      ∀ e ∈ (readLines tooling state line lines).1.errors, line ≤ e.line := by
  induction lines generalizing state line with
  | nil => exact ⟨List.forall_mem_nil _, List.forall_mem_nil _⟩
  | cons ps rest ih =>
      cases hexecuted : execute tooling state line (.ofLine ps) with
      | error fault =>
          rw [readLines, hexecuted]
          exact ⟨List.forall_mem_nil _, List.forall_mem_nil _⟩
      | ok executed =>
          obtain ⟨added, mid⟩ := executed
          obtain ⟨hops, herrors⟩ := (effect_of_execute hexecuted).line_eq
          obtain ⟨hlaterOps, hlaterErrors⟩ := ih mid (line + 1)
          rw [readLines_cons _ _ _ _ _ hexecuted, operations_append, errors_append]
          constructor
          · intro op hop
            rcases List.mem_append.mp hop with hhere | hlater
            · exact Int.le_of_eq (hops op hhere).symm
            · have hle := hlaterOps op hlater
              omega
          · intro e he
            rcases List.mem_append.mp he with hhere | hlater
            · exact Int.le_of_eq (herrors e hhere).symm
            · have hle := hlaterErrors e hlater
              omega

theorem readText_of_ofText {text : Text.Points} (h : ofText tooling text = .ok p) :
    ∃ read final, readText tooling text = (read, .ok final) ∧ p = read ++ ending text final.mode := by
  unfold ofText at h
  split at h
  · cases h
  · next read final hread => exact ⟨read, final, hread, (Except.ok.inj h).symm⟩

/-- A program without its end. -/
def unended (p : Program) : Program := ⟨p.operations.dropLast, p.modes.dropLast, p.errors⟩

theorem unended_append_ending (p : Program) (text : Text.Points) (mode : Mode) :
    (p ++ ending text mode).unended = p := by
  have herrors : (p ++ ending text mode).errors = p.errors := List.append_nil _
  rw [unended, herrors, operations_append, modes_append]
  simp [ending, ofOperation]

theorem filter_line {α : Type} {line : α → Int} {n : Int} {before after : List α}
    (hbefore : ∀ a ∈ before, line a < n) (hafter : ∀ a ∈ after, n ≤ line a) :
    (before ++ after).filter (fun a => line a < n) = before := by
  have hkept : before.filter (fun a => line a < n) = before := by
    apply List.filter_eq_self.mpr
    simpa using hbefore
  have hdropped : after.filter (fun a => line a < n) = [] := by
    apply List.filter_eq_nil_iff.mpr
    simpa using hafter
  rw [List.filter_append, hkept, hdropped, List.append_nil]

theorem line_movedDown (n : Int) (op : Operation) : (op.movedDown n).line = op.line + n := by
  cases op <;> rfl

theorem le_line_movedDown (tooling : Tooling) (state : ReaderState) (n : Int) (text : Text.Points)
    (mode : Mode) :
    let later := (readLines tooling state 0 (Text.lines text.toList)).1 ++ ending text mode
    (∀ op ∈ (later.movedDown n).operations, n ≤ op.line) ∧
      ∀ e ∈ (later.movedDown n).errors, n ≤ e.line := by
  obtain ⟨hops, herrors⟩ := readLines_line_le tooling state 0 (Text.lines text.toList)
  constructor
  · intro op hop
    obtain ⟨o, ho, rfl⟩ := List.mem_map.mp hop
    rw [line_movedDown]
    rcases List.mem_append.mp ho with hread | hend
    · have hle := hops o hread
      omega
    · obtain rfl := List.mem_singleton.mp hend
      have hlines := List.length_pos_iff.mpr (Text.lines_ne_nil text.toList)
      show n ≤ ((Text.lines text.toList).length - 1 : Int) + n
      omega
  · intro e he
    obtain ⟨o, ho, rfl⟩ := List.mem_map.mp he
    rcases List.mem_append.mp ho with hread | hend
    · have hle := herrors o hread
      show n ≤ o.line + n
      omega
    · cases hend

/-- A text and another one on the lines after it, which both can be read, can be read together. What
stands in the lines of the first one is the same; then come what the second one adds from the state
that the first one left, and its end, moved down by the number of lines. If the second text starts
over, it adds its own program. -/
theorem ofText_append {a b : Text.Points} (ha : ofText tooling a = .ok p)
    (hb : ofText tooling b = .ok q) :
    let n : Int := (Text.lines a.toList).length
    ∃ left later final whole,
      readText tooling a = (p.unended, .ok left) ∧
      readLines tooling left 0 (Text.lines b.toList) = (later, .ok final) ∧
      ofText tooling (a ++ ("\n" : Text.Points) ++ b) = .ok whole ∧
      whole = p.unended ++ (later ++ ending b final.mode).movedDown n ∧
      whole.operations.filter (·.line < n) = p.unended.operations ∧
      whole.errors.filter (·.line < n) = p.unended.errors ∧
      (StartsOver (Text.lines b.toList) → whole = p.unended ++ q.movedDown n) := by
  intro n
  obtain ⟨own, left, hown, rfl⟩ := readText_of_ofText ha
  obtain ⟨alone, last, halone, rfl⟩ := readText_of_ofText hb
  rw [unended_append_ending]
  obtain ⟨final, hfinal⟩ := exists_readLines (congrArg Prod.snd halone) left 0
  let later := (readLines tooling left 0 (Text.lines b.toList)).1
  let whole := own ++ (later ++ ending b final.mode).movedDown n
  have hlines : Text.lines (a ++ ("\n" : Text.Points) ++ b).toList =
      Text.lines a.toList ++ Text.lines b.toList := by
    have htext : (a ++ ("\n" : Text.Points) ++ b).toList = a.toList ++ .char '\n' :: b.toList := by
      show (a.toList ++ [.char '\n']) ++ b.toList = _
      simp
    rw [htext, Text.lines_append]
  have hread : readText tooling (a ++ ("\n" : Text.Points) ++ b) =
      (own ++ later.movedDown n, .ok final) := by
    rw [readText, hlines, readLines_append hown, readLines_movedDown, hfinal]
  have hending : ending (a ++ ("\n" : Text.Points) ++ b) final.mode =
      (ending b final.mode).movedDown n := by
    have hlength : ((Text.lines a.toList ++ Text.lines b.toList).length - 1 : Int) =
        ((Text.lines b.toList).length - 1 : Int) + n := by
      rw [List.length_append]
      omega
    rw [ending, hlines, hlength]
    rfl
  have hhistory : History tooling (Text.lines a.toList) own left := History.start.readLines hown
  obtain ⟨hops, herrors⟩ := le_line_movedDown tooling left n b final.mode
  refine ⟨left, later, final, whole, hown, Prod.ext rfl hfinal, ?_, rfl,
    filter_line hhistory.line_lt.1 hops, filter_line hhistory.line_lt.2 herrors, ?_⟩
  · have hwhole : own ++ later.movedDown n ++ (ending b final.mode).movedDown n = whole := by
      rw [append_assoc, ← movedDown_append]
    rw [ofText, hread, ← hwhole, ← hending]
  · intro hstarts
    have hsame := hstarts.readLines_eq tooling left {} 0
    have hfirst : later = alone := congrArg Prod.fst (hsame.trans halone)
    have hlast : final = last :=
      Except.ok.inj (hfinal.symm.trans (congrArg Prod.snd (hsame.trans halone)))
    rw [← hfirst, ← hlast]

theorem ofText_append_startsOver :
    let tooling : Tooling := ⟨⟨[]⟩, .real 8.0⟩
    let a : Text.Points := "G91\nG81 X5 Y5\n"
    let b : Text.Points := "G90\nT2\nG00 X1 Y2\nX3"
    let p : Program := ⟨[.hit 1 5.0 5.0 (.real 8.0) 1, .finish 2], [.relative, .relative], []⟩
    let q : Program := ⟨[.toolChange 1 2, .move 2 1.0 2.0 2, .move 3 3.0 2.0 2, .finish 3],
      [.absolute, .absolute, .absolute, .absolute], [⟨1, .unknownStation 2⟩]⟩
    ofText tooling a = .ok p ∧ ofText tooling b = .ok q ∧ StartsOver (Text.lines b.toList) ∧
      ofText tooling (a ++ ("\n" : Text.Points) ++ b) = .ok (p.unended ++ q.movedDown 3) := by
  intro tooling a b p q
  have ha : ofText tooling a = .ok p := by with_unfolding_all rfl
  have hb : ofText tooling b = .ok q := by with_unfolding_all rfl
  have hstarts : StartsOver (Text.lines b.toList) := by
    refine @StartsOver.intro _ _ _ _ ['2'] ⟨some 1.0, some 2.0, none⟩ 1.0 2.0 ?_ ?_ ?_ rfl rfl <;>
      with_unfolding_all rfl
  obtain ⟨_, _, _, whole, _, _, hwhole, _, _, _, hsame⟩ := ofText_append ha hb
  rw [hsame hstarts] at hwhole
  exact ⟨ha, hb, hstarts, hwhole⟩

end Program

end TurretPunch
