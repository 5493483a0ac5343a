import TurretPunch.Program.Reader

namespace TurretPunch.Program

/-!
# Histories of readers

A reader that has read lines without a fault has a history: each line had its effect on the state
that the lines before it had left. What holds of a program and of the state after it is shown along
the history, and each operation is traced to the line that it comes from.
-/

variable {tooling : Tooling} {state after : ReaderState} {line : Int} {statement : Statement}
  {program added : Program} {lines before rest : List (List Text.Point)} {ps : List Text.Point}

@[simp] theorem operations_append (p q : Program) :
    (p ++ q).operations = p.operations ++ q.operations := rfl

@[simp] theorem modes_append (p q : Program) : (p ++ q).modes = p.modes ++ q.modes := rfl

theorem append_empty (p : Program) : p ++ ({} : Program) = p := by
  obtain ⟨operations, modes, errors⟩ := p
  show Program.mk _ _ _ = _
  simp only [List.append_nil]

theorem empty_append (p : Program) : ({} : Program) ++ p = p := rfl

theorem append_assoc (p q r : Program) : p ++ q ++ r = p ++ (q ++ r) := by
  show Program.mk _ _ _ = Program.mk _ _ _
  simp only [operations_append, modes_append, List.append_assoc]
  congr 1
  exact List.append_assoc _ _ _

/-- The motion that a statement asks for, if `last` was the last command, with its words. -/
def Statement.request? (last : Option Motion) : Statement → Option (Option Motion × Words)
  | .command motion words => some (motion, words)
  | .again words => some (last, words)
  | _ => none

/-- The capitals in which a line is read. -/
def capitals (ps : List Text.Point) : List Char :=
  Text.capitals ((stripComments ps).map (·.replacement))

/-- The words in a line, which may have comments. -/
def Words.inLine (ps : List Text.Point) : Words :=
  Words.ofLine (Text.capitals ((stripComments ps).map (·.replacement)))

theorem Statement.words_of_request {last motion : Option Motion}
    {words : Words} (h : (Statement.ofLine ps).request? last = some (motion, words)) :
    words = Words.inLine ps := by
  unfold Words.inLine
  revert h
  unfold Statement.ofLine Statement.ofCapitals
  generalize Text.capitals ((stripComments ps).map (·.replacement)) = cs
  intro h
  split at h
  · cases h
  · split at h
    · cases h
    · split at h
      · cases h
      · cases h
        rfl
      · dsimp only at h
        split at h
        · cases h
        · cases h
          rfl

theorem execute_of_request {motion : Option Motion} {words : Words}
    (h : statement.request? state.motion = some (motion, words)) :
    execute tooling state line statement =
      .ok (repeatMotion tooling { state with motion } line words) := by
  cases statement with
  | nothing | setMode | changeTool => cases h
  | command | again =>
      cases h
      rfl

/-- The effect of a statement: what it adds to the program, and the state after it. -/
inductive Effect (tooling : Tooling) (state : ReaderState) (line : Int) (statement : Statement) :
    Program → ReaderState → Prop where
  | nothing (h : statement = .nothing) : Effect tooling state line statement {} state
  | mode {mode : Mode} (h : statement = .setMode mode) :
      Effect tooling state line statement {} { state with mode }
  | toolChange {ds : List Char} {station : Int} (h : statement = .changeTool ds)
      (hstation : stationNumber ds = .ok station) :
      Effect tooling state line statement (changeTool tooling state.mode line station)
        { state with tool := station }
  /-- A request without a motion. -/
  | idle {words : Words} (h : statement.request? state.motion = some (none, words)) :
      Effect tooling state line statement {} { state with motion := none }
  | rapid {words : Words} {x y : Float}
      (h : statement.request? state.motion = some (some .rapid, words))
      (hx : x = (coordinate state.mode (state.position.map (·.1)) words.x).getD 0.0)
      (hy : y = (coordinate state.mode (state.position.map (·.2)) words.y).getD 0.0) :
      Effect tooling state line statement (ofOperation state.mode (.move line x y state.tool))
        { state with motion := some .rapid, position := some (x, y) }
  | hit {words : Words} {x y : Float}
      (h : statement.request? state.motion = some (some .punch, words))
      (hx : coordinate state.mode (state.position.map (·.1)) words.x = some x)
      (hy : coordinate state.mode (state.position.map (·.2)) words.y = some y) :
      Effect tooling state line statement
        (ofOperation state.mode (.hit line x y (hitSize tooling state.tool words.size) state.tool))
        { state with motion := some .punch, position := some (x, y) }
  /-- A request for a hit without a position. -/
  | refused {words : Words} (h : statement.request? state.motion = some (some .punch, words))
      (hmissing : coordinate state.mode (state.position.map (·.1)) words.x = none ∨
        coordinate state.mode (state.position.map (·.2)) words.y = none) :
      Effect tooling state line statement (ofError line .incompleteHit)
        { state with motion := some .punch }

theorem effect_of_request {motion : Option Motion} {words : Words}
    (h : statement.request? state.motion = some (motion, words)) :
    Effect tooling state line statement
      (repeatMotion tooling { state with motion } line words).1
      (repeatMotion tooling { state with motion } line words).2 := by
  match motion with
  | none => exact .idle h
  | some .rapid => exact .rapid h rfl rfl
  | some .punch =>
      unfold repeatMotion makeMotion
      cases hx : coordinate state.mode (state.position.map (·.1)) words.x with
      | none => simpa only [hx] using Effect.refused h (.inl hx)
      | some x =>
          cases hy : coordinate state.mode (state.position.map (·.2)) words.y with
          | none => simpa only [hx, hy] using Effect.refused h (.inr hy)
          | some y => simpa only [hx, hy] using Effect.hit h hx hy

theorem effect_of_execute (h : execute tooling state line statement = .ok (added, after)) :
    Effect tooling state line statement added after := by
  cases hrequest : statement.request? state.motion with
  | some request =>
      obtain ⟨motion, words⟩ := request
      rw [execute_of_request hrequest] at h
      have heffect : Effect tooling state line statement _ _ := effect_of_request hrequest
      rwa [Except.ok.inj h] at heffect
  | none =>
      cases statement with
      | command | again => cases hrequest
      | nothing =>
          obtain ⟨rfl, rfl⟩ := Prod.mk.inj (Except.ok.inj h)
          exact .nothing rfl
      | setMode mode =>
          obtain ⟨rfl, rfl⟩ := Prod.mk.inj (Except.ok.inj h)
          exact .mode rfl
      | changeTool ds =>
          rw [execute] at h
          cases hstation : stationNumber ds with
          | error fault =>
              rw [hstation] at h
              cases h
          | ok station =>
              rw [hstation] at h
              obtain ⟨rfl, rfl⟩ := Prod.mk.inj (Except.ok.inj h)
              exact .toolChange rfl hstation

theorem operations_changeTool (tooling : Tooling) (mode : Mode) (line station : Int) :
    (changeTool tooling mode line station).operations = [.toolChange line station] := by
  unfold changeTool
  split <;> rfl

theorem modes_changeTool (tooling : Tooling) (mode : Mode) (line station : Int) :
    (changeTool tooling mode line station).modes = [mode] := by
  unfold changeTool
  split <;> rfl

/-- A line adds nothing to the operations, or else one operation with its number and the mode. -/
theorem Effect.operations (h : Effect tooling state line statement added after) :
    (added.operations = [] ∧ added.modes = []) ∨
      ∃ op, added.operations = [op] ∧ added.modes = [state.mode] ∧ op.line = line := by
  cases h with
  | nothing | mode | idle | refused => exact Or.inl ⟨rfl, rfl⟩
  | rapid | hit => exact Or.inr ⟨_, rfl, rfl, rfl⟩
  | toolChange =>
      exact Or.inr ⟨_, operations_changeTool _ _ _ _, modes_changeTool _ _ _ _, rfl⟩

/-- What lines say from the start of a text on, and the state after them. -/
inductive History (tooling : Tooling) : List (List Text.Point) → Program → ReaderState → Prop where
  | start : History tooling [] {} {}
  | line {lines : List (List Text.Point)} {program added : Program} {state after : ReaderState}
      (h : History tooling lines program state) (ps : List Text.Point)
      (hexecuted : execute tooling state lines.length (.ofLine ps) = .ok (added, after)) :
      History tooling (lines ++ [ps]) (program ++ added) after

theorem readLines_cons (tooling : Tooling) (state : ReaderState) (line : Int) (ps : List Text.Point)
    (rest : List (List Text.Point)) {mid : ReaderState}
    (hexecuted : execute tooling state line (.ofLine ps) = .ok (added, mid)) :
    readLines tooling state line (ps :: rest) =
      (added ++ (readLines tooling mid (line + 1) rest).1,
        (readLines tooling mid (line + 1) rest).2) := by
  rw [readLines, hexecuted]

/-- The first of lines that were read without a fault, and the lines after it. -/
theorem exists_of_readLines_cons
    (hread : readLines tooling state line (ps :: rest) = (program, .ok after)) :
    ∃ added mid later, execute tooling state line (.ofLine ps) = .ok (added, mid) ∧
      readLines tooling mid (line + 1) rest = (later, .ok after) ∧ program = added ++ later := by
  cases hexecuted : execute tooling state line (.ofLine ps) with
  | error fault =>
      rw [readLines, hexecuted] at hread
      cases hread
  | ok executed =>
      obtain ⟨added, mid⟩ := executed
      rw [readLines_cons _ _ _ _ _ hexecuted] at hread
      obtain ⟨hprogram, houtcome⟩ := Prod.mk.inj hread
      exact ⟨added, mid, _, rfl, Prod.ext rfl houtcome, hprogram.symm⟩

/-- Whether a line can be read does not depend on the state before it. -/
theorem exists_execute {executed : Program × ReaderState}
    (h : execute tooling state line statement = .ok executed) (state' : ReaderState) (line' : Int) :
    ∃ executed', execute tooling state' line' statement = .ok executed' := by
  cases statement with
  | nothing | setMode | command | again => exact ⟨_, rfl⟩
  | changeTool ds =>
      rw [execute] at h ⊢
      cases hstation : stationNumber ds with
      | error fault =>
          rw [hstation] at h
          cases h
      | ok station => exact ⟨_, rfl⟩

theorem exists_readLines {final : ReaderState} (h : (readLines tooling state line lines).2 = .ok final)
    (state' : ReaderState) (line' : Int) :
    ∃ final', (readLines tooling state' line' lines).2 = .ok final' := by
  induction lines generalizing state line state' line' with
  | nil => exact ⟨state', rfl⟩
  | cons ps rest ih =>
      obtain ⟨_, _, _, hexecuted, hlater, _⟩ := exists_of_readLines_cons (Prod.ext rfl h)
      obtain ⟨⟨added, mid⟩, hexecuted'⟩ := exists_execute hexecuted state' line'
      rw [readLines_cons _ _ _ _ _ hexecuted']
      exact ih (congrArg Prod.snd hlater) mid (line' + 1)

theorem readLines_append {mid : ReaderState}
    (hread : readLines tooling state line before = (program, .ok mid)) :
    readLines tooling state line (before ++ rest) =
      (program ++ (readLines tooling mid (line + before.length) rest).1,
        (readLines tooling mid (line + before.length) rest).2) := by
  induction before generalizing state line program with
  | nil =>
      obtain ⟨rfl, hmid⟩ := Prod.mk.inj hread
      obtain rfl := Except.ok.inj hmid
      simp [empty_append]
  | cons ps before ih =>
      obtain ⟨added, first, later, hexecuted, hlater, rfl⟩ := exists_of_readLines_cons hread
      have hline : line + 1 + (before.length : Int) = line + (ps :: before).length := by
        rw [List.length_cons]
        omega
      rw [List.cons_append, readLines_cons _ _ _ _ _ hexecuted, ih hlater, hline, append_assoc]

/-- Lines that are read after others continue their history. -/
theorem History.readLines {read : Program}
    (h : History tooling lines program state)
    (hread : readLines tooling state lines.length rest = (read, .ok after)) :
    History tooling (lines ++ rest) (program ++ read) after := by
  -- By induction on the lines that are still to be read. The history grows at its other end.
  induction rest generalizing lines program state read with
  | nil =>
      obtain ⟨rfl, hafter⟩ := Prod.mk.inj hread
      obtain rfl := Except.ok.inj hafter
      rwa [List.append_nil, append_empty]
  | cons ps rest ih =>
      obtain ⟨added, mid, later, hexecuted, hlater, rfl⟩ := exists_of_readLines_cons hread
      have hlength : ((lines ++ [ps]).length : Int) = lines.length + 1 := by simp
      have hlast := ih (h.line ps hexecuted) (hlength ▸ hlater)
      rwa [List.append_assoc, append_assoc] at hlast

theorem history_of_ofText {text : Text.Points} (h : ofText tooling text = .ok program) :
    ∃ read state, History tooling (Text.lines text.toList) read state ∧
      program = read ++ ending text state.mode := by
  unfold ofText at h
  split at h
  · cases h
  · next read state heq =>
    obtain rfl := Except.ok.inj h
    exact ⟨read, state, History.start.readLines heq, rfl⟩

theorem readLines_concat {mid : ReaderState}
    (hread : readLines tooling state line lines = (program, .ok mid))
    (hexecuted : execute tooling mid (line + lines.length) (.ofLine ps) = .ok (added, after)) :
    readLines tooling state line (lines ++ [ps]) = (program ++ added, .ok after) := by
  induction lines generalizing state line program with
  | nil =>
      obtain ⟨rfl, hmid⟩ := Prod.mk.inj hread
      obtain rfl := Except.ok.inj hmid
      have hline : line + ((List.length ([] : List (List Text.Point)) : Nat) : Int) = line :=
        Int.add_zero line
      rw [hline] at hexecuted
      simp only [List.nil_append, readLines, hexecuted, append_empty]
      rfl
  | cons qs rest ih =>
      obtain ⟨made, first, later, hfirst, hlater, rfl⟩ := exists_of_readLines_cons hread
      have hline : line + ((qs :: rest).length : Int) = line + 1 + rest.length := by
        rw [List.length_cons]
        omega
      have hrest := ih hlater (hline ▸ hexecuted)
      rw [List.cons_append, readLines_cons _ _ _ _ _ hfirst, hrest, append_assoc]

theorem History.readLines_eq (h : History tooling lines program state) :
    Program.readLines tooling {} 0 lines = (program, .ok state) := by
  induction h with
  | start => rfl
  | line _ ps hexecuted ih => exact readLines_concat ih (by rwa [Int.zero_add])

/-- The lines up to any of them have a history of their own, and what they say comes first. -/
theorem History.take (h : History tooling lines program state) (k : Nat) :
    ∃ before mid more, History tooling (lines.take k) before mid ∧ program = before ++ more := by
  induction h with
  | start => exact ⟨{}, {}, {}, by rw [List.take_nil]; exact .start, rfl⟩
  | @line lines program added state after h ps hexecuted ih =>
      by_cases hk : k ≤ lines.length
      · obtain ⟨before, mid, more, hbefore, hprogram⟩ := ih
        rw [List.take_append_of_le_length hk, hprogram, append_assoc]
        exact ⟨before, mid, more ++ added, hbefore, rfl⟩
      · have hall : (lines ++ [ps]).length ≤ k := by
          rw [List.length_append, List.length_singleton]
          omega
        rw [List.take_of_length_le hall]
        exact ⟨program ++ added, after, {}, h.line ps hexecuted, (append_empty _).symm⟩

theorem History.length_modes (h : History tooling lines program state) :
    program.modes.length = program.operations.length := by
  induction h with
  | start => rfl
  | line _ _ hexecuted ih =>
      rw [modes_append, operations_append, List.length_append, List.length_append, ih]
      rcases (effect_of_execute hexecuted).operations with
        ⟨hops, hmodes⟩ | ⟨op, hops, hmodes, _⟩ <;>
        rw [hops, hmodes] <;> rfl

/-- An operation comes from a line: the lines before it have a history, which ends with the operations
before this one, and the line had its effect on the state after them. -/
theorem History.origin {n : Nat} {op : Operation} (h : History tooling lines program state)
    (hop : program.operations[n]? = some op) :
    ∃ (i : Nat) (ps : List Text.Point) (before added : Program) (mid next : ReaderState),
      lines[i]? = some ps ∧ History tooling (lines.take i) before mid ∧
        Effect tooling mid i (.ofLine ps) added next ∧ added.operations = [op] ∧
        before.operations = program.operations.take n ∧ program.modes[n]? = some mid.mode := by
  induction h with
  | start => cases hop
  | @line lines program added state after h ps hexecuted ih =>
      have hmodes := h.length_modes
      have heffect := effect_of_execute hexecuted
      by_cases hn : n < program.operations.length
      · rw [operations_append, List.getElem?_append_left hn] at hop
        obtain ⟨i, qs, before, made, mid, next, hline, hbefore, hmade, hone, htake, hmode⟩ := ih hop
        have hi : i < lines.length := (List.getElem?_eq_some_iff.mp hline).1
        refine ⟨i, qs, before, made, mid, next, ?_, ?_, hmade, hone, ?_, ?_⟩
        · rw [List.getElem?_append_left hi, hline]
        · rwa [List.take_append_of_le_length (Nat.le_of_lt hi)]
        · rw [operations_append, List.take_append_of_le_length (Nat.le_of_lt hn), htake]
        · rw [modes_append, List.getElem?_append_left (hmodes ▸ hn), hmode]
      · have hle : program.operations.length ≤ n := Nat.le_of_not_lt hn
        rw [operations_append, List.getElem?_append_right hle] at hop
        rcases heffect.operations with ⟨hnone, _⟩ | ⟨made, hone, hmode, _⟩
        · rw [hnone] at hop
          cases hop
        · rw [hone] at hop
          obtain ⟨hlt, hmade⟩ := List.getElem?_eq_some_iff.mp hop
          rw [List.length_singleton] at hlt
          rw [List.getElem_singleton] at hmade
          obtain rfl : n = program.operations.length := by omega
          refine ⟨lines.length, ps, program, added, state, after, ?_, ?_, heffect, ?_, ?_, ?_⟩
          · exact List.getElem?_concat_length
          · rwa [List.take_left]
          · rw [hone, hmade]
          · rw [operations_append, List.take_left]
          · rw [modes_append, ← hmodes, hmode, List.getElem?_concat_length]

/-- The end of a program stands after all that was read. -/
theorem lt_length_of_isFinish {text : Text.Points} {mode : Mode} {n : Nat} {op : Operation}
    (hop : (program ++ ending text mode).operations[n]? = some op) (hfinish : op.isFinish = false) :
    n < program.operations.length := by
  apply Nat.lt_of_not_le
  intro hge
  rw [operations_append, List.getElem?_append_right hge] at hop
  obtain rfl := List.mem_singleton.mp (List.mem_of_getElem? hop)
  cases hfinish

end TurretPunch.Program
