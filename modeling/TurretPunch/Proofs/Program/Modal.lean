import TurretPunch.Proofs.Press.Trail
import TurretPunch.Proofs.Program.History

namespace TurretPunch.Program

/-!
# What lines leave in force

The mode, the motion and the tool of a reader are those of the last line that set them. So they can be
read off the lines so far, or off the operations, without reading in between.
-/

variable {tooling : Tooling} {state after : ReaderState} {line : Int} {statement : Statement}
  {program added : Program} {lines : List (List Text.Point)}

namespace Statement

/-- The mode that a statement sets. -/
def mode? : Statement → Option Mode
  | setMode mode => some mode
  | _ => none

/-- The motion of a statement with a command. -/
def command? : Statement → Option (Option Motion)
  | command motion _ => some motion
  | _ => none

theorem command_of_request {last motion : Option Motion} {words : Words}
    (h : statement.request? last = some (motion, words)) :
    statement.command?.getD last = motion := by
  cases statement with
  | nothing | setMode | changeTool => cases h
  | command | again =>
      cases h
      rfl

theorem mode_of_request {last : Option Motion} {request : Option Motion × Words}
    (h : statement.request? last = some request) : statement.mode? = none := by
  cases statement with
  | nothing | setMode | changeTool => cases h
  | command | again => rfl

end Statement

/-- The mode after lines, which is absolute until a line sets one. -/
def modeAfter (lines : List (List Text.Point)) : Mode :=
  (lines.filterMap fun ps => (Statement.ofLine ps).mode?).getLastD .absolute

/-- The motion of the last command in lines. -/
def motionAfter (lines : List (List Text.Point)) : Option Motion :=
  (lines.filterMap fun ps => (Statement.ofLine ps).command?).getLastD none

theorem getLastD_append {α : Type} (items more : List α) (first : α) :
    (items ++ more).getLastD first = more.getLastD (items.getLastD first) := by
  simp only [List.getLastD_eq_getLast?, List.getLast?_append, Option.getD_or]

theorem modeAfter_append (lines more : List (List Text.Point)) : modeAfter (lines ++ more) =
    (more.filterMap fun ps => (Statement.ofLine ps).mode?).getLastD (modeAfter lines) := by
  unfold modeAfter
  rw [List.filterMap_append, getLastD_append]

theorem modeAfter_concat (lines : List (List Text.Point)) (ps : List Text.Point) :
    modeAfter (lines ++ [ps]) = (Statement.ofLine ps).mode?.getD (modeAfter lines) := by
  rw [modeAfter_append]
  cases h : (Statement.ofLine ps).mode? <;> simp [h]

theorem motionAfter_concat (lines : List (List Text.Point)) (ps : List Text.Point) :
    motionAfter (lines ++ [ps]) = (Statement.ofLine ps).command?.getD (motionAfter lines) := by
  unfold motionAfter
  rw [List.filterMap_append, getLastD_append]
  cases h : (Statement.ofLine ps).command? <;> simp [h]

theorem Effect.mode_after (h : Effect tooling state line statement added after) :
    after.mode = statement.mode?.getD state.mode := by
  cases h with
  | nothing h | mode h | toolChange h =>
      rw [h]
      rfl
  | idle h | rapid h | hit h | refused h =>
      rw [Statement.mode_of_request h]
      rfl

theorem Effect.motion_after (h : Effect tooling state line statement added after) :
    after.motion = statement.command?.getD state.motion := by
  cases h with
  | nothing h | mode h | toolChange h =>
      rw [h]
      rfl
  | idle h | rapid h | hit h | refused h =>
      rw [Statement.command_of_request h]

theorem Effect.tool_after (h : Effect tooling state line statement added after) :
    after.tool = (added.operations.filterMap Trail.station?).getLastD state.tool := by
  cases h with
  | nothing | mode | idle | rapid | hit | refused => rfl
  | toolChange =>
      rw [operations_changeTool]
      rfl

theorem History.mode (h : History tooling lines program state) :
    state.mode = modeAfter lines := by
  induction h with
  | start => rfl
  | line _ ps hexecuted ih =>
      rw [modeAfter_concat, (effect_of_execute hexecuted).mode_after, ih]

theorem History.motion (h : History tooling lines program state) :
    state.motion = motionAfter lines := by
  induction h with
  | start => rfl
  | line _ ps hexecuted ih =>
      rw [motionAfter_concat, (effect_of_execute hexecuted).motion_after, ih]

theorem History.tool (h : History tooling lines program state) :
    state.tool = Trail.tool program.operations := by
  induction h with
  | start => rfl
  | line _ _ hexecuted ih =>
      rw [(effect_of_execute hexecuted).tool_after, ih, operations_append]
      unfold Trail.tool
      rw [List.filterMap_append, getLastD_append]

end TurretPunch.Program
