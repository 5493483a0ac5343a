import TurretPunch.Proofs.Program.History

namespace TurretPunch

/-!
# How programs end

A program that was read from a text has one end, which is its last operation.
-/

/-- There is an end among operations. -/
def HasFinish (ops : List Operation) : Prop := ∃ op ∈ ops, op.isFinish = true

/-- There is no end among operations but the last. -/
def EndsLast (ops : List Operation) : Prop := ∀ op ∈ ops.dropLast, op.isFinish = false

theorem HasFinish.of_cons {op : Operation} {rest : List Operation} (h : HasFinish (op :: rest))
    (hop : op.isFinish = false) : HasFinish rest := by
  obtain ⟨o, ho, hfinish⟩ := h
  rcases List.mem_cons.mp ho with rfl | hrest
  · exact absurd hfinish (by simp [hop])
  · exact ⟨o, hrest, hfinish⟩

theorem not_hasFinish_nil : ¬ HasFinish [] := by
  rintro ⟨o, ho, _⟩
  cases ho

theorem Operation.isFinish_of_target {op : Operation} (h : op.target?.isSome = true) :
    op.isFinish = false := by
  cases op with
  | move | hit => rfl
  | toolChange | finish => cases h

namespace Program

/-- A program without an end. -/
def IsOpen (program : Program) : Prop := ∀ op ∈ program.operations, op.isFinish = false

theorem IsOpen.append {p q : Program} (hp : p.IsOpen) (hq : q.IsOpen) : (p ++ q).IsOpen := by
  intro op hop
  rcases List.mem_append.mp hop with hleft | hright
  · exact hp op hleft
  · exact hq op hright

theorem isOpen_empty : IsOpen {} := fun _ hop => nomatch hop

theorem isOpen_ofError (line : Int) (problem : LineProblem) : (ofError line problem).IsOpen :=
  fun _ hop => nomatch hop

theorem isOpen_ofOperation (mode : Mode) {op : Operation} (hop : op.isFinish = false) :
    (ofOperation mode op).IsOpen := by
  intro other hother
  obtain rfl := List.mem_singleton.mp hother
  exact hop

theorem Effect.isOpen {tooling : Tooling} {state after : ReaderState} {line : Int}
    {statement : Statement} {added : Program}
    (h : Effect tooling state line statement added after) : added.IsOpen := by
  cases h with
  | nothing | mode | idle => exact isOpen_empty
  | refused => exact isOpen_ofError _ _
  | rapid | hit => exact isOpen_ofOperation _ rfl
  | toolChange =>
      intro op hop
      rw [operations_changeTool] at hop
      obtain rfl := List.mem_singleton.mp hop
      rfl

theorem History.isOpen {tooling : Tooling} {lines : List (List Text.Point)} {program : Program}
    {state : ReaderState} (h : History tooling lines program state) : program.IsOpen := by
  induction h with
  | start => exact isOpen_empty
  | line _ _ hexecuted ih => exact ih.append (effect_of_execute hexecuted).isOpen

/-- A program that was read from a text has operations without an end, and then its end. -/
theorem ofText_ends {tooling : Tooling} {text : Text.Points} {program : Program}
    (h : ofText tooling text = .ok program) :
    ∃ ops line, program.operations = ops ++ [.finish line] ∧ ∀ op ∈ ops, op.isFinish = false := by
  obtain ⟨read, state, hhistory, rfl⟩ := history_of_ofText h
  exact ⟨read.operations, _, rfl, hhistory.isOpen⟩

theorem hasFinish_ofText {tooling : Tooling} {text : Text.Points} {program : Program}
    (h : ofText tooling text = .ok program) : HasFinish program.operations := by
  obtain ⟨ops, line, hops, _⟩ := ofText_ends h
  rw [hops]
  exact ⟨.finish line, List.mem_append_right _ List.mem_cons_self, rfl⟩

theorem endsLast_ofText {tooling : Tooling} {text : Text.Points} {program : Program}
    (h : ofText tooling text = .ok program) : EndsLast program.operations := by
  obtain ⟨ops, line, hops, hopen⟩ := ofText_ends h
  intro op hop
  rw [hops, List.dropLast_concat] at hop
  exact hopen op hop

end Program

end TurretPunch
