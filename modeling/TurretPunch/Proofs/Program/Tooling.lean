import TurretPunch.Proofs.Program.Error
import TurretPunch.Tool.Standard

namespace TurretPunch

/-!
# Tools and sizes

A motion is made with the tool of the last change before it, and a hit without a size word takes its
size from that tool.
-/

/-- The tool with which an operation goes somewhere. -/
def Operation.tool? : Operation → Option Int
  | move _ _ _ tool => some tool
  | hit _ _ _ _ tool => some tool
  | _ => none

/-- The station that an operation needs. -/
def Operation.reference? : Operation → Option Int
  | toolChange _ station => some station
  | move _ _ _ tool => some tool
  | hit _ _ _ _ tool => some tool
  | finish _ => none

theorem Operation.reference_of_tool {op : Operation} {tool : Int} (h : op.tool? = some tool) :
    op.reference? = some tool := by
  cases op with
  | move | hit => exact h
  | toolChange | finish => cases h

theorem Operation.isFinish_of_tool {op : Operation} {tool : Int} (h : op.tool? = some tool) :
    op.isFinish = false := by
  cases op with
  | move | hit => rfl
  | toolChange | finish => cases h

/-- The tool after operations is that of a change among them, or the first tool if there is none. -/
theorem Trail.tool_cases (ops : List Operation) :
    (∃ line, .toolChange line (tool ops) ∈ ops) ∨ tool ops = 1 ∧ ∀ op ∈ ops, station? op = none := by
  induction ops using List.reverseRecOn with
  | nil => exact Or.inr ⟨rfl, nofun⟩
  | append_singleton ops op ih =>
      rw [tool_concat]
      cases hstation : station? op with
      | some station =>
          left
          cases op with
          | toolChange line station' =>
              obtain rfl : station' = station := Option.some.inj hstation
              exact ⟨line, List.mem_append_right _ List.mem_cons_self⟩
          | move | hit | finish => cases hstation
      | none =>
          rcases ih with ⟨line, hchange⟩ | ⟨hfirst, hnone⟩
          · left
            exact ⟨line, List.mem_append_left _ hchange⟩
          · right
            refine ⟨hfirst, fun o ho => ?_⟩
            rcases List.mem_append.mp ho with hold | hnew
            · exact hnone o hold
            · rwa [List.mem_singleton.mp hnew]

namespace Program

variable {tooling : Tooling} {state after : ReaderState} {line : Int} {statement other : Statement}
  {program added : Program} {lines before rest : List (List Text.Point)} {ps : List Text.Point}
  {op : Operation}

/-- The size of a hit with a tool: the size word, or else what the turret says. -/
inductive Sized (tooling : Tooling) (tool : Int) : Option Float → Quantity → Prop where
  | word (size : Float) : Sized tooling tool (some size) (.real size)
  | tool {t : Tool} (h : tooling.turret.get? tool = some t) : Sized tooling tool none t.diameter
  | fallback (h : tooling.turret.get? tool = none) : Sized tooling tool none tooling.fallback

theorem sized_hitSize (tooling : Tooling) (tool : Int) (word : Option Float) :
    Sized tooling tool word (hitSize tooling tool word) := by
  cases word with
  | some size => exact .word size
  | none =>
      unfold hitSize Turret.diameterFor
      cases h : tooling.turret.get? tool with
      | none => exact .fallback h
      | some t => exact .tool h

/-- How an operation comes by its tool and its size. -/
structure Attributed (tooling : Tooling) (done : List Operation) (words : Words) (op : Operation) :
    Prop where
  tool : ∀ tool, op.tool? = some tool → tool = Trail.tool done
  size : ∀ hole, op.hole? = some hole → Sized tooling hole.tool words.size hole.diameter

theorem Effect.attributed {done : List Operation}
    (h : Effect tooling state line (.ofLine ps) added after) (hadded : added.operations = [op])
    (htool : state.tool = Trail.tool done) : Attributed tooling done (Words.inLine ps) op := by
  cases h with
  | nothing | mode | idle | refused => cases hadded
  | toolChange =>
      rw [operations_changeTool] at hadded
      obtain rfl := List.singleton_inj.mp hadded
      exact ⟨nofun, nofun⟩
  | rapid =>
      obtain rfl := List.singleton_inj.mp hadded
      constructor
      · rintro tool ⟨⟩
        exact htool
      · nofun
  | hit hrequest =>
      obtain rfl := List.singleton_inj.mp hadded
      rw [Statement.words_of_request hrequest]
      constructor
      · rintro tool ⟨⟩
        exact htool
      · rintro hole ⟨⟩
        exact sized_hitSize _ _ _

theorem History.attributed {n : Nat} (h : History tooling lines program state)
    (hop : program.operations[n]? = some op) :
    ∃ (i : Nat) (ps : List Text.Point), op.line = i ∧ lines[i]? = some ps ∧
      Attributed tooling (program.operations.take n) (Words.inLine ps) op := by
  obtain ⟨i, ps, earlier, made, mid, next, hps, hbefore, heffect, hmade, htake, _⟩ := h.origin hop
  have htool : mid.tool = Trail.tool (program.operations.take n) := htake ▸ hbefore.tool
  exact ⟨i, ps, heffect.line_eq.1 op (by simp [hmade]), hps, heffect.attributed hmade htool⟩

/-- Each operation of a program that was read, but the end, was read from a line. -/
theorem attributed_of_ofText {text : Text.Points} {n : Nat} (h : ofText tooling text = .ok program)
    (hop : program.operations[n]? = some op) (hfinish : op.isFinish = false) :
    ∃ (i : Nat) (ps : List Text.Point),
      op.line = i ∧ (Text.lines text.toList)[i]? = some ps ∧
        Attributed tooling (program.operations.take n) (Words.inLine ps) op := by
  obtain ⟨read, state, hhistory, rfl⟩ := history_of_ofText h
  have hn := lt_length_of_isFinish hop hfinish
  rw [operations_append, List.getElem?_append_left hn] at hop
  rw [operations_append, List.take_append_of_le_length (Nat.le_of_lt hn)]
  exact hhistory.attributed hop

section Stations

variable {text : Text.Points} (h : ofText tooling text = .ok program) (hok : program.errors = [])
include h hok

theorem contains_of_toolChange {number station : Int}
    (hchange : .toolChange number station ∈ program.operations) :
    tooling.turret.contains station = true := by
  obtain ⟨read, state, hhistory, rfl⟩ := history_of_ofText h
  have herrors : read.errors = [] := by
    rw [← hok]
    exact (List.append_nil _).symm
  by_contra hunknown
  have hmem : ⟨number, .unknownStation station⟩ ∈ read.errors := by
    refine hhistory.mem_errors.mpr (.inl ⟨station, ?_, by simpa using hunknown, rfl⟩)
    exact mem_changes_finish.mp hchange
  rw [herrors] at hmem
  cases hmem

/-- The tool of a motion is there, or it is the first tool and was not changed to. -/
theorem contains_tool {n : Nat} {tool : Int} (hop : program.operations[n]? = some op)
    (htool : op.tool? = some tool) : tooling.turret.contains tool = true ∨
      tool = 1 ∧ ∀ o ∈ program.operations.take n, Trail.station? o = none := by
  obtain ⟨_, _, _, _, hattributed⟩ := attributed_of_ofText h hop (Operation.isFinish_of_tool htool)
  rw [hattributed.tool tool htool]
  rcases Trail.tool_cases (program.operations.take n) with ⟨line, hchange⟩ | hfirst
  · left
    exact contains_of_toolChange h hok (List.mem_of_mem_take hchange)
  · right
    exact hfirst

theorem contains_reference {station : Int} (hop : op ∈ program.operations)
    (hreference : op.reference? = some station) :
    tooling.turret.contains station = true ∨ station = 1 := by
  obtain ⟨n, hn⟩ := List.mem_iff_getElem?.mp hop
  cases op with
  | toolChange line other =>
      obtain rfl : other = station := Option.some.inj hreference
      left
      exact contains_of_toolChange h hok hop
  | move | hit =>
      rcases contains_tool h hok hn hreference with hfound | ⟨hfirst, _⟩
      · left
        exact hfound
      · right
        exact hfirst
  | finish => cases hreference

/-- All stations are there if the first one is, or if the tool is changed before all motions. -/
theorem contains_references_iff :
    (∀ op ∈ program.operations, ∀ station, op.reference? = some station →
        tooling.turret.contains station = true) ↔
      tooling.turret.contains 1 = true ∨ ∀ (n : Nat) (op : Operation),
        program.operations[n]? = some op → op.tool?.isSome = true →
          ∃ line station, .toolChange line station ∈ program.operations.take n := by
  constructor
  · intro hall
    by_cases hfirst : tooling.turret.contains 1 = true
    · left
      exact hfirst
    · right
      intro n op hop htool
      obtain ⟨tool, htool⟩ := Option.isSome_iff_exists.mp htool
      have hfound := hall op (List.mem_of_getElem? hop) tool (Operation.reference_of_tool htool)
      obtain ⟨_, _, _, _, hattributed⟩ :=
        attributed_of_ofText h hop (Operation.isFinish_of_tool htool)
      rcases Trail.tool_cases (program.operations.take n) with ⟨line, hchange⟩ | ⟨hone, _⟩
      · exact ⟨line, _, hchange⟩
      · rw [hattributed.tool tool htool, hone] at hfound
        exact absurd hfound hfirst
  · rintro hcases op hop station hreference
    rcases contains_reference h hok hop hreference with hfound | rfl
    · exact hfound
    · rcases hcases with hfirst | hchanged
      · exact hfirst
      · obtain ⟨n, hn⟩ := List.mem_iff_getElem?.mp hop
        cases op with
        | toolChange line other =>
            obtain rfl : other = 1 := Option.some.inj hreference
            exact contains_of_toolChange h hok hop
        | move | hit =>
            rcases contains_tool h hok hn hreference with hfound | ⟨_, hnone⟩
            · exact hfound
            · obtain ⟨line, station, hchange⟩ := hchanged n _ hn rfl
              cases hnone _ hchange
        | finish => cases hreference

end Stations

end Program

end TurretPunch
