import TurretPunch.Proofs.Press.Trail
import TurretPunch.Proofs.Program.History

namespace TurretPunch

/-!
# Positions of readers

A reader is always where the last motion of the program so far went, and nowhere before the first. The
coordinates of a motion therefore depend on that motion, on the mode and on the words in the line, and
on nothing else that was read.
-/

/-- Where operations went last, if they went anywhere. -/
def Trail.lastTarget? (ops : List Operation) : Option (Float × Float) := (targets ops).getLast?

theorem Trail.lastTarget?_append (ops more : List Operation) :
    lastTarget? (ops ++ more) = (lastTarget? more).or (lastTarget? ops) := by
  unfold lastTarget? targets
  rw [List.filterMap_append, List.getLast?_append]

namespace Program

variable {tooling : Tooling} {state after : ReaderState} {line : Int} {statement : Statement}
  {program added : Program} {lines : List (List Text.Point)}

/-- A number, whose zero has no sign. -/
def unsigned (x : Float) : Float := if x == 0.0 then 0.0 else x

/-- Resolves a coordinate in a mode, from the last one and the word. -/
inductive Resolves : Mode → Option Float → Option Float → Float → Prop where
  | given (last : Option Float) (word : Float) : Resolves .absolute last (some word) word
  | kept (last : Float) : Resolves .absolute (some last) none last
  | origin : Resolves .absolute none none 0.0
  | moved (last word : Option Float) :
      Resolves .relative last word (unsigned (last.getD 0.0) + unsigned (word.getD 0.0))

theorem summand_eq (value : Option Float) : summand value = unsigned (value.getD 0.0) := by
  cases value with
  | none => exact (ite_self _).symm
  | some x => rfl

theorem resolves_coordinate (mode : Mode) (last word : Option Float) :
    Resolves mode last word ((coordinate mode last word).getD 0.0) := by
  cases mode with
  | relative =>
      unfold coordinate
      rw [summand_eq, summand_eq]
      exact .moved last word
  | absolute =>
      match last, word with
      | last, some word => exact .given last word
      | some last, none => exact .kept last
      | none, none => exact .origin

theorem resolves_of_coordinate {mode : Mode} {last word : Option Float} {x : Float}
    (h : coordinate mode last word = some x) : Resolves mode last word x := by
  have hresolves := resolves_coordinate mode last word
  rwa [h] at hresolves

/-- In the absolute mode a coordinate without a last one is a word. -/
theorem isSome_word_of_coordinate {word : Option Float} {x : Float}
    (h : coordinate .absolute none word = some x) : word.isSome = true := by
  cases word with
  | none => cases h
  | some word => rfl

theorem Effect.position (h : Effect tooling state line statement added after) :
    after.position = (Trail.lastTarget? added.operations).or state.position := by
  cases h with
  | toolChange =>
      rw [operations_changeTool]
      rfl
  | nothing | mode | idle | rapid | hit | refused => rfl

/-- The position of a reader is the last target of the program. -/
theorem History.position (h : History tooling lines program state) :
    state.position = Trail.lastTarget? program.operations := by
  induction h with
  | start => rfl
  | line _ _ hexecuted ih =>
      rw [(effect_of_execute hexecuted).position, ih, operations_append, Trail.lastTarget?_append]

/-- How the coordinates of an operation come about. -/
structure Resolved (mode : Mode) (last : Option (Float × Float)) (words : Words) (op : Operation)
    (x y : Float) : Prop where
  x : Resolves mode (last.map (·.1)) words.x x
  y : Resolves mode (last.map (·.2)) words.y y
  /-- A hit goes nowhere by default. -/
  hit : op.hole?.isSome = true → mode = .absolute → last = none →
    words.x.isSome = true ∧ words.y.isSome = true

theorem Effect.resolved {ps : List Text.Point} {op : Operation} {x y : Float}
    (h : Effect tooling state line (.ofLine ps) added after) (hadded : added.operations = [op])
    (htarget : op.target? = some (x, y)) :
    op.line = line ∧ Resolved state.mode state.position (Words.inLine ps) op x y := by
  cases h with
  | nothing | mode | idle | refused => cases hadded
  | toolChange =>
      rw [operations_changeTool] at hadded
      cases hadded
      cases htarget
  | rapid hrequest hx hy =>
      cases hadded
      cases htarget
      rw [← Statement.words_of_request hrequest]
      subst hx hy
      exact ⟨rfl, resolves_coordinate _ _ _, resolves_coordinate _ _ _, nofun⟩
  | hit hrequest hx hy =>
      cases hadded
      cases htarget
      rw [← Statement.words_of_request hrequest]
      refine ⟨rfl, resolves_of_coordinate hx, resolves_of_coordinate hy, ?_⟩
      intro _ hmode hlast
      rw [hmode, hlast] at hx hy
      exact ⟨isSome_word_of_coordinate hx, isSome_word_of_coordinate hy⟩

theorem History.resolved {n : Nat} {op : Operation} {x y : Float}
    (h : History tooling lines program state) (hop : program.operations[n]? = some op)
    (htarget : op.target? = some (x, y)) :
    ∃ (i : Nat) (ps : List Text.Point) (mode : Mode),
      op.line = i ∧ lines[i]? = some ps ∧ program.modes[n]? = some mode ∧
        Resolved mode (Trail.lastTarget? (program.operations.take n)) (Words.inLine ps) op x y := by
  obtain ⟨i, ps, before, added, mid, next, hps, hbefore, heffect, hadded, htake, hmode⟩ :=
    h.origin hop
  obtain ⟨hline, hresolved⟩ := heffect.resolved hadded htarget
  rw [hbefore.position, htake] at hresolved
  exact ⟨i, ps, mid.mode, hline, hps, hmode, hresolved⟩

/-- Each motion of a program that was read comes from a line, and from the motion before it. -/
theorem resolved_of_ofText {text : Text.Points} {n : Nat} {op : Operation} {x y : Float}
    (h : ofText tooling text = .ok program) (hop : program.operations[n]? = some op)
    (htarget : op.target? = some (x, y)) :
    ∃ (i : Nat) (ps : List Text.Point) (mode : Mode),
      op.line = i ∧ (Text.lines text.toList)[i]? = some ps ∧ program.modes[n]? = some mode ∧
        Resolved mode (Trail.lastTarget? (program.operations.take n)) (Words.inLine ps) op x y := by
  obtain ⟨read, state, hhistory, rfl⟩ := history_of_ofText h
  have hfinish : op.isFinish = false := by
    cases op with
    | toolChange | finish => cases htarget
    | move | hit => rfl
  have hn := lt_length_of_isFinish hop hfinish
  rw [operations_append, List.getElem?_append_left hn] at hop
  obtain ⟨i, ps, mode, hline, hps, hmode, hresolved⟩ := hhistory.resolved hop htarget
  refine ⟨i, ps, mode, hline, hps, ?_, ?_⟩
  · rw [modes_append, List.getElem?_append_left (hhistory.length_modes ▸ hn), hmode]
  · rwa [operations_append, List.take_append_of_le_length (Nat.le_of_lt hn)]

/-- Each motion of a program that was read goes where the words in its line take it from the last
motion before, in its mode. After any number of lines the reader is where the last motion so far
went. -/
theorem coordinates_resolve {text : Text.Points} (h : ofText tooling text = .ok program) :
    (∀ (n : Nat) (op : Operation) (x y : Float), program.operations[n]? = some op →
      op.target? = some (x, y) →
      ∃ (i : Nat) (ps : List Text.Point) (mode : Mode),
        op.line = i ∧ (Text.lines text.toList)[i]? = some ps ∧ program.modes[n]? = some mode ∧
          Resolved mode (Trail.lastTarget? (program.operations.take n)) (Words.inLine ps) op x y) ∧
      ∀ k, ∃ read state,
        readLines tooling {} 0 ((Text.lines text.toList).take k) = (read, .ok state) ∧
          read.operations <+: program.operations ∧
          state.position = Trail.lastTarget? read.operations := by
  refine ⟨fun n op x y => resolved_of_ofText h, fun k => ?_⟩
  obtain ⟨read, state, hhistory, rfl⟩ := history_of_ofText h
  obtain ⟨before, mid, more, hbefore, rfl⟩ := hhistory.take k
  refine ⟨before, mid, hbefore.readLines_eq, ?_, hbefore.position⟩
  rw [append_assoc, operations_append]
  exact List.prefix_append _ _

theorem coordinates_resolve_mixed :
    let text : Text.Points := "G00 X10\nG91\nG81 Y4"
    let hit : Operation := .hit 2 10.0 4.0 (.real 8.0) 1
    ofText ⟨⟨[]⟩, .real 8.0⟩ text = .ok ⟨[.move 0 10.0 0.0 1, hit, .finish 2],
        [.absolute, .relative, .relative], []⟩ ∧
      ∃ ps, (Text.lines text.toList)[2]? = some ps ∧
        Resolved .relative (some (10.0, 0.0)) (Words.inLine ps) hit 10.0 4.0 := by
  intro text hit
  have hread : ofText ⟨⟨[]⟩, .real 8.0⟩ text = .ok ⟨[.move 0 10.0 0.0 1, hit, .finish 2],
      [.absolute, .relative, .relative], []⟩ := by with_unfolding_all rfl
  obtain ⟨i, ps, mode, hline, hps, hmode, hresolved⟩ :=
    (coordinates_resolve hread).1 1 hit 10.0 4.0 rfl rfl
  obtain rfl : i = 2 := (Int.ofNat.inj hline).symm
  obtain rfl : Mode.relative = mode := Option.some.inj hmode
  exact ⟨hread, ps, hps, hresolved⟩

end Program

end TurretPunch
