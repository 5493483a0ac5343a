import TurretPunch.Proofs.Decimal.Order
import TurretPunch.Proofs.Program.Error

namespace TurretPunch

/-!
# Size words

A size word counts in its own line only: the reader does not keep it. But a line of a size word alone
makes the last motion again. In the relative mode that goes by zero, so that the position stays as it
is, but for the sign of a zero; and a reader that was nowhere makes its hit at the origin.
-/

/-- An operation at coordinates whose zeros have no sign. -/
def Operation.signless : Operation → Operation
  | move line x y tool => .move line (Program.unsigned x) (Program.unsigned y) tool
  | hit line x y diameter tool =>
      .hit line (Program.unsigned x) (Program.unsigned y) diameter tool
  | op => op

namespace Program

variable {tooling : Tooling} {state state' after final final' : ReaderState} {line : Int}
  {statement other : Statement} {program program' added : Program}
  {lines before rest : List (List Text.Point)} {ps qs : List Text.Point}

theorem unsigned_unsigned (x : Float) : unsigned (unsigned x) = unsigned x := by
  unfold unsigned
  by_cases hzero : (x == 0.0) = true
  · rw [if_pos hzero]
    exact ite_self _
  · rw [if_neg hzero, if_neg hzero]

/-- A program whose operations are at coordinates without signs of zeros. -/
def signless (p : Program) : Program := { p with operations := p.operations.map (·.signless) }

theorem signless_append (p q : Program) : (p ++ q).signless = p.signless ++ q.signless := by
  show Program.mk _ _ _ = Program.mk _ _ _
  rw [operations_append, List.map_append]
  rfl

/-- A state at a position without signs of zeros. -/
def ReaderState.signless (s : ReaderState) : ReaderState :=
  { s with position := s.position.map (Prod.map unsigned unsigned) }

theorem ReaderState.signless_eq_iff : state'.signless = state.signless ↔
    state'.mode = state.mode ∧ state'.motion = state.motion ∧
      state'.position.map (Prod.map unsigned unsigned) =
        state.position.map (Prod.map unsigned unsigned) ∧ state'.tool = state.tool := by
  unfold ReaderState.signless
  simp only [ReaderState.mk.injEq]

theorem unsigned_coordinate {last last' : Option Float} (mode : Mode) (word : Option Float)
    (h : last'.map unsigned = last.map unsigned) :
    (coordinate mode last' word).map unsigned = (coordinate mode last word).map unsigned := by
  cases mode with
  | absolute =>
      cases word with
      | some word => rfl
      | none => exact h
  | relative =>
      have hsummand : summand last' = summand last := by
        match last, last', h with
        | none, none, _ => rfl
        | some x, some x', h => exact Option.some.inj h
      unfold coordinate
      rw [hsummand]

theorem unsigned_cases {x x' : Option Float} (h : x'.map unsigned = x.map unsigned) :
    (x = none ∧ x' = none) ∨ ∃ y y', x = some y ∧ x' = some y' ∧ unsigned y' = unsigned y := by
  cases x with
  | none => exact Or.inl ⟨rfl, Option.map_eq_none_iff.mp h⟩
  | some y =>
      obtain ⟨y', rfl, hy⟩ := Option.map_eq_some_iff.mp h
      exact Or.inr ⟨y, y', rfl, rfl, hy⟩

theorem unsigned_getD {x x' : Option Float} (h : x'.map unsigned = x.map unsigned) :
    unsigned (x'.getD 0.0) = unsigned (x.getD 0.0) := by
  rcases unsigned_cases h with ⟨rfl, rfl⟩ | ⟨y, y', rfl, rfl, hy⟩
  · rfl
  · exact hy

theorem ReaderState.unsigned_position (h : state'.signless = state.signless) :
    (state'.position.map (·.1)).map unsigned = (state.position.map (·.1)).map unsigned ∧
      (state'.position.map (·.2)).map unsigned = (state.position.map (·.2)).map unsigned := by
  have hposition := congrArg ReaderState.position h
  unfold ReaderState.signless at hposition
  match hstate : state.position, hstate' : state'.position with
  | none, none => exact ⟨rfl, rfl⟩
  | some p, some p' =>
      rw [hstate, hstate'] at hposition
      obtain ⟨hfirst, hsecond⟩ := Prod.mk.inj (Option.some.inj hposition)
      exact ⟨congrArg some hfirst, congrArg some hsecond⟩
  | none, some _ | some _, none =>
      rw [hstate, hstate'] at hposition
      cases hposition

/-- The signs of zeros in the position do not count for a motion, but for signs of zeros. -/
theorem signless_repeatMotion (h : state'.signless = state.signless) (words : Words) :
    (repeatMotion tooling state' line words).map signless ReaderState.signless =
      (repeatMotion tooling state line words).map signless ReaderState.signless := by
  obtain ⟨hfirst, hsecond⟩ := ReaderState.unsigned_position h
  obtain ⟨mode, motion, position, tool⟩ := state
  obtain ⟨mode', motion', position', tool'⟩ := state'
  obtain ⟨rfl, rfl, _, rfl⟩ := ReaderState.signless_eq_iff.mp h
  have hx := unsigned_coordinate mode' words.x hfirst
  have hy := unsigned_coordinate mode' words.y hsecond
  cases motion' with
  | none => exact Prod.ext rfl h
  | some motion =>
      cases motion with
      | rapid =>
          simp only [repeatMotion, makeMotion, Prod.map, signless, ofOperation, List.map,
            Operation.signless, ReaderState.signless, Option.map_some, unsigned_getD hx,
            unsigned_getD hy]
      | punch =>
          unfold repeatMotion makeMotion
          dsimp only at hx hy ⊢
          generalize coordinate mode' (position.map (·.1)) words.x = x at hx ⊢
          generalize coordinate mode' (position.map (·.2)) words.y = y at hy ⊢
          generalize coordinate mode' (position'.map (·.1)) words.x = x' at hx ⊢
          generalize coordinate mode' (position'.map (·.2)) words.y = y' at hy ⊢
          rcases unsigned_cases hx with ⟨rfl, rfl⟩ | ⟨p, p', rfl, rfl, hp⟩
          · exact Prod.ext rfl h
          · rcases unsigned_cases hy with ⟨rfl, rfl⟩ | ⟨q, q', rfl, rfl, hq⟩
            · exact Prod.ext rfl h
            · simp only [Prod.map, signless, ofOperation, List.map, Operation.signless,
                ReaderState.signless, Option.map_some, hp, hq]

theorem signless_execute (tooling : Tooling) (line : Int) (statement : Statement)
    (h : state'.signless = state.signless) :
    (execute tooling state' line statement).map (Prod.map signless ReaderState.signless) =
      (execute tooling state line statement).map (Prod.map signless ReaderState.signless) := by
  obtain ⟨hmode, hmotion, hposition, htool⟩ := ReaderState.signless_eq_iff.mp h
  cases statement with
  | nothing => exact congrArg Except.ok (Prod.ext rfl h)
  | setMode mode =>
      refine congrArg Except.ok (Prod.ext rfl ?_)
      exact ReaderState.signless_eq_iff.mpr ⟨rfl, hmotion, hposition, htool⟩
  | changeTool ds =>
      rw [execute, execute, hmode]
      cases stationNumber ds with
      | error fault => rfl
      | ok station =>
          refine congrArg Except.ok (Prod.ext rfl ?_)
          exact ReaderState.signless_eq_iff.mpr ⟨rfl, hmotion, hposition, rfl⟩
  | command motion words =>
      refine congrArg Except.ok (signless_repeatMotion ?_ words)
      exact ReaderState.signless_eq_iff.mpr ⟨hmode, rfl, hposition, htool⟩
  | again words => exact congrArg Except.ok (signless_repeatMotion h words)

theorem signless_readLines (tooling : Tooling) (line : Int) (lines : List (List Text.Point))
    (h : state'.signless = state.signless) :
    (readLines tooling state' line lines).1.signless =
      (readLines tooling state line lines).1.signless := by
  induction lines generalizing state state' line with
  | nil => rfl
  | cons ps rest ih =>
      have hexecute := signless_execute tooling line (.ofLine ps) h
      unfold readLines
      cases hstate : execute tooling state line (.ofLine ps) with
      | error fault =>
          cases hstate' : execute tooling state' line (.ofLine ps) with
          | error fault' => rfl
          | ok executed' =>
              rw [hstate, hstate'] at hexecute
              cases hexecute
      | ok executed =>
          cases hstate' : execute tooling state' line (.ofLine ps) with
          | error fault' =>
              rw [hstate, hstate'] at hexecute
              cases hexecute
          | ok executed' =>
              rw [hstate, hstate'] at hexecute
              obtain ⟨hadded, hafter⟩ := Prod.mk.inj (Except.ok.inj hexecute)
              dsimp only
              rw [signless_append, signless_append, hadded, ih (line + 1) hafter]

/-- What a reader keeps after a line of a size word alone. In the relative mode the signs of zeros are
lost, or a hit is made at the origin if there was no position. -/
inductive Nudged (state : ReaderState) : ReaderState → Prop where
  | same : Nudged state state
  | signs {x y : Float} (hmode : state.mode = .relative) (hposition : state.position = some (x, y))
      (hsigned : unsigned x ≠ x ∨ unsigned y ≠ y) :
      Nudged state { state with position := some (unsigned x, unsigned y) }
  | origin (hmode : state.mode = .relative) (hmotion : state.motion = some .punch)
      (hposition : state.position = none) : Nudged state { state with position := some (0.0, 0.0) }

/-- After a rapid the position is known. -/
def Placed (state : ReaderState) : Prop := state.motion = some .rapid → state.position ≠ none

theorem Effect.placed (h : Effect tooling state line statement added after) (hstate : Placed state) :
    Placed after := by
  cases h with
  | nothing | mode | toolChange => exact hstate
  | idle => nofun
  | rapid | hit =>
      intro _ hnone
      cases hnone
  | refused => nofun

theorem History.placed (h : History tooling lines program state) : Placed state := by
  induction h with
  | start => nofun
  | line _ _ hexecuted ih => exact (effect_of_execute hexecuted).placed ih

/-- What later lines add after a line without a size word and after a size word alone, in the relative
mode. -/
inductive Displaced (motion : Option Motion) (last : Option (Float × Float))
    (later later' : Program) : Prop where
  /-- The position lost the sign of a zero. -/
  | signs {x y : Float} (hlast : last = some (x, y)) (hsigned : unsigned x ≠ x ∨ unsigned y ≠ y)
      (hlater : later'.signless = later.signless)
  /-- There was no position, and the size word made a hit at the origin. -/
  | origin (hmotion : motion = some .punch) (hlast : last = none)

theorem Displaced.symm {motion : Option Motion} {last : Option (Float × Float)}
    (h : Displaced motion last program program') : Displaced motion last program' program := by
  cases h with
  | signs hlast hsigned hlater => exact .signs hlast hsigned hlater.symm
  | origin hmotion hlast => exact .origin hmotion hlast

theorem Nudged.later {later later' : Program} {outcome outcome' : Except Fault ReaderState}
    (h : Nudged state state') (hread : readLines tooling state line rest = (later, outcome))
    (hread' : readLines tooling state' line rest = (later', outcome')) :
    later' = later ∨
      state.mode = .relative ∧ Displaced state.motion state.position later later' := by
  cases h with
  | same =>
      left
      exact (Prod.mk.inj (hread'.symm.trans hread)).1
  | @signs x y hmode hposition hsigned =>
      right
      refine ⟨hmode, .signs hposition hsigned ?_⟩
      have hsignless : ReaderState.signless
          { state with position := some (unsigned x, unsigned y) } = state.signless := by
        refine ReaderState.signless_eq_iff.mpr ⟨rfl, rfl, ?_, rfl⟩
        rw [hposition, Option.map_some, Option.map_some, Prod.map_apply, Prod.map_apply,
          unsigned_unsigned, unsigned_unsigned]
      have hlater := signless_readLines tooling line rest hsignless
      rwa [hread, hread'] at hlater
  | origin hmode hmotion hposition =>
      right
      exact ⟨hmode, .origin hmotion hposition⟩

theorem Displaced.append {motion : Option Motion} {last : Option (Float × Float)}
    (h : Displaced motion last program program') (p : Program) :
    Displaced motion last (program ++ p) (program' ++ p) := by
  cases h with
  | signs hlast hsigned hlater =>
      refine .signs hlast hsigned ?_
      rw [signless_append, signless_append, hlater]
  | origin hmotion hlast => exact .origin hmotion hlast

end Program

end TurretPunch
