import Mathlib.Data.List.Induction
import TurretPunch.Press.Replay

namespace TurretPunch

/-!
# The trail of operations

What operations leave behind can be read off their list, each item by itself. A replay and a press
arrive at the same items step by step, however they keep them.
-/

namespace Trail

/-- The station that an operation changes to. -/
def station? : Operation → Option Int
  | .toolChange _ station => some station
  | _ => none

/-- The tool that an operation uses. A move uses none. -/
def usedTool? : Operation → Option Int
  | .toolChange _ station => some station
  | .hit _ _ _ _ tool => some tool
  | _ => none

/-- The holes that operations make, in order. -/
def holes (ops : List Operation) : List Hole := ops.filterMap (·.hole?)

/-- The tools that operations use. -/
def tools (ops : List Operation) : List Int := ops.filterMap usedTool?

/-- The tool after operations: that of the last change, or else the first tool. -/
def tool (ops : List Operation) : Int := (ops.filterMap station?).getLastD 1

/-- Where operations go. -/
def targets (ops : List Operation) : List (Float × Float) := ops.filterMap (·.target?)

/-- Where operations end: at their last target, or else at the origin. -/
def position (ops : List Operation) : Float × Float := (targets ops).getLastD (0.0, 0.0)

/-- The lengths of the legs of a way from a position through targets. -/
def legs : Float × Float → List (Float × Float) → List Float
  | _, [] => []
  | p, q :: rest => Decimal.hypotenuse (q.1 - p.1) (q.2 - p.2) :: legs q rest

/-- How far operations travel from the origin. -/
def travel (ops : List Operation) : Float :=
  (legs (0.0, 0.0) (targets ops)).foldl (· + ·) 0.0

/-- How long the hits among operations take, each half of the playback interval. -/
def hitTime (interval : Float) (ops : List Operation) : Float :=
  (holes ops).foldl (fun time _ => time + interval / 2.0) 0.0

theorem take_succ {ops : List Operation} {index : Nat} {op : Operation}
    (h : ops[index]? = some op) : ops.take (index + 1) = ops.take index ++ [op] := by
  rw [List.take_add_one, h, Option.toList_some]

theorem holes_concat (ops : List Operation) (op : Operation) :
    holes (ops ++ [op]) = holes ops ++ op.hole?.toList := by
  simp only [holes, List.filterMap_append]
  cases op <;> rfl

theorem tools_concat (ops : List Operation) (op : Operation) :
    tools (ops ++ [op]) = tools ops ++ (usedTool? op).toList := by
  simp only [tools, List.filterMap_append]
  cases op <;> rfl

theorem tool_concat (ops : List Operation) (op : Operation) :
    tool (ops ++ [op]) = (station? op).getD (tool ops) := by
  simp only [tool, List.filterMap_append]
  cases op with
  | toolChange line station => exact List.getLastD_concat
  | _ => exact congrArg (List.getLastD · 1) (List.append_nil _)

theorem targets_concat (ops : List Operation) (op : Operation) :
    targets (ops ++ [op]) = targets ops ++ op.target?.toList := by
  simp only [targets, List.filterMap_append]
  cases op <;> rfl

theorem position_concat (ops : List Operation) (op : Operation) :
    position (ops ++ [op]) = op.target?.getD (position ops) := by
  rw [position, targets_concat]
  cases op.target? with
  | none => exact congrArg (List.getLastD · _) (List.append_nil _)
  | some q => exact List.getLastD_concat

theorem legs_concat (p q : Float × Float) (ps : List (Float × Float)) :
    legs p (ps ++ [q]) = legs p ps ++
      [Decimal.hypotenuse (q.1 - (ps.getLastD p).1) (q.2 - (ps.getLastD p).2)] := by
  induction ps generalizing p with
  | nil => rfl
  | cons r rest ih => simp only [List.cons_append, legs, ih r, List.getLastD_cons]

/-- An operation that goes somewhere adds the leg from where the ones before it ended. -/
theorem travel_concat_of_target {ops : List Operation} {op : Operation} {q : Float × Float}
    (h : op.target? = some q) : travel (ops ++ [op]) = travel ops +
      Decimal.hypotenuse (q.1 - (position ops).1) (q.2 - (position ops).2) := by
  rw [travel, targets_concat, h, Option.toList_some, legs_concat, List.foldl_append]
  rfl

theorem travel_concat_of_none {ops : List Operation} {op : Operation} (h : op.target? = none) :
    travel (ops ++ [op]) = travel ops := by
  rw [travel, targets_concat, h, Option.toList_none, List.append_nil, travel]

theorem hitTime_concat (interval : Float) (ops : List Operation) (op : Operation) :
    hitTime interval (ops ++ [op]) =
      if op.hole?.isSome then hitTime interval ops + interval / 2.0 else hitTime interval ops := by
  rw [hitTime, holes_concat, List.foldl_append]
  cases op <;> rfl

theorem mem_insertTool {tool t : Int} {used : List Int} :
    t ∈ insertTool tool used ↔ t = tool ∨ t ∈ used := by
  induction used with
  | nil => simp [insertTool]
  | cons u rest ih =>
      unfold insertTool
      split
      · simp
      · split
        · next heq => simp [heq]
        · rw [List.mem_cons, ih, List.mem_cons]
          exact or_left_comm

theorem insertTool_increasing {tool : Int} {used : List Int} (h : used.Pairwise (· < ·)) :
    (insertTool tool used).Pairwise (· < ·) := by
  induction used with
  | nil => simp [insertTool]
  | cons u rest ih =>
      obtain ⟨hbelow, hrest⟩ := List.pairwise_cons.mp h
      unfold insertTool
      split
      · next hlt =>
        refine List.pairwise_cons.mpr ⟨?_, h⟩
        intro t ht
        rcases List.mem_cons.mp ht with rfl | ht
        · exact hlt
        · exact Int.lt_trans hlt (hbelow t ht)
      · next hge =>
        split
        · exact h
        · next hne =>
          refine List.pairwise_cons.mpr ⟨?_, ih hrest⟩
          intro t ht
          rcases mem_insertTool.mp ht with rfl | ht
          · omega
          · exact hbelow t ht

end Trail

namespace Replay

theorem ofOperations_concat (interval : Float) (ops : List Operation) (op : Operation) :
    ofOperations interval (ops ++ [op]) = (ofOperations interval ops).add interval op :=
  List.foldl_append

/-- What a replay has gathered is the trail of operations, wherever it is. -/
structure Tallies (interval : Float) (r : Replay) (ops : List Operation) : Prop where
  tool : r.tool = Trail.tool ops
  travel : r.travel = Trail.travel ops
  hitTime : r.hitTime = Trail.hitTime interval ops
  used : ∀ t, t ∈ r.used ↔ t ∈ Trail.tools ops
  increasing : r.used.Pairwise (· < ·)
  holes : r.holes = Trail.holes ops

/-- A replay has gathered the trail of operations and is at its end. -/
structure Shows (interval : Float) (r : Replay) (ops : List Operation) : Prop
    extends Tallies interval r ops where
  position : (r.x, r.y) = Trail.position ops

theorem shows_nil (interval : Float) : Shows interval {} [] where
  tool := rfl
  travel := rfl
  hitTime := rfl
  used := fun _ => Iff.rfl
  increasing := List.Pairwise.nil
  holes := rfl
  position := rfl

theorem Shows.add {interval : Float} {r : Replay} {ops : List Operation}
    (h : Shows interval r ops) (op : Operation) :
    Shows interval (r.add interval op) (ops ++ [op]) where
  tool := by
    rw [Trail.tool_concat]
    cases op with
    | toolChange => rfl
    | move | hit | finish => exact h.tool
  travel := by
    have hx : r.x = (Trail.position ops).1 := congrArg Prod.fst h.position
    have hy : r.y = (Trail.position ops).2 := congrArg Prod.snd h.position
    cases op with
    | move line x y tool | hit line x y diameter tool =>
        rw [Trail.travel_concat_of_target rfl, ← h.travel, ← hx, ← hy]
        rfl
    | toolChange | finish => exact h.travel.trans (Trail.travel_concat_of_none rfl).symm
  hitTime := by
    rw [Trail.hitTime_concat, ← h.hitTime]
    cases op <;> rfl
  used := by
    intro t
    rw [Trail.tools_concat, List.mem_append, ← h.used t]
    cases op with
    | toolChange line station | hit line x y diameter station =>
        have hins : t ∈ insertTool station r.used ↔ t = station ∨ t ∈ r.used := Trail.mem_insertTool
        simpa [Replay.add, Replay.goTo, Trail.usedTool?, or_comm] using hins
    | move | finish => simp [Replay.add, Replay.goTo, Trail.usedTool?]
  increasing := by
    cases op with
    | toolChange | hit => exact Trail.insertTool_increasing h.increasing
    | move | finish => exact h.increasing
  holes := by
    rw [Trail.holes_concat, ← h.holes]
    cases op with
    | hit => rfl
    | toolChange | move | finish => exact (List.append_nil _).symm
  position := by
    rw [Trail.position_concat]
    cases op with
    | move | hit => rfl
    | toolChange | finish => exact h.position

/-- A replay arrives at the trail. -/
theorem shows_ofOperations (interval : Float) (ops : List Operation) :
    Shows interval (ofOperations interval ops) ops := by
  induction ops using List.reverseRecOn with
  | nil => exact shows_nil interval
  | append_singleton ops op ih =>
      rw [ofOperations_concat]
      exact ih.add op

end Replay

namespace Press

/-- What a press has gathered, in the form of a replay. -/
def gathered (p : Press) : Replay := ⟨p.x, p.y, p.tool, p.travel, p.hitTime, p.used, p.holes⟩

/-- A press that carries out an operation gathers what a replay of it takes in. -/
theorem gathered_carryOut (p : Press) (interval : Float) (op : Operation) :
    (p.carryOut interval op).gathered = p.gathered.add interval op := by
  cases op <;> rfl

theorem gathered_record (p : Press) (room : Nat) (entry : LogEntry) :
    (p.record room entry).gathered = p.gathered := rfl

end Press

end TurretPunch
