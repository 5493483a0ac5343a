import TurretPunch.Proofs.Program.SizeWord
import TurretPunch.Proofs.Program.Tooling
import TurretPunch.Proofs.Session.Halt

namespace TurretPunch

/-!
# The tool in use

Whatever happens to a session, its press has the first tool or one that the loaded program changes to,
and the holes in its sheet are those of hits of that program. If a program was read without an error,
the tools that it changes to are there; the first tool need not be.
-/

namespace Session

variable {s t u : Session} {id index : Nat} {op : Operation} {rest : List Operation}

/-- A session with the same turret and program, whose press has gathered nothing more or one operation
of the program. -/
structure Advances (s t : Session) : Prop where
  turret : t.turret = s.turret
  program : t.program = s.program
  gathered : t.press.gathered = s.press.gathered ∨
    ∃ op ∈ s.operations, t.press.gathered = s.press.gathered.add s.interval op

theorem advances_of_same (hturret : t.turret = s.turret) (hprogram : t.program = s.program)
    (hgathered : t.press.gathered = s.press.gathered) : Advances s t :=
  ⟨hturret, hprogram, Or.inl hgathered⟩

theorem Advances.of_same (h : Advances s t) (hturret : u.turret = t.turret)
    (hprogram : u.program = t.program) (hgathered : u.press.gathered = t.press.gathered) :
    Advances s u where
  turret := hturret.trans h.turret
  program := hprogram.trans h.program
  gathered := hgathered ▸ h.gathered

theorem Advances.abandoned (h : Advances s t) (id : Nat) : Advances s (t.abandoned id) := by
  unfold Session.abandoned haltIfRunning
  split <;> exact h.of_same rfl rfl rfl

theorem Attempted.advances (h : Attempted s index t) : Advances s t := by
  cases h with
  | missing => exact advances_of_same rfl rfl rfl
  | @made now op out hop =>
      exact ⟨rfl, rfl, Or.inr ⟨op, List.mem_of_getElem? hop, gathered_stepped s now index op out⟩⟩

theorem Played.advances (h : Played s id index op rest t) : Advances s t := by
  cases h with
  | failed hattempted => exact hattempted.advances.abandoned id
  | finished hattempted => exact hattempted.advances.of_same rfl rfl rfl
  | shown hattempted => exact hattempted.advances.of_same rfl rfl rfl

theorem Proceeded.advances {ops : List Operation} (h : Proceeded s id index ops t) :
    Advances s t := by
  cases h with
  | exhausted | stopped | approaching => exact advances_of_same rfl rfl rfl
  | played _ _ hplayed => exact hplayed.advances

theorem Turned.advances (h : Turned s id t) : Advances s t := by
  cases h with
  | kept | rested => exact advances_of_same rfl rfl rfl
  | begun _ hproceeded | resumed _ hproceeded => exact hproceeded.advances
  | struck _ hplayed => exact hplayed.advances
  | ended => exact (advances_of_same rfl rfl rfl).abandoned id

theorem Closed.advances (h : Closed s id t) : Advances s t := by
  cases h with
  | kept | unused => exact advances_of_same rfl rfl rfl
  | abandoned => exact (advances_of_same rfl rfl rfl).abandoned id

theorem stopping_advances (s : Session) : Advances s s.stopping := advances_of_same rfl rfl rfl

/-- What a replay has gathered comes from operations: its tool, unless it is the first one, and its
holes. -/
structure Provided (ops : List Operation) (r : Replay) : Prop where
  tool : r.tool = 1 ∨ ∃ line, .toolChange line r.tool ∈ ops
  holes : ∀ hole ∈ r.holes, ∃ op ∈ ops, op.hole? = some hole

theorem provided_empty (ops : List Operation) : Provided ops {} :=
  ⟨Or.inl rfl, nofun⟩

theorem Provided.add {ops : List Operation} {r : Replay} (h : Provided ops r) (interval : Float)
    (hop : op ∈ ops) : Provided ops (r.add interval op) := by
  cases op with
  | move | finish => exact ⟨h.tool, h.holes⟩
  | toolChange line station => exact ⟨Or.inr ⟨line, hop⟩, h.holes⟩
  | hit line x y diameter tool =>
      refine ⟨h.tool, fun hole hhole => ?_⟩
      rcases List.mem_append.mp hhole with hold | hnew
      · exact h.holes hole hold
      · obtain rfl := List.mem_singleton.mp hnew
        exact ⟨_, hop, rfl⟩

theorem provided_ofOperations (interval : Float) (ops more : List Operation) :
    Provided (ops ++ more) (.ofOperations interval ops) := by
  induction ops using List.reverseRecOn generalizing more with
  | nil => exact provided_empty more
  | append_singleton ops op ih =>
      rw [Replay.ofOperations_concat, List.append_assoc]
      exact (ih _).add interval (by simp)

theorem Advances.provided (h : Advances s t) (hs : Provided s.operations s.press.gathered) :
    Provided t.operations t.press.gathered := by
  rw [operations, h.program, ← operations]
  rcases h.gathered with hsame | ⟨op, hop, hadded⟩
  · rw [hsame]
    exact hs
  · rw [hadded]
    exact hs.add _ hop

theorem Happened.provided {e : Event} (h : Happened s e t)
    (hs : Provided s.operations s.press.gathered) : Provided t.operations t.press.gathered := by
  cases h with
  | kept | stopping => exact hs
  | loaded | loadedProgram | launched | cleared => exact provided_empty _
  | pulled hturned | resumed hturned => exact hturned.advances.provided hs
  | closed hclosed => exact hclosed.advances.provided hs
  | @stopped id _ _ _ hopen hclosed =>
      rw [hclosed.haltIfRunning_of_isOpen hopen]
      exact (s.stopping_advances.abandoned id).provided hs
  | @sought step index op out _ hop =>
      have hprovided :=
        provided_ofOperations s.interval (s.operations.take (index + 1)) (s.operations.drop (index + 1))
      rw [List.take_append_drop] at hprovided
      exact ⟨hprovided.tool, hprovided.holes⟩

theorem provided_of_reached {allowed : Session → Event → Prop} (h : Reached allowed s) :
    Provided s.operations s.press.gathered := by
  induction h with
  | fresh => exact provided_empty _
  | event e _ _ ih => exact (after_happened _ e).provided ih

theorem press_tool (h : Accounted s) (hop : s.operations[index]? = some op)
    (hstep : s.press.step = index) :
    s.press.tool = (Trail.station? op).getD (Trail.tool (s.operations.take index)) := by
  have htool : s.press.tool = Trail.tool (s.operations.take (s.press.step + 1).toNat) :=
    h.tallies.tool
  have hdone : (s.press.step + 1).toNat = index + 1 := by omega
  rwa [hdone, Trail.take_succ hop, Trail.tool_concat] at htool

/-- Where a motion is shown, the press has its tool. -/
theorem press_tool_of_motion {tooling : Program.Tooling} {text : Text.Points} {program : Program}
    {tool : Int} (hread : Program.ofText tooling text = .ok program)
    (hop : program.operations[index]? = some op) (htool : op.tool? = some tool)
    (hprogram : s.program = some program) (h : Accounted s) (hstep : s.press.step = index) :
    s.press.tool = tool := by
  obtain ⟨_, _, _, _, hattributed⟩ :=
    Program.attributed_of_ofText hread hop (Operation.isFinish_of_tool htool)
  have hnone : Trail.station? op = none := by
    cases op with
    | move | hit => rfl
    | toolChange | finish => cases htool
  have hoperations := operations_of_program hprogram
  rw [press_tool h (hoperations ▸ hop) hstep, hnone, hoperations]
  exact (hattributed.tool tool htool).symm

/-- A tool that is not round, in station 5. -/
def oblong : Tool :=
  { number := .whole 5, name := .string "Oblong", shape := .oval, width := .real 10.0
    height := .real 5.0 }

/-- The press of a session has a tool that is there, and so have the holes in its sheet. -/
structure Equipped (s : Session) : Prop where
  tool : ∃ tool, s.turret.get? s.press.tool = some tool ∧
    s.pressLeaves = Footprint.toolLeaves s.sheet s.fallback (some tool) s.press.x s.press.y
  holes : ∀ hole ∈ s.press.holes, s.turret.contains hole.tool = true

theorem equipped_of_contains (htool : s.turret.contains s.press.tool = true)
    (hholes : ∀ hole ∈ s.press.holes, s.turret.contains hole.tool = true) : Equipped s := by
  obtain ⟨tool, hfound⟩ := Option.isSome_iff_exists.mp htool
  have hget : s.setup.turret.get? s.press.tool = some tool := hfound
  refine ⟨⟨tool, hfound, ?_⟩, hholes⟩
  rw [pressLeaves, Setup.leaves, hget]
  rfl

theorem Provided.contains_holes {turret : Turret} {ops : List Operation} {r : Replay}
    (h : Provided ops r) (hall : ∀ op ∈ ops, ∀ station, op.reference? = some station →
      turret.contains station = true) : ∀ hole ∈ r.holes, turret.contains hole.tool = true := by
  intro hole hhole
  obtain ⟨op, hop, hmade⟩ := h.holes hole hhole
  cases op with
  | hit line x y diameter tool =>
      obtain rfl := Option.some.inj hmade
      exact hall _ hop tool rfl
  | toolChange | move | finish => cases hmade

theorem contains_press_tool (h : Accounted s) (hop : s.operations[index]? = some op)
    (hstep : s.press.step = index) (hfinish : op.isFinish = false) {turret : Turret}
    {tooling : Program.Tooling} {text : Text.Points} {program : Program}
    (hread : Program.ofText tooling text = .ok program) (hprogram : s.program = some program)
    (hall : ∀ op ∈ program.operations, ∀ station, op.reference? = some station →
      turret.contains station = true) : turret.contains s.press.tool = true := by
  have hfound : program.operations[index]? = some op := operations_of_program hprogram ▸ hop
  have hmem := List.mem_of_getElem? hfound
  cases op with
  | toolChange line station =>
      have htool : s.press.tool = station := press_tool h hop hstep
      rw [htool]
      exact hall _ hmem station rfl
  | move line x y tool | hit line x y diameter tool =>
      rw [press_tool_of_motion hread hfound rfl hprogram h hstep]
      exact hall _ hmem tool rfl
  | finish => cases hfinish

/-- In a program that was read without an error, a station has a tool unless it is the first one and
was not changed to. If the first one has a tool, whatever happens to a session with the program, its
press works with tools that are there. If it has none, this is so while the program is played as long
as the tool is changed before all motions. -/
theorem accepted_program_resolves {tooling : Program.Tooling} {text : Text.Points}
    {program : Program} (h : Program.ofText tooling text = .ok program) (hok : program.errors = []) :
    (∀ op ∈ program.operations, ∀ station, op.reference? = some station →
      tooling.turret.contains station = true ∨ station = 1) ∧
    (∀ line station, .toolChange line station ∈ program.operations →
      tooling.turret.contains station = true) ∧
    ((∀ op ∈ program.operations, ∀ station, op.reference? = some station →
        tooling.turret.contains station = true) ↔
      tooling.turret.contains 1 = true ∨ ∀ (n : Nat) (op : Operation),
        program.operations[n]? = some op → op.tool?.isSome = true →
          ∃ line station, .toolChange line station ∈ program.operations.take n) ∧
    (tooling.turret.contains 1 = true → ∀ s, Reached (fun _ _ => True) s →
      s.program = some program → s.turret = tooling.turret → Equipped s) ∧
    ((∀ op ∈ program.operations, ∀ station, op.reference? = some station →
        tooling.turret.contains station = true) →
      ∀ s, Reached SparesRuns s → s.program = some program → s.turret = tooling.turret →
        ∀ (n : Nat) (op : Operation), program.operations[n]? = some op → s.press.step = n →
          op.isFinish = false → Equipped s) := by
  refine ⟨?_, ?_, Program.contains_references_iff h hok, ?_, ?_⟩
  · intro op hop station hreference
    exact Program.contains_reference h hok hop hreference
  · intro line station hchange
    exact Program.contains_of_toolChange h hok hchange
  · intro hfirst s hreached hprogram hturret
    have hall := (Program.contains_references_iff h hok).mpr (.inl hfirst)
    have hprovided := provided_of_reached hreached
    rw [operations_of_program hprogram] at hprovided
    rw [← hturret] at hall hfirst
    apply equipped_of_contains
    · rcases hprovided.tool with hone | ⟨line, hchange⟩
      · have htool : s.press.tool = 1 := hone
        rwa [htool]
      · exact hall _ hchange _ rfl
    · exact hprovided.contains_holes hall
  · intro hall s hreached hprogram hturret n op hop hstep hfinish
    have hprovided := provided_of_reached hreached
    rw [operations_of_program hprogram] at hprovided
    rw [← hturret] at hall
    have hfound : s.operations[n]? = some op := (operations_of_program hprogram).symm ▸ hop
    apply equipped_of_contains
    · exact contains_press_tool (kept_of_spared hreached).account hfound hstep hfinish h hprogram hall
    · exact hprovided.contains_holes hall

theorem accepted_program_resolves_oblong :
    let program : Program := ⟨[.toolChange 0 5, .hit 1 1.0 2.0 (.real 0.0) 5, .finish 1],
      [.absolute, .absolute, .absolute], []⟩
    let fresh : Session := { plain with turret := ⟨[oblong]⟩ }
    let started := (fresh.after (.loadProgram program)).after (.run 0.0)
    let s := started.after (.pull 0 default 0.0)
    fresh.turret.contains 1 = false ∧ s.phase = .running ∧ s.press.step = 0 ∧ Equipped s := by
  intro program fresh started s
  have hread : Program.ofText fresh.tooling "T5\nG81 X1 Y2" = .ok program := by with_unfolding_all rfl
  obtain ⟨_, _, hiff, _, hequipped⟩ := accepted_program_resolves hread rfl
  have hfresh : Reached SparesRuns fresh :=
    .fresh ⟨[oblong]⟩ ⟨300.0, 200.0⟩ 500.0 (.real 8.0) 100
  have hstarted : Reached SparesRuns started := (hfresh.event (.loadProgram program) trivial).event
    (.run 0.0) trivial
  have hreached : Reached SparesRuns s := hstarted.event (.pull 0 default 0.0) nofun
  have hstep : s.press.step = (0 : Nat) := by decide +kernel
  have hall : ∀ op ∈ program.operations, ∀ station, op.reference? = some station →
      fresh.turret.contains station = true := by
    simp only [program, List.forall_mem_cons]
    refine ⟨?_, ?_, nofun, fun _ hop => nomatch hop⟩
    all_goals
      rintro station ⟨⟩
      decide +kernel
  have hadvances : Advances started s := (started.settle_pull default 0 0.0).advances
  exact ⟨by decide +kernel, by decide +kernel, hstep,
    hequipped hall s hreached hadvances.program hadvances.turret 0 _ rfl hstep rfl⟩

/-- A program without an error that does not change the tool is played even if the first station has
no tool. -/
theorem first_station_unchecked :
    let program : Program := ⟨[.hit 0 1.0 1.0 (.real 8.0) 1, .finish 0], [.absolute, .absolute], []⟩
    let started := (plain.after (.load "G81 X1 Y1")).after (.run 0.0)
    let s := (started.after (.pull 0 default 0.0)).after (.resume 0 default 0.0)
    Program.ofText plain.tooling "G81 X1 Y1" = .ok program ∧ program.errors = [] ∧
      plain.turret.contains 1 = false ∧ Reached (fun _ _ => True) s ∧ s.phase = .running ∧
      s.press.holes.map (·.tool) = [1] ∧ ¬ Equipped s := by
  intro program started s
  have hread : Program.ofText plain.tooling "G81 X1 Y1" = .ok program := by with_unfolding_all rfl
  have hstarted : Reached (fun _ _ => True) started :=
    ((reached_plain _).event (.load "G81 X1 Y1") trivial).event (.run 0.0) trivial
  have hreached : Reached (fun _ _ => True) s :=
    (hstarted.event (.pull 0 default 0.0) trivial).event (.resume 0 default 0.0) trivial
  have htools : s.press.holes.map (·.tool) = [1] := by decide +kernel
  have hmissing : s.turret.contains 1 = false := by decide +kernel
  refine ⟨hread, rfl, by decide +kernel, hreached, by decide +kernel, htools, fun hequipped => ?_⟩
  have hone : 1 ∈ s.press.holes.map (·.tool) := htools ▸ List.mem_cons_self
  obtain ⟨hole, hhole, htool⟩ := List.mem_map.mp hone
  have hfound := hequipped.holes hole hhole
  rw [htool] at hfound
  cases hmissing.symm.trans hfound

end Session

end TurretPunch
