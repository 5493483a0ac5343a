import TurretPunch.Proofs.Session.Drain
import TurretPunch.Proofs.Session.Refusal
import TurretPunch.Proofs.Session.Renewal

namespace TurretPunch

/-!
# Guards

A session looks at its phase, its program and the number of a step before it does anything. A call that
it turns away changes nothing of it, and neither does a text that cannot be read. Nothing is waited for
in such a call, and the clock is not read.
-/

namespace Session

variable {s : Session} {text : Text.Points} {program : Program} {step : Int}

theorem load_refused_iff (s : Session) (text : Text.Points) :
    (s.load text).result = .ok none ↔ s.phase = .running := by
  constructor
  · intro hrefused
    by_contra hidle
    unfold load at hrefused
    rw [if_neg (fun hrunning => hidle (isRunning_iff.mp hrunning))] at hrefused
    dsimp only at hrefused
    split at hrefused <;> cases hrefused
  · intro hrunning
    rw [(occupied_of_running hrunning).load]

theorem loadProgram_refused_iff (s : Session) (program : Program) :
    (s.loadProgram program).result = none ↔ s.phase = .running := by
  constructor
  · intro hrefused
    by_contra hidle
    unfold loadProgram at hrefused
    rw [if_neg (fun hrunning => hidle (isRunning_iff.mp hrunning))] at hrefused
    cases hrefused
  · intro hrunning
    rw [(occupied_of_running hrunning).loadProgram]

theorem reset_refused_iff (s : Session) :
    Notice.resetRefused ∈ s.reset.notices ↔ s.phase = .running := by
  constructor
  · intro hrefused
    by_contra hidle
    unfold reset at hrefused
    rw [if_neg (fun hrunning => hidle (isRunning_iff.mp hrunning))] at hrefused
    cases hrefused
  · intro hrunning
    rw [(occupied_of_running hrunning).reset]
    exact List.mem_cons_self

/-- There is no operation at a number beyond the program. -/
theorem operationAt_eq_none (s : Session) (step : Int) :
    (if 0 ≤ step then s.operations[step.toNat]? else none) = none ↔
      step < 0 ∨ (s.operations.length : Int) ≤ step := by
  by_cases hstep : 0 ≤ step
  · rw [if_pos hstep, List.getElem?_eq_none_iff]
    omega
  · rw [if_neg hstep]
    exact iff_of_true rfl (Or.inl (Int.lt_of_not_ge hstep))

theorem seek_refused_iff (s : Session) (step : Int) :
    (s.seek step).result = .ok none ↔
      s.phase = .running ∨ step < 0 ∨ (s.operations.length : Int) ≤ step := by
  by_cases hrunning : s.phase = .running
  · rw [(occupied_of_running hrunning).seek]
    exact iff_of_true rfl (Or.inl hrunning)
  · rw [or_iff_right hrunning, ← operationAt_eq_none]
    unfold seek
    rw [if_neg (fun h => hrunning (isRunning_iff.mp h))]
    split
    · next op hop =>
      refine iff_of_false ?_ (by simp [hop])
      unfold seekTo
      dsimp only
      split <;> nofun
    · next hnone => exact iff_of_true rfl hnone

theorem start_refused_iff (s : Session) :
    s.start.result = false ↔ s.phase = .running ∨ s.program = none ∨
      ∃ program, s.program = some program ∧ program.errors ≠ [] := by
  constructor
  · intro hrefused
    by_cases hrunning : s.phase = .running
    · exact Or.inl hrunning
    · right
      cases hprogram : s.program with
      | none => exact Or.inl rfl
      | some program =>
          right
          refine ⟨program, rfl, fun herrors => ?_⟩
          rw [start_of_ready hrunning hprogram herrors] at hrefused
          cases hrefused
  · intro hcases
    rcases s.start_cases with ⟨hrefused, _⟩ | ⟨hidle, program, hprogram, herrors⟩
    · exact hrefused
    · rcases hcases with hrunning | hnone | ⟨other, hother, hsome⟩
      · exact absurd hrunning hidle
      · cases hprogram.symm.trans hnone
      · obtain rfl := Option.some.inj (hprogram.symm.trans hother)
        exact absurd herrors hsome

/-- A call that a session refuses, or with a text that cannot be read. -/
inductive TurnsAway (s : Session) : Call → Prop
  | load {text : Text.Points} (h : (s.load text).result = .ok none) : TurnsAway s (.load text)
  | unread {text : Text.Points} {fault : Fault} (h : Program.ofText s.tooling text = .error fault) :
      TurnsAway s (.load text)
  | loadProgram {program : Program} (h : (s.loadProgram program).result = none) :
      TurnsAway s (.loadProgram program)
  | reset (h : Notice.resetRefused ∈ s.reset.notices) : TurnsAway s .reset
  | seek {step : Int} (h : (s.seek step).result = .ok none) : TurnsAway s (.seek step)
  | run {kept : Bool} (h : s.start.result = false) : TurnsAway s (.run kept)
  | complete {kept : Bool} (h : s.start.result = false) : TurnsAway s (.complete kept)

theorem load_of_unread {fault : Fault} (h : Program.ofText s.tooling text = .error fault) :
    (s.load text).session = s := by
  rcases s.load_cases text with hsame | ⟨_, program, hread, _⟩
  · exact hsame
  · cases h.symm.trans hread

theorem seek_of_refused (h : (s.seek step).result = .ok none) : (s.seek step).session = s := by
  by_cases hrunning : s.phase = .running
  · rw [(occupied_of_running hrunning).seek]
  · have hnone := ((s.seek_refused_iff step).mp h).resolve_left hrunning
    unfold seek
    rw [if_neg (fun h => hrunning (isRunning_iff.mp h)), (s.operationAt_eq_none step).mpr hnone]

end Session

namespace Bench

variable {perform : Performer} {b b' b'' : Bench} {call : Call} {calls : List Call}

/-- A bench on which nothing was done but that it was told something, and that runs were refused. -/
def Untouched (b b' : Bench) : Prop :=
  ∃ notices n,
    b' = { b with notices := b.notices ++ notices, runs := b.runs ++ List.replicate n none }

theorem untouched_take {α : Type} {reply : Reply α} (h : reply.session = b.session) :
    b.Untouched (b.take reply) := by
  refine ⟨reply.notices, 0, ?_⟩
  rw [take, h, List.replicate_zero, List.append_nil]

theorem startRun_of_refused (perform : Performer) (h : b.session.start.result = false) (kept : Bool) :
    b.startRun perform kept = (b.take b.session.start, none) := by
  unfold startRun
  dsimp only
  rw [if_neg (by simp [h])]

theorem untouched_of_turnsAway (perform : Performer) (h : b.session.TurnsAway call) :
    b.Untouched (performWith perform b call).1 := by
  cases h with
  | load h =>
      have hrunning := (b.session.load_refused_iff _).mp h
      apply untouched_take
      rw [(Session.occupied_of_running hrunning).load]
  | unread h => exact untouched_take (Session.load_of_unread h)
  | loadProgram h =>
      have hrunning := (b.session.loadProgram_refused_iff _).mp h
      apply untouched_take
      rw [(Session.occupied_of_running hrunning).loadProgram]
  | reset h =>
      have hrunning := b.session.reset_refused_iff.mp h
      apply untouched_take
      rw [(Session.occupied_of_running hrunning).reset]
  | seek h => exact untouched_take (Session.seek_of_refused h)
  | run h =>
      refine ⟨b.session.start.notices, 1, ?_⟩
      rw [performWith, startRun_of_refused perform h]
      dsimp only [take]
      rw [Session.start_refused h, List.replicate_one]
  | complete h =>
      rw [performWith, completeRun, startRun_of_refused perform h]
      exact untouched_take (Session.start_refused h)

theorem untouched_perform (fuel : Nat) (h : b.session.TurnsAway call) :
    b.Untouched (b.perform fuel call).1 := by
  cases fuel with
  | zero => exact ⟨[], 0, by simp [Bench.perform]⟩
  | succ fuel => exact untouched_of_turnsAway _ h

/-- Calls that are turned away one after the other are seen to do nothing. -/
theorem performAll_of_turnsAway (fuel : Nat) (h : ∀ call ∈ calls, b.session.TurnsAway call) :
    ∀ stage ∈ performAll fuel b calls,
      stage.session = b.session ∧ stage.waits = [] ∧ stage.nested = [] := by
  induction calls generalizing b with
  | nil => exact fun stage hstage => nomatch hstage
  | cons call calls ih =>
      have hcall : b.unseen.session.TurnsAway call := h call List.mem_cons_self
      obtain ⟨notices, n, hleft⟩ := untouched_perform fuel hcall
      have hrest : ∀ other ∈ calls, (b.unseen.perform fuel call).1.session.TurnsAway other := by
        rw [hleft]
        exact fun other hother => h other (List.mem_cons_of_mem _ hother)
      have hsame : (b.unseen.perform fuel call).1.session = b.session := by rw [hleft]; rfl
      rw [performAll_cons]
      refine List.forall_mem_cons.mpr ⟨⟨hsame, ?_, ?_⟩, ?_⟩
      · rw [stageOf, hleft]; rfl
      · rw [stageOf, hleft]; rfl
      · exact hsame ▸ ih hrest

end Bench

/-- A session refuses to load and to reset exactly while it is running, to seek also for a step that its
program does not have, and to run also without a program or with one that has errors. What it refuses
leaves it as it was, and so does a text that cannot be read. On a bench such calls wait for nothing, read
no clock and make no planned call. -/
theorem Bench.refused_calls_leave_no_trace (b : Bench) :
    (∀ text, (b.session.load text).result = .ok none ↔ b.session.phase = .running) ∧
      (∀ program, (b.session.loadProgram program).result = none ↔ b.session.phase = .running) ∧
      (Notice.resetRefused ∈ b.session.reset.notices ↔ b.session.phase = .running) ∧
      (∀ step, (b.session.seek step).result = .ok none ↔
        b.session.phase = .running ∨ step < 0 ∨ (b.session.operations.length : Int) ≤ step) ∧
      (b.session.start.result = false ↔ b.session.phase = .running ∨ b.session.program = none ∨
        ∃ program, b.session.program = some program ∧ program.errors ≠ []) ∧
      (∀ perform call, b.session.TurnsAway call → b.Untouched (performWith perform b call).1) ∧
      ∀ fuel calls, (∀ call ∈ calls, b.session.TurnsAway call) →
        ∀ stage ∈ performAll fuel b calls,
          stage.session = b.session ∧ stage.waits = [] ∧ stage.nested = [] :=
  ⟨b.session.load_refused_iff, b.session.loadProgram_refused_iff, b.session.reset_refused_iff,
    b.session.seek_refused_iff, b.session.start_refused_iff,
    fun perform _ h => untouched_of_turnsAway perform h,
    fun fuel _ h => performAll_of_turnsAway fuel h⟩

theorem Bench.refused_calls_leave_no_trace_while_running :
    let b := ((loaded 300.0 twoHits).perform 1 .run).1
    (b.session.load "G81 X50 Y40 D8").result = .ok none ∧ (b.session.seek 0).result = .ok none ∧
      b.session.start.result = false ∧
      ∀ stage ∈ performAll 1 b [.load "G81 X50 Y40 D8", .reset, .seek 0, .run, .complete],
        stage.session = b.session ∧ stage.waits = [] ∧ stage.nested = [] := by
  intro b
  obtain ⟨hload, _, hreset, hseek, hstart, _, hcalls⟩ := refused_calls_leave_no_trace b
  have hrunning : b.session.phase = .running := rfl
  have hload := (hload "G81 X50 Y40 D8").mpr hrunning
  have hseek := (hseek 0).mpr (Or.inl hrunning)
  have hstart := hstart.mpr (Or.inl hrunning)
  refine ⟨hload, hseek, hstart, hcalls 1 _ ?_⟩
  simp only [List.forall_mem_cons]
  exact ⟨.load hload, .reset (hreset.mpr hrunning), .seek hseek, .run hstart, .complete hstart, nofun⟩

end TurretPunch
