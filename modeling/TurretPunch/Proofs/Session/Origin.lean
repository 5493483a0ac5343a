import TurretPunch.Proofs.Session.Arising

namespace TurretPunch

/-!
# Where a loaded program comes from

A session holds what its last load took in, a text with its program or a program that came without one,
or it has loaded nothing yet. Whatever else it does leaves that as it is.
-/

/-- What a session holds, and what it reads texts against. -/
structure Holding where
  tooling : Program.Tooling
  program : Option Program
  text : Text.Points

/-- The calls that give this holding to a session that has nothing yet. -/
inductive Holding.LoadedBy : Holding → List Call → Prop
  | nothing (tooling : Program.Tooling) : LoadedBy ⟨tooling, none, ""⟩ []
  | text {tooling : Program.Tooling} {text : Text.Points} {program : Program}
      (h : Program.ofText tooling text = .ok program) :
      LoadedBy ⟨tooling, some program, text⟩ [.load text]
  | program (tooling : Program.Tooling) (program : Program) :
      LoadedBy ⟨tooling, some program, ""⟩ [.loadProgram program]

namespace Session

variable (s : Session) (now : Timestamp) (id : Nat)

def holding : Holding := ⟨s.tooling, s.program, s.text⟩

@[simp] theorem holding_setPlayback (playback : Playback) :
    (s.setPlayback id playback).holding = s.holding := rfl

@[simp] theorem holding_haltIfRunning : s.haltIfRunning.session.holding = s.holding := by
  unfold haltIfRunning
  split <;> rfl

@[simp] theorem holding_finishPlayback (outcome : Outcome) :
    (s.finishPlayback id outcome).session.holding = s.holding := by
  simp [finishPlayback]

@[simp] theorem holding_makeStep (index : Nat) :
    (s.makeStep now index).session.holding = s.holding := by
  unfold makeStep
  split
  · rfl
  · dsimp only
    split
    · rfl
    · split <;> rfl

@[simp] theorem holding_complete (last : Option Operation) (entry : Option LogEntry) :
    (s.complete id last entry).session.holding = s.holding := rfl

@[simp] theorem holding_play (index : Nat) (op : Operation) (rest : List Operation) :
    (s.play now id index op rest).session.holding = s.holding := by
  unfold play
  dsimp only
  split
  · simp
  · split <;> simp

@[simp] theorem holding_proceed (index : Nat) (last : Option Operation) (rest : List Operation) :
    (s.proceed now id index last rest).session.holding = s.holding := by
  cases rest with
  | nil => rfl
  | cons op rest =>
      unfold proceed
      dsimp only
      split
      · rfl
      · split <;> simp

theorem holding_pull : (s.pull now id).session.holding = s.holding := by
  unfold pull
  split <;> simp

theorem holding_resume : (s.resume now id).session.holding = s.holding := by
  unfold resume
  split <;> simp

theorem holding_closeAt (time : Float) : (s.closeAt now id time).session.holding = s.holding := by
  unfold closeAt
  split <;> rfl

@[simp] theorem holding_closePlayback : (s.closePlayback id).session.holding = s.holding := by
  unfold closePlayback
  split <;> simp

theorem holding_stop : s.stop.session.holding = s.holding := by
  unfold stop
  split
  · dsimp only
    split
    · rfl
    · simp
      rfl
  · rfl

theorem holding_start : s.start.session.holding = s.holding := by
  unfold start
  split
  · rfl
  · split
    · rfl
    · split <;> rfl

theorem holding_seek (step : Int) : (s.seek step).session.holding = s.holding := by
  rcases s.seek_cases step with hsame | ⟨_, index, op, out, _, hsought⟩
  · rw [hsame]
  · rw [hsought]
    rfl

/-- Every act leaves a session with what it holds, or with what it has just loaded. -/
theorem lasting_loadedBy : Lasting fun s => ∃ calls, s.holding.LoadedBy calls := by
  intro s a ⟨calls, h⟩
  cases a with
  | load text =>
      rcases s.load_cases text with hsame | ⟨_, program, hread, hloaded⟩
      · exact ⟨calls, by rwa [act, hsame]⟩
      · refine ⟨[.load text], ?_⟩
        rw [act, hloaded]
        exact .text hread
  | loadProgram program =>
      rw [act, loadProgram]
      split
      · exact ⟨calls, h⟩
      · exact ⟨_, .program s.tooling program⟩
  | start => exact ⟨calls, s.holding_start ▸ h⟩
  | started => exact ⟨calls, h⟩
  | pull now id => exact ⟨calls, (s.holding_pull now id).symm ▸ h⟩
  | resume now id => exact ⟨calls, (s.holding_resume now id).symm ▸ h⟩
  | closeAt now id time => exact ⟨calls, (s.holding_closeAt now id time).symm ▸ h⟩
  | interrupt id => exact ⟨calls, (s.holding_finishPlayback id _).symm ▸ h⟩
  | close id => exact ⟨calls, (s.holding_closePlayback id).symm ▸ h⟩
  | stop => exact ⟨calls, s.holding_stop.symm ▸ h⟩
  | reset =>
      refine ⟨calls, ?_⟩
      rw [act, reset]
      split <;> exact h
  | seek step => exact ⟨calls, (s.holding_seek step).symm ▸ h⟩

theorem Arisen.exists_loadedBy {s : Session} (h : s.Arisen) : ∃ calls, s.holding.LoadedBy calls := by
  induction h with
  | fresh => exact ⟨[], .nothing _⟩
  | act _ a ih => exact lasting_loadedBy _ a ih

end Session

end TurretPunch
