import TurretPunch.Session.Playback

namespace TurretPunch

/-!
# What happens to a session

A session changes by events only. An event is a call from outside, or a playback that goes on after
a wait; a call that comes while a playback waits is an event in between. Where a playback is let go of,
because a new run takes the place of its own and nobody else has it, it is closed, which is an event
after that of the run. The clock does not call back, so that what it reads belongs to the event that
asks for it.

For each event there is one statement that says all it can do to a session.
-/

namespace Session

/-- What can happen to a session, with the time of the clock and of the calendar it may need. -/
inductive Event where
  | load (text : Text.Points)
  | loadProgram (program : Program)
  | run (time : Float)
  /-- A playback is asked for its next step. -/
  | pull (id : Nat) (now : Timestamp) (time : Float)
  /-- A playback that waits goes on. -/
  | resume (id : Nat) (now : Timestamp) (time : Float)
  | close (id : Nat)
  | stop
  | reset
  | seek (step : Int)

/-- The answer of a playback, with the time it may have asked for. -/
def settle (reply : Reply Outcome) (now : Timestamp) (id : Nat) (time : Float) : Reply Outcome :=
  match reply.result with
  | .readClock => reply.session.closeAt now id time
  | _ => reply

/-- The session after a run was asked for. -/
def startedAt (s : Session) (time : Float) : Session :=
  if s.start.result then (s.start.session.started time).session else s.start.session

/-- The session after an event. -/
def after (s : Session) : Event → Session
  | .load text => (s.load text).session
  | .loadProgram program => (s.loadProgram program).session
  | .run time => s.startedAt time
  | .pull id now time => (settle (s.pull now id) now id time).session
  | .resume id now time => (settle (s.resume now id) now id time).session
  | .close id => (s.closePlayback id).session
  | .stop => s.stop.session
  | .reset => s.reset.session
  | .seek step => (s.seek step).session

/-- The sessions that a fresh session comes to by allowed events. -/
inductive Reached (allowed : Session → Event → Prop) : Session → Prop
  | fresh (turret : Turret) (sheet : Sheet) (interval : Float) (fallback : Quantity)
      (logRoom : Nat) : Reached allowed { turret, sheet, interval, fallback, logRoom }
  | event {s : Session} (e : Event) (h : Reached allowed s) (he : allowed s e) :
      Reached allowed (s.after e)

/-- A fresh session without tools, on a sheet of 300 by 200. -/
def plain : Session :=
  { turret := .empty, sheet := ⟨300.0, 200.0⟩, interval := 500.0, fallback := .real 8.0
    logRoom := 100 }

theorem reached_plain (allowed : Session → Event → Prop) : Reached allowed plain :=
  .fresh .empty ⟨300.0, 200.0⟩ 500.0 (.real 8.0) 100

theorem operations_of_program {s : Session} {program : Program} (h : s.program = some program) :
    s.operations = program.operations := by
  rw [operations, h]

theorem isRunning_iff {s : Session} : s.isRunning = true ↔ s.phase = .running := by
  simp [isRunning]

theorem phase_ne_running {s : Session} (h : ¬ s.isRunning = true) : s.phase ≠ .running :=
  fun hphase => h (isRunning_iff.mpr hphase)

/-- A load does nothing, or takes in the program that was read from the text. -/
theorem load_cases (s : Session) (text : Text.Points) :
    (s.load text).session = s ∨ s.phase ≠ .running ∧
      ∃ program, Program.ofText s.tooling text = .ok program ∧
        (s.load text).session = (s.accept program text).session := by
  unfold load
  split
  · exact Or.inl rfl
  · next hidle =>
    cases hread : Program.ofText s.tooling text with
    | error fault => exact Or.inl rfl
    | ok program => exact Or.inr ⟨phase_ne_running hidle, program, rfl, rfl⟩

/-- The session at the start of a run, before the time is known. -/
def opened (s : Session) : Session :=
  { s with press := { running := true }, report := none, stopRequested := false, phase := .running }

/-- The session at the start of a run. -/
def launched (s : Session) (time : Float) : Session := (s.opened.started time).session

theorem launched_eq (s : Session) (time : Float) : s.launched time = s.opened.begun time := rfl

/-- A run starts if none is active and the loaded program has no errors. -/
theorem start_of_ready {s : Session} {program : Program} (hidle : s.phase ≠ .running)
    (hprogram : s.program = some program) (herrors : program.errors = []) :
    s.start = ⟨s.opened, [], true⟩ := by
  unfold start
  rw [if_neg (fun h => hidle (isRunning_iff.mp h))]
  split
  · next hnone => simp [hprogram] at hnone
  · next p hp =>
    obtain rfl : program = p := Option.some.inj (hprogram.symm.trans hp)
    rw [if_pos (by simp [herrors])]
    rfl

theorem start_cases (s : Session) :
    s.start.result = false ∧ s.start.session = s ∨ s.phase ≠ .running ∧
      ∃ program, s.program = some program ∧ program.errors = [] := by
  by_cases hrunning : s.isRunning = true
  · left
    unfold start
    rw [if_pos hrunning]
    constructor <;> rfl
  · cases hprogram : s.program with
    | none =>
        left
        unfold start
        rw [if_neg hrunning, hprogram]
        constructor <;> rfl
    | some program =>
        by_cases herrors : program.errors = []
        · right
          exact ⟨phase_ne_running hrunning, program, rfl, herrors⟩
        · left
          unfold start
          rw [if_neg hrunning, hprogram]
          simp [herrors]

theorem startedAt_cases (s : Session) (time : Float) :
    s.startedAt time = s ∨ s.phase ≠ .running ∧
      ∃ program, s.program = some program ∧ program.errors = [] ∧
        s.startedAt time = s.launched time := by
  unfold startedAt
  rcases s.start_cases with ⟨hrefused, hsame⟩ | ⟨hidle, program, hprogram, herrors⟩
  · left
    rw [hrefused, hsame]
    rfl
  · right
    rw [start_of_ready hidle hprogram herrors]
    exact ⟨hidle, program, hprogram, herrors, rfl⟩

/-- A run that starts goes on if no playback is let go of that stands at a step or at its report. -/
theorem started_of_kept {s : Session} {kept : Bool} (time : Float)
    (h : kept = true ∨ s.suspended = none) :
    s.started time kept =
      ⟨s.begun time, [.runStarted s.operations.length s.interval], s.playbacks.length⟩ := by
  unfold started
  rcases h with rfl | hnone
  · rfl
  · rw [hnone, ite_self]

theorem closePlayback_of_isSuspended {s : Session} {id : Nat} {playback : Playback}
    (hid : s.playbacks[id]? = some playback) (h : playback.isSuspended = true) :
    s.closePlayback id = s.finishPlayback id .ended := by
  rw [closePlayback, hid]
  cases playback with
  | shown | reported => rfl
  | created | approaching | resting | closing | finished => cases h

theorem exists_of_suspended {s : Session} {earlier : Nat} (h : s.suspended = some earlier) :
    s.current = some earlier ∧
      ∃ playback, s.playbacks[earlier]? = some playback ∧ playback.isSuspended = true := by
  obtain ⟨hcurrent, hany⟩ := Option.filter_eq_some_iff.mp h
  exact ⟨hcurrent, (Option.any_eq_true _ _).mp hany⟩

/-- To let go of a playback that stands at a step or at its report is to close it. -/
theorem started_of_suspended {s : Session} {earlier : Nat} (time : Float)
    (h : s.suspended = some earlier) :
    s.started time false =
      ⟨((s.begun time).closePlayback earlier).session,
        .runStarted s.operations.length s.interval ::
          ((s.begun time).closePlayback earlier).notices, s.playbacks.length⟩ := by
  obtain ⟨_, playback, hid, hsuspended⟩ := exists_of_suspended h
  have hlt := (List.getElem?_eq_some_iff.mp hid).1
  have hbegun : (s.begun time).playbacks[earlier]? = some playback :=
    (List.getElem?_append_left hlt).trans hid
  rw [closePlayback_of_isSuspended hbegun hsuspended]
  unfold started
  rw [h]
  rfl

/-- The phase in which a run begins. -/
def firstPhase (s : Session) (kept : Bool) : Phase :=
  if kept || s.suspended.isNone then .running else .stopped

theorem firstPhase_of_kept {s : Session} {kept : Bool} (h : kept = true ∨ s.suspended = none) :
    s.firstPhase kept = .running := by
  rcases h with rfl | hnone
  · rfl
  · rw [firstPhase, hnone, Option.isNone_none, Bool.or_true, if_pos rfl]

theorem firstPhase_active (s : Session) (kept : Bool) :
    s.firstPhase kept = .running ∨ s.firstPhase kept = .stopped := by
  unfold firstPhase
  split
  · exact Or.inl rfl
  · exact Or.inr rfl

theorem result_started (s : Session) (time : Float) (kept : Bool) :
    (s.started time kept).result = s.playbacks.length := by
  unfold started
  split <;> rfl

/-- A run that starts has a playback of its own, whatever becomes of the one before. -/
theorem started_opened (s : Session) (time : Float) (kept : Bool) :
    ∃ playbacks running,
      (s.opened.started time kept).session =
        { s.opened.begun time with
          playbacks, press := { running }, phase := s.firstPhase kept } ∧
      playbacks[s.playbacks.length]? = some .created := by
  have hown : (s.playbacks ++ [Playback.created])[s.playbacks.length]? = some .created := by simp
  unfold firstPhase
  cases hsuspended : s.suspended with
  | none =>
      rw [started_of_kept (s := s.opened) time (Or.inr hsuspended), Option.isNone_none, Bool.or_true,
        if_pos rfl]
      exact ⟨_, true, rfl, hown⟩
  | some earlier =>
      cases kept with
      | true => exact ⟨_, true, rfl, hown⟩
      | false =>
          obtain ⟨_, playback, hid, _⟩ := exists_of_suspended hsuspended
          have hlt := (List.getElem?_eq_some_iff.mp hid).1
          have hended : (s.opened.started time false).session =
              ((s.opened.begun time).setPlayback earlier .finished).halt.session := by
            unfold started
            rw [show s.opened.suspended = some earlier from hsuspended]
            rfl
          refine ⟨_, false, hended, ?_⟩
          exact (List.getElem?_set_ne (Nat.ne_of_lt hlt)).trans hown

theorem started_cases (s : Session) (time : Float) (kept : Bool) :
    (s.started time kept).session = s.begun time ∨
      ∃ earlier, (s.started time kept).session = ((s.begun time).closePlayback earlier).session := by
  by_cases hends : kept = true ∨ s.suspended = none
  · exact Or.inl (by rw [started_of_kept time hends])
  · obtain ⟨hfalse, hsome⟩ := not_or.mp hends
    obtain ⟨earlier, hearlier⟩ := Option.ne_none_iff_exists'.mp hsome
    rw [Bool.not_eq_true] at hfalse
    exact Or.inr ⟨earlier, by rw [hfalse, started_of_suspended time hearlier]⟩

/-- The session with the press as it is right after an operation of the program. -/
def soughtTo (s : Session) (index : Nat) (op : Operation) (out : Bool) : Session :=
  { s with press := { s.pressAt index op with outOfBounds := out } }

theorem seek_cases (s : Session) (step : Int) :
    (s.seek step).session = s ∨ s.phase ≠ .running ∧
      ∃ index op out, s.operations[index]? = some op ∧
        (s.seek step).session = s.soughtTo index op out := by
  unfold seek
  split
  · exact Or.inl rfl
  · next hidle =>
    split
    · next op hop =>
      have hfound : s.operations[step.toNat]? = some op := by
        split at hop
        · exact hop
        · simp at hop
      right
      refine ⟨phase_ne_running hidle, step.toNat, op, ?_⟩
      unfold seekTo
      dsimp only
      split
      · exact ⟨s.press.outOfBounds, hfound, rfl⟩
      · next out _ => exact ⟨out, hfound, rfl⟩
    · exact Or.inl rfl

end Session

end TurretPunch
