import TurretPunch.Proofs.Session.Turn

namespace TurretPunch

/-!
# What earlier runs leave behind

A session keeps the playbacks of its earlier runs, which of them was the last, and when that one was
started. A session with such a residue does the same as one without it: the playbacks of later runs
come after those of earlier ones, and nothing else depends on them.
-/

namespace Session

/-- The session with the playbacks of earlier runs in front of its own. Its last run, and the time at
which it was started, are replaced as well. -/
def behind (front : List Playback) (current : Option Nat) (time : Float) (s : Session) : Session :=
  { s with playbacks := front ++ s.playbacks, current, startTime := time }

end Session

/-- The same reply with a residue in the session. -/
def Reply.behind {α : Type} (front : List Playback) (current : Option Nat) (time : Float)
    (reply : Reply α) : Reply α :=
  { reply with session := reply.session.behind front current time }

namespace Session

variable (front : List Playback) (current : Option Nat) (time : Float) (s : Session) (id : Nat)
  (now : Timestamp)

@[simp] theorem behind_isRunning : (s.behind front current time).isRunning = s.isRunning := rfl

@[simp] theorem behind_operations : (s.behind front current time).operations = s.operations := rfl

@[simp] theorem behind_program : (s.behind front current time).program = s.program := rfl

@[simp] theorem behind_current : (s.behind front current time).current = current := rfl

@[simp] theorem behind_tooling : (s.behind front current time).tooling = s.tooling := rfl

@[simp] theorem behind_pressAt (index : Nat) (op : Operation) :
    (s.behind front current time).pressAt index op = s.pressAt index op := rfl

@[simp] theorem behind_pressAfter (index : Nat) (op : Operation) :
    (s.behind front current time).pressAfter index op
        (.ofOperation (s.behind front current time).turret now op) =
      s.pressAfter index op (.ofOperation s.turret now op) := rfl

@[simp] theorem behind_pressLeaves :
    (s.behind front current time).pressLeaves = s.pressLeaves := rfl

@[simp] theorem behind_withPress (press : Press) :
    ({ s.behind front current time with press } : Session) =
      ({ s with press } : Session).behind front current time := rfl

@[simp] theorem behind_stopRequested :
    (s.behind front current time).stopRequested = s.stopRequested := rfl

@[simp] theorem behind_playbacks :
    (s.behind front current time).playbacks[id + front.length]? = s.playbacks[id]? := by
  simp [behind, List.getElem?_append_right]

@[simp] theorem behind_setPlayback (playback : Playback) :
    (s.behind front current time).setPlayback (id + front.length) playback =
      (s.setPlayback id playback).behind front current time := by
  simp [behind, setPlayback, List.set_append_right]

theorem behind_load (text : Text.Points) :
    (s.behind front current time).load text = (s.load text).behind front current time := by
  unfold load
  rw [behind_isRunning]
  split
  · rfl
  · rw [behind_tooling]
    cases Program.ofText s.tooling text <;> rfl

theorem behind_loadProgram (program : Program) :
    (s.behind front current time).loadProgram program =
      (s.loadProgram program).behind front current time := by
  unfold loadProgram
  rw [behind_isRunning]
  split <;> rfl

theorem behind_reset :
    (s.behind front current time).reset = s.reset.behind front current time := by
  unfold reset
  rw [behind_isRunning]
  split <;> rfl

theorem behind_seekTo (index : Nat) (op : Operation) :
    (s.behind front current time).seekTo index op =
      (s.seekTo index op).behind front current time := by
  unfold seekTo
  rw [behind_pressAt]
  dsimp only
  rw [behind_withPress, behind_pressLeaves]
  cases (if op.target?.isSome then pressLeaves { s with press := s.pressAt index op }
    else .ok false) <;> rfl

theorem behind_seek (step : Int) :
    (s.behind front current time).seek step = (s.seek step).behind front current time := by
  unfold seek
  rw [behind_isRunning, behind_operations]
  split
  · rfl
  · split
    · exact s.behind_seekTo front current time _ _
    · rfl

theorem behind_start :
    (s.behind front current time).start = s.start.behind front current time := by
  unfold start
  rw [behind_isRunning, behind_program]
  split
  · rfl
  · cases s.program with
    | none => rfl
    | some program => dsimp only; split <;> rfl

theorem behind_begun (start : Float) :
    (s.behind front current time).begun start =
      (s.begun start).behind front (some (s.playbacks.length + front.length)) start := by
  unfold begun behind
  rw [List.length_append, Nat.add_comm, List.append_assoc]

theorem behind_suspended :
    (s.behind front (s.current.map (· + front.length)) time).suspended =
      s.suspended.map (· + front.length) := by
  unfold suspended
  rw [behind_current]
  cases s.current with
  | none => rfl
  | some id =>
      rw [Option.map_some, Option.filter_some, Option.filter_some, behind_playbacks]
      split <;> rfl

theorem behind_haltIfRunning :
    (s.behind front current time).haltIfRunning = s.haltIfRunning.behind front current time := by
  unfold haltIfRunning
  rw [behind_isRunning]
  split <;> rfl

theorem behind_finishPlayback (outcome : Outcome) :
    (s.behind front current time).finishPlayback (id + front.length) outcome =
      (s.finishPlayback id outcome).behind front current time := by
  unfold finishPlayback
  rw [behind_setPlayback, behind_haltIfRunning]
  rfl

theorem behind_makeStep (index : Nat) :
    (s.behind front current time).makeStep now index =
      (s.makeStep now index).behind front current time := by
  unfold makeStep
  rw [behind_operations]
  cases s.operations[index]? with
  | none => rfl
  | some op =>
      dsimp only
      rw [behind_pressAfter]
      split
      · rfl
      · rw [behind_withPress, behind_pressLeaves]
        cases pressLeaves { s with press := s.pressAfter index op (.ofOperation s.turret now op) } <;>
          rfl

theorem behind_complete (last : Option Operation) (entry : Option LogEntry) :
    (s.behind front current time).complete (id + front.length) last entry =
      (s.complete id last entry).behind front current time := by
  let ended : Session :=
    { s with press := { s.press with running := false }, phase := .completed }
  have hset := ended.behind_setPlayback front current time id (.closing last entry)
  change (⟨(ended.behind front current time).setPlayback _ _, _, _⟩ : Reply Outcome) = _
  rw [hset]
  rfl

theorem behind_play (index : Nat) (op : Operation) (rest : List Operation) :
    (s.behind front current time).play now (id + front.length) index op rest =
      (s.play now id index op rest).behind front current time := by
  unfold play
  rw [behind_makeStep]
  dsimp only [Reply.behind]
  cases (s.makeStep now index).result with
  | error fault =>
      dsimp only
      rw [behind_finishPlayback]
      rfl
  | ok snapshot =>
      dsimp only
      split
      · rw [behind_complete]
        rfl
      · rw [behind_setPlayback]

theorem behind_proceed (index : Nat) (last : Option Operation) (rest : List Operation) :
    (s.behind front current time).proceed now (id + front.length) index last rest =
      (s.proceed now id index last rest).behind front current time := by
  cases rest with
  | nil => exact s.behind_complete front current time id last none
  | cons op rest =>
      simp only [proceed, behind_stopRequested, behind_setPlayback]
      split
      · rfl
      · split
        · rfl
        · exact s.behind_play front current time id now index op rest

theorem behind_pull :
    (s.behind front current time).pull now (id + front.length) =
      (s.pull now id).behind front current time := by
  unfold pull
  rw [behind_playbacks]
  split
  · exact s.behind_proceed front current time id now 0 none s.operations
  · rw [behind_setPlayback]
    rfl
  · exact s.behind_finishPlayback front current time id .ended
  all_goals rfl

theorem behind_resume :
    (s.behind front current time).resume now (id + front.length) =
      (s.resume now id).behind front current time := by
  unfold resume
  rw [behind_playbacks]
  split
  · exact s.behind_play front current time id now _ _ _
  · exact s.behind_proceed front current time id now _ _ _
  · rfl

theorem behind_closePlayback :
    (s.behind front current time).closePlayback (id + front.length) =
      (s.closePlayback id).behind front current time := by
  unfold closePlayback
  rw [behind_playbacks, behind_setPlayback, behind_finishPlayback]
  split <;> rfl

theorem behind_closeAt (end' : Float) :
    (s.behind front current s.startTime).closeAt now (id + front.length) end' =
      (s.closeAt now id end').behind front current s.startTime := by
  unfold closeAt
  rw [behind_playbacks]
  split
  · next last entry _ =>
    let after : Session := { s with report := some (s.reportAt now end') }
    have hset := after.behind_setPlayback front current s.startTime id .reported
    change (⟨(after.behind front current s.startTime).setPlayback _ _, _, _⟩ : Reply Outcome) = _
    rw [hset]
    rfl
  · rfl

theorem behind_remaining :
    (s.behind front current time).remaining (id + front.length) = s.remaining id := by
  unfold remaining
  rw [behind_playbacks, behind_operations]

theorem behind_isOpen :
    (s.behind front current time).isOpen (id + front.length) = s.isOpen id := by
  unfold isOpen
  rw [behind_playbacks]

/-- What a stop does to an active run whose playback it can close. -/
def stopOpen (s : Session) (id : Nat) : Reply Unit :=
  let closed := s.stopping.closePlayback id
  let halted := closed.session.haltIfRunning
  ⟨halted.session, .stopRequested :: closed.notices ++ halted.notices, ()⟩

theorem stop_of_idle (hidle : ¬ s.isRunning = true) : s.stop = ⟨s, [], ()⟩ := by
  unfold stop
  rw [if_neg hidle]

theorem stop_eq (hrunning : s.isRunning = true) :
    s.stop = match s.current.filter s.stopping.isOpen with
      | none => ⟨s.stopping, [.stopRequested], ()⟩
      | some id => s.stopOpen id := by
  unfold stop
  rw [if_pos hrunning]
  rfl

theorem behind_stopping :
    (s.behind front current time).stopping = s.stopping.behind front current time := rfl

theorem behind_stopOpen :
    (s.behind front current time).stopOpen (id + front.length) =
      (s.stopOpen id).behind front current time := by
  unfold stopOpen
  rw [behind_stopping, behind_closePlayback]
  dsimp only [Reply.behind]
  rw [behind_haltIfRunning]
  rfl

theorem behind_stop :
    (s.behind front (s.current.map (· + front.length)) time).stop =
      s.stop.behind front (s.current.map (· + front.length)) time := by
  by_cases hrunning : s.isRunning = true
  · rw [stop_eq s hrunning, stop_eq (s.behind front _ time) hrunning, behind_stopping,
      behind_current]
    cases s.current with
    | none => rfl
    | some id =>
        rw [Option.map_some, Option.filter_some, Option.filter_some, behind_isOpen]
        cases s.stopping.isOpen id with
        | true => exact s.behind_stopOpen front (some (id + front.length)) time id
        | false => rfl
  · rw [stop_of_idle s hrunning, stop_of_idle (s.behind front _ time) hrunning]
    rfl

end Session

end TurretPunch
