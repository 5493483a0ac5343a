import TurretPunch.Proofs.Session.Event

namespace TurretPunch.Session

/-!
# What a playback does when its turn comes

A playback that is asked for a step, or that goes on after a wait, either stands still again, or
ends, or carries out one operation of the loaded program.
-/

/-- The session after an operation of the program, with the outcome of the bounds test. -/
def stepped (s : Session) (now : Timestamp) (index : Nat) (op : Operation) (out : Bool) : Session :=
  { s with
    press := { s.pressAfter index op (.ofOperation s.turret now op) with outOfBounds := out } }

/-- The session after the end of a run, with its report. -/
def completed (s : Session) (now : Timestamp) (id : Nat) (time : Float) : Session :=
  { s with
    press := { s.press with running := false }, phase := .completed
    report := some (s.reportAt now time), playbacks := s.playbacks.set id .reported }

/-- The session after a playback is over, and with it a run that is still active. -/
def abandoned (s : Session) (id : Nat) : Session :=
  (s.setPlayback id .finished).haltIfRunning.session

theorem makeStep_of_none {s : Session} {now : Timestamp} {index : Nat}
    (h : s.operations[index]? = none) : s.makeStep now index = ⟨s, [], .error .pastProgramEnd⟩ := by
  unfold makeStep
  rw [h]

/-- The end of a program is carried out without a bounds test. -/
theorem makeStep_of_isFinish {s : Session} (now : Timestamp) {index : Nat} {op : Operation}
    (h : s.operations[index]? = some op) (hfinish : op.isFinish = true) :
    (s.makeStep now index).session = s.stepped now index op s.press.outOfBounds ∧
      ∃ entry, (s.makeStep now index).result =
        .ok ((s.stepped now index op s.press.outOfBounds).snapshot (some op) none (some entry)) := by
  unfold makeStep
  rw [h]
  cases op with
  | finish line => exact ⟨rfl, _, rfl⟩
  | toolChange | move | hit => simp [Operation.isFinish] at hfinish

theorem makeStep_of_fault {s : Session} {now : Timestamp} {index : Nat} {op : Operation}
    {fault : Fault} (h : s.operations[index]? = some op) (hfinish : op.isFinish = false)
    (htest : (s.stepped now index op s.press.outOfBounds).pressLeaves = .error fault) :
    (s.makeStep now index).session = s.stepped now index op s.press.outOfBounds ∧
      (s.makeStep now index).result = .error fault := by
  unfold makeStep
  rw [h]
  dsimp only
  rw [if_neg (by simp [hfinish])]
  split
  · next f hf =>
    obtain rfl : fault = f := Except.error.inj (htest.symm.trans hf)
    cases op <;> exact ⟨rfl, rfl⟩
  · next out hout => cases htest.symm.trans hout

theorem makeStep_of_answer {s : Session} {now : Timestamp} {index : Nat} {op : Operation}
    {out : Bool} (h : s.operations[index]? = some op) (hfinish : op.isFinish = false)
    (htest : (s.stepped now index op s.press.outOfBounds).pressLeaves = .ok out) :
    (s.makeStep now index).session = s.stepped now index op out ∧
      ∃ entry, (s.makeStep now index).result =
        .ok ((s.stepped now index op out).snapshot (some op) op.hole? (some entry)) := by
  unfold makeStep
  rw [h]
  dsimp only
  rw [if_neg (by simp [hfinish])]
  split
  · next f hf => cases htest.symm.trans hf
  · next o ho =>
    obtain rfl : out = o := Except.ok.inj (htest.symm.trans ho)
    exact ⟨rfl, _, rfl⟩

/-- The session after an attempt to carry out the operation of the loaded program at an index. -/
inductive Attempted (s : Session) (index : Nat) : Session → Prop
  | missing (h : s.operations[index]? = none) : Attempted s index s
  | made {now : Timestamp} {op : Operation} {out : Bool} (h : s.operations[index]? = some op) :
      Attempted s index (s.stepped now index op out)

theorem makeStep_attempted (s : Session) (now : Timestamp) (index : Nat) :
    Attempted s index (s.makeStep now index).session := by
  cases h : s.operations[index]? with
  | none =>
      rw [makeStep_of_none h]
      exact .missing h
  | some op =>
      cases hfinish : op.isFinish with
      | true => exact (makeStep_of_isFinish now h hfinish).1 ▸ .made h
      | false =>
          cases htest : (s.stepped now index op s.press.outOfBounds).pressLeaves with
          | error fault => exact (makeStep_of_fault h hfinish htest).1 ▸ .made h
          | ok out => exact (makeStep_of_answer h hfinish htest).1 ▸ .made h

theorem Attempted.playbacks {s t : Session} {index : Nat} (h : Attempted s index t) :
    t.playbacks = s.playbacks := by
  cases h <;> rfl

theorem settle_of_readClock {reply : Reply Outcome} (now : Timestamp) (id : Nat) (time : Float)
    (h : reply.result = .readClock) :
    settle reply now id time = reply.session.closeAt now id time := by
  rw [settle, h]

theorem settle_of_ne {reply : Reply Outcome} (now : Timestamp) (id : Nat) (time : Float)
    (h : reply.result ≠ .readClock) : settle reply now id time = reply := by
  unfold settle
  split
  · next hclock => exact absurd hclock h
  · rfl

/-- With the reading of the clock a completed run gets its report and shows it. -/
theorem closeAt_complete {s : Session} {id : Nat} (now : Timestamp) (time : Float)
    (last : Option Operation) (entry : Option LogEntry) (h : id < s.playbacks.length) :
    ((s.complete id last entry).session.closeAt now id time).session = s.completed now id time ∧
      ((s.complete id last entry).session.closeAt now id time).result =
        .shown ((s.completed now id time).snapshot last none entry) := by
  have hclosing : (s.playbacks.set id (.closing last entry))[id]? = some (.closing last entry) :=
    List.getElem?_set_self h
  simp only [complete, setPlayback, closeAt, hclosing, completed, List.set_set]
  exact ⟨rfl, rfl⟩

theorem play_of_fault {s : Session} {now : Timestamp} {index : Nat} {fault : Fault} (id : Nat)
    (op : Operation) (rest : List Operation) (h : (s.makeStep now index).result = .error fault) :
    (s.play now id index op rest).session = (s.makeStep now index).session.abandoned id ∧
      (s.play now id index op rest).result = .failed fault := by
  unfold play
  dsimp only
  rw [h]
  exact ⟨rfl, rfl⟩

theorem play_of_isFinish {s : Session} {now : Timestamp} {index : Nat} {op : Operation}
    {snapshot : Snapshot} (id : Nat) (rest : List Operation)
    (h : (s.makeStep now index).result = .ok snapshot) (hop : op.isFinish = true) :
    (s.play now id index op rest).session =
        ((s.makeStep now index).session.complete id (some op) snapshot.entry).session ∧
      (s.play now id index op rest).result = .readClock := by
  unfold play
  dsimp only
  rw [h]
  simp only [hop, if_true]
  exact ⟨trivial, rfl⟩

theorem play_of_snapshot {s : Session} {now : Timestamp} {index : Nat} {op : Operation}
    {snapshot : Snapshot} (id : Nat) (rest : List Operation)
    (h : (s.makeStep now index).result = .ok snapshot) (hop : op.isFinish = false) :
    (s.play now id index op rest).session =
        (s.makeStep now index).session.setPlayback id (.shown index op rest) ∧
      (s.play now id index op rest).result = .shown snapshot := by
  unfold play
  dsimp only
  rw [h]
  simp [hop]

/-- The session after a playback has come to the operation `op`, with `rest` after it. -/
inductive Played (s : Session) (id index : Nat) (op : Operation) (rest : List Operation) :
    Session → Prop
  | failed {t : Session} (h : Attempted s index t) : Played s id index op rest (t.abandoned id)
  | finished {t : Session} {now : Timestamp} {time : Float} (h : Attempted s index t)
      (hop : op.isFinish = true) : Played s id index op rest (t.completed now id time)
  | shown {t : Session} (h : Attempted s index t) (hmade : s.operations[index]? ≠ none)
      (hop : op.isFinish = false) :
      Played s id index op rest (t.setPlayback id (.shown index op rest))

theorem settle_play {s : Session} {id : Nat} (now : Timestamp) (time : Float) (index : Nat)
    (op : Operation) (rest : List Operation) (h : id < s.playbacks.length) :
    Played s id index op rest (settle (s.play now id index op rest) now id time).session := by
  have hattempted := s.makeStep_attempted now index
  cases hresult : (s.makeStep now index).result with
  | error fault =>
      obtain ⟨hsession, hfailed⟩ := play_of_fault id op rest hresult
      rw [settle_of_ne now id time (by simp [hfailed]), hsession]
      exact .failed hattempted
  | ok snapshot =>
      cases hop : op.isFinish with
      | true =>
          obtain ⟨hsession, hclock⟩ := play_of_isFinish id rest hresult hop
          have hid : id < (s.makeStep now index).session.playbacks.length := by
            rwa [hattempted.playbacks]
          rw [settle_of_readClock now id time hclock, hsession, (closeAt_complete now time _ _ hid).1]
          exact .finished hattempted hop
      | false =>
          obtain ⟨hsession, hshown⟩ := play_of_snapshot id rest hresult hop
          rw [settle_of_ne now id time (by simp [hshown]), hsession]
          refine .shown hattempted ?_ hop
          intro hnone
          rw [makeStep_of_none hnone] at hresult
          cases hresult

/-- The session after a playback has come to what is left of its operations. -/
inductive Proceeded (s : Session) (id index : Nat) : List Operation → Session → Prop
  | exhausted {now : Timestamp} {time : Float} : Proceeded s id index [] (s.completed now id time)
  | stopped {op : Operation} {rest : List Operation} (h : s.stopRequested = true) :
      Proceeded s id index (op :: rest) (s.setPlayback id .finished).halt.session
  | approaching {op : Operation} {rest : List Operation} (h : s.stopRequested = false)
      (hop : op.hole?.isSome = true) :
      Proceeded s id index (op :: rest) (s.setPlayback id (.approaching index op rest))
  | played {t : Session} {op : Operation} {rest : List Operation} (h : s.stopRequested = false)
      (hop : op.hole?.isSome = false) (ht : Played s id index op rest t) :
      Proceeded s id index (op :: rest) t

theorem proceed_of_stop {s : Session} (now : Timestamp) (id index : Nat)
    (last : Option Operation) (op : Operation) (rest : List Operation)
    (hstop : s.stopRequested = true) :
    (s.proceed now id index last (op :: rest)).session = (s.setPlayback id .finished).halt.session ∧
      (s.proceed now id index last (op :: rest)).result = .ended := by
  simp [proceed, hstop]

theorem proceed_of_hit {s : Session} {op : Operation} (now : Timestamp) (id index : Nat)
    (last : Option Operation) (rest : List Operation)
    (hstop : s.stopRequested = false) (hop : op.hole?.isSome = true) :
    s.proceed now id index last (op :: rest) =
      ⟨s.setPlayback id (.approaching index op rest), [], .wait (s.interval / 2000.0)⟩ := by
  simp [proceed, hstop, hop]

theorem proceed_of_other {s : Session} {op : Operation} (now : Timestamp) (id index : Nat)
    (last : Option Operation) (rest : List Operation)
    (hstop : s.stopRequested = false) (hop : op.hole?.isSome = false) :
    s.proceed now id index last (op :: rest) = s.play now id index op rest := by
  simp [proceed, hstop, hop]

theorem settle_proceed {s : Session} {id : Nat} (now : Timestamp) (time : Float) (index : Nat)
    (last : Option Operation) (rest : List Operation) (h : id < s.playbacks.length) :
    Proceeded s id index rest (settle (s.proceed now id index last rest) now id time).session := by
  cases rest with
  | nil =>
      have hcompleted := (closeAt_complete now time last none h).1
      rw [settle_of_readClock now id time rfl]
      exact hcompleted ▸ .exhausted
  | cons op rest =>
      cases hstop : s.stopRequested with
      | true =>
          obtain ⟨hsession, hended⟩ := proceed_of_stop now id index last op rest hstop
          rw [settle_of_ne now id time (by simp [hended]), hsession]
          exact .stopped hstop
      | false =>
          cases hop : op.hole?.isSome with
          | true =>
              rw [proceed_of_hit now id index last rest hstop hop]
              exact .approaching hstop hop
          | false =>
              rw [proceed_of_other now id index last rest hstop hop]
              exact .played hstop hop (settle_play now time index op rest h)

/-- The session after a playback was asked for a step or has gone on. -/
inductive Turned (s : Session) (id : Nat) : Session → Prop
  | kept : Turned s id s
  | begun {t : Session} (h : s.playbacks[id]? = some .created)
      (ht : Proceeded s id 0 s.operations t) : Turned s id t
  | rested {index : Nat} {op : Operation} {rest : List Operation}
      (h : s.playbacks[id]? = some (.shown index op rest)) :
      Turned s id (s.setPlayback id (.resting index op rest))
  | resumed {t : Session} {index : Nat} {op : Operation} {rest : List Operation}
      (h : s.playbacks[id]? = some (.resting index op rest))
      (ht : Proceeded s id (index + 1) rest t) : Turned s id t
  | struck {t : Session} {index : Nat} {op : Operation} {rest : List Operation}
      (h : s.playbacks[id]? = some (.approaching index op rest))
      (ht : Played s id index op rest t) : Turned s id t
  | ended (h : s.playbacks[id]? = some .reported) : Turned s id (s.abandoned id)

theorem id_lt_length {s : Session} {id : Nat} {playback : Playback}
    (h : s.playbacks[id]? = some playback) : id < s.playbacks.length :=
  (List.getElem?_eq_some_iff.mp h).1

theorem settle_pull (s : Session) (now : Timestamp) (id : Nat) (time : Float) :
    Turned s id (settle (s.pull now id) now id time).session := by
  unfold pull
  cases h : s.playbacks[id]? with
  | none => exact .kept
  | some playback =>
      cases playback with
      | created => exact .begun h (settle_proceed now time 0 none s.operations (id_lt_length h))
      | shown index op rest => exact .rested h
      | reported => exact .ended h
      | approaching | resting | closing | finished => exact .kept

theorem settle_resume (s : Session) (now : Timestamp) (id : Nat) (time : Float) :
    Turned s id (settle (s.resume now id) now id time).session := by
  unfold resume
  cases h : s.playbacks[id]? with
  | none => exact .kept
  | some playback =>
      cases playback with
      | approaching index op rest =>
          exact .struck h (settle_play now time index op rest (id_lt_length h))
      | resting index op rest =>
          exact .resumed h (settle_proceed now time (index + 1) (some op) rest (id_lt_length h))
      | created | shown | closing | reported | finished => exact .kept

/-- The session after a playback was closed. -/
inductive Closed (s : Session) (id : Nat) : Session → Prop
  | kept (h : s.isOpen id = false) : Closed s id s
  | unused (h : s.playbacks[id]? = some .created) : Closed s id (s.setPlayback id .finished)
  | abandoned (h : s.isOpen id = true) : Closed s id (s.abandoned id)

theorem closePlayback_closed (s : Session) (id : Nat) :
    Closed s id (s.closePlayback id).session := by
  unfold closePlayback
  cases h : s.playbacks[id]? with
  | none => exact .kept (by simp [isOpen, h])
  | some playback =>
      cases playback with
      | created => exact .unused h
      | shown | reported => exact .abandoned (by simp [isOpen, h, Playback.isBusy])
      | approaching | resting | closing | finished =>
          exact .kept (by simp [isOpen, h, Playback.isBusy])

theorem abandoned_eq_halt {s : Session} (id : Nat) (hrunning : s.phase = .running) :
    s.abandoned id = (s.setPlayback id .finished).halt.session := by
  have hsame : (s.setPlayback id .finished).isRunning = true := isRunning_iff.mpr hrunning
  rw [abandoned, haltIfRunning, if_pos hsame]

theorem abandoned_eq_setPlayback {s : Session} (id : Nat) (hidle : s.phase ≠ .running) :
    s.abandoned id = s.setPlayback id .finished := by
  have hsame : ¬ (s.setPlayback id .finished).isRunning = true :=
    fun hrunning => hidle (isRunning_iff.mp hrunning)
  rw [abandoned, haltIfRunning, if_neg hsame]

theorem phase_abandoned (s : Session) (id : Nat) : (s.abandoned id).phase ≠ .running := by
  by_cases hrunning : s.phase = .running
  · rw [abandoned_eq_halt id hrunning]
    exact Phase.noConfusion
  · rw [abandoned_eq_setPlayback id hrunning]
    exact hrunning

/-- To close a playback that is open, and then the run if it is still active, ends both. -/
theorem Closed.haltIfRunning_of_isOpen {s t : Session} {id : Nat} (h : Closed s id t)
    (hopen : s.isOpen id = true) : t.haltIfRunning.session = s.abandoned id := by
  cases h with
  | kept hbusy => cases hopen.symm.trans hbusy
  | unused => rfl
  | abandoned =>
      unfold haltIfRunning
      rw [if_neg (fun hrunning => s.phase_abandoned id (isRunning_iff.mp hrunning))]

/-- The session in which a stop is requested. -/
def stopping (s : Session) : Session := { s with stopRequested := true }

theorem stop_cases (s : Session) :
    s.stop.session = s ∨ s.phase = .running ∧ (s.stop.session = s.stopping ∨
      ∃ id t, s.current = some id ∧ s.isOpen id = true ∧ Closed s.stopping id t ∧
        s.stop.session = t.haltIfRunning.session) := by
  unfold stop
  split
  · next hrunning =>
    right
    refine ⟨isRunning_iff.mp hrunning, ?_⟩
    dsimp only
    split
    · left
      rfl
    · next id hid =>
      right
      obtain ⟨hcurrent, hopen⟩ := Option.filter_eq_some_iff.mp hid
      exact ⟨id, _, hcurrent, hopen, closePlayback_closed s.stopping id, rfl⟩
  · left
    rfl

/-- The session after an event. -/
inductive Happened (s : Session) : Event → Session → Prop
  | kept {e : Event} : Happened s e s
  | loaded {text : Text.Points} {program : Program} (hidle : s.phase ≠ .running)
      (hread : Program.ofText s.tooling text = .ok program) :
      Happened s (.load text) (s.accept program text).session
  | loadedProgram {program : Program} (hidle : s.phase ≠ .running) :
      Happened s (.loadProgram program) (s.accept program "").session
  | launched {time : Float} {program : Program} (hidle : s.phase ≠ .running)
      (hprogram : s.program = some program) (herrors : program.errors = []) :
      Happened s (.run time) (s.launched time)
  | pulled {id : Nat} {now : Timestamp} {time : Float} {t : Session} (ht : Turned s id t) :
      Happened s (.pull id now time) t
  | resumed {id : Nat} {now : Timestamp} {time : Float} {t : Session} (ht : Turned s id t) :
      Happened s (.resume id now time) t
  | closed {id : Nat} {t : Session} (ht : Closed s id t) : Happened s (.close id) t
  | stopping (hrunning : s.phase = .running) : Happened s .stop s.stopping
  | stopped {id : Nat} {t : Session} (hrunning : s.phase = .running) (hid : s.current = some id)
      (hopen : s.isOpen id = true) (ht : Closed s.stopping id t) :
      Happened s .stop t.haltIfRunning.session
  | cleared (hidle : s.phase ≠ .running) : Happened s .reset s.cleared
  | sought {step : Int} {index : Nat} {op : Operation} {out : Bool} (hidle : s.phase ≠ .running)
      (hop : s.operations[index]? = some op) : Happened s (.seek step) (s.soughtTo index op out)

theorem after_happened (s : Session) (e : Event) : Happened s e (s.after e) := by
  cases e with
  | load text =>
      rcases s.load_cases text with hsame | ⟨hidle, program, hread, haccepted⟩
      · rw [after, hsame]
        exact .kept
      · rw [after, haccepted]
        exact .loaded hidle hread
  | loadProgram program =>
      rw [after, loadProgram]
      split
      · exact .kept
      · next hidle => exact .loadedProgram (phase_ne_running hidle)
  | run time =>
      rcases s.startedAt_cases time with hsame | ⟨hidle, program, hprogram, herrors, hlaunched⟩
      · rw [after, hsame]
        exact .kept
      · rw [after, hlaunched]
        exact .launched hidle hprogram herrors
  | pull id now time => exact .pulled (s.settle_pull now id time)
  | resume id now time => exact .resumed (s.settle_resume now id time)
  | close id => exact .closed (s.closePlayback_closed id)
  | stop =>
      rcases s.stop_cases with hsame | ⟨hrunning, hstopping | ⟨id, t, hid, hopen, ht, hstopped⟩⟩
      · rw [after, hsame]
        exact .kept
      · rw [after, hstopping]
        exact .stopping hrunning
      · rw [after, hstopped]
        exact .stopped hrunning hid hopen ht
  | reset =>
      rw [after, reset]
      split
      · exact .kept
      · next hidle => exact .cleared (phase_ne_running hidle)
  | seek step =>
      rcases s.seek_cases step with hsame | ⟨hidle, index, op, out, hop, hsought⟩
      · rw [after, hsame]
        exact .kept
      · rw [after, hsought]
        exact .sought hidle hop

end TurretPunch.Session
