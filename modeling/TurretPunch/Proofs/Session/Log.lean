import TurretPunch.Proofs.Program.Tooling
import TurretPunch.Proofs.Session.Turn

namespace TurretPunch

/-!
# The log

The log starts afresh with a load, a run or a reset that is not refused, and each operation that is made
after that puts a line into it. It keeps the last lines there is room for.
-/

/-- A line tells of an operation: its place in the program, where a motion goes and with which tool, and
the size of a hit. -/
structure LogEntry.IsOf (entry : LogEntry) (op : Operation) : Prop where
  line : entry.line = op.line + 1
  position : entry.position = op.target?
  tool : ∀ tool, op.tool? = some tool → entry.tool = some tool
  diameter : entry.diameter = op.hole?.map (·.diameter)

theorem LogEntry.isOf_ofOperation (turret : Turret) (time : Timestamp) (op : Operation) :
    (ofOperation turret time op).IsOf op := by
  cases op with
  | toolChange | finish => exact ⟨rfl, rfl, nofun, rfl⟩
  | move | hit => exact ⟨rfl, rfl, fun _ h => h, rfl⟩

/-- The line that a notice tells of. -/
def Notice.logged? : Notice → Option LogEntry
  | stepped entry => some entry
  | _ => none

theorem length_lastItems {α : Type} (room : Nat) (items : List α) :
    (lastItems room items).length = min room items.length := by
  rw [lastItems, List.length_drop]
  omega

/-- What is dropped for want of room is not missed later. -/
theorem lastItems_concat {α : Type} (room : Nat) (items : List α) (item : α) :
    lastItems room (lastItems room items ++ [item]) = lastItems room (items ++ [item]) := by
  have hdrop : lastItems room items ++ [item] = (items ++ [item]).drop (items.length - room) := by
    rw [lastItems, List.drop_append_of_le_length (Nat.sub_le _ _)]
  rw [hdrop, lastItems, lastItems, List.drop_drop]
  congr 1
  simp only [List.length_drop, List.length_append, List.length_singleton]
  omega

namespace Session

variable {s : Session} {now : Timestamp} {id index : Nat} {α β : Type}

/-- An operation that is made, and when. -/
structure Step where
  op : Operation
  time : Timestamp

/-- The line for a step. -/
def Step.entry (turret : Turret) (step : Step) : LogEntry := .ofOperation turret step.time step.op

/-- The operation of the loaded program at an index, as a step. -/
def stepAt (s : Session) (now : Timestamp) (index : Nat) : Option Step :=
  s.operations[index]?.map fun op => ⟨op, now⟩

/-- The step that a playback makes at once when it comes to operations: none if a stop was requested, or
if it waits before a hit. -/
def stepBefore (s : Session) (now : Timestamp) (index : Nat) : List Operation → Option Step
  | [] => none
  | op :: _ => if s.stopRequested || op.hole?.isSome then none else s.stepAt now index

/-- The step that a playback makes when it is asked for one. -/
def stepPulled (s : Session) (id : Nat) (now : Timestamp) : Option Step :=
  match s.playbacks[id]? with
  | some .created => s.stepBefore now 0 s.operations
  | _ => none

/-- The step that a playback makes when it has waited. -/
def stepResumed (s : Session) (id : Nat) (now : Timestamp) : Option Step :=
  match s.playbacks[id]? with
  | some (.approaching index _ _) => s.stepAt now index
  | some (.resting index _ rest) => s.stepBefore now (index + 1) rest
  | _ => none

/-- The step that is made in an event, if one is. -/
def stepMade (s : Session) : Event → Option Step
  | .pull id now _ => s.stepPulled id now
  | .resume id now _ => s.stepResumed id now
  | _ => none

/-- Whether an event is a load, a run or a reset that is not refused. -/
def startsAfresh (s : Session) : Event → Bool
  | .load text => !s.isRunning && (Program.ofText s.tooling text).isOk
  | .loadProgram _ => !s.isRunning
  | .run _ => s.start.result
  | .reset => !s.isRunning
  | _ => false

/-- The steps since the last fresh start, if there were some already before the events. -/
def stepsAfter (s : Session) (steps : List Step) : List Event → List Step
  | [] => steps
  | e :: es =>
    (s.after e).stepsAfter (if s.startsAfresh e then [] else steps ++ (s.stepMade e).toList) es

/-- The log with one more line, if a step is made. -/
def logWith (s : Session) : Option Step → List LogEntry
  | none => s.press.log
  | some step => lastItems s.logRoom (s.press.log ++ [step.entry s.turret])

/-- A reply logs a step, if there is one, and tells of it. -/
structure Logs (s : Session) (made : Option Step) (reply : Reply α) : Prop where
  turret : reply.session.turret = s.turret
  room : reply.session.logRoom = s.logRoom
  log : reply.session.press.log = s.logWith made
  told : reply.notices.filterMap Notice.logged? = (made.map (·.entry s.turret)).toList

theorem log_pressAfter (s : Session) (index : Nat) (op : Operation) (entry : LogEntry) :
    (s.pressAfter index op entry).log = lastItems s.logRoom (s.press.log ++ [entry]) := by
  cases op <;> rfl

theorem logs_makeStep (s : Session) (now : Timestamp) (index : Nat) :
    Logs s (s.stepAt now index) (s.makeStep now index) := by
  unfold makeStep stepAt
  cases hop : s.operations[index]? with
  | none => exact ⟨rfl, rfl, rfl, rfl⟩
  | some op =>
      have hlog := s.log_pressAfter index op (.ofOperation s.turret now op)
      dsimp only
      split
      · exact ⟨rfl, rfl, hlog, rfl⟩
      · split
        · exact ⟨rfl, rfl, hlog, rfl⟩
        · refine ⟨rfl, rfl, hlog, ?_⟩
          split <;> rfl

/-- A reply that goes on after another one: the run may have ended, and a playback has got further. -/
structure Extends (reply : Reply α) (next : Reply β) : Prop where
  session : ∃ running phase playbacks, next.session =
    { reply.session with press := { reply.session.press with running }, phase, playbacks }
  notices : ∃ told, next.notices = reply.notices ++ told ∧ ∀ notice ∈ told, ∃ step, notice = .runStopped step

theorem extends_haltIfRunning (s : Session) : Extends (⟨s, [], ()⟩ : Reply Unit) s.haltIfRunning := by
  unfold haltIfRunning
  split
  · refine ⟨⟨false, .stopped, s.playbacks, rfl⟩, _, rfl, fun notice hnotice => ?_⟩
    exact ⟨s.press.step, List.mem_singleton.mp hnotice⟩
  · exact ⟨⟨s.press.running, s.phase, s.playbacks, rfl⟩, [], rfl, nofun⟩

theorem extends_finishPlayback (s : Session) (id : Nat) (outcome : Outcome) :
    Extends (⟨s, [], ()⟩ : Reply Unit) (s.finishPlayback id outcome) := by
  obtain ⟨⟨running, phase, playbacks, hsession⟩, htold⟩ :=
    (s.setPlayback id .finished).extends_haltIfRunning
  exact ⟨⟨running, phase, playbacks, hsession⟩, htold⟩

/-- What goes on from where a reply left the session goes on after the reply. -/
theorem Extends.after {reply : Reply α} {next : Reply β}
    (h : Extends (⟨reply.session, [], ()⟩ : Reply Unit) next) :
    Extends reply ⟨next.session, reply.notices ++ next.notices, next.result⟩ := by
  obtain ⟨hsession, told, hnotices, htold⟩ := h
  exact ⟨hsession, told, congrArg _ hnotices, htold⟩

/-- What a playback does at an operation beyond making it is not seen in the log. -/
theorem extends_play (s : Session) (now : Timestamp) (id index : Nat) (op : Operation)
    (rest : List Operation) : Extends (s.makeStep now index) (s.play now id index op rest) := by
  unfold play
  dsimp only
  cases (s.makeStep now index).result with
  | error fault => exact ((s.makeStep now index).session.extends_finishPlayback id (.failed fault)).after
  | ok snapshot =>
      dsimp only
      split
      · exact ⟨⟨false, .completed, _, rfl⟩, [], rfl, nofun⟩
      · exact ⟨⟨_, _, _, rfl⟩, [], rfl, nofun⟩

theorem Logs.extends {made : Option Step} {reply : Reply α} {next : Reply β} (h : Logs s made reply)
    (hnext : Extends reply next) : Logs s made next := by
  obtain ⟨⟨running, phase, playbacks, hsession⟩, told, hnotices, htold⟩ := hnext
  have hnone : told.filterMap Notice.logged? = [] := by
    refine List.filterMap_eq_nil_iff.mpr fun notice hnotice => ?_
    obtain ⟨step, rfl⟩ := htold notice hnotice
    rfl
  refine ⟨?_, ?_, ?_, ?_⟩
  · rw [hsession, ← h.turret]
  · rw [hsession, ← h.room]
  · rw [hsession, ← h.log]
  · rw [hnotices, List.filterMap_append, hnone, List.append_nil, h.told]

theorem logs_nothing (s : Session) : Logs s none (⟨s, [], ()⟩ : Reply Unit) := ⟨rfl, rfl, rfl, rfl⟩

theorem logs_finishPlayback (s : Session) (id : Nat) (outcome : Outcome) :
    Logs s none (s.finishPlayback id outcome) :=
  s.logs_nothing.extends (s.extends_finishPlayback id outcome)

theorem logs_play (s : Session) (now : Timestamp) (id index : Nat) (op : Operation)
    (rest : List Operation) : Logs s (s.stepAt now index) (s.play now id index op rest) :=
  (s.logs_makeStep now index).extends (s.extends_play now id index op rest)

theorem logs_proceed (s : Session) (now : Timestamp) (id index : Nat) (last : Option Operation)
    (ops : List Operation) :
    Logs s (s.stepBefore now index ops) (s.proceed now id index last ops) := by
  cases ops with
  | nil => exact ⟨rfl, rfl, rfl, rfl⟩
  | cons op rest =>
      cases hstop : s.stopRequested with
      | true =>
          simp only [proceed, stepBefore, hstop, Bool.true_or, if_true]
          exact ⟨rfl, rfl, rfl, rfl⟩
      | false =>
          cases hop : op.hole?.isSome with
          | true =>
              rw [proceed_of_hit now id index last rest hstop hop, stepBefore, hstop, hop]
              exact ⟨rfl, rfl, rfl, rfl⟩
          | false =>
              rw [proceed_of_other now id index last rest hstop hop, stepBefore, hstop, hop]
              exact s.logs_play now id index op rest

/-- A playback that gets the time does no more than give a report. -/
theorem settle_cases (reply : Reply Outcome) (now : Timestamp) (id : Nat) (time : Float) :
    ∃ report playbacks, (settle reply now id time).session = { reply.session with report, playbacks } := by
  unfold settle
  split
  · unfold closeAt
    split <;> exact ⟨_, _, rfl⟩
  · exact ⟨_, _, rfl⟩

theorem logs_pull (s : Session) (id : Nat) (now : Timestamp) :
    Logs s (s.stepPulled id now) (s.pull now id) := by
  unfold stepPulled pull
  cases s.playbacks[id]? with
  | none => exact ⟨rfl, rfl, rfl, rfl⟩
  | some playback =>
      cases playback with
      | created => exact s.logs_proceed now id 0 none s.operations
      | reported => exact s.logs_finishPlayback id .ended
      | approaching | shown | resting | closing | finished => exact ⟨rfl, rfl, rfl, rfl⟩

theorem logs_resume (s : Session) (id : Nat) (now : Timestamp) :
    Logs s (s.stepResumed id now) (s.resume now id) := by
  unfold stepResumed resume
  cases s.playbacks[id]? with
  | none => exact ⟨rfl, rfl, rfl, rfl⟩
  | some playback =>
      cases playback with
      | approaching index op rest => exact s.logs_play now id index op rest
      | resting index op rest => exact s.logs_proceed now id (index + 1) (some op) rest
      | created | shown | closing | reported | finished => exact ⟨rfl, rfl, rfl, rfl⟩

theorem logs_closePlayback (s : Session) (id : Nat) : Logs s none (s.closePlayback id) := by
  unfold closePlayback
  cases s.playbacks[id]? with
  | none => exact ⟨rfl, rfl, rfl, rfl⟩
  | some playback =>
      cases playback with
      | shown | reported => exact s.logs_finishPlayback id .ended
      | created | approaching | resting | closing | finished => exact ⟨rfl, rfl, rfl, rfl⟩

theorem logs_stop (s : Session) : Logs s none s.stop := by
  unfold stop
  split
  · dsimp only
    split
    · exact ⟨rfl, rfl, rfl, rfl⟩
    · next id _ =>
      obtain ⟨hturret, hroom, hlog, htold⟩ := s.stopping.logs_closePlayback id
      have hclosed : Logs s none (s.stopping.closePlayback id) := ⟨hturret, hroom, hlog, htold⟩
      have hhalted := hclosed.extends (s.stopping.closePlayback id).session.extends_haltIfRunning.after
      exact ⟨hhalted.turret, hhalted.room, hhalted.log, hhalted.told⟩
  · exact ⟨rfl, rfl, rfl, rfl⟩

/-- The log after an event, on the same turret and with the same room. -/
theorem log_after (s : Session) (e : Event) :
    (s.after e).turret = s.turret ∧ (s.after e).logRoom = s.logRoom ∧
      (s.after e).press.log = if s.startsAfresh e then [] else s.logWith (s.stepMade e) := by
  cases e with
  | load text =>
      rw [after, load, startsAfresh]
      cases s.isRunning with
      | true => exact ⟨rfl, rfl, rfl⟩
      | false =>
          cases Program.ofText s.tooling text with
          | error fault => exact ⟨rfl, rfl, rfl⟩
          | ok program => exact ⟨rfl, rfl, rfl⟩
  | loadProgram program =>
      rw [after, loadProgram, startsAfresh]
      cases s.isRunning with
      | true => exact ⟨rfl, rfl, rfl⟩
      | false => exact ⟨rfl, rfl, rfl⟩
  | reset =>
      rw [after, reset, startsAfresh]
      cases s.isRunning with
      | true => exact ⟨rfl, rfl, rfl⟩
      | false => exact ⟨rfl, rfl, rfl⟩
  | run time =>
      rw [after, startedAt, startsAfresh]
      rcases s.start_cases with ⟨hrefused, hsame⟩ | ⟨hidle, program, hprogram, herrors⟩
      · rw [hrefused, hsame]
        exact ⟨rfl, rfl, rfl⟩
      · rw [start_of_ready hidle hprogram herrors]
        exact ⟨rfl, rfl, rfl⟩
  | pull id now time =>
      have hlogs := s.logs_pull id now
      obtain ⟨report, playbacks, hsettled⟩ := settle_cases (s.pull now id) now id time
      rw [after, hsettled]
      exact ⟨hlogs.turret, hlogs.room, hlogs.log⟩
  | resume id now time =>
      have hlogs := s.logs_resume id now
      obtain ⟨report, playbacks, hsettled⟩ := settle_cases (s.resume now id) now id time
      rw [after, hsettled]
      exact ⟨hlogs.turret, hlogs.room, hlogs.log⟩
  | close id =>
      have hlogs := s.logs_closePlayback id
      exact ⟨hlogs.turret, hlogs.room, hlogs.log⟩
  | stop => exact ⟨s.logs_stop.turret, s.logs_stop.room, s.logs_stop.log⟩
  | seek step =>
      rw [after]
      rcases s.seek_cases step with hsame | ⟨_, index, op, out, _, hsought⟩
      · rw [hsame]
        exact ⟨rfl, rfl, rfl⟩
      · rw [hsought]
        exact ⟨rfl, rfl, rfl⟩

/-- If the log has the last lines of some steps, it has the last lines of those and of one more. -/
theorem logWith_of_eq {steps : List Step}
    (h : s.press.log = lastItems s.logRoom (steps.map (·.entry s.turret))) (made : Option Step) :
    s.logWith made = lastItems s.logRoom ((steps ++ made.toList).map (·.entry s.turret)) := by
  cases made with
  | none =>
      rw [Option.toList_none, List.append_nil]
      exact h
  | some step =>
      rw [logWith, h, lastItems_concat, Option.toList_some, List.map_append, List.map_singleton]

theorem turret_foldl (es : List Event) : (es.foldl after s).turret = s.turret := by
  induction es generalizing s with
  | nil => rfl
  | cons e es ih => exact ih.trans (s.log_after e).1

/-- The log after events, of those steps that it had room for before and those that were made since. -/
theorem log_foldl {steps : List Step} (es : List Event)
    (h : s.press.log = lastItems s.logRoom (steps.map (·.entry s.turret))) :
    (es.foldl after s).press.log = lastItems s.logRoom ((s.stepsAfter steps es).map (·.entry s.turret)) := by
  induction es generalizing s steps with
  | nil => exact h
  | cons e es ih =>
      obtain ⟨hturret, hroom, hlog⟩ := s.log_after e
      rw [List.foldl_cons, stepsAfter, ← hturret, ← hroom]
      apply ih
      rw [hlog, hturret, hroom]
      split
      · exact List.drop_nil.symm
      · exact logWith_of_eq h _

/-- Whatever happens to a fresh session, its log has the last lines that there is room for, of the steps
since the last load, run or reset that was not refused: one line for each, in their order, and each line
tells of its operation. A seek does not change it. What a playback tells while it makes a step is that
line, and it tells of no other one. -/
theorem log_is_recent_suffix (turret : Turret) (sheet : Sheet) (interval : Float) (fallback : Quantity)
    (room : Nat) (es : List Event) :
    let fresh : Session := { turret, sheet, interval, fallback, logRoom := room }
    let s := es.foldl after fresh
    let steps := fresh.stepsAfter [] es
    s.press.log = lastItems room (steps.map (·.entry turret)) ∧
      s.press.log.length = min room steps.length ∧
      (∀ step ∈ steps, (step.entry turret).IsOf step.op) ∧
      (∀ index, (s.after (.seek index)).press.log = s.press.log) ∧
      ∀ id now,
        (s.pull now id).notices.filterMap (·.logged?) =
            ((s.stepPulled id now).map (·.entry turret)).toList ∧
          (s.resume now id).notices.filterMap (·.logged?) =
            ((s.stepResumed id now).map (·.entry turret)).toList := by
  intro fresh s steps
  have hlog : s.press.log = lastItems room (steps.map (·.entry turret)) :=
    @log_foldl fresh [] es (List.drop_nil).symm
  have hturret : s.turret = turret := turret_foldl es
  refine ⟨hlog, ?_, fun step _ => LogEntry.isOf_ofOperation turret step.time step.op, fun index => ?_,
    fun id now => ?_⟩
  · rw [hlog, length_lastItems, List.length_map]
  · exact (s.log_after (.seek index)).2.2
  · rw [← hturret]
    exact ⟨(s.logs_pull id now).told, (s.logs_resume id now).told⟩

end Session

end TurretPunch
