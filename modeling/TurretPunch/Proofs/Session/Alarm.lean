import TurretPunch.Proofs.Session.Log
import TurretPunch.Proofs.Session.Schedule

namespace TurretPunch

/-!
# Alarms

The press has a flag that says whether the tool left the sheet in the last step. A run gives an alarm
where the flag goes up, so that there is one for each stretch of steps outside the sheet, however long
it is. The flag is down when a run starts, whatever was shown before, and its end leaves it as it is.
-/

/-- Whether a notice tells that the tool leaves the sheet. -/
def Notice.isAlarm : Notice → Bool
  | leftSheet .. => true
  | _ => false

/-- The alarm about the last one of some operations, which is `op`. -/
def Setup.alarm (setup : Setup) (ops : List Operation) (op : Operation) : Notice :=
  .leftSheet (Trail.tool ops) setup.sheet (Trail.position ops).1 (Trail.position ops).2 op.line

/-- An operation is made in a run if it stands before the end and the bounds test has an answer at it and
at all operations before it. -/
def Setup.Makes (setup : Setup) (ops : List Operation) (index : Nat) : Prop :=
  index < ops.findIdx (·.isFinish) ∧ ∀ j ≤ index, ∃ out, setup.outAfter (ops.take (j + 1)) = .ok out

/-- The longest stretches of flags that are up: what is left between those that are down. -/
def stretches (flags : List Bool) : List (List Bool) := (flags.splitOn false).filter (· ≠ [])

/-- How often a flag goes up that was `before` at first. -/
def rises (before : Bool) : List Bool → Nat
  | [] => 0
  | flag :: flags => (if flag && !before then 1 else 0) + rises flag flags

theorem rises_of_still {before : Bool} {flags : List Bool} (h : ∀ flag ∈ flags, flag = before) :
    rises before flags = 0 := by
  induction flags with
  | nil => rfl
  | cons flag flags ih =>
      obtain ⟨rfl, hrest⟩ := List.forall_mem_cons.mp h
      rw [rises, ih hrest, Bool.and_not_self]
      rfl

/-- If the flag was up at first, the stretch that it was up in is not counted. -/
theorem rises_eq (flags : List Bool) :
    rises false flags = (stretches flags).length ∧
      rises true flags = ((flags.splitOn false).tail.filter (· ≠ [])).length := by
  induction flags with
  | nil => exact ⟨rfl, rfl⟩
  | cons flag flags ih =>
      obtain ⟨hdown, hup⟩ := ih
      cases flag with
      | false =>
          have hsplit : (false :: flags).splitOn false = [] :: flags.splitOn false :=
            List.splitOnP_cons_eq_if_modifyHead false flags
          rw [stretches, hsplit]
          simp [rises, hdown, stretches]
      | true =>
          have hsplit : (true :: flags).splitOn false = (flags.splitOn false).modifyHead (true :: ·) :=
            List.splitOnP_cons_eq_if_modifyHead true flags
          rw [stretches, hsplit]
          cases hpieces : flags.splitOn false with
          | nil => exact absurd hpieces (List.splitOnP_ne_nil _ _)
          | cons piece pieces =>
              rw [hpieces, List.tail_cons] at hup
              simp [rises, hup, Nat.add_comm]

namespace Session

variable {s : Session} {now : Timestamp} {id index : Nat} {op : Operation} {rest : List Operation}
  {flag out : Bool} {alarms : List Notice} {α β : Type}

/-- A reply leaves the flag like this, and gives these alarms. -/
structure Signals (flag : Bool) (alarms : List Notice) (reply : Reply α) : Prop where
  flag : reply.session.press.outOfBounds = flag
  alarms : reply.notices.filter (·.isAlarm) = alarms

theorem Signals.extends {reply : Reply α} {next : Reply β} (h : Signals flag alarms reply)
    (hnext : Extends reply next) : Signals flag alarms next := by
  obtain ⟨⟨running, phase, playbacks, hsession⟩, told, hnotices, htold⟩ := hnext
  have hnone : told.filter (·.isAlarm) = [] := by
    refine List.filter_eq_nil_iff.mpr fun notice hnotice => ?_
    obtain ⟨step, rfl⟩ := htold notice hnotice
    exact Bool.noConfusion
  refine ⟨?_, ?_⟩
  · rw [hsession, ← h.flag]
  · rw [hnotices, List.filter_append, hnone, List.append_nil, h.alarms]

theorem signals_makeStep (now : Timestamp) (hop : s.operations[index]? = some op)
    (hfinish : op.isFinish = false)
    (htest : (s.stepped now index op s.press.outOfBounds).pressLeaves = .ok out) :
    Signals out
      (if out && !s.press.outOfBounds then
        [.leftSheet (s.stepped now index op out).press.tool s.sheet
          (s.stepped now index op out).press.x (s.stepped now index op out).press.y op.line]
      else [])
      (s.makeStep now index) := by
  have hmoved : pressLeaves { s with press := s.pressAfter index op (.ofOperation s.turret now op) } =
      .ok out := htest
  have hgoes : ¬ op.isFinish = true := by simp [hfinish]
  unfold makeStep
  rw [hop]
  dsimp only
  rw [if_neg hgoes, hmoved]
  refine ⟨rfl, ?_⟩
  dsimp only
  cases out && !s.press.outOfBounds <;> rfl

/-- The end of a program, and an operation that the test has no answer for, leave the flag alone. -/
theorem signals_makeStep_of_silent (hop : s.operations[index]? = some op)
    (hsilent : op.isFinish = true ∨
      ∃ fault, (s.stepped now index op s.press.outOfBounds).pressLeaves = .error fault) :
    Signals s.press.outOfBounds [] (s.makeStep now index) := by
  let moved := { s with press := s.pressAfter index op (.ofOperation s.turret now op) }
  have hflag : moved.press.outOfBounds = s.press.outOfBounds := by cases op <;> rfl
  unfold makeStep
  rw [hop]
  dsimp only
  rcases hsilent with hfinish | ⟨fault, hfault⟩
  · rw [if_pos hfinish]
    exact ⟨hflag, rfl⟩
  · have hmoved : moved.pressLeaves = .error fault := hfault
    rw [hmoved]
    split <;> exact ⟨hflag, rfl⟩

/-- A playback that arrives at an operation signals what the test says, in an alarm only if the flag
goes up. -/
theorem Undisturbed.signals_arrive (h : s.Undisturbed index (op :: rest))
    (hop : op.isFinish = false)
    (htest : s.setup.outAfter (s.operations.take (index + 1)) = .ok out) (last : Option Operation) :
    Signals out
      (if out && !s.press.outOfBounds then [s.setup.alarm (s.operations.take (index + 1)) op] else [])
      (s.arrive now id index last (op :: rest)) := by
  have hshows := (h.toPlaying.stepped now out).shows
  have hposition : ((s.stepped now index op out).press.x, (s.stepped now index op out).press.y) =
      Trail.position (s.operations.take (index + 1)) := hshows.position
  have htool : (s.stepped now index op out).press.tool = Trail.tool (s.operations.take (index + 1)) :=
    hshows.tool
  have hstep := signals_makeStep now h.getElem? hop
    ((h.pressLeaves_stepped now s.press.outOfBounds).trans htest)
  obtain ⟨hx, hy⟩ := Prod.ext_iff.mp hposition
  dsimp only at hx hy
  rw [htool, hx, hy] at hstep
  exact hstep.extends (s.extends_play now id index op rest)

theorem Undisturbed.signals_arrive_over (h : s.Undisturbed index rest)
    (hover : 0 < rest.findIdx (·.isFinish) →
      ∃ fault, s.setup.outAfter (s.operations.take (index + 1)) = .error fault)
    (last : Option Operation) :
    Signals s.press.outOfBounds [] (s.arrive now id index last rest) := by
  cases rest with
  | nil => exact ⟨rfl, rfl⟩
  | cons op rest =>
      have hstep : Signals s.press.outOfBounds [] (s.makeStep now index) := by
        apply signals_makeStep_of_silent h.getElem?
        cases hop : op.isFinish with
        | true => exact Or.inl rfl
        | false =>
            rw [Traced.findIdx_of_step hop] at hover
            obtain ⟨fault, hfault⟩ := hover (Nat.succ_pos _)
            exact Or.inr ⟨fault, (h.pressLeaves_stepped now s.press.outOfBounds).trans hfault⟩
      exact hstep.extends (s.extends_play now id index op rest)

theorem HasOver.signals_pull (h : s.HasOver id) (now : Timestamp) :
    Signals s.press.outOfBounds [] (s.pull now id) := by
  obtain ⟨playback, hid, rfl | rfl⟩ := h
  · rw [Session.pull, hid]
    have hkept : Signals s.press.outOfBounds [] (⟨s, [], ()⟩ : Reply Unit) := ⟨rfl, rfl⟩
    exact hkept.extends (s.extends_finishPlayback id .ended)
  · rw [Session.pull, hid]
    exact ⟨rfl, rfl⟩

end Session

namespace Bench

open Session (Outcome Due)

variable {perform : Performer} {setup : Setup} {ops rest : List Operation} {op : Operation}
  {interval start : Float} {b : Bench} {id index : Nat} {out : Bool}

/-- On a bench the flag is like this after alarms were given beyond those of another bench. -/
structure Signals (b : Bench) (flag : Bool) (alarms : List Notice) (b' : Bench) : Prop where
  flag : b'.session.press.outOfBounds = flag
  alarms : b'.notices.filter (·.isAlarm) = b.notices.filter (·.isAlarm) ++ alarms

theorem signals_take {α : Type} {reply : Reply α} {flag : Bool} {alarms : List Notice}
    (h : Session.Signals flag alarms reply) :
    b.Signals flag alarms (b.take reply) := by
  refine ⟨h.flag, ?_⟩
  rw [take, List.filter_append, h.alarms]

/-- To give a playback the time does not signal anything. -/
theorem signals_serve (hperform : Faithful perform) (hquiet : b.Quiet) (fuel id : Nat)
    {reply : Reply Outcome} {flag : Bool} {alarms : List Notice} (hreply : ∀ seconds, reply.result ≠ .wait seconds)
    (h : Session.Signals flag alarms reply) :
    b.Signals flag alarms (serve perform fuel (b.take reply) id reply.result).1 := by
  have htaken : b.Signals flag alarms (b.take reply) := signals_take h
  cases hresult : reply.result with
  | wait seconds => exact absurd hresult (hreply seconds)
  | shown | ended | failed => cases fuel <;> exact htaken
  | readClock =>
      have hstands := (hquiet.take reply).read hperform
      have hnotices := (hquiet.take reply).notices_read hperform
      let read := (b.take reply).read perform
      have hread : b.Signals flag alarms read := by
        refine ⟨?_, ?_⟩
        · rw [hstands.session]
          exact htaken.flag
        · rw [hnotices]
          exact htaken.alarms
      have hclosed : b.Signals flag alarms (read.take (read.session.closeAt read.now id read.clock)) := by
        unfold Session.closeAt
        split
        · refine ⟨hread.flag, ?_⟩
          rw [← hread.alarms]
          exact (List.filter_append _ _).trans (List.append_nil _)
        · exact ⟨hread.flag, by rw [take, List.append_nil]; exact hread.alarms⟩
      cases fuel <;> exact hclosed

theorem Quiet.signals_pull (hperform : Faithful perform) (h : b.Quiet)
    (hdue : Due b.session id index rest) (hstop : b.session.stopRequested = false) :
    ∃ playbacks last, ∀ flag alarms,
      Session.Signals flag alarms
        (Session.arrive { b.session with playbacks } b.now id index last rest) →
      b.Signals flag alarms (b.pull perform id).1 := by
  obtain ⟨b', playbacks, fuel, last, happroaches, hnotices, hserve⟩ :=
    h.pull_arrives hperform hdue hstop
  refine ⟨playbacks, last, fun flag alarms hsignals => ?_⟩
  rw [← happroaches.session] at hsignals
  obtain ⟨hflag, halarms⟩ := signals_serve hperform happroaches.quiet fuel id
    (b'.session.arrive_ne_wait b.now id index last rest) hsignals
  rw [hserve]
  exact ⟨hflag, hnotices ▸ halarms⟩

namespace Draining

theorem signals_pull (hperform : Faithful perform)
    (h : Draining setup ops interval id b index (op :: rest)) (hop : op.isFinish = false)
    (htest : setup.outAfter (ops.take (index + 1)) = .ok out) :
    b.Signals out
      (if out && !b.session.press.outOfBounds then [setup.alarm (ops.take (index + 1)) op] else [])
      (b.pull perform id).1 := by
  obtain ⟨hquiet, hundisturbed, hdue, rfl, rfl, rfl⟩ := h
  obtain ⟨playbacks, last, hpull⟩ := hquiet.signals_pull hperform hdue hundisturbed.stop
  exact hpull _ _ ((hundisturbed.awaited playbacks).signals_arrive hop htest last)

theorem signals_pull_over (hperform : Faithful perform)
    (h : Draining setup ops interval id b index rest)
    (hover : 0 < rest.findIdx (·.isFinish) →
      ∃ fault, setup.outAfter (ops.take (index + 1)) = .error fault) :
    b.Signals b.session.press.outOfBounds [] (b.pull perform id).1 := by
  obtain ⟨hquiet, hundisturbed, hdue, rfl, rfl, rfl⟩ := h
  obtain ⟨playbacks, last, hpull⟩ := hquiet.signals_pull hperform hdue hundisturbed.stop
  exact hpull _ _ ((hundisturbed.awaited playbacks).signals_arrive_over hover last)

end Draining

/-! ## Stages -/

/-- The alarms that are seen of a call. -/
def Stage.alarms (stage : Stage) : List Notice := stage.notices.filter (·.isAlarm)

/-- What is seen of a step of a run, after something else was seen. -/
structure SignalsStep (setup : Setup) (ops : List Operation) (index : Nat) (op : Operation)
    (out : Bool) (before stage : Stage) : Prop where
  found : ops[index]? = some op
  test : setup.outAfter (ops.take (index + 1)) = .ok out
  flag : stage.session.press.outOfBounds = out
  leaves : stage.session.pressLeaves = .ok out
  alarms : stage.alarms = if out && !before.session.press.outOfBounds then
    [setup.alarm (ops.take (index + 1)) op] else []

namespace SignalsStep

variable {before stage : Stage}

theorem alarms_ne_nil_iff (h : SignalsStep setup ops index op out before stage) :
    stage.alarms ≠ [] ↔ out = true ∧ before.session.press.outOfBounds = false := by
  rw [h.alarms]
  cases out <;> cases before.session.press.outOfBounds <;> simp

theorem alarms_eq (h : SignalsStep setup ops index op out before stage) (hne : stage.alarms ≠ []) :
    stage.alarms = [setup.alarm (ops.take (index + 1)) op] := by
  obtain ⟨rfl, hdown⟩ := h.alarms_ne_nil_iff.mp hne
  rw [h.alarms, hdown]
  rfl

end SignalsStep

/-- What is seen of the alarms of a run that is asked for steps from an index on, with the operations
`rest` to come, after something else was seen. -/
inductive Alarmed (setup : Setup) (ops : List Operation) :
    Stage → Nat → List Operation → List Stage → Prop
  | none {before : Stage} {index : Nat} {rest : List Operation} :
      Alarmed setup ops before index rest []
  | step {before stage : Stage} {index : Nat} {op : Operation} {rest : List Operation}
      {stages : List Stage} {out : Bool} (hop : op.isFinish = false)
      (hstep : SignalsStep setup ops index op out before stage)
      (h : Alarmed setup ops stage (index + 1) rest stages) :
      Alarmed setup ops before index (op :: rest) (stage :: stages)
  | still {before : Stage} {index : Nat} {rest : List Operation} {stages : List Stage}
      (hover : 0 < rest.findIdx (·.isFinish) →
        ∃ fault, setup.outAfter (ops.take (index + 1)) = .error fault)
      (hstill : ∀ stage ∈ stages,
        stage.session.press.outOfBounds = before.session.press.outOfBounds ∧ stage.alarms = []) :
      Alarmed setup ops before index rest stages

theorem fst_next (m : Nat) (hlast : b.playbackOf none = .ok (some id)) :
    (b.perform (m + 1) (.next none)).1 = (b.pull (Bench.perform m) id).1 :=
  congrArg Prod.fst (perform_next m hlast rfl)

theorem AtRest.signals_next (h : b.AtRest id) (m : Nat) :
    b.Signals b.session.press.outOfBounds [] (b.perform (m + 1) (.next none)).1 := by
  have hpull : (b.pull (Bench.perform m) id).1 = b.take (b.session.pull b.now id) := by
    rw [Bench.pull, (h.ended.pull b.now).1]
    rfl
  rw [fst_next m h.last, hpull]
  exact signals_take (h.ended.signals_pull b.now)

theorem AtRest.signals (h : b.AtRest id) (m n : Nat) :
    ∀ stage ∈ Bench.performAll (m + 1) b (List.replicate n (.next none)),
      stage.session.press.outOfBounds = b.session.press.outOfBounds ∧ stage.alarms = [] := by
  induction n generalizing b with
  | zero => exact fun stage hstage => nomatch hstage
  | succ n ih =>
      have hsignals := h.unseen.signals_next m
      obtain ⟨b', hnext, hrest, _⟩ := h.unseen.next m
      rw [hnext] at hsignals
      rw [List.replicate_succ, performAll_cons, hnext]
      refine List.forall_mem_cons.mpr ⟨⟨hsignals.flag, hsignals.alarms⟩, ?_⟩
      have hflag : b'.session.press.outOfBounds = b.session.press.outOfBounds := hsignals.flag
      rw [← hflag]
      exact ih hrest

theorem Paced.alarmed (h : Paced setup ops interval id start b index rest) (m n : Nat)
    {before : Stage} (hbefore : before.session.press.outOfBounds = b.session.press.outOfBounds) :
    Alarmed setup ops before index rest (performAll (m + 1) b (List.replicate n (.next none))) := by
  induction n generalizing b index rest before with
  | zero => exact .none
  | succ n ih =>
      have hasked := h.unseen.next m
      have hfst := fst_next m h.unseen.last
      rw [List.replicate_succ, performAll_cons]
      generalize b.unseen.perform (m + 1) (.next none) = made at hasked hfst ⊢
      have hends : made.1.AtRest id → (0 < rest.findIdx (·.isFinish) →
          ∃ fault, setup.outAfter (ops.take (index + 1)) = .error fault) →
          Alarmed setup ops before index rest
            (stageOf made :: performAll (m + 1) made.1 (List.replicate n (.next none))) := by
        intro hrest hover
        have hsignals := h.unseen.signals_pull_over (faithful_perform m) hover
        rw [← hfst] at hsignals
        have hflag : made.1.session.press.outOfBounds = before.session.press.outOfBounds :=
          hsignals.flag.trans hbefore.symm
        refine .still hover (List.forall_mem_cons.mpr ⟨⟨hflag, hsignals.alarms⟩, ?_⟩)
        rw [← hflag]
        exact hrest.signals m n
      cases hasked with
      | @step op rest b' shot out hop htest hpassed hpaced =>
          have hsignals := h.unseen.signals_pull (faithful_perform m) hop htest
          rw [← hfst] at hsignals
          have hfound : ops[index]? = some op := by
            rw [← h.operations]
            exact h.undisturbed.getElem?
          have hleaves : b'.session.pressLeaves = .ok out := by
            rw [← htest, ← hpaced.setup, ← hpaced.operations]
            exact hpaced.undisturbed.toPlaying.pressLeaves
          refine .step hop ⟨hfound, htest, hsignals.flag, hleaves, ?_⟩ (ih hpaced rfl)
          rw [hbefore]
          exact hsignals.alarms
      | failed hop htest hrest => exact hends hrest fun _ => ⟨_, htest⟩
      | ended hend _ _ _ hrest =>
          refine hends hrest fun hlt => ?_
          rw [Traced.findIdx_of_end hend] at hlt
          exact absurd hlt (Nat.lt_irrefl 0)

namespace Alarmed

variable {before : Stage} {stages : List Stage}

/-- Each call lets see a step that is made, or nothing if none is made. -/
theorem at_step {k : Nat} {prior stage : Stage} (h : Alarmed setup ops before index rest stages)
    (hcount : index + rest.findIdx (·.isFinish) = ops.findIdx (·.isFinish))
    (hmade : ∀ j < index, ∃ out, setup.outAfter (ops.take (j + 1)) = .ok out)
    (hprior : (before :: stages)[k]? = some prior) (hstage : stages[k]? = some stage) :
    (setup.Makes ops (index + k) ∧
        ∃ op out, SignalsStep setup ops (index + k) op out prior stage) ∨
      (¬ setup.Makes ops (index + k) ∧
        stage.session.press.outOfBounds = prior.session.press.outOfBounds ∧ stage.alarms = []) := by
  induction h generalizing k with
  | none => cases hstage
  | @step before first index op rest stages out hop hstep h ih =>
      rw [Traced.findIdx_of_step hop] at hcount
      have hmade' : ∀ j < index + 1, ∃ out, setup.outAfter (ops.take (j + 1)) = .ok out := by
        intro j hj
        rcases Nat.lt_succ_iff_lt_or_eq.mp hj with hlt | rfl
        · exact hmade j hlt
        · exact ⟨out, hstep.test⟩
      cases k with
      | zero =>
          obtain rfl : before = prior := Option.some.inj hprior
          obtain rfl : first = stage := Option.some.inj hstage
          exact Or.inl ⟨⟨by omega, fun j hj => hmade' j (Nat.lt_succ_of_le hj)⟩, op, out, hstep⟩
      | succ k =>
          rw [show index + (k + 1) = index + 1 + k by omega]
          exact ih (by omega) hmade' hprior hstage
  | @still before index rest stages hover hstill =>
      obtain ⟨hflag, halarms⟩ := hstill stage (List.mem_of_getElem? hstage)
      refine Or.inr ⟨fun hmakes => ?_, ?_, halarms⟩
      · obtain ⟨hlt, hanswers⟩ := hmakes
        obtain ⟨fault, hfault⟩ := hover (by omega)
        obtain ⟨out, hout⟩ := hanswers index (Nat.le_add_right index k)
        cases hfault.symm.trans hout
      · rcases List.mem_cons.mp (List.mem_of_getElem? hprior) with rfl | hprior
        · exact hflag
        · rw [hflag, (hstill prior hprior).1]

/-- There are as many alarms as there are steps in which the flag goes up. -/
theorem length_alarms (h : Alarmed setup ops before index rest stages) :
    (stages.flatMap (·.alarms)).length = rises before.session.press.outOfBounds
      ((stages.take (rest.findIdx (·.isFinish))).map (·.session.press.outOfBounds)) := by
  induction h with
  | none => simp [rises]
  | @step before stage index op rest stages out hop hstep h ih =>
      rw [List.flatMap_cons, List.length_append, ih, Traced.findIdx_of_step hop, List.take_succ_cons,
        List.map_cons, rises, hstep.alarms, hstep.flag]
      split <;> rfl
  | @still before index rest stages hover hstill =>
      have hsilent : stages.flatMap (·.alarms) = [] :=
        List.flatMap_eq_nil_iff.mpr fun stage hstage => (hstill stage hstage).2
      rw [hsilent, rises_of_still]
      · rfl
      · intro flag hflag
        obtain ⟨stage, hstage, rfl⟩ := List.mem_map.mp hflag
        exact (hstill stage (List.mem_of_mem_take hstage)).1

end Alarmed

/-! ## From the start -/

theorem Quiet.signals_run (h : b.Quiet) (m : Nat) {program : Program}
    (hidle : b.session.phase ≠ .running) (hprogram : b.session.program = some program)
    (herrors : program.errors = []) : b.Signals false [] (b.perform (m + 1) .run).1 := by
  have hready := Session.start_of_ready hidle hprogram herrors
  have hstands := (h.take b.session.start).read (faithful_perform m)
  have hnotices := (h.take b.session.start).notices_read (faithful_perform m)
  let read := (b.take b.session.start).read (Bench.perform m)
  have hpress : read.session.press.outOfBounds = false := by
    rw [hstands.session, hready]
    rfl
  have hread : read.notices = b.notices := by
    rw [hnotices, hready]
    exact List.append_nil _
  rw [perform_succ, performWith, startRun_of_ready _ true (by rw [hready])]
  refine ⟨hpress, ?_⟩
  show (read.notices ++ [_]).filter Notice.isAlarm = _
  rw [hread]
  exact List.filter_append _ _

section Started

variable {program : Program} (hquiet : b.Quiet) (hidle : b.session.phase ≠ .running)
  (hprogram : b.session.program = some program) (herrors : program.errors = []) (m n : Nat)
include hquiet hidle hprogram herrors

/-- A run on a quiet bench begins with the flag down and without an alarm. -/
theorem exists_alarmed : ∃ begun pulls,
    performAll (m + 1) b (.run :: List.replicate n (.next none)) = begun :: pulls ∧
      begun.session.press.outOfBounds = false ∧ begun.alarms = [] ∧
      Alarmed b.session.setup program.operations begun 0 program.operations pulls := by
  have hunseen : b.unseen.Quiet := ⟨hquiet.waitPlans, hquiet.readingPlans⟩
  obtain ⟨b', hrun, _, _, hpaced⟩ := hunseen.run_paced m hidle hprogram herrors
  obtain ⟨hdown, hsilent⟩ := hunseen.signals_run m hidle hprogram herrors
  refine ⟨stageOf (b.unseen.perform (m + 1) .run),
    performAll (m + 1) b' (List.replicate n (.next none)), ?_, hdown, hsilent, ?_⟩
  · rw [performAll_cons, hrun]
  · exact hpaced.alarmed m n (congrArg (·.session.press.outOfBounds) hrun)

theorem alarms_of_step {k : Nat} {before stage : Stage}
    (hbefore : (performAll (m + 1) b (.run :: List.replicate n (.next none)))[k]? = some before)
    (hstage : (performAll (m + 1) b (.run :: List.replicate n (.next none)))[k + 1]? = some stage) :
    let ops := program.operations
    let setup := b.session.setup
    (stage.alarms ≠ [] ↔ setup.Makes ops k ∧ setup.outAfter (ops.take (k + 1)) = .ok true ∧
      (k = 0 ∨ before.session.press.outOfBounds = false)) ∧
    (stage.alarms ≠ [] → ∃ op, ops[k]? = some op ∧
      stage.alarms = [setup.alarm (ops.take (k + 1)) op] ∧
      (setup.alarm (ops.take (k + 1)) op).level = .warning) ∧
    (∀ out, setup.Makes ops k → setup.outAfter (ops.take (k + 1)) = .ok out →
      stage.session.press.outOfBounds = out ∧ stage.session.pressLeaves = .ok out) ∧
    (¬ setup.Makes ops k →
      stage.session.press.outOfBounds = before.session.press.outOfBounds) := by
  intro ops setup
  obtain ⟨begun, pulls, hstages, hflag, _, halarmed⟩ :=
    exists_alarmed hquiet hidle hprogram herrors m n
  rw [hstages] at hbefore hstage
  have hprior : k = 0 → before.session.press.outOfBounds = false := by
    rintro rfl
    obtain rfl : begun = before := Option.some.inj hbefore
    exact hflag
  have hseen := halarmed.at_step (Nat.zero_add _) (fun j hj => absurd hj (Nat.not_lt_zero j))
    hbefore hstage
  rw [Nat.zero_add] at hseen
  rcases hseen with ⟨hmakes, op, out, hstep⟩ | ⟨hnot, hsame, hnone⟩
  · have hfirst : (k = 0 ∨ before.session.press.outOfBounds = false) ↔
        before.session.press.outOfBounds = false :=
      or_iff_right_of_imp hprior
    refine ⟨?_, ?_, ?_, fun hnot => absurd hmakes hnot⟩
    · rw [hfirst, hstep.alarms_ne_nil_iff, hstep.test, Except.ok.injEq]
      exact (and_iff_right hmakes).symm
    · exact fun hne => ⟨op, hstep.found, hstep.alarms_eq hne, rfl⟩
    · intro answer _ hanswer
      obtain rfl := Except.ok.inj (hstep.test.symm.trans hanswer)
      exact ⟨hstep.flag, hstep.leaves⟩
  · refine ⟨?_, fun hne => absurd hnone hne, fun _ hmakes => absurd hmakes hnot, fun _ => hsame⟩
    exact ⟨fun hne => absurd hnone hne, fun h => absurd h.1 hnot⟩

/-- There are as many alarms as stretches of steps outside the sheet. -/
theorem length_alarms_run :
    let stages := performAll (m + 1) b (.run :: List.replicate n (.next none))
    (stages.flatMap (·.alarms)).length =
      (stretches ((stages.tail.take (program.operations.findIdx (·.isFinish))).map
        (·.session.press.outOfBounds))).length := by
  intro stages
  obtain ⟨begun, pulls, hstages, hflag, hsilent, halarmed⟩ :=
    exists_alarmed hquiet hidle hprogram herrors m n
  have hrun : stages = begun :: pulls := hstages
  rw [hrun, List.flatMap_cons, hsilent, List.nil_append, halarmed.length_alarms, hflag,
    (rises_eq _).1]
  rfl

end Started

/-- The alarms of a run on a quiet bench, when its steps are asked for one by one. There is one in a step
exactly if the operation is made, the tool is outside the sheet after it, and the flag was down before,
as it always is at first. The flag then says whether the tool is outside, and stays as it is where no
step is made. So there are as many alarms as stretches of steps outside the sheet. -/
theorem alarms_when_flag_rises (m n : Nat) {b : Bench} {program : Program} (hquiet : b.Quiet)
    (hidle : b.session.phase ≠ .running) (hprogram : b.session.program = some program)
    (herrors : program.errors = []) :
    let ops := program.operations
    let setup := b.session.setup
    let count := ops.findIdx (·.isFinish)
    let stages := performAll (m + 1) b (.run :: List.replicate n (.next none))
    stages.length = n + 1 ∧
    (∀ begun ∈ stages.head?, begun.session.press.outOfBounds = false ∧ begun.alarms = []) ∧
    (∀ k before stage, stages[k]? = some before → stages[k + 1]? = some stage →
      (stage.alarms ≠ [] ↔ setup.Makes ops k ∧ setup.outAfter (ops.take (k + 1)) = .ok true ∧
        (k = 0 ∨ before.session.press.outOfBounds = false)) ∧
      (stage.alarms ≠ [] → ∃ op, ops[k]? = some op ∧
        stage.alarms = [setup.alarm (ops.take (k + 1)) op] ∧
        (setup.alarm (ops.take (k + 1)) op).level = .warning) ∧
      (∀ out, setup.Makes ops k → setup.outAfter (ops.take (k + 1)) = .ok out →
        stage.session.press.outOfBounds = out ∧ stage.session.pressLeaves = .ok out) ∧
      (¬ setup.Makes ops k →
        stage.session.press.outOfBounds = before.session.press.outOfBounds)) ∧
    (stages.flatMap (·.alarms)).length =
      (stretches ((stages.tail.take count).map (·.session.press.outOfBounds))).length ∧
    (setup.IsMeasured → (∀ op ∈ ops, op.IsFinite) → ∀ k < count, setup.Makes ops k) := by
  intro ops setup count stages
  refine ⟨?_, ?_, ?_, ?_, ?_⟩
  · rw [length_performAll, List.length_cons, List.length_replicate]
  · obtain ⟨begun, pulls, hstages, hflag, hsilent, _⟩ :=
      exists_alarmed hquiet hidle hprogram herrors m n
    have hrun : stages = begun :: pulls := hstages
    rw [hrun]
    rintro _ ⟨⟩
    exact ⟨hflag, hsilent⟩
  · intro k before stage hbefore hstage
    exact alarms_of_step hquiet hidle hprogram herrors m n hbefore hstage
  · exact length_alarms_run hquiet hidle hprogram herrors m n
  · intro hmeasured hfinite k hk
    refine ⟨hk, fun j _ => hmeasured.exists_outAfter fun op hop => ?_⟩
    exact hfinite op (List.mem_of_mem_take hop)

/-- Two hits of which the first one leaves the sheet, after a seek to it that has put the flag up. -/
def soughtTwoHits : Bench := ((loaded 300.0 twoHits).perform 1 (.seek 0)).1

theorem alarms_when_flag_rises_twoHits :
    let stages := performAll 1 soughtTwoHits (.run :: List.replicate 3 (.next none))
    soughtTwoHits.session.press.outOfBounds = true ∧
      (∀ stage, stages[1]? = some stage → stage.alarms ≠ []) ∧
      (stages.flatMap (·.alarms)).length = 1 := by
  intro stages
  have hquiet : soughtTwoHits.Quiet :=
    ⟨fun _ hplan => (nomatch hplan), fun _ hplan => (nomatch hplan)⟩
  have hidle : soughtTwoHits.session.phase ≠ .running := by decide +kernel
  have hmeasured : soughtTwoHits.session.setup.IsMeasured := isMeasured_loaded twoHits
  have hprogram : soughtTwoHits.session.program = some twoHits := rfl
  obtain ⟨hlength, _, hsteps, htotal, hmakes⟩ :=
    alarms_when_flag_rises 0 3 hquiet hidle hprogram rfl
  have hout : soughtTwoHits.session.setup.outAfter (twoHits.operations.take 1) = .ok true := by
    with_unfolding_all rfl
  refine ⟨by decide +kernel, fun stage hstage => ?_, ?_⟩
  · have hbegun : 0 < stages.length := Nat.lt_of_lt_of_eq (Nat.succ_pos 3) hlength.symm
    apply (hsteps 0 _ stage (List.getElem?_eq_getElem hbegun) hstage).1.mpr
    exact ⟨hmakes hmeasured isFinite_twoHits 0 (by decide), hout, Or.inl rfl⟩
  · rw [htotal]
    decide +kernel

end Bench

end TurretPunch
