import TurretPunch.Proofs.Session.Drain
import TurretPunch.Proofs.Session.Release
import TurretPunch.Proofs.Session.Waiting

namespace TurretPunch

/-!
# The waits of a run

Between two steps of a run lie the waits after the one and before the other. So up to any step the
waits are those of all operations before it, and the one before its own.
-/

/-- The waits that belong to an operation. -/
def Operation.waits (interval : Float) : Operation → List Float
  | toolChange .. => [interval / 4000.0]
  | move .. => [interval / 2000.0]
  | hit .. => [interval / 2000.0, interval / 2000.0]
  | finish .. => []

/-- The waits between the step before an index and the step at it. -/
def pause (interval : Float) (ops : List Operation) : Nat → List Float
  | 0 => approach interval ops
  | index + 1 =>
    ((ops.drop index).take 1).flatMap (·.waitsAfter interval) ++
      approach interval (ops.drop (index + 1))

namespace Session

variable {s t : Session} {id other : Nat}

/-- A playback has nothing more to make. -/
def HasOver (s : Session) (id : Nat) : Prop :=
  ∃ playback, s.playbacks[id]? = some playback ∧ playback.IsOver

theorem hasOver_of_set (hid : id < s.playbacks.length)
    (ht : t.playbacks = s.playbacks.set id .finished) : t.HasOver id := by
  refine ⟨.finished, ?_, Or.inr rfl⟩
  rw [ht]
  exact List.getElem?_set_self hid

theorem Closed.hasOver (h : Closed s id t) (hid : id < s.playbacks.length)
    (hopen : s.isOpen id = true) : t.HasOver id := by
  cases h with
  | kept hbusy => cases hopen.symm.trans hbusy
  | unused => exact hasOver_of_set hid rfl
  | abandoned => exact hasOver_of_set hid (s.playbacks_abandoned id)

theorem Due.isOpen {index : Nat} {rest : List Operation} (h : Due s id index rest) :
    s.isOpen id = true := by
  cases h with
  | created hcreated => exact isOpen_of_playback hcreated rfl Playback.noConfusion
  | shown hshown => exact isOpen_of_playback hshown rfl Playback.noConfusion

namespace HasOver

theorem set (h : s.HasOver id) (ht : t.playbacks = s.playbacks.set other .finished) :
    t.HasOver id := by
  obtain ⟨playback, hid, hover⟩ := h
  by_cases heq : other = id
  · subst heq
    exact hasOver_of_set (id_lt_length hid) ht
  · refine ⟨playback, ?_, hover⟩
    rw [ht, List.getElem?_set_ne heq, hid]

theorem closed (h : s.HasOver id) (ht : Closed s other t) : t.HasOver id := by
  cases ht with
  | kept => exact h
  | unused => exact h.set rfl
  | abandoned => exact h.set (s.playbacks_abandoned other)

theorem haltIfRunning (h : s.HasOver id) : s.haltIfRunning.session.HasOver id := by
  unfold Session.haltIfRunning
  split <;> exact h

theorem stop (h : s.HasOver id) : s.stop.session.HasOver id := by
  rcases s.stop_cases with hsame | ⟨_, hstopping | ⟨other, t, _, _, ht, hstopped⟩⟩
  · rw [hsame]
    exact h
  · rw [hstopping]
    exact h
  · rw [hstopped]
    have hstopping : s.stopping.HasOver id := h
    exact (hstopping.closed ht).haltIfRunning

theorem pull (h : s.HasOver id) (now : Timestamp) :
    (s.pull now id).result = .ended ∧ (s.pull now id).session.HasOver id := by
  obtain ⟨playback, hid, rfl | rfl⟩ := h
  · rw [Session.pull, hid]
    exact ⟨rfl, set ⟨_, hid, Or.inl rfl⟩ (s.playbacks_abandoned id)⟩
  · rw [Session.pull, hid]
    exact ⟨rfl, _, hid, Or.inr rfl⟩

end HasOver

end Session

namespace Bench

open Session (asks)

/-- A bench on which the last run is over. -/
structure AtRest (b : Bench) (id : Nat) : Prop where
  last : b.playbackOf none = .ok (some id)
  ended : b.session.HasOver id

/-- A call that ends a run, or asks it for a step. -/
def IsPullOrEnd (call : Call) : Prop := call = .next none ∨ call = .close none ∨ call = .stop

variable {b : Bench} {id : Nat} {call : Call} {calls : List Call}

theorem AtRest.next (h : b.AtRest id) (m : Nat) :
    ∃ b', b.perform (m + 1) (.next none) = (b', .nothing) ∧ b'.AtRest id ∧ b'.waits = b.waits := by
  obtain ⟨hended, hover⟩ := h.ended.pull b.now
  have hpull : b.pull (Bench.perform m) id = (b.take (b.session.pull b.now id), .ended) := by
    rw [Bench.pull, hended]
    rfl
  exact ⟨_, perform_next m h.last hpull, ⟨h.last, hover⟩, rfl⟩

/-- Nothing is waited for after the end of a run. -/
theorem AtRest.perform (h : b.AtRest id) (m : Nat) (hcall : IsPullOrEnd call) :
    (b.perform (m + 1) call).1.AtRest id ∧ (b.perform (m + 1) call).1.waits = b.waits := by
  rcases hcall with rfl | rfl | rfl
  · obtain ⟨b', hnext, hrest, hwaits⟩ := h.next m
    rw [hnext]
    exact ⟨hrest, hwaits⟩
  · rw [perform_close m h.last]
    exact ⟨⟨h.last, h.ended.closed (b.session.closePlayback_closed id)⟩, rfl⟩
  · exact ⟨⟨h.last, h.ended.stop⟩, rfl⟩

theorem AtRest.unseen (h : b.AtRest id) : b.unseen.AtRest id := ⟨h.last, h.ended⟩

theorem AtRest.pulls (h : b.AtRest id) (m n : Nat) :
    ∀ stage ∈ performAll (m + 1) b (List.replicate n (.next none)), stage.result = .nothing := by
  induction n generalizing b with
  | zero => exact fun stage hstage => nomatch hstage
  | succ n ih =>
      obtain ⟨b', hnext, hrest, _⟩ := h.unseen.next m
      rw [List.replicate_succ, performAll_cons, hnext]
      exact List.forall_mem_cons.mpr ⟨rfl, ih hrest⟩

theorem AtRest.performAll (h : b.AtRest id) (m : Nat) (hcalls : ∀ call ∈ calls, IsPullOrEnd call) :
    ∀ stage ∈ performAll (m + 1) b calls, stage.waits = [] := by
  induction calls generalizing b with
  | nil => exact fun stage hstage => nomatch hstage
  | cons call calls ih =>
      obtain ⟨hrest, hwaits⟩ := h.unseen.perform m (hcalls call List.mem_cons_self)
      rw [performAll_cons]
      refine List.forall_mem_cons.mpr ⟨hwaits, ih hrest ?_⟩
      exact fun other hother => hcalls other (List.mem_cons_of_mem _ hother)

/-! ## In a run -/

/-- A bench on which the last run goes on undisturbed, with the waits before its next step. -/
structure Paced (setup : Setup) (ops : List Operation) (pace : Float) (id : Nat) (start : Float)
    (b : Bench) (index : Nat) (rest : List Operation) : Prop
    extends Draining setup ops pace id b index rest where
  last : b.playbackOf none = .ok (some id)
  current : b.session.current = some id
  since : b.session.startTime = start
  asked : asks b.now id 2 (b.session.pull b.now id).session (b.session.pull b.now id).result =
    pause pace ops index

variable {setup : Setup} {ops rest : List Operation} {interval start : Float} {index : Nat}
  {op : Operation}

/-- What comes of asking a run for a step at an index, with the operations `rest` to come. -/
inductive Asked (setup : Setup) (ops : List Operation) (pace : Float) (id : Nat) (start : Float)
    (b : Bench) (index : Nat) : List Operation → Bench × CallResult → Prop
  | step {op : Operation} {rest : List Operation} {b' : Bench} {shot : Snapshot} {out : Bool}
      (hop : op.isFinish = false) (htest : setup.outAfter (ops.take (index + 1)) = .ok out)
      (hpassed : Passed b b' (pause pace ops index))
      (h : Paced setup ops pace id start b' (index + 1) rest) :
      Asked setup ops pace id start b index (op :: rest) (b', .snapshot shot)
  | failed {op : Operation} {rest : List Operation} {b' : Bench} {fault : Fault}
      (hop : op.isFinish = false) (htest : setup.outAfter (ops.take (index + 1)) = .error fault)
      (h : b'.AtRest id) : Asked setup ops pace id start b index (op :: rest) (b', .failed fault)
  | ended {rest : List Operation} {b' : Bench} {shot : Snapshot} {report : Report}
      (hend : ∀ op ∈ rest.head?, op.isFinish = true) (hreport : b'.session.report = some report)
      (helapsed : report.elapsed = Report.passed (b'.clock - start))
      (hpassed : Passed b b' (pause pace ops index)) (h : b'.AtRest id) :
      Asked setup ops pace id start b index rest (b', .snapshot shot)

namespace Paced

theorem unseen (h : Paced setup ops interval id start b index rest) :
    Paced setup ops interval id start b.unseen index rest :=
  ⟨⟨⟨h.quiet.waitPlans, h.quiet.readingPlans⟩, h.undisturbed, h.due, h.setup, h.operations,
    h.interval⟩, h.last, h.current, h.since, h.asked⟩

theorem ahead (h : Paced setup ops interval id start b index rest) : ops.drop index = rest := by
  rw [← h.operations]
  exact h.undisturbed.ahead

theorem passed (h : Paced setup ops interval id start b index rest) (m : Nat) :
    Passed b (b.pull (Bench.perform m) id).1 (pause interval ops index) := by
  rw [← h.asked]
  exact passed_pull (faithful_perform m) h.quiet id

/-- A run that is asked for a step makes it, or breaks off at it, or comes to its end. -/
theorem next (h : Paced setup ops interval id start b index rest) (m : Nat) :
    Asked setup ops interval id start b index rest (b.perform (m + 1) (.next none)) := by
  have hpassed := h.passed m
  by_cases hend : ∀ op ∈ rest.head?, op.isFinish = true
  · obtain ⟨b', shot, report, hpull, hover, _, helapsed⟩ := h.pull_end (faithful_perform m) hend
    rw [hpull] at hpassed
    rw [h.since] at helapsed
    rw [perform_next m h.last hpull]
    refine .ended hend hover.report helapsed hpassed ⟨?_, _, hover.reported, Or.inl rfl⟩
    rw [playbackOf_of_runs hpassed.runs, h.last]
  · obtain ⟨op, more, rfl, hop⟩ : ∃ op more, rest = op :: more ∧ op.isFinish = false := by
      cases rest with
      | nil => exact absurd (fun op hop => nomatch hop) hend
      | cons op more => exact ⟨op, more, rfl, by simpa using hend⟩
    cases htest : setup.outAfter (ops.take (index + 1)) with
    | error fault =>
        obtain ⟨b', hpull, _, _, hfinished⟩ := h.pull_failed (faithful_perform m) (Or.inl rfl) hop htest
        rw [hpull] at hpassed
        rw [perform_next m h.last hpull]
        refine .failed hop htest ⟨?_, _, hfinished, Or.inr rfl⟩
        rw [playbackOf_of_runs hpassed.runs, h.last]
    | ok out =>
        obtain ⟨b', shot, hpull, _, hdraining, hshown⟩ :=
          h.pull_step (faithful_perform m) hop htest
        rw [hpull] at hpassed
        rw [perform_next m h.last hpull]
        refine .step hop htest hpassed ⟨hdraining, ?_, hpassed.current.trans h.current,
          hpassed.start.trans h.since, ?_⟩
        · rw [playbackOf_of_runs hpassed.runs, h.last]
        · have hrest : ops.drop (index + 1) = more := by
            rw [← List.tail_drop, h.ahead, List.tail_cons]
          have hprior : (ops.drop index).take 1 = [op] := by
            rw [h.ahead, List.take_succ_cons, List.take_zero]
          rw [Session.asks_shown b'.now hshown hop hdraining.undisturbed.stop, hdraining.interval,
            pause, hprior, hrest]
          simp

/-- A run that is ended between two steps is over at once. -/
theorem halt (h : Paced setup ops interval id start b index rest) (m : Nat)
    (hcall : call = .close none ∨ call = .stop) :
    (b.perform (m + 1) call).1.AtRest id ∧ (b.perform (m + 1) call).1.waits = b.waits := by
  have hopen := h.due.isOpen
  rcases hcall with rfl | rfl
  · rw [perform_close m h.last]
    have hclosed := b.session.closePlayback_closed id
    exact ⟨⟨h.last, hclosed.hasOver h.id_lt hopen⟩, rfl⟩
  · refine ⟨⟨h.last, ?_⟩, rfl⟩
    have hstopped := Session.stop_of_isOpen h.undisturbed.phase h.current hopen
    exact Session.hasOver_of_set h.id_lt
      ((congrArg (·.playbacks) hstopped).trans (b.session.stopping.playbacks_abandoned id))

end Paced

/-- What is seen of a run that is asked for steps from an index on, with the operations `rest` to come,
until it has none left. -/
inductive Pulled (setup : Setup) (ops : List Operation) (pace start : Float) (alone : Prop) :
    Float → Nat → List Operation → List Stage → Prop
  | none {clock : Float} {index : Nat} {rest : List Operation} :
      Pulled setup ops pace start alone clock index rest []
  | step {clock : Float} {index : Nat} {op : Operation} {rest : List Operation} {stage : Stage}
      {stages : List Stage} {shot : Snapshot} (hop : op.isFinish = false)
      (hshot : stage.result = .snapshot shot) (hwaits : stage.waits = pause pace ops index)
      (h : Pulled setup ops pace start alone (stage.waits.foldl (· + ·) clock) (index + 1) rest
        stages) :
      Pulled setup ops pace start alone clock index (op :: rest) (stage :: stages)
  | failed {clock : Float} {index : Nat} {op : Operation} {rest : List Operation} {stage : Stage}
      {stages : List Stage} {fault : Fault} (hop : op.isFinish = false)
      (htest : setup.outAfter (ops.take (index + 1)) = .error fault)
      (hresult : stage.result = .failed fault) :
      Pulled setup ops pace start alone clock index (op :: rest) (stage :: stages)
  | ended {clock : Float} {index : Nat} {rest : List Operation} {stage : Stage}
      {stages : List Stage} {shot : Snapshot} {report : Report}
      (hend : ∀ op ∈ rest.head?, op.isFinish = true) (hshot : stage.result = .snapshot shot)
      (hreport : stage.session.report = some report)
      (hwaits : stage.waits = pause pace ops index)
      (helapsed : alone →
        report.elapsed = Report.passed (stage.waits.foldl (· + ·) clock - start))
      (hafter : ∀ later ∈ stages, later.result = .nothing) :
      Pulled setup ops pace start alone clock index rest (stage :: stages)

namespace Pulled

variable {pace clock : Float} {alone : Prop} {stages : List Stage}

theorem snapshots (h : Pulled setup ops pace start alone clock index rest stages)
    (hlength : stages.length ≤ rest.findIdx (·.isFinish) + 1)
    (htests : ∀ i < stages.length, i < rest.findIdx (·.isFinish) →
      ∃ out, setup.outAfter (ops.take (index + i + 1)) = .ok out) :
    ∀ stage ∈ stages, ∃ shot, stage.result = .snapshot shot := by
  induction h with
  | none => exact fun stage hstage => nomatch hstage
  | @step clock index op rest stage stages shot hop hshot hwaits h ih =>
      rw [Traced.findIdx_of_step hop] at hlength htests
      refine List.forall_mem_cons.mpr ⟨⟨shot, hshot⟩, ih (Nat.le_of_succ_le_succ hlength) ?_⟩
      intro i hi hbefore
      have htest := htests (i + 1) (Nat.succ_lt_succ hi) (Nat.succ_lt_succ hbefore)
      rwa [show index + (i + 1) + 1 = index + 1 + i + 1 by omega] at htest
  | failed hop htest =>
      rw [Traced.findIdx_of_step hop] at htests
      obtain ⟨out, hout⟩ := htests 0 (Nat.succ_pos _) (Nat.succ_pos _)
      cases htest.symm.trans hout
  | @ended clock index rest stage stages shot report hend hshot =>
      rw [Traced.findIdx_of_end hend] at hlength
      obtain rfl : stages = [] :=
        List.length_eq_zero_iff.mp (Nat.le_zero.mp (Nat.le_of_succ_le_succ hlength))
      exact List.forall_mem_cons.mpr ⟨⟨shot, hshot⟩, fun later hlater => nomatch hlater⟩

end Pulled

/-- A run that is asked for steps one by one waits as its operations do. -/
theorem Paced.pulled (h : Paced setup ops interval id start b index rest) (m n : Nat)
    {clock : Float} {alone : Prop} (halone : alone → b.IsUnplanned ∧ b.clock = clock) :
    Pulled setup ops interval start alone clock index rest
      (performAll (m + 1) b (List.replicate n (.next none))) := by
  induction n generalizing b index rest clock with
  | zero => exact .none
  | succ n ih =>
      have hasked := h.unseen.next m
      rw [List.replicate_succ, performAll_cons]
      generalize b.unseen.perform (m + 1) (.next none) = made at hasked ⊢
      cases hasked with
      | @step op rest b' shot out hop htest hpassed hpaced =>
          have hwaits : b'.waits = pause interval ops index := hpassed.waits
          refine .step hop rfl hwaits (ih hpaced ?_)
          intro hyes
          obtain ⟨hunplanned, rfl⟩ := halone hyes
          obtain ⟨hstill, hclock⟩ := hpassed.clock hunplanned
          rw [← hwaits] at hclock
          exact ⟨hstill, hclock⟩
      | failed hop htest => exact .failed hop htest rfl
      | @ended rest b' shot report hend hreport helapsed hpassed hrest =>
          have hwaits : b'.waits = pause interval ops index := hpassed.waits
          refine .ended hend rfl hreport hwaits ?_ (hrest.pulls m n)
          intro hyes
          obtain ⟨hunplanned, rfl⟩ := halone hyes
          have hclock := (hpassed.clock hunplanned).2
          rw [← hwaits] at hclock
          rw [helapsed, hclock]
          rfl

/-- After a run was ended between two steps, nothing more is waited for. -/
theorem Paced.halted (h : Paced setup ops interval id start b index rest) (m n : Nat)
    (hcall : call = .close none ∨ call = .stop) (hcalls : ∀ call ∈ calls, IsPullOrEnd call) :
    ∀ stage ∈ (performAll (m + 1) b (List.replicate n (.next none) ++ call :: calls)).drop n,
      stage.waits = [] := by
  have hfrom : IsPullOrEnd call := Or.inr hcall
  have hoff : ∀ k, ∀ other ∈ List.replicate k (.next none) ++ call :: calls, IsPullOrEnd other := by
    intro k other hother
    rcases List.mem_append.mp hother with hpull | hother
    · exact Or.inl (List.eq_of_mem_replicate hpull)
    · rcases List.mem_cons.mp hother with rfl | hother
      · exact hfrom
      · exact hcalls other hother
  induction n generalizing b index rest with
  | zero =>
      obtain ⟨hrest, hwaits⟩ := h.unseen.halt m hcall
      exact List.forall_mem_cons.mpr ⟨hwaits, hrest.performAll m hcalls⟩
  | succ n ih =>
      have hasked := h.unseen.next m
      rw [List.replicate_succ, List.cons_append, performAll_cons, List.drop_succ_cons]
      generalize b.unseen.perform (m + 1) (.next none) = made at hasked ⊢
      cases hasked with
      | step hop htest hpassed hpaced => exact ih hpaced
      | failed _ _ hrest | ended _ _ _ _ hrest =>
          exact fun stage hstage =>
            hrest.performAll m (hoff n) stage (List.mem_of_mem_drop hstage)

/-! ## From the start -/

theorem Draining.asked (h : Draining setup ops interval id b 0 rest) :
    asks b.now id 2 (b.session.pull b.now id).session (b.session.pull b.now id).result =
      pause interval ops 0 := by
  cases h.due with
  | created hcreated =>
      rw [Session.asks_created b.now hcreated h.undisturbed.stop, h.interval, h.operations, pause]

/-- A run that starts on a quiet bench goes on undisturbed, and nothing is waited for at its start. -/
theorem Quiet.run_paced (h : b.Quiet) (m : Nat) {program : Program}
    (hidle : b.session.phase ≠ .running) (hprogram : b.session.program = some program)
    (herrors : program.errors = []) :
    ∃ b', (b.perform (m + 1) .run).1 = b' ∧ b'.waits = b.waits ∧
      (b.IsUnplanned → b'.IsUnplanned ∧ b'.clock = b.clock ∧ b'.session.startTime = b.clock) ∧
      Paced b.session.setup program.operations b.session.interval b.session.playbacks.length
        b'.session.startTime b' 0 program.operations := by
  obtain ⟨b', hstart, _, hdraining⟩ := h.startRun (faithful_perform m) hidle hprogram herrors true
  have hready := Session.start_of_ready hidle hprogram herrors
  have hread := passed_read (faithful_perform m) (h.take b.session.start)
  have hstands := (h.take b.session.start).read (faithful_perform m)
  let read := (b.take b.session.start).read (Bench.perform m)
  obtain rfl : read.take (read.session.started read.clock) = b' := by
    rw [startRun_of_ready _ true (by rw [hready])] at hstart
    exact congrArg Prod.fst hstart
  have hnewest : (read.session.started read.clock).session.current =
      some b.session.playbacks.length := by
    show some read.session.playbacks.length = _
    rw [hstands.session]
    show some b.session.start.session.playbacks.length = _
    rw [hready]
    rfl
  let launched := read.take (read.session.started read.clock)
  refine ⟨{ launched with runs := launched.runs ++ [some b.session.playbacks.length] }, ?_,
    hread.waits.trans (List.append_nil _), ?_, ?_⟩
  · rw [perform_succ, performWith, hstart]
  · intro hunplanned
    obtain ⟨hstill, hclock⟩ := hread.clock hunplanned
    exact ⟨hstill, hclock, hclock⟩
  · exact ⟨⟨⟨hdraining.quiet.waitPlans, hdraining.quiet.readingPlans⟩, hdraining.undisturbed,
      hdraining.due, hdraining.setup, hdraining.operations, hdraining.interval⟩,
      playbackOf_last rfl, hnewest, rfl, hdraining.asked⟩

section Started

variable {program : Program} (hquiet : b.Quiet) (hidle : b.session.phase ≠ .running)
  (hprogram : b.session.program = some program) (herrors : program.errors = []) (m n : Nat)
include hquiet hidle hprogram herrors

end Started

end Bench

end TurretPunch
