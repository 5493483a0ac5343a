import TurretPunch.Proofs.Session.Trace

namespace TurretPunch

/-!
# Draining a run

A run on a quiet bench is asked for one step after the other until it is over. What it gives is
determined by the operations of its program and the bounds test alone.
-/

/-- What a run gives from an index on, with the operations `rest` to come, and the session after it. -/
inductive Traced (setup : Setup) (ops : List Operation) (interval : Float) (phase : Phase) :
    Nat → List Operation → Except Fault (List Snapshot) → Session → Prop
  | ended {index : Nat} {rest : List Operation} {shot : Snapshot} {report : Report} {s : Session}
      (hend : ∀ op ∈ rest.head?, op.isFinish = true)
      (hshot : shot.ShowsEnd interval (ops.take index) report)
      (hphase : s.phase = .completed) (hreport : s.report = some report) :
      Traced setup ops interval phase index rest (.ok [shot]) s
  | failed {index : Nat} {op : Operation} {rest : List Operation} {fault : Fault} {s : Session}
      (hop : op.isFinish = false) (htest : setup.outAfter (ops.take (index + 1)) = .error fault)
      (hphase : s.phase = .stopped) (hreport : s.report = none) :
      Traced setup ops interval phase index (op :: rest) (.error fault) s
  | step {index : Nat} {op : Operation} {rest : List Operation} {shot : Snapshot}
      {result : Except Fault (List Snapshot)} {s : Session} (hop : op.isFinish = false)
      (hshot : shot.ShowsStep setup ops index op phase)
      (h : Traced setup ops interval phase (index + 1) rest result s) :
      Traced setup ops interval phase index (op :: rest) (result.map (shot :: ·)) s

namespace Traced

variable {setup : Setup} {ops : List Operation} {interval : Float} {phase : Phase} {index : Nat}
  {rest : List Operation} {s : Session}

theorem findIdx_of_end (hend : ∀ op ∈ rest.head?, op.isFinish = true) :
    rest.findIdx (·.isFinish) = 0 := by
  cases rest with
  | nil => rfl
  | cons op rest => simp [List.findIdx_cons, hend op rfl]

theorem findIdx_of_step {op : Operation} (hop : op.isFinish = false) :
    (op :: rest).findIdx (·.isFinish) = rest.findIdx (·.isFinish) + 1 := by
  simp [List.findIdx_cons, hop]

/-- What a run gives that does not break off. -/
theorem snapshots {result : Except Fault (List Snapshot)} {all : List Snapshot}
    (h : Traced setup ops interval phase index rest result s) (hresult : result = .ok all) :
    ∃ shots last report, all = shots ++ [last] ∧ shots.length = rest.findIdx (·.isFinish) ∧
      (∀ i op, i < rest.findIdx (·.isFinish) → rest[i]? = some op →
        ∃ shot, shots[i]? = some shot ∧ shot.ShowsStep setup ops (index + i) op phase) ∧
      last.ShowsEnd interval (ops.take (index + rest.findIdx (·.isFinish))) report ∧
      s.phase = .completed ∧ s.report = some report := by
  induction h generalizing all with
  | ended hend hshot hphase hreport =>
      obtain rfl := Except.ok.inj hresult
      refine ⟨[], _, _, rfl, (findIdx_of_end hend).symm, ?_, ?_, hphase, hreport⟩
      · intro i op hi
        rw [findIdx_of_end hend] at hi
        exact absurd hi (Nat.not_lt_zero i)
      · rw [findIdx_of_end hend]
        exact hshot
  | failed => cases hresult
  | @step index op rest shot result s hop hshot htraced ih =>
      cases result with
      | error fault => cases hresult
      | ok more =>
          obtain rfl := Except.ok.inj hresult
          obtain ⟨shots, last, report, hmore, hlength, hshots, hlast, hphase, hreport⟩ := ih rfl
          refine ⟨shot :: shots, last, report, ?_, ?_, ?_, ?_, hphase, hreport⟩
          · rw [hmore, List.cons_append]
          · rw [findIdx_of_step hop, List.length_cons, hlength]
          · intro i o hi ho
            cases i with
            | zero =>
                obtain rfl : op = o := Option.some.inj ho
                exact ⟨shot, rfl, hshot⟩
            | succ i =>
                rw [findIdx_of_step hop] at hi
                obtain ⟨next, hnext, hshows⟩ := hshots i o (by omega) ho
                rw [show index + (i + 1) = index + 1 + i by omega]
                exact ⟨next, hnext, hshows⟩
          · rw [findIdx_of_step hop,
              show index + (rest.findIdx (·.isFinish) + 1) = index + 1 + rest.findIdx (·.isFinish) by
                omega]
            exact hlast

/-- A run gives its report if the bounds test has an answer at every step. -/
theorem exists_snapshots {result : Except Fault (List Snapshot)}
    (h : Traced setup ops interval phase index rest result s)
    (htests : ∀ i < rest.findIdx (·.isFinish),
      ∃ out, setup.outAfter (ops.take (index + i + 1)) = .ok out) :
    ∃ all, result = .ok all := by
  induction h with
  | ended => exact ⟨_, rfl⟩
  | failed hop htest =>
      obtain ⟨out, hout⟩ := htests 0 (by rw [findIdx_of_step hop]; omega)
      cases htest.symm.trans hout
  | @step index op rest shot result s hop hshot htraced ih =>
      have hmore : ∃ all, result = .ok all := by
        apply ih
        intro i hi
        have htest := htests (i + 1) (by rw [findIdx_of_step hop]; omega)
        rwa [show index + (i + 1) + 1 = index + 1 + i + 1 by omega] at htest
      obtain ⟨all, hall⟩ := hmore
      exact ⟨shot :: all, by rw [hall]; rfl⟩

/-- A run breaks off at the first step at which the bounds test has no answer. -/
theorem failed_of_first {result : Except Fault (List Snapshot)} {i : Nat} {fault : Fault}
    (h : Traced setup ops interval phase index rest result s) (hi : i < rest.findIdx (·.isFinish))
    (hbefore : ∀ j < i, ∃ out, setup.outAfter (ops.take (index + j + 1)) = .ok out)
    (hfault : setup.outAfter (ops.take (index + i + 1)) = .error fault) :
    result = .error fault ∧ s.phase = .stopped ∧ s.report = none := by
  induction h generalizing i with
  | ended hend =>
      rw [findIdx_of_end hend] at hi
      exact absurd hi (Nat.not_lt_zero i)
  | failed hop htest hphase hreport =>
      cases i with
      | zero =>
          obtain rfl := Except.error.inj (htest.symm.trans hfault)
          exact ⟨rfl, hphase, hreport⟩
      | succ i =>
          obtain ⟨out, hout⟩ := hbefore 0 (Nat.succ_pos i)
          cases htest.symm.trans hout
  | @step index op rest shot result s hop hshot htraced ih =>
      cases i with
      | zero => cases hshot.bounds.symm.trans hfault
      | succ i =>
          have hmore : result = .error fault ∧ s.phase = .stopped ∧ s.report = none := by
            refine @ih i (by rw [findIdx_of_step hop] at hi; omega) (fun j hj => ?_) ?_
            · have htest := hbefore (j + 1) (by omega)
              rwa [show index + (j + 1) + 1 = index + 1 + j + 1 by omega] at htest
            · rwa [show index + (i + 1) + 1 = index + 1 + i + 1 by omega] at hfault
          obtain ⟨hresult, hphase, hreport⟩ := hmore
          exact ⟨by rw [hresult]; rfl, hphase, hreport⟩

end Traced

/-- Whether a call gave snapshots. -/
def CallResult.isSnapshots : CallResult → Bool
  | .snapshots _ => true
  | _ => false

namespace Bench

open Session (Due Undisturbed)

/-- A bench on which a run goes on undisturbed. -/
structure Draining (setup : Setup) (ops : List Operation) (interval : Float) (id : Nat) (b : Bench)
    (index : Nat) (rest : List Operation) (phase : Phase := .running) : Prop where
  quiet : b.Quiet
  undisturbed : b.session.Undisturbed index rest phase
  due : Due b.session id index rest
  setup : b.session.setup = setup
  operations : b.session.operations = ops
  interval : b.session.interval = interval

variable {perform : Performer} {setup : Setup} {ops : List Operation} {interval : Float}
  {b : Bench} {id index : Nat} {op : Operation} {rest : List Operation} {phase : Phase}

theorem Draining.id_lt (h : Draining setup ops interval id b index rest phase) :
    id < b.session.playbacks.length := by
  cases h.due with
  | created hcreated => exact Session.id_lt_length hcreated
  | shown hshown => exact Session.id_lt_length hshown

theorem Draining.pull_step (hperform : Faithful perform) {out : Bool}
    (h : Draining setup ops interval id b index (op :: rest) phase) (hop : op.isFinish = false)
    (htest : setup.outAfter (ops.take (index + 1)) = .ok out) :
    ∃ b' shot, b.pull perform id = (b', .shown shot) ∧ shot.ShowsStep setup ops index op phase ∧
      Draining setup ops interval id b' (index + 1) rest phase ∧
      b'.session.playbacks[id]? = some (.shown index op rest) := by
  have hid := h.id_lt
  obtain ⟨hquiet, hundisturbed, hdue, rfl, rfl, rfl⟩ := h
  obtain ⟨b', playbacks, last, reply, hlength, hreply, hpull, hsession, hquiet'⟩ :=
    hquiet.pull hperform hdue hundisturbed.stop
  have hawaited := hundisturbed.awaited playbacks
  obtain ⟨hstepped, shot, hresult, hshot⟩ :=
    Session.settle_arrive_shown b.now id last b'.clock hawaited hop htest
  rw [hreply, hresult] at hpull
  rw [hreply, hstepped] at hsession
  have hshown : b'.session.playbacks[id]? = some (.shown index op rest) := by
    rw [hsession]
    exact List.getElem?_set_self (hlength ▸ hid)
  refine ⟨b', shot, hpull, hshot, ⟨hquiet', ?_, .shown hshown, ?_, ?_, ?_⟩, hshown⟩
  · rw [hsession]
    exact (hawaited.stepped b.now out).awaited _
  · rw [hsession]
    rfl
  · rw [hsession]
    rfl
  · rw [hsession]
    rfl

theorem Draining.pull_failed (hperform : Faithful perform) {fault : Fault}
    (h : Draining setup ops interval id b index (op :: rest) phase)
    (hactive : phase = .running ∨ phase = .stopped) (hop : op.isFinish = false)
    (htest : setup.outAfter (ops.take (index + 1)) = .error fault) :
    ∃ b', b.pull perform id = (b', .failed fault) ∧ b'.session.phase = .stopped ∧
      b'.session.report = none ∧ b'.session.playbacks[id]? = some .finished := by
  have hid := h.id_lt
  obtain ⟨hquiet, hundisturbed, hdue, rfl, rfl, rfl⟩ := h
  obtain ⟨b', playbacks, last, reply, hlength, hreply, hpull, hsession, hquiet'⟩ :=
    hquiet.pull hperform hdue hundisturbed.stop
  have hawaited := hundisturbed.awaited playbacks
  obtain ⟨habandoned, hresult⟩ :=
    Session.settle_arrive_failed b.now id last b'.clock hawaited hop htest
  rw [hreply, hresult] at hpull
  rw [hreply, habandoned] at hsession
  rw [← (hawaited.stepped b.now b.session.press.outOfBounds).phase] at hactive
  obtain ⟨hphase, hreport, hfinished⟩ := Session.abandoned_of_active (hlength ▸ hid) hactive
  refine ⟨b', hpull, ?_, ?_, ?_⟩
  · rw [hsession]
    exact hphase
  · rw [hsession]
    exact hreport.trans hundisturbed.report
  · rw [hsession]
    exact hfinished

theorem Draining.pull_end (hperform : Faithful perform)
    (h : Draining setup ops interval id b index rest phase)
    (hend : ∀ op ∈ rest.head?, op.isFinish = true) :
    ∃ b' shot report, b.pull perform id = (b', .shown shot) ∧ b'.session.Over id report ∧
      shot.ShowsEnd interval (ops.take index) report ∧
      report.elapsed = Report.passed (b'.clock - b.session.startTime) := by
  have hid := h.id_lt
  obtain ⟨hquiet, hundisturbed, hdue, rfl, rfl, rfl⟩ := h
  obtain ⟨b', playbacks, last, reply, hlength, hreply, hpull, hsession, hquiet'⟩ :=
    hquiet.pull hperform hdue hundisturbed.stop
  have hawaited := hundisturbed.awaited playbacks
  obtain ⟨shot, report, hover, hresult, hshot, helapsed⟩ :=
    Session.settle_arrive_end b.now last b'.clock hawaited (hlength ▸ hid) hend
  rw [← hreply] at hover hresult
  rw [hresult] at hpull
  exact ⟨b', shot, report, hpull, hsession ▸ hover, hshot, helapsed⟩

/-- A playback that has shown its report has nothing more to show. -/
theorem pull_over {report : Report} (perform : Performer) (h : b.session.Over id report) :
    ∃ b', b.pull perform id = (b', .ended) ∧ b'.session.phase = .completed ∧
      b'.session.report = some report := by
  have hpull : b.session.pull b.now id = b.session.finishPlayback id .ended := by
    rw [Session.pull, h.reported]
  have hidle : ¬ (b.session.setPlayback id .finished).isRunning = true := by
    intro hrunning
    have hphase : b.session.phase = .running := Session.isRunning_iff.mp hrunning
    cases h.phase.symm.trans hphase
  refine ⟨b.take (b.session.finishPlayback id .ended), ?_, ?_⟩
  · rw [Bench.pull, hpull]
    rfl
  · unfold Session.finishPlayback Session.haltIfRunning
    rw [if_neg hidle]
    exact ⟨h.phase, h.report⟩

theorem pullAll_of_shown {b' : Bench} {shot : Snapshot} (fuel : Nat)
    (h : b.pull perform id = (b', .shown shot)) :
    b.pullAll perform (fuel + 1) id =
      ((b'.pullAll perform fuel id).1, (b'.pullAll perform fuel id).2.map (shot :: ·)) := by
  rw [pullAll, h]

theorem pullAll_of_failed {b' : Bench} {fault : Fault} (fuel : Nat)
    (h : b.pull perform id = (b', .failed fault)) :
    b.pullAll perform (fuel + 1) id = (b', .error fault) := by
  rw [pullAll, h]

theorem pullAll_of_ended {b' : Bench} (fuel : Nat) (h : b.pull perform id = (b', .ended)) :
    b.pullAll perform (fuel + 1) id = (b', .ok []) := by
  rw [pullAll, h]

theorem Draining.pullAll_end (hperform : Faithful perform) (fuel : Nat)
    (h : Draining setup ops interval id b index rest phase)
    (hend : ∀ op ∈ rest.head?, op.isFinish = true) :
    Traced setup ops interval phase index rest (b.pullAll perform (fuel + 2) id).2
      (b.pullAll perform (fuel + 2) id).1.session := by
  obtain ⟨b', shot, report, hshown, hover, hshot, _⟩ := h.pull_end hperform hend
  obtain ⟨b'', hended, hphase, hreport⟩ := pull_over perform hover
  rw [pullAll_of_shown (fuel + 1) hshown, pullAll_of_ended fuel hended]
  exact .ended hend hshot hphase hreport

/-- A run that is asked for everything gives its trace. -/
theorem Draining.pullAll (hperform : Faithful perform) (fuel : Nat)
    (h : Draining setup ops interval id b index rest phase)
    (hactive : phase = .running ∨ phase = .stopped) :
    Traced setup ops interval phase index rest (b.pullAll perform (rest.length + fuel + 2) id).2
      (b.pullAll perform (rest.length + fuel + 2) id).1.session := by
  induction rest generalizing b index with
  | nil => exact h.pullAll_end hperform _ (fun op hop => nomatch hop)
  | cons op rest ih =>
      cases hop : op.isFinish with
      | true =>
          apply h.pullAll_end hperform
          intro o ho
          obtain rfl : op = o := Option.some.inj ho
          exact hop
      | false =>
          have hfuel : (op :: rest).length + fuel + 2 = rest.length + fuel + 2 + 1 := by
            rw [List.length_cons]
            omega
          rw [hfuel]
          cases htest : setup.outAfter (ops.take (index + 1)) with
          | ok out =>
              obtain ⟨b', shot, hshown, hshot, hnext, _⟩ := h.pull_step hperform hop htest
              rw [pullAll_of_shown _ hshown]
              exact .step hop hshot (ih hnext)
          | error fault =>
              obtain ⟨b', hfailed, hphase, hreport, _⟩ := h.pull_failed hperform hactive hop htest
              rw [pullAll_of_failed _ hfailed]
              exact .failed hop htest hphase hreport

/-! ## From the start -/

theorem Quiet.startRun (hperform : Faithful perform) (h : b.Quiet) {program : Program}
    (hidle : b.session.phase ≠ .running) (hprogram : b.session.program = some program)
    (herrors : program.errors = []) (kept : Bool) :
    ∃ b', b.startRun perform kept = (b', some b.session.playbacks.length) ∧ b'.runs = b.runs ∧
      Draining b.session.setup program.operations b.session.interval b.session.playbacks.length b'
        0 program.operations (b.session.firstPhase kept) := by
  have hstart := Session.start_of_ready hidle hprogram herrors
  have hstands := (h.take b.session.start).read hperform
  let read := (b.take b.session.start).read perform
  have hsession : read.session = b.session.opened := by
    rw [hstands.session, hstart]
    rfl
  have hops : b.session.operations = program.operations := Session.operations_of_program hprogram
  obtain ⟨playbacks, running, hstarted, hcreated⟩ := b.session.started_opened read.clock kept
  rw [← hsession] at hstarted
  refine ⟨read.take (read.session.started read.clock kept), ?_, hstands.runs, ?_⟩
  · have haccepted : b.session.start.result = true := by rw [hstart]
    have hid : (read.session.started read.clock kept).result = b.session.playbacks.length := by
      rw [Session.result_started, hsession]
      rfl
    rw [Bench.startRun]
    dsimp only
    rw [if_pos haccepted]
    exact congrArg (fun id => (read.take (read.session.started read.clock kept), some id)) hid
  · refine ⟨hstands.quiet.take _, ?_, ?_, ?_, ?_, ?_⟩
    · show Undisturbed (read.session.started read.clock kept).session 0 program.operations _
      rw [hstarted, hsession]
      exact ⟨⟨rfl, hops, Replay.shows_nil _⟩, rfl, rfl⟩
    · show Due (read.session.started read.clock kept).session _ 0 program.operations
      rw [hstarted, hsession, ← hops]
      exact .created hcreated
    · show (read.session.started read.clock kept).session.setup = _
      rw [hstarted, hsession]
      rfl
    · show (read.session.started read.clock kept).session.operations = _
      rw [hstarted, hsession]
      exact hops
    · show (read.session.started read.clock kept).session.interval = _
      rw [hstarted, hsession]
      rfl

theorem playbackOf_last {runs : List (Option Nat)} (h : b.runs = runs ++ [some id]) :
    b.playbackOf none = .ok (some id) := by
  have hlength : b.runs.length = runs.length + 1 := by rw [h, List.length_append]; rfl
  have hindex : (-1 : Int) + b.runs.length = runs.length := by omega
  have hfound : b.runs[runs.length]? = some (some id) := by simp [h]
  have hlast : (if (0 : Int) ≤ runs.length then b.runs[(runs.length : Int).toNat]? else none) =
      some (some id) := by
    rw [if_pos (Int.natCast_nonneg _), Int.toNat_natCast, hfound]
  unfold playbackOf
  simp only [Option.getD_none, show ((-1 : Int) < 0) from by decide, if_true, hindex, hlast]

theorem Draining.drain (hperform : Faithful perform)
    (h : Draining setup ops interval id b 0 rest phase) (hactive : phase = .running ∨ phase = .stopped) :
    Traced setup ops interval phase 0 rest (b.drain perform id).2 (b.drain perform id).1.session := by
  have hremaining : b.session.remaining id = rest.length + 0 + 2 := by
    cases h.due with
    | created hcreated => rw [Session.remaining, hcreated]
  unfold Bench.drain
  rw [hremaining]
  exact h.pullAll hperform 0 hactive

/-- Draining the run that was just started gives its trace. -/
theorem Quiet.run_drain (h : b.Quiet) (m n : Nat) {program : Program}
    (hidle : b.session.phase ≠ .running) (hprogram : b.session.program = some program)
    (herrors : program.errors = []) (kept : Bool) :
    ∃ b' result, (b.perform (m + 1) (.run kept)).1.perform (n + 1) (.drain none) =
        (b', resultOf .snapshots result) ∧
      Traced b.session.setup program.operations b.session.interval (b.session.firstPhase kept) 0
        program.operations result b'.session := by
  obtain ⟨b', hstart, hruns, hdraining⟩ :=
    h.startRun (faithful_perform m) hidle hprogram herrors kept
  let started : Bench := { b' with runs := b'.runs ++ [some b.session.playbacks.length] }
  have hrun : (b.perform (m + 1) (.run kept)).1 = started := by
    rw [perform_succ, performWith, hstart]
  have hdrains : Draining b.session.setup program.operations b.session.interval
      b.session.playbacks.length started 0 program.operations (b.session.firstPhase kept) :=
    ⟨⟨hdraining.quiet.waitPlans, hdraining.quiet.readingPlans⟩, hdraining.undisturbed,
      hdraining.due, hdraining.setup, hdraining.operations, hdraining.interval⟩
  have hlast : started.playbackOf none = .ok (some b.session.playbacks.length) :=
    playbackOf_last rfl
  refine ⟨_, _, ?_, hdrains.drain (faithful_perform n) (b.session.firstPhase_active kept)⟩
  rw [hrun, perform_succ, performWith, onRun, hlast]

/-- What is seen of a run that is drained on a quiet bench, whatever was done before: one step for each
operation before the first end, as the trail has it, and the report that the session keeps. It breaks
off where the bounds test has no answer, and its steps are those of a stopped run if the start let go
of a playback that stood at a step or at its report. -/
theorem drain_shows_trail (m n : Nat) {b : Bench} {program : Program} (hquiet : b.Quiet)
    (hidle : b.session.phase ≠ .running) (hprogram : b.session.program = some program)
    (herrors : program.errors = []) (kept : Bool) :
    let ops := program.operations
    let setup := b.session.setup
    let count := ops.findIdx (·.isFinish)
    let drained := (b.perform (m + 1) (.run kept)).1.perform (n + 1) (.drain none)
    ((∀ i < count, ∃ out, setup.outAfter (ops.take (i + 1)) = .ok out) →
      ∃ shots last report, drained.2 = .snapshots (shots ++ [last]) ∧ shots.length = count ∧
        (∀ i op, i < count → ops[i]? = some op →
          ∃ shot, shots[i]? = some shot ∧
            shot.ShowsStep setup ops i op (b.session.firstPhase kept)) ∧
        last.ShowsEnd b.session.interval (ops.take count) report ∧
        drained.1.session.phase = .completed ∧ drained.1.session.report = some report) ∧
    (∀ i fault, i < count → (∀ j < i, ∃ out, setup.outAfter (ops.take (j + 1)) = .ok out) →
      setup.outAfter (ops.take (i + 1)) = .error fault →
        drained.2 = .failed fault ∧ drained.1.session.phase = .stopped ∧
          drained.1.session.report = none) ∧
    (setup.IsMeasured → (∀ op ∈ ops, op.IsFinite) →
      ∀ i < count, ∃ out, setup.outAfter (ops.take (i + 1)) = .ok out) ∧
    (kept = true ∨ b.session.suspended = none → b.session.firstPhase kept = .running) := by
  obtain ⟨b', result, hdrained, htraced⟩ := hquiet.run_drain m n hidle hprogram herrors kept
  dsimp only
  rw [hdrained]
  refine ⟨?_, ?_, ?_, b.session.firstPhase_of_kept⟩
  · intro htests
    obtain ⟨all, hall⟩ := htraced.exists_snapshots (by simpa only [Nat.zero_add] using htests)
    obtain ⟨shots, last, report, hshape, hlength, hshots, hlast, hphase, hreport⟩ :=
      htraced.snapshots hall
    simp only [Nat.zero_add] at hshots hlast
    refine ⟨shots, last, report, ?_, hlength, hshots, hlast, hphase, hreport⟩
    rw [hall, hshape]
    rfl
  · intro i fault hi hbefore hfault
    obtain ⟨hresult, hphase, hreport⟩ :=
      htraced.failed_of_first hi (by simpa only [Nat.zero_add] using hbefore)
        (by simpa only [Nat.zero_add] using hfault)
    refine ⟨?_, hphase, hreport⟩
    rw [hresult]
    rfl
  · intro hmeasured hfinite i hi
    apply hmeasured.exists_outAfter
    intro op hop
    exact hfinite op (List.mem_of_mem_take hop)

/-- Two hits with a punch of size 8: one above a sheet of height 300, and one at its lower edge. -/
def twoHits : Program :=
  ⟨[.hit 0 50.0 400.0 (.real 8.0) 1, .hit 1 50.0 4.0 (.real 8.0) 1, .finish 1],
    [.absolute, .absolute, .absolute], []⟩

theorem isFinite_twoHits : ∀ op ∈ twoHits.operations, op.IsFinite := by
  simp only [twoHits, List.forall_mem_cons]
  refine ⟨Operation.isFinite_hit _ _ _ ?_ ?_, Operation.isFinite_hit _ _ _ ?_ ?_,
    Operation.isFinite_finish _, fun _ hop => nomatch hop⟩
  all_goals decide +kernel

/-- A fresh bench with a program, on a sheet of some width and of height 300. -/
def loaded (width : Float) (program : Program) : Bench :=
  { session := { Session.plain with sheet := ⟨width, 300.0⟩ }.after (.loadProgram program)
    now := default }

theorem quiet_loaded (width : Float) (program : Program) : (loaded width program).Quiet :=
  ⟨fun _ hplan => (nomatch hplan), fun _ hplan => (nomatch hplan)⟩

theorem isMeasured_loaded (program : Program) : (loaded 300.0 program).session.setup.IsMeasured :=
  have hbounded : Sheet.IsBounded ⟨300.0, 300.0⟩ := ⟨by decide +kernel, by decide +kernel⟩
  ⟨hbounded, fun _ => ⟨_, rfl⟩⟩

theorem drain_shows_trail_twoHits :
    ∃ (shots : List Snapshot) (last : Snapshot) (report : Report),
      (((loaded 300.0 twoHits).perform 1 .run).1.perform 1 (.drain none)).2 =
        .snapshots (shots ++ [last]) ∧
      shots.length = 2 ∧ report.Sums 500.0 (twoHits.operations.take 2) := by
  obtain ⟨htrace, _, htests, _⟩ :=
    drain_shows_trail 0 0 (quiet_loaded 300.0 twoHits) Phase.noConfusion rfl rfl true
  obtain ⟨shots, last, report, hdrained, hlength, _, hlast, _⟩ :=
    htrace (htests (isMeasured_loaded twoHits) isFinite_twoHits)
  exact ⟨shots, last, report, hdrained, hlength, hlast.sums⟩

/-- On a sheet without end a run can break off although all positions are finite. -/
theorem drain_fails_on_endless_sheet :
    let b := loaded Decimal.infinity twoHits
    Session.Reached (fun _ _ => True) b.session ∧ b.Quiet ∧ b.session.phase = .idle ∧
      b.session.program = some twoHits ∧ twoHits.errors = [] ∧
      (∀ op ∈ twoHits.operations, op.IsFinite) ∧
      ∀ shots, ((b.perform 1 .run).1.perform 1 (.drain none)).2 ≠ .snapshots shots := by
  intro b
  have hfresh : Session.Reached (fun _ _ => True)
      { Session.plain with sheet := ⟨Decimal.infinity, 300.0⟩ } :=
    .fresh .empty ⟨Decimal.infinity, 300.0⟩ 500.0 (.real 8.0) 100
  have hfails : ((b.perform 1 .run).1.perform 1 (.drain none)).2.isSnapshots = false := by
    decide +kernel
  refine ⟨hfresh.event (.loadProgram twoHits) trivial, quiet_loaded _ _, rfl, rfl, rfl,
    isFinite_twoHits, fun shots hshots => ?_⟩
  rw [hshots] at hfails
  cases hfails

end Bench

end TurretPunch
