import TurretPunch.Proofs.Press.Bounds
import TurretPunch.Proofs.Session.Account
import TurretPunch.Proofs.Session.Quiet

namespace TurretPunch

/-!
# The trace of a run

A run that nothing comes in between of shows the operations before the first end one by one, each
with what the press shows of the trail so far, and at last the report. It breaks off at the first
operation after which the bounds test has no answer.
-/

/-- A snapshot shows the press right after the operation `op` at an index. -/
structure Snapshot.ShowsStep (setup : Setup) (ops : List Operation) (index : Nat) (op : Operation)
    (shot : Snapshot) (phase : Phase := .running) : Prop where
  found : ops[index]? = some op
  step : shot.step = index
  operation : shot.operation = some op
  line : shot.line = op.line
  phase : shot.phase = phase
  report : shot.report = none
  hole : shot.hole = op.hole?
  tool : shot.tool = Trail.tool (ops.take (index + 1))
  position : (shot.x, shot.y) = Trail.position (ops.take (index + 1))
  travel : shot.travel = Trail.travel (ops.take (index + 1))
  bounds : setup.outAfter (ops.take (index + 1)) = .ok shot.outOfBounds

/-- A report sums up the trail of operations. -/
structure Report.Sums (interval : Float) (ops : List Operation) (report : Report) : Prop where
  holes : report.holes = (Trail.holes ops).length
  travel : report.travel = Trail.travel ops
  hitSeconds : report.hitSeconds = Trail.hitTime interval ops / 1000.0
  tools : ∀ tool, tool ∈ report.tools ↔ tool ∈ Trail.tools ops
  increasing : report.tools.Pairwise (· < ·)

/-- A snapshot shows the end of a run that made operations, with its report. -/
structure Snapshot.ShowsEnd (interval : Float) (ops : List Operation) (shot : Snapshot)
    (report : Report) : Prop where
  phase : shot.phase = .completed
  reported : shot.report = some report
  position : (shot.x, shot.y) = Trail.position ops
  tool : shot.tool = Trail.tool ops
  travel : shot.travel = Trail.travel ops
  sums : report.Sums interval ops

/-- The time that a report takes for the one that passed. -/
def Report.passed (seconds : Float) : Float := if seconds < 0.0 then 0.0 else seconds

namespace Session

/-- A run of which no stop was requested. -/
structure Undisturbed (s : Session) (index : Nat) (rest : List Operation) (phase : Phase := .running) :
    Prop extends Playing s index rest phase where
  stop : s.stopRequested = false
  report : s.report = none

variable {s : Session} {index : Nat} {op : Operation} {rest : List Operation} {phase : Phase}

theorem Playing.pressLeaves (h : s.Playing index rest phase) :
    s.pressLeaves = s.setup.outAfter (s.operations.take index) := by
  have hposition : (s.press.x, s.press.y) = Trail.position (s.operations.take index) :=
    h.shows.position
  have htool : s.press.tool = Trail.tool (s.operations.take index) := h.shows.tool
  unfold Session.pressLeaves Setup.outAfter
  rw [← hposition, htool]

theorem Playing.sums_reportAt (h : s.Playing index rest phase) (now : Timestamp) (time : Float) :
    (s.reportAt now time).Sums s.interval (s.operations.take index) where
  holes := by
    have hholes : s.press.holes = Trail.holes (s.operations.take index) := h.shows.holes
    show (s.press.holes.length : Int) = _
    rw [hholes]
  travel := h.shows.travel
  hitSeconds := congrArg (· / 1000.0) h.shows.hitTime
  tools := by
    intro tool
    exact List.mem_mergeSort.trans (h.shows.used tool)
  increasing := by
    have hsorted : s.press.used.mergeSort = s.press.used :=
      List.mergeSort_of_pairwise
        (h.shows.increasing.imp fun hlt => decide_eq_true (Int.le_of_lt hlt))
    show s.press.used.mergeSort.Pairwise (· < ·)
    rw [hsorted]
    exact h.shows.increasing

namespace Undisturbed

theorem stepped (h : s.Undisturbed index (op :: rest) phase) (now : Timestamp) (out : Bool) :
    (s.stepped now index op out).Undisturbed (index + 1) rest phase :=
  ⟨h.toPlaying.stepped now out, h.stop, h.report⟩

theorem pressLeaves_stepped (h : s.Undisturbed index (op :: rest) phase) (now : Timestamp) (out : Bool) :
    (s.stepped now index op out).pressLeaves = s.setup.outAfter (s.operations.take (index + 1)) :=
  (h.toPlaying.stepped now out).pressLeaves

theorem showsStep (h : s.Undisturbed index (op :: rest) phase) (now : Timestamp) {out : Bool}
    (htest : s.setup.outAfter (s.operations.take (index + 1)) = .ok out) (entry : Option LogEntry) :
    Snapshot.ShowsStep s.setup s.operations index op
      ((s.stepped now index op out).snapshot (some op) op.hole? entry) phase := by
  have hshows := (h.toPlaying.stepped now out).shows
  exact {
    found := h.getElem?
    step := by cases op <;> rfl
    operation := rfl
    line := by cases op <;> rfl
    phase := h.phase
    report := h.report
    hole := rfl
    tool := hshows.tool
    position := hshows.position
    travel := hshows.travel
    bounds := htest }

/-- At its end a run shows what it sums up. -/
theorem showsEnd (h : s.Undisturbed index rest phase) (now : Timestamp) (id : Nat) (time : Float)
    (last : Option Operation) (entry : Option LogEntry) :
    Snapshot.ShowsEnd s.interval (s.operations.take index)
      ((s.completed now id time).snapshot last none entry) (s.reportAt now time) where
  phase := rfl
  reported := rfl
  position := h.shows.position
  tool := h.shows.tool
  travel := h.shows.travel
  sums := h.toPlaying.sums_reportAt now time

/-- The end of a program changes nothing of the trail. -/
theorem stepped_finish (h : s.Undisturbed index (op :: rest) phase) (hop : op.isFinish = true)
    (now : Timestamp) :
    (s.stepped now index op s.press.outOfBounds).Undisturbed index (op :: rest) phase := by
  have hgathered : s.press.gathered.add s.interval op = s.press.gathered := by
    cases op with
    | finish => rfl
    | toolChange | move | hit => cases hop
  refine ⟨⟨h.phase, h.ahead, ?_⟩, h.stop, h.report⟩
  rw [gathered_stepped, hgathered]
  exact h.shows

theorem awaited (h : s.Undisturbed index rest phase) (playbacks : List Playback) :
    Undisturbed { s with playbacks } index rest phase :=
  ⟨⟨h.phase, h.ahead, h.shows⟩, h.stop, h.report⟩

end Undisturbed

theorem settle_arrive_shown {out : Bool} (now : Timestamp) (id : Nat) (last : Option Operation)
    (time : Float) (h : s.Undisturbed index (op :: rest) phase) (hop : op.isFinish = false)
    (htest : s.setup.outAfter (s.operations.take (index + 1)) = .ok out) :
    (settle (s.arrive now id index last (op :: rest)) now id time).session =
        (s.stepped now index op out).setPlayback id (.shown index op rest) ∧
      ∃ shot, (settle (s.arrive now id index last (op :: rest)) now id time).result = .shown shot ∧
        Snapshot.ShowsStep s.setup s.operations index op shot phase := by
  obtain ⟨hmade, entry, hsnapshot⟩ :=
    makeStep_of_answer h.getElem? hop ((h.pressLeaves_stepped now s.press.outOfBounds).trans htest)
  obtain ⟨hsession, hshown⟩ := play_of_snapshot id rest hsnapshot hop
  have hsettle : settle (s.play now id index op rest) now id time = s.play now id index op rest :=
    settle_of_ne now id time (by simp [hshown])
  rw [arrive_cons, hsettle, hsession, hmade]
  exact ⟨rfl, _, hshown, h.showsStep now htest (some entry)⟩

theorem settle_arrive_failed {fault : Fault} (now : Timestamp) (id : Nat)
    (last : Option Operation) (time : Float) (h : s.Undisturbed index (op :: rest) phase)
    (hop : op.isFinish = false)
    (htest : s.setup.outAfter (s.operations.take (index + 1)) = .error fault) :
    (settle (s.arrive now id index last (op :: rest)) now id time).session =
        (s.stepped now index op s.press.outOfBounds).abandoned id ∧
      (settle (s.arrive now id index last (op :: rest)) now id time).result = .failed fault := by
  obtain ⟨hmade, hfault⟩ :=
    makeStep_of_fault h.getElem? hop ((h.pressLeaves_stepped now s.press.outOfBounds).trans htest)
  obtain ⟨hsession, hfailed⟩ := play_of_fault id op rest hfault
  have hsettle : settle (s.play now id index op rest) now id time = s.play now id index op rest :=
    settle_of_ne now id time (by simp [hfailed])
  rw [arrive_cons, hsettle, hsession, hmade]
  exact ⟨rfl, hfailed⟩

theorem abandoned_of_active {id : Nat} (hid : id < s.playbacks.length)
    (h : s.phase = .running ∨ s.phase = .stopped) :
    (s.abandoned id).phase = .stopped ∧ (s.abandoned id).report = s.report ∧
      (s.abandoned id).playbacks[id]? = some .finished := by
  rcases h with hrunning | hstopped
  · rw [abandoned_eq_halt id hrunning]
    exact ⟨rfl, rfl, List.getElem?_set_self hid⟩
  · have hidle : ¬ (s.setPlayback id .finished).isRunning = true := by
      rw [isRunning_iff]
      exact fun hrunning => Phase.noConfusion (hstopped.symm.trans hrunning)
    rw [abandoned, haltIfRunning, if_neg hidle]
    exact ⟨hstopped, rfl, List.getElem?_set_self hid⟩

/-- A run is over that has a report, which its playback has shown. -/
structure Over (s : Session) (id : Nat) (report : Report) : Prop where
  phase : s.phase = .completed
  report : s.report = some report
  reported : s.playbacks[id]? = some .reported

theorem over_completed {id : Nat} (now : Timestamp) (time : Float) (hid : id < s.playbacks.length) :
    (s.completed now id time).Over id (s.reportAt now time) :=
  ⟨rfl, rfl, List.getElem?_set_self hid⟩

/-- A run is at its end where no operation is left, or the next one is the end. -/
theorem settle_arrive_end {id : Nat} (now : Timestamp) (last : Option Operation) (time : Float)
    (h : s.Undisturbed index rest phase) (hid : id < s.playbacks.length)
    (hend : ∀ op ∈ rest.head?, op.isFinish = true) :
    ∃ shot report, (settle (s.arrive now id index last rest) now id time).session.Over id report ∧
      (settle (s.arrive now id index last rest) now id time).result = .shown shot ∧
      Snapshot.ShowsEnd s.interval (s.operations.take index) shot report ∧
      report.elapsed = Report.passed (time - s.startTime) := by
  cases rest with
  | nil =>
      have hclock : (s.arrive now id index last []).result = .readClock := rfl
      obtain ⟨hsession, hresult⟩ := closeAt_complete now time last none hid
      rw [settle_of_readClock now id time hclock]
      refine ⟨_, s.reportAt now time, ?_, hresult, h.showsEnd now id time last none, rfl⟩
      exact hsession ▸ over_completed now time hid
  | cons op rest =>
      have hop : op.isFinish = true := hend op rfl
      obtain ⟨hmade, entry, hsnapshot⟩ := makeStep_of_isFinish now h.getElem? hop
      obtain ⟨hsession, hclock⟩ := play_of_isFinish id rest hsnapshot hop
      have hfinished := h.stepped_finish hop now
      let t := s.stepped now index op s.press.outOfBounds
      obtain ⟨hcompleted, hshown⟩ :=
        closeAt_complete (s := t) now time (some op)
          (t.snapshot (some op) none (some entry)).entry hid
      have hsettle : settle (s.arrive now id index last (op :: rest)) now id time =
          (t.complete id (some op) (t.snapshot (some op) none (some entry)).entry).session.closeAt
            now id time := by
        rw [arrive_cons, settle_of_readClock now id time hclock, hsession, hmade]
      rw [hsettle]
      refine ⟨_, t.reportAt now time, ?_, hshown, hfinished.showsEnd now id time _ _, rfl⟩
      exact hcompleted ▸ over_completed now time hid

end Session

end TurretPunch
