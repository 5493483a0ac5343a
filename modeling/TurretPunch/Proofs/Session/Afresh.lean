import TurretPunch.Proofs.Session.Origin
import TurretPunch.Proofs.Session.Renewal
import TurretPunch.Proofs.Session.Succession

namespace TurretPunch

/-!
# Sessions that start afresh

A session that was reset shows the same from then on as a fresh session that has loaded what it holds,
and so does a session that has loaded a text or a program, from that call on.
-/

namespace Session

/-- The playback of the last run does not stand at a step or at its report. -/
def IsSettled (s : Session) : Prop := s.suspended = none

/-- A fresh session with the same turret, on the same sheet and with the same settings. -/
def anew (s : Session) : Session :=
  { turret := s.turret, sheet := s.sheet, interval := s.interval, fallback := s.fallback
    logRoom := s.logRoom }

/-- What can be seen of a session: neither its playbacks, nor which of them belongs to the last run,
nor when that run was started. -/
def seen (s : Session) : Session := { s with playbacks := [], current := none, startTime := 0.0 }

variable {settled : Prop} {front : List Playback} {s s₀ : Session}

theorem Renewed.seen (h : Renewed settled front s s₀) : s.seen = s₀.seen := by
  obtain ⟨current, time, rfl⟩ := h.behind
  rfl

theorem isUnplayed_anew (s : Session) : s.anew.IsUnplayed :=
  ⟨by simp [anew, isRunning], rfl, rfl⟩

/-- A fresh session that holds the same. -/
def reloaded (s : Session) : Session := { s.anew with program := s.program, text := s.text }

theorem renewed_cleared (s : Session) : Renewed s.IsSettled s.playbacks s.cleared s.reloaded := by
  have hunplayed : s.reloaded.IsUnplayed := ⟨s.isUnplayed_anew.idle, rfl, rfl⟩
  have hbehind : s.cleared = s.reloaded.behind s.playbacks s.current s.startTime := by
    simp [cleared, reloaded, anew, behind]
  rw [hbehind]
  refine .unplayed hunplayed s.current s.startTime fun hsettled => ?_
  rw [← hbehind]
  exact hsettled

theorem renewed_accept (s : Session) (program : Program) (text : Text.Points) :
    (s.accept program text).Renewed s.IsSettled s.playbacks (s.anew.accept program text) :=
  ⟨renewed_cleared { s with program := some program, text }, rfl, rfl⟩

theorem renewed_load (hidle : ¬ s.isRunning = true) {text : Text.Points} {program : Program}
    (hread : Program.ofText s.tooling text = .ok program) :
    (s.load text).Renewed s.IsSettled s.playbacks (s.anew.load text) := by
  have hread' : Program.ofText s.anew.tooling text = .ok program := hread
  have haccepted := s.renewed_accept program text
  unfold Session.load
  rw [if_neg hidle, if_neg s.isUnplayed_anew.idle, hread, hread']
  exact ⟨haccepted.session, rfl, rfl⟩

theorem renewed_loadProgram (hidle : ¬ s.isRunning = true) (program : Program) :
    (s.loadProgram program).Renewed s.IsSettled s.playbacks (s.anew.loadProgram program) := by
  unfold Session.loadProgram
  rw [if_neg hidle, if_neg s.isUnplayed_anew.idle]
  exact s.renewed_accept program ""

/-- The calls that load what a session holds make a fresh session hold it, too. -/
theorem reloaded_of_loadedBy {calls : List Call} (h : s.holding.LoadedBy calls) :
    calls = [] ∧ s.anew = s.reloaded ∨
      (∃ program, calls = [.loadProgram program] ∧
        (s.anew.loadProgram program).session = s.reloaded) ∨
      ∃ text, calls = [.load text] ∧ (s.anew.load text).session = s.reloaded := by
  have hidle := s.isUnplayed_anew.idle
  generalize hheld : s.holding = held at h
  cases h with
  | nothing =>
      obtain ⟨_, hprogram, htext⟩ := Holding.mk.injEq .. ▸ hheld
      exact Or.inl ⟨rfl, by rw [reloaded, hprogram, htext]; rfl⟩
  | program _ program =>
      obtain ⟨_, hprogram, htext⟩ := Holding.mk.injEq .. ▸ hheld
      right
      left
      refine ⟨program, rfl, ?_⟩
      rw [Session.loadProgram, if_neg hidle, reloaded, hprogram, htext]
      rfl
  | @text _ text program hread =>
      obtain ⟨htooling, hprogram, htext⟩ := Holding.mk.injEq .. ▸ hheld
      have hread' : Program.ofText s.anew.tooling text = .ok program := by
        rw [← hread, ← htooling]
        rfl
      right
      right
      refine ⟨text, rfl, ?_⟩
      rw [Session.load, if_neg hidle, hread', reloaded, hprogram, htext]
      rfl

end Session

namespace Bench

def Stage.seen (stage : Stage) : Stage := { stage with session := stage.session.seen }

/-- What is seen of a script. -/
def shows (fuel : Nat) (b : Bench) (calls : List Call) : List Stage :=
  (performAll fuel b calls).map Stage.seen

/-- A bench on which the runs that were made so far cannot be called on any more. -/
def withoutRuns (b : Bench) : Bench := { b with runs := [] }

/-- The bench with a fresh session in place of its own. -/
def anew (b : Bench) : Bench := { b with session := b.session.anew, runs := [] }

variable {settled : Prop} {front : List Playback} {b b₀ : Bench}

theorem Renewed.unseen (h : Renewed settled front b b₀) : Renewed settled front b.unseen b₀.unseen :=
  ⟨h.session, congrArg Bench.unseen h.rest, h.waitPlans, h.readingPlans⟩

theorem shows_cons (fuel : Nat) (b : Bench) (call : Call) (calls : List Call) :
    b.shows fuel (call :: calls) =
      (stageOf (b.unseen.perform fuel call)).seen ::
        (b.unseen.perform fuel call).1.shows fuel calls := rfl

theorem Alike.stage {given given₀ : Bench × CallResult} (h : Alike settled front given given₀) :
    (stageOf given).seen = (stageOf given₀).seen := by
  have hnotices : given.1.notices = given₀.1.notices := by
    rw [h.bench.rest]
    rfl
  have hwaits : given.1.waits = given₀.1.waits := by
    rw [h.bench.rest]
    rfl
  have hnested : given.1.nested = given₀.1.nested := by
    rw [h.bench.rest]
    rfl
  simp only [stageOf, Stage.seen, h.result, h.bench.session.seen, hnotices, hwaits, hnested]

theorem Renewed.shows (fuel : Nat) {calls : List Call} (h : Renewed settled front b.unseen b₀.unseen)
    (hcalls : ∀ call ∈ calls, call.Spares settled) : b.shows fuel calls = b₀.shows fuel calls := by
  induction calls generalizing b b₀ with
  | nil => rfl
  | cons call calls ih =>
      have halike := (renewing_perform fuel).alike h (hcalls call List.mem_cons_self)
      rw [shows_cons, shows_cons, halike.stage]
      congr 1
      apply ih halike.bench.unseen
      exact fun other hother => hcalls other (List.mem_cons_of_mem _ hother)

theorem Alike.shows {fuel : Nat} {call : Call} {calls : List Call}
    (h : Alike settled front (b.unseen.perform fuel call) (b₀.unseen.perform fuel call))
    (hcalls : ∀ call ∈ calls, call.Spares settled) :
    b.shows fuel (call :: calls) = b₀.shows fuel (call :: calls) := by
  rw [shows_cons, shows_cons, h.stage, h.bench.unseen.shows fuel hcalls]

/-- A bench on which nothing is planned that a reading of the clock would call back, now or later, and
no run that would let go of one that is not settled. -/
structure Spares (settled : Prop) (b : Bench) : Prop where
  waitPlans : ∀ plan ∈ b.waitPlans, plan.2.Spares settled
  readingPlans : ∀ plan ∈ b.readingPlans, plan.2.IsClock

theorem Spares.alike {α : Type} {reply reply₀ : Reply α} (h : b.Spares settled)
    (hreply : reply.Renewed settled front reply₀) :
    Alike settled front (b.withoutRuns.unseen.take reply, reply.result)
      (b.anew.unseen.take reply₀, reply₀.result) := by
  refine ⟨⟨hreply.session, ?_, h.waitPlans, h.readingPlans⟩, hreply.result⟩
  rw [Bench.take, Bench.take, hreply.notices]
  rfl

theorem Spares.renewed {α β : Type} {reply : Reply α} {reply₀ : Reply β} (h : b.Spares settled)
    (hsession : Session.Renewed settled front reply.session reply₀.session) :
    Renewed settled front (b.withoutRuns.unseen.take reply).unseen (b.anew.unseen.take reply₀).unseen :=
  ⟨hsession, rfl, h.waitPlans, h.readingPlans⟩

theorem Spares.shows_reset {reload calls : List Call} (h : b.Spares b.session.IsSettled)
    (hidle : ¬ b.session.isRunning = true) (hreload : b.session.holding.LoadedBy reload)
    (hcalls : ∀ call ∈ calls, call.Spares b.session.IsSettled) (fuel : Nat) :
    (b.withoutRuns.shows (fuel + 1) (.reset :: calls)).drop 1 =
      (b.anew.shows (fuel + 1) (reload ++ calls)).drop reload.length := by
  have hreset : Session.Renewed b.session.IsSettled b.session.playbacks b.session.reset.session
      b.session.reloaded := by
    rw [Session.reset, if_neg hidle]
    exact b.session.renewed_cleared
  rcases Session.reloaded_of_loadedBy hreload with
    ⟨rfl, hreloaded⟩ | ⟨program, rfl, hreloaded⟩ | ⟨text, rfl, hreloaded⟩
  · rw [← hreloaded] at hreset
    have hbench : Renewed b.session.IsSettled b.session.playbacks
        (b.withoutRuns.unseen.take b.session.reset).unseen b.anew.unseen :=
      ⟨hreset, rfl, h.waitPlans, h.readingPlans⟩
    exact hbench.shows (fuel + 1) hcalls
  · rw [← hreloaded] at hreset
    exact (h.renewed hreset).shows (fuel + 1) hcalls
  · rw [← hreloaded] at hreset
    exact (h.renewed hreset).shows (fuel + 1) hcalls

/-- The phase of a run that starts depends on what the session lets go of. -/
theorem phase_run {perform : Performer} (hperform : Faithful perform)
    (hplans : ∀ plan ∈ b.readingPlans, plan.2.IsClock) (hidle : b.session.phase ≠ .running)
    {program : Program} (hprogram : b.session.program = some program) (herrors : program.errors = [])
    (kept : Bool) :
    (performWith perform b (.run kept)).1.session.phase = b.session.firstPhase kept := by
  have hstart := Session.start_of_ready hidle hprogram herrors
  obtain ⟨readingCount, readingPlans, clock, nested, hread, _⟩ :=
    read_of_isClock hperform (b := b.take b.session.start) hplans
  rw [performWith, startRun]
  dsimp only
  rw [hread, if_pos (by rw [hstart]), hstart]
  obtain ⟨playbacks, running, hstarted, _⟩ := b.session.started_opened clock kept
  exact congrArg Session.phase hstarted

/-- A reset and a load leave nothing of what a session did before: whatever is called on it later shows
the same as in a fresh session that loads the same, as long as only later runs are called on and the
clock calls nothing back. Only the playback of the last run can still make a difference: if it stands
at a step or at its report and is let go, the next run is stopped as soon as it starts. -/
theorem reset_and_load_start_afresh (h : b.session.Arisen) (hidle : b.session.phase ≠ .running)
    (hclock : b.Spares b.session.IsSettled) {calls : List Call}
    (hcalls : ∀ call ∈ calls, call.Spares b.session.IsSettled) (fuel : Nat) :
    (∃ reload, b.session.holding.LoadedBy reload ∧
      (b.withoutRuns.shows (fuel + 1) (.reset :: calls)).drop 1 =
        (b.anew.shows (fuel + 1) (reload ++ calls)).drop reload.length) ∧
    (∀ program, b.withoutRuns.shows (fuel + 1) (.loadProgram program :: calls) =
      b.anew.shows (fuel + 1) (.loadProgram program :: calls)) ∧
    (∀ text,
      (∀ program, Program.ofText b.session.tooling text = .ok program →
        b.withoutRuns.shows (fuel + 1) (.load text :: calls) =
          b.anew.shows (fuel + 1) (.load text :: calls)) ∧
      ∀ fault, Program.ofText b.session.tooling text = .error fault →
        (b.session.load text).session = b.session ∧
          (b.session.load text).result = .error fault) ∧
    ∀ program kept, b.session.program = some program → program.errors = [] →
      ((b.withoutRuns.perform (fuel + 1) .reset).1.perform (fuel + 1) (.run kept)).1.session.phase =
        b.session.firstPhase kept := by
  have hreset : ¬ b.session.isRunning = true := fun hrunning =>
    hidle (Session.isRunning_iff.mp hrunning)
  refine ⟨?_, ?_, ?_, ?_⟩
  · obtain ⟨reload, hreload⟩ := h.exists_loadedBy
    exact ⟨reload, hreload, hclock.shows_reset hreset hreload hcalls fuel⟩
  · intro program
    have halike := hclock.alike (Session.renewed_loadProgram hreset program)
    exact (halike.map (CallResult.ofOption .program)).shows hcalls
  · intro text
    constructor
    · intro program hread
      have halike := hclock.alike (Session.renewed_load hreset hread)
      exact (halike.map (resultOf (.ofOption .program))).shows hcalls
    · intro fault hread
      unfold Session.load
      rw [if_neg hreset, hread]
      exact ⟨rfl, rfl⟩
  · intro program kept hprogram herrors
    have hcleared : (b.withoutRuns.perform (fuel + 1) .reset).1.session = b.session.cleared := by
      show b.session.reset.session = _
      rw [Session.reset, if_neg hreset]
    have hrun := phase_run (b := (b.withoutRuns.perform (fuel + 1) .reset).1) (faithful_perform fuel)
      hclock.readingPlans (by rw [hcleared]; exact Phase.noConfusion) (by rw [hcleared]; exact hprogram)
      herrors kept
    rw [hcleared] at hrun
    exact hrun

/-- A fresh bench on which a script was carried out. -/
def carriedOut (calls : List Call) : Bench :=
  calls.foldl (fun b call => (b.perform 1 call).1) { session := .plain, now := default }

theorem arisen_carriedOut (calls : List Call) : (carriedOut calls).session.Arisen := by
  have hfresh : Session.Arisen .plain := .fresh .empty ⟨300.0, 200.0⟩ 500.0 (.real 8.0) 100
  exact List.foldlRecOn calls _ (motive := fun b : Bench => b.session.Arisen) hfresh
    fun b h call _ => keeps_perform Session.lasting_arisen 1 b call h

theorem reset_and_load_start_afresh_completed :
    let b := carriedOut [.load "G81 X50 Y40 D8", .complete]
    b.session.phase = .completed ∧
      ∃ reload, b.session.holding.LoadedBy reload ∧
        (b.withoutRuns.shows 2 [.reset, .run false, .next none, .stop]).drop 1 =
          (b.anew.shows 2 (reload ++ [.run false, .next none, .stop])).drop reload.length := by
  intro b
  have hphase : b.session.phase = .completed := by decide +kernel
  have hidle : b.session.phase ≠ .running := by simp [hphase]
  have hsettled : b.session.IsSettled := by
    show b.session.suspended = none
    decide +kernel
  have hplans : b.waitPlans = [] ∧ b.readingPlans = [] := by decide +kernel
  have hclock : b.Spares b.session.IsSettled :=
    ⟨by simp [hplans.1], by simp [hplans.2]⟩
  have hcalls : ∀ call ∈ [Call.run false, .next none, .stop], call.Spares b.session.IsSettled := by
    simp [Call.Spares, hsettled]
  obtain ⟨hreset, _⟩ :=
    reset_and_load_start_afresh (arisen_carriedOut _) hidle hclock hcalls 1
  exact ⟨hphase, hreset⟩

/-- A run that was left at its report stops the next one, even after a reset. A run that is stopped and
reset while it waits goes on. -/
theorem run_left_at_report_outlives_reset :
    let b := carriedOut [.loadProgram Session.oneHit, .run, .next none, .next none]
    b.session.Arisen ∧ b.session.phase = .completed ∧
      ((b.withoutRuns.shows 1 [.reset, .run false]).drop 1).map (·.session.phase) = [.stopped] ∧
      ((b.anew.shows 1 [.loadProgram Session.oneHit, .run false]).drop 1).map (·.session.phase) =
        [.running] ∧
      ((b.shows 2 [.onWait 1 (.close (some 0)), .onWait 1 .reset, .complete]).getLast?.map
        fun stage => (stage.session.phase, stage.nested.length)) = some (.completed, 2) := by
  refine ⟨arisen_carriedOut _, ?_, ?_, ?_, ?_⟩
  all_goals decide +kernel

end Bench

end TurretPunch
