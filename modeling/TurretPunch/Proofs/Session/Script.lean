import TurretPunch.Proofs.Session.Phase
import TurretPunch.Session.Bench

namespace TurretPunch

/-!
# Scripts

Whatever is called on a bench, its session changes by events only, as long as the clock calls
nothing back. So what holds of every session that is reached by events holds after every call of a
script, and in the middle of a call whenever it waits.
-/

/-- A call that has to do with the clock alone. -/
def Call.IsClock : Call → Prop
  | advance _ => True
  | _ => False

/-- A call that takes programs from texts only, and plans nothing for a reading of the clock but
what has to do with the clock alone. -/
def Call.TakesText : Call → Prop
  | loadProgram _ => False
  | onWait _ call => call.TakesText
  | onReading _ call => call.IsClock
  | _ => True

namespace Bench

open Session (Event Reached ReadsText Outcome settle)

/-- A bench with a session that was reached by events, and on which no other calls are planned than
those of a text. -/
structure Live (b : Bench) : Prop where
  session : Reached ReadsText b.session
  waitPlans : ∀ plan ∈ b.waitPlans, plan.2.TakesText
  readingPlans : ∀ plan ∈ b.readingPlans, plan.2.IsClock

/-- A way to carry out calls that leaves benches alive, and leaves everything as it is but the clock
where a call has to do with the clock alone. -/
structure Faithful (perform : Performer) : Prop where
  live : ∀ {b : Bench} {call : Call}, b.Live → call.TakesText → (perform b call).1.Live
  clock : ∀ (b : Bench) {call : Call}, call.IsClock →
    ∃ clock, (perform b call).1 = { b with clock }

variable {perform : Performer} {b : Bench}

theorem Live.take {α : Type} {reply : Reply α} (h : b.Live)
    (hreply : Reached ReadsText reply.session) : (b.take reply).Live :=
  ⟨hreply, h.waitPlans, h.readingPlans⟩

theorem live_performPlanned (hperform : Faithful perform) {plans : List (Int × Call)}
    (hplans : ∀ plan ∈ plans, plan.2.TakesText) (h : b.Live) :
    (performPlanned perform b plans).Live := by
  induction plans generalizing b with
  | nil => exact h
  | cons plan plans ih =>
      have hlive := hperform.live h (hplans plan List.mem_cons_self)
      refine ih (fun other hother => hplans other (List.mem_cons_of_mem _ hother)) ?_
      exact ⟨hlive.session, hlive.waitPlans, hlive.readingPlans⟩

/-- Planned calls that have to do with the clock alone leave the rest of a bench as it is. -/
theorem performPlanned_of_isClock (hperform : Faithful perform) (b : Bench)
    {plans : List (Int × Call)} (hplans : ∀ plan ∈ plans, plan.2.IsClock) :
    ∃ clock nested, performPlanned perform b plans = { b with clock, nested } := by
  induction plans generalizing b with
  | nil => exact ⟨b.clock, b.nested, rfl⟩
  | cons plan plans ih =>
      obtain ⟨clock, hclock⟩ := hperform.clock b (hplans plan List.mem_cons_self)
      obtain ⟨clock', nested, hrest⟩ :=
        ih { (perform b plan.2).1 with nested := (perform b plan.2).1.nested ++ [(perform b plan.2).2] }
          (fun other hother => hplans other (List.mem_cons_of_mem _ hother))
      refine ⟨clock', nested, hrest.trans ?_⟩
      rw [hclock]

theorem Live.wait (hperform : Faithful perform) (h : b.Live) (seconds : Float) :
    (b.wait perform seconds).Live := by
  unfold Bench.wait
  simp only [List.partition_eq_filter_filter]
  have hdue : (performPlanned perform _ (b.waitPlans.filter (·.1 == b.waitCount + 1))).Live :=
    live_performPlanned hperform (fun plan hplan => h.waitPlans plan (List.mem_filter.mp hplan).1)
      (b := { b with
        waitCount := b.waitCount + 1
        waitPlans := b.waitPlans.filter (not ∘ (·.1 == b.waitCount + 1))
        waits := b.waits ++ [seconds] })
      ⟨h.session, fun plan hplan => h.waitPlans plan (List.mem_filter.mp hplan).1, h.readingPlans⟩
  exact ⟨hdue.session, hdue.waitPlans, hdue.readingPlans⟩

/-- A reading of the clock for which nothing else is planned leaves the session as it is. -/
theorem read_of_isClock (hperform : Faithful perform)
    (hplans : ∀ plan ∈ b.readingPlans, plan.2.IsClock) :
    ∃ readingCount readingPlans clock nested,
      b.read perform = { b with readingCount, readingPlans, clock, nested } ∧
        ∀ plan ∈ readingPlans, plan.2.IsClock := by
  unfold read
  simp only [List.partition_eq_filter_filter]
  obtain ⟨clock, nested, hdue⟩ :=
    performPlanned_of_isClock hperform
      { b with
        readingCount := b.readingCount + 1
        readingPlans := b.readingPlans.filter (not ∘ (·.1 == b.readingCount + 1)) }
      (fun plan hplan => hplans plan (List.mem_filter.mp hplan).1)
  exact ⟨_, _, clock, nested, hdue, fun plan hplan => hplans plan (List.mem_filter.mp hplan).1⟩

/-- A playback that gets what it needs goes on by events. Between the end of a run and its report
there is a reading of the clock, in which nothing happens to the session. -/
theorem live_serve (hperform : Faithful perform) {b : Bench} {id : Nat} (fuel : Nat)
    {reply : Reply Outcome} (h : b.Live)
    (hreply : ∀ time, Reached ReadsText (settle reply b.now id time).session) :
    (serve perform fuel (b.take reply) id reply.result).1.Live := by
  cases hresult : reply.result with
  | wait seconds =>
      have hsession : Reached ReadsText reply.session := by
        have hsettled := hreply 0.0
        rwa [settle, hresult] at hsettled
      cases fuel with
      | zero => exact h.take hsession
      | succ fuel =>
          have hwaited := (h.take hsession).wait hperform seconds
          rw [serve]
          exact live_serve hperform fuel hwaited
            (fun time => hwaited.session.event (.resume id _ time) trivial)
  | readClock =>
      obtain ⟨readingCount, readingPlans, clock, nested, hread, hplans⟩ :=
        read_of_isClock hperform (b := b.take reply) h.readingPlans
      have hsession : Reached ReadsText (reply.session.closeAt b.now id clock).session := by
        have hsettled := hreply clock
        rwa [settle, hresult] at hsettled
      have hclosed : ({ b.take reply with readingCount, readingPlans, clock, nested }.take
          (reply.session.closeAt b.now id clock)).Live :=
        ⟨hsession, h.waitPlans, hplans⟩
      cases fuel <;> rw [serve, hread] <;> exact hclosed
  | shown | ended | failed =>
      have hsession : Reached ReadsText reply.session := by
        have hsettled := hreply 0.0
        rwa [settle, hresult] at hsettled
      cases fuel <;> exact h.take hsession

theorem Live.pull (hperform : Faithful perform) (h : b.Live) (id : Nat) :
    (b.pull perform id).1.Live :=
  live_serve hperform 2 h (fun time => h.session.event (.pull id b.now time) trivial)

theorem Live.pullAll (hperform : Faithful perform) (h : b.Live) (fuel id : Nat) :
    (b.pullAll perform fuel id).1.Live := by
  induction fuel generalizing b with
  | zero => exact h
  | succ fuel ih =>
      have hpulled := h.pull hperform id
      unfold Bench.pullAll
      split
      · next heq =>
        rw [heq] at hpulled
        exact ih hpulled
      · next heq =>
        rw [heq] at hpulled
        exact hpulled
      · next heq =>
        rw [heq] at hpulled
        exact hpulled

theorem Live.startRun (hperform : Faithful perform) (h : b.Live) (kept : Bool) :
    (b.startRun perform kept).1.Live := by
  have hstarted := fun time => h.session.event (.run time) trivial
  unfold Bench.startRun
  dsimp only
  split
  · next haccepted =>
    obtain ⟨readingCount, readingPlans, clock, nested, hread, hplans⟩ :=
      read_of_isClock hperform (b := b.take b.session.start) h.readingPlans
    have hbegun : Reached ReadsText (b.session.start.session.begun clock) := by
      have hrun := hstarted clock
      rwa [Session.after, Session.startedAt, if_pos haccepted] at hrun
    have hsession : Reached ReadsText (b.session.start.session.started clock kept).session := by
      rcases b.session.start.session.started_cases clock kept with hsame | ⟨earlier, hclosed⟩
      · rw [hsame]
        exact hbegun
      · rw [hclosed]
        exact hbegun.event (.close earlier) trivial
    rw [hread]
    exact ⟨hsession, h.waitPlans, hplans⟩
  · next hrefused =>
    have hsession : Reached ReadsText b.session.start.session := by
      have hrun := hstarted 0.0
      rwa [Session.after, Session.startedAt, if_neg hrefused] at hrun
    exact h.take hsession

theorem Live.completeRun (hperform : Faithful perform) (h : b.Live) (kept : Bool) :
    (b.completeRun perform kept).1.Live := by
  have hstarted := h.startRun hperform kept
  unfold Bench.completeRun
  split
  · next heq =>
    rw [heq] at hstarted
    exact hstarted
  · next started id heq =>
    rw [heq] at hstarted
    have hdrained := hstarted.pullAll hperform (started.session.remaining id) id
    unfold drain
    split
    · next heq =>
      rw [heq] at hdrained
      exact hdrained
    · next heq =>
      rw [heq] at hdrained
      exact hdrained

theorem Live.onRun (h : b.Live) {run : Option Int} {refused : CallResult}
    {accepted : Nat → Bench × CallResult} (haccepted : ∀ id, (accepted id).1.Live) :
    (b.onRun run refused accepted).1.Live := by
  unfold Bench.onRun
  split
  · exact h
  · exact h
  · exact haccepted _

theorem faithful_performWith (hperform : Faithful perform) : Faithful (performWith perform) where
  live := by
    intro b call h hcall
    cases call with
    | load text => exact h.take (h.session.event (.load text) trivial)
    | loadProgram => exact hcall.elim
    | run kept =>
        have hstarted := h.startRun hperform kept
        exact ⟨hstarted.session, hstarted.waitPlans, hstarted.readingPlans⟩
    | next run =>
        apply h.onRun
        intro id
        have hpulled := h.pull hperform id
        split
        all_goals
          next heq =>
          rw [heq] at hpulled
          exact hpulled
    | drain run => exact h.onRun (fun id => h.pullAll hperform (b.session.remaining id) id)
    | close run =>
        apply h.onRun
        intro id
        have hclosed := h.take (h.session.event (.close id) trivial)
        dsimp only
        split <;> exact hclosed
    | complete kept => exact h.completeRun hperform kept
    | stop => exact h.take (h.session.event .stop trivial)
    | reset => exact h.take (h.session.event .reset trivial)
    | seek step => exact h.take (h.session.event (.seek step) trivial)
    | advance => exact ⟨h.session, h.waitPlans, h.readingPlans⟩
    | failing => exact h
    | onWait n call =>
        refine ⟨h.session, ?_, h.readingPlans⟩
        intro plan hplan
        rcases List.mem_append.mp hplan with hold | hnew
        · exact h.waitPlans plan hold
        · obtain rfl := List.mem_singleton.mp hnew
          exact hcall
    | onReading n call =>
        refine ⟨h.session, h.waitPlans, ?_⟩
        intro plan hplan
        rcases List.mem_append.mp hplan with hold | hnew
        · exact h.readingPlans plan hold
        · obtain rfl := List.mem_singleton.mp hnew
          exact hcall
    | save => exact h
  clock := by
    intro b call hcall
    cases call with
    | advance seconds => exact ⟨b.clock + seconds, rfl⟩
    | _ => exact hcall.elim

theorem perform_succ (fuel : Nat) :
    Bench.perform (fuel + 1) = performWith (Bench.perform fuel) := rfl

theorem faithful_perform (fuel : Nat) : Faithful (Bench.perform fuel) := by
  induction fuel with
  | zero => exact ⟨fun h _ => h, fun b _ _ => ⟨b.clock, rfl⟩⟩
  | succ fuel ih => exact faithful_performWith ih

/-- A bench at the beginning of a call, of which nothing was seen yet. -/
def unseen (b : Bench) : Bench := { b with notices := [], waits := [], nested := [] }

/-- What a call leaves to see. -/
def stageOf (given : Bench × CallResult) : Stage :=
  ⟨given.2, given.1.session, given.1.notices, given.1.waits, given.1.nested⟩

theorem performAll_cons (fuel : Nat) (b : Bench) (call : Call) (calls : List Call) :
    performAll fuel b (call :: calls) =
      stageOf (b.unseen.perform fuel call) ::
        performAll fuel (b.unseen.perform fuel call).1 calls := rfl

theorem length_performAll (fuel : Nat) (b : Bench) (calls : List Call) :
    (performAll fuel b calls).length = calls.length := by
  induction calls generalizing b with
  | nil => rfl
  | cons call calls ih => rw [performAll_cons, List.length_cons, List.length_cons, ih]

/-- A run to the end that is refused gives the report of the session. -/
theorem completeRun_of_running (perform : Performer) (h : b.session.phase = .running) :
    (b.completeRun perform).2 = .ofOption .report b.session.report := by
  have hrefused : b.session.start = ⟨b.session, [.runRefusedRunning], false⟩ := by
    rw [Session.start, if_pos (Session.isRunning_iff.mpr h)]
  simp only [completeRun, startRun, hrefused, take, Bool.false_eq_true, if_false]

end Bench

/-- Whatever happens to a session, on whatever playback, its press is running exactly while it is, and it
has a report exactly when it is completed, as long as its programs come from texts. While it is running
its program has no errors. So a run to the end that is refused because another one is active gives
nothing. No call of a script leads out of these sessions. -/
theorem Session.phase_press_report_stop {s : Session} (h : Reached ReadsText s) :
    (s.press.running = true ↔ s.phase = .running) ∧
      (s.report.isSome = true ↔ s.phase = .completed) ∧
      (s.phase = .running →
        (∃ program, s.program = some program ∧ program.errors = []) ∧ s.report = none) ∧
      (s.stopRequested = true → s.report = none) ∧
      (∀ (perform : Bench.Performer) (b : Bench), b.session = s → s.phase = .running →
        (b.completeRun perform).2 = .nothing) ∧
      ∀ (b : Bench) (fuel : Nat) (call : Call), b.session = s →
        (∀ plan ∈ b.waitPlans, plan.2.TakesText) → (∀ plan ∈ b.readingPlans, plan.2.IsClock) →
        call.TakesText → (b.perform fuel call).1.Live := by
  have horderly := orderly_of_reached h
  refine ⟨horderly.running, horderly.report, ?_, horderly.stop, ?_, ?_⟩
  · exact fun hrunning => ⟨horderly.loaded hrunning, horderly.report_of_running hrunning⟩
  · rintro perform b rfl hrunning
    rw [b.completeRun_of_running perform hrunning, horderly.report_of_running hrunning]
    rfl
  · rintro b fuel call rfl hwait hreading hcall
    exact (Bench.faithful_perform fuel).live ⟨h, hwait, hreading⟩ hcall

theorem Session.phase_press_report_stop_of_one_hit :
    ∃ s, Reached ReadsText s ∧ s.phase = .running ∧ s.press.running = true ∧ s.report = none ∧
      ∀ (perform : Bench.Performer) (b : Bench), b.session = s →
        (b.completeRun perform).2 = .nothing := by
  have hloaded : Reached ReadsText (plain.after (.load "G81 X50 Y40 D8")) :=
    (reached_plain ReadsText).event _ trivial
  have hreached := hloaded.event (.run 0.0) trivial
  have hphase : ((plain.after (.load "G81 X50 Y40 D8")).after (.run 0.0)).phase = .running := by
    decide +kernel
  obtain ⟨hrunning, _, hloaded, _, hrefused, _⟩ := phase_press_report_stop hreached
  exact ⟨_, hreached, hphase, hrunning.mpr hphase, (hloaded hphase).2,
    fun perform b hb => hrefused perform b hb hphase⟩

end TurretPunch
