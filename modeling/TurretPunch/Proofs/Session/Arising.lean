import TurretPunch.Proofs.Session.Event
import TurretPunch.Session.Bench

namespace TurretPunch

/-!
# Sessions that arise

Whatever is called on a bench, and whatever its waits and its clock call back, the session changes by
single acts between which other calls can come. What every act keeps is kept by every call.
-/

namespace Session

/-- A change of a session in which nothing comes in between. The start of a run and its end are two
acts each, with a reading of the clock between them. -/
inductive Act where
  | load (text : Text.Points)
  | loadProgram (program : Program)
  | start
  | started (time : Float)
  | pull (now : Timestamp) (id : Nat)
  | resume (now : Timestamp) (id : Nat)
  | closeAt (now : Timestamp) (id : Nat) (time : Float)
  | interrupt (id : Nat)
  | close (id : Nat)
  | stop
  | reset
  | seek (step : Int)

def act (s : Session) : Act → Session
  | .load text => (s.load text).session
  | .loadProgram program => (s.loadProgram program).session
  | .start => s.start.session
  | .started time => (s.started time).session
  | .pull now id => (s.pull now id).session
  | .resume now id => (s.resume now id).session
  | .closeAt now id time => (s.closeAt now id time).session
  | .interrupt id => (s.interrupt id).session
  | .close id => (s.closePlayback id).session
  | .stop => s.stop.session
  | .reset => s.reset.session
  | .seek step => (s.seek step).session

/-- The sessions that a fresh session comes to by acts in any order. -/
inductive Arisen : Session → Prop
  | fresh (turret : Turret) (sheet : Sheet) (interval : Float) (fallback : Quantity)
      (logRoom : Nat) : Arisen { turret, sheet, interval, fallback, logRoom }
  | act {s : Session} (h : Arisen s) (a : Act) : Arisen (s.act a)

/-- A property of sessions that every act keeps. -/
def Lasting (p : Session → Prop) : Prop := ∀ (s : Session) (a : Act), p s → p (s.act a)

theorem lasting_arisen : Lasting Arisen := fun _ a h => h.act a

/-- The start of a run is one act, or two if a playback is let go of that the start closes. -/
theorem Lasting.started {p : Session → Prop} (hp : Lasting p) {s : Session} (h : p s) (time : Float)
    (kept : Bool) : p (s.started time kept).session := by
  have hbegun : p (s.begun time) := hp s (.started time) h
  rcases s.started_cases time kept with hstarted | ⟨earlier, hstarted⟩
  · rw [hstarted]
    exact hbegun
  · rw [hstarted]
    exact hp _ (.close earlier) hbegun

end Session

namespace Bench

open Session (Lasting Outcome)

variable {p : Session → Prop} {perform : Performer} {b : Bench}

/-- A way to carry out calls that keeps a property of the session. -/
def Keeps (p : Session → Prop) (perform : Performer) : Prop :=
  ∀ (b : Bench) (call : Call), p b.session → p (perform b call).1.session

theorem Keeps.performPlanned (hperform : Keeps p perform) (plans : List (Int × Call))
    (h : p b.session) : p (performPlanned perform b plans).session := by
  induction plans generalizing b with
  | nil => exact h
  | cons plan plans ih =>
      apply ih
      exact hperform b plan.2 h

theorem Keeps.wait (hperform : Keeps p perform) (h : p b.session) (seconds : Float) :
    p (b.wait perform seconds).session := by
  apply hperform.performPlanned
  exact h

theorem Keeps.read (hperform : Keeps p perform) (h : p b.session) :
    p (b.read perform).session := by
  apply hperform.performPlanned
  exact h

variable (hp : Lasting p)
include hp

theorem Keeps.serve (hperform : Keeps p perform) (fuel id : Nat) (outcome : Outcome)
    (h : p b.session) : p (serve perform fuel b id outcome).1.session := by
  induction fuel generalizing b outcome with
  | zero =>
      cases outcome with
      | readClock => exact hp _ (.closeAt _ id _) (hperform.read h)
      | _ => exact h
  | succ fuel ih =>
      cases outcome with
      | wait seconds =>
          apply ih
          exact hp _ (.resume _ id) (hperform.wait h seconds)
      | readClock => exact hp _ (.closeAt _ id _) (hperform.read h)
      | _ => exact h

theorem Keeps.pull (hperform : Keeps p perform) (id : Nat) (h : p b.session) :
    p (b.pull perform id).1.session := by
  apply hperform.serve hp
  exact hp _ (.pull b.now id) h

theorem Keeps.pullAll (hperform : Keeps p perform) (fuel id : Nat) (h : p b.session) :
    p (b.pullAll perform fuel id).1.session := by
  induction fuel generalizing b with
  | zero => exact h
  | succ fuel ih =>
      have hpulled := hperform.pull hp id h
      unfold Bench.pullAll
      split
      · next heq =>
        rw [heq] at hpulled
        exact ih hpulled
      all_goals
        next heq =>
        rw [heq] at hpulled
        exact hpulled

theorem Keeps.startRun (hperform : Keeps p perform) (h : p b.session) (kept : Bool) :
    p (b.startRun perform kept).1.session := by
  have hstarted : p b.session.start.session := hp _ .start h
  unfold Bench.startRun
  dsimp only
  split
  · exact hp.started (hperform.read (b := b.take b.session.start) hstarted) _ kept
  · exact hstarted

theorem Keeps.completeRun (hperform : Keeps p perform) (h : p b.session) (kept : Bool) :
    p (b.completeRun perform kept).1.session := by
  have hstarted := hperform.startRun hp h kept
  unfold Bench.completeRun
  split
  · next heq =>
    rw [heq] at hstarted
    exact hstarted
  · next started id heq =>
    rw [heq] at hstarted
    have hdrained := hperform.pullAll hp (started.session.remaining id) id hstarted
    unfold drain
    split
    all_goals
      next heq =>
      rw [heq] at hdrained
      exact hdrained

omit hp in
theorem onRun_kept {run : Option Int} {refused : CallResult} {accepted : Nat → Bench × CallResult}
    (h : p b.session) (haccepted : ∀ id, p (accepted id).1.session) :
    p (b.onRun run refused accepted).1.session := by
  unfold onRun
  split
  · exact h
  · exact h
  · exact haccepted _

theorem Keeps.performWith (hperform : Keeps p perform) : Keeps p (performWith perform) := by
  intro b call h
  cases call with
  | load text => exact hp _ (.load text) h
  | loadProgram program => exact hp _ (.loadProgram program) h
  | run kept => exact hperform.startRun hp h kept
  | next run =>
      apply onRun_kept h
      intro id
      have hpulled := hperform.pull hp id h
      split
      all_goals
        next heq =>
        rw [heq] at hpulled
        exact hpulled
  | drain run =>
      apply onRun_kept h
      intro id
      exact hperform.pullAll hp _ id h
  | close run =>
      apply onRun_kept h
      intro id
      have hclosed := hp _ (.close id) h
      dsimp only
      split <;> exact hclosed
  | complete kept => exact hperform.completeRun hp h kept
  | stop => exact hp _ .stop h
  | reset => exact hp _ .reset h
  | seek step => exact hp _ (.seek step) h
  | advance | failing | onWait | onReading | save => exact h

/-- What every act keeps is kept by every call, with all the calls that come in its middle. -/
theorem keeps_perform (fuel : Nat) : Keeps p (Bench.perform fuel) := by
  induction fuel with
  | zero => exact fun _ _ h => h
  | succ fuel ih => exact ih.performWith hp

end Bench

end TurretPunch
