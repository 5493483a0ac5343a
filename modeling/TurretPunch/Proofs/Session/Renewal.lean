import TurretPunch.Proofs.Session.Arising
import TurretPunch.Proofs.Session.Residue
import TurretPunch.Proofs.Session.Script

namespace TurretPunch

/-!
# Starting over

A session that was reset, or that has loaded a text, goes on like a fresh one. It still has the residue
of its earlier runs, but nothing that is called from then on can see it. The two sessions are followed
side by side through the calls of a script and the calls that come in their middle.
-/

/-- A call that plans nothing for a reading of the clock but what has to do with the clock alone. A
playback of an earlier run is let go only if that run is settled. -/
def Call.Spares (settled : Prop) : Call → Prop
  | run kept => kept = true ∨ settled
  | complete kept => kept = true ∨ settled
  | onWait _ call => call.Spares settled
  | onReading _ call => call.IsClock
  | _ => True

namespace Session

/-- A session that has not played anything yet. -/
structure IsUnplayed (s : Session) : Prop where
  idle : ¬ s.isRunning = true
  playbacks : s.playbacks = []
  current : s.current = none

/-- A session with the residue of earlier runs, beside one without it. Until it starts a run of its
own, its last run and the time of its start are those of before. That run is settled if its playback
does not stand at a step or at its report. -/
inductive Renewed (settled : Prop) (front : List Playback) : Session → Session → Prop
  | unplayed {s : Session} (h : s.IsUnplayed) (current : Option Nat) (time : Float)
      (hsettled : settled → (s.behind front current time).suspended = none) :
      Renewed settled front (s.behind front current time) s
  | played (s : Session) :
      Renewed settled front (s.behind front (s.current.map (· + front.length)) s.startTime) s

variable {α : Type} {settled : Prop} {front : List Playback} {s s₀ : Session}

theorem Renewed.behind (h : Renewed settled front s s₀) :
    ∃ current time, s = s₀.behind front current time := by
  cases h with
  | unplayed _ current time _ => exact ⟨current, time, rfl⟩
  | played => exact ⟨_, _, rfl⟩

theorem IsUnplayed.getElem? (h : s.IsUnplayed) (id : Nat) : s.playbacks[id]? = none := by
  rw [h.playbacks, List.getElem?_nil]

/-- Of a session that has not played anything yet only the residue can be let go of. -/
theorem IsUnplayed.suspended_behind (h : s.IsUnplayed) (h₀ : s₀.IsUnplayed) (front : List Playback)
    (current : Option Nat) (time : Float) :
    (s.behind front current time).suspended = (s₀.behind front current time).suspended := by
  unfold suspended behind
  rw [h.playbacks, h₀.playbacks]

theorem IsUnplayed.accept (h : s.IsUnplayed) (program : Program) (text : Text.Points) :
    (s.accept program text).session.IsUnplayed :=
  ⟨by simp [Session.accept, cleared, isRunning], h.playbacks, h.current⟩

end Session

/-- Replies that tell and answer the same, with sessions that differ in a residue only. -/
structure Reply.Renewed {α : Type} (settled : Prop) (front : List Playback) (reply reply₀ : Reply α) :
    Prop where
  session : Session.Renewed settled front reply.session reply₀.session
  notices : reply.notices = reply₀.notices
  result : reply.result = reply₀.result

namespace Session

/-- Acts to which a residue makes no difference. They are told how many older playbacks there are,
because these come first. -/
def Indifferent {α : Type} (op : Nat → Session → Reply α) : Prop :=
  ∀ front current time s,
    op front.length (s.behind front current time) = (op 0 s).behind front current time

section Acts

variable {α : Type} {settled : Prop} {front : List Playback} {s s₀ : Session}
  {op : Nat → Session → Reply α}

theorem Renewed.of_kept (hcurrent : s₀.current = s.current) (htime : s₀.startTime = s.startTime) :
    Renewed settled front (s₀.behind front (s.current.map (· + front.length)) s.startTime) s₀ := by
  rw [← hcurrent, ← htime]
  exact .played _

theorem Indifferent.keeps (h : Indifferent op) (s : Session) :
    (op 0 s).session.current = s.current ∧ (op 0 s).session.startTime = s.startTime := by
  have hsame := h [] s.current s.startTime s
  exact ⟨congrArg (fun reply => reply.session.current) hsame,
    congrArg (fun reply => reply.session.startTime) hsame⟩

theorem Renewed.act (h : Renewed settled front s s₀) (op : Nat → Session → Reply α) (hop : Indifferent op)
    (hunplayed : s₀.IsUnplayed → (op 0 s₀).session.IsUnplayed) :
    (op front.length s).Renewed settled front (op 0 s₀) := by
  cases h with
  | unplayed h current time hsettled =>
      rw [hop]
      have hstill := (hunplayed h).suspended_behind h front current time
      exact ⟨.unplayed (hunplayed h) current time (hstill ▸ hsettled), rfl, rfl⟩
  | played =>
      obtain ⟨hcurrent, htime⟩ := hop.keeps s₀
      rw [hop]
      exact ⟨.of_kept hcurrent htime, rfl, rfl⟩

theorem Renewed.load (h : Renewed settled front s s₀) (text : Text.Points) :
    (s.load text).Renewed settled front (s₀.load text) := by
  apply h.act fun _ s => s.load text
  · intro front current time s
    exact s.behind_load front current time text
  · intro hunplayed
    rcases s₀.load_cases text with hsame | ⟨_, program, _, hloaded⟩
    · rwa [hsame]
    · rw [hloaded]
      exact hunplayed.accept program text

theorem Renewed.loadProgram (h : Renewed settled front s s₀) (program : Program) :
    (s.loadProgram program).Renewed settled front (s₀.loadProgram program) := by
  apply h.act fun _ s => s.loadProgram program
  · intro front current time s
    exact s.behind_loadProgram front current time program
  · intro hunplayed
    rw [Session.loadProgram, if_neg hunplayed.idle]
    exact hunplayed.accept program ""

theorem Renewed.reset (h : Renewed settled front s s₀) : s.reset.Renewed settled front s₀.reset := by
  apply h.act fun _ s => s.reset
  · intro front current time s
    exact s.behind_reset front current time
  · intro hunplayed
    rw [Session.reset, if_neg hunplayed.idle]
    exact ⟨by simp [cleared, isRunning], hunplayed.playbacks, hunplayed.current⟩

theorem Renewed.seek (h : Renewed settled front s s₀) (step : Int) :
    (s.seek step).Renewed settled front (s₀.seek step) := by
  apply h.act fun _ s => s.seek step
  · intro front current time s
    exact s.behind_seek front current time step
  · intro hunplayed
    rcases s₀.seek_cases step with hsame | ⟨_, index, op, out, _, hsought⟩
    · rwa [hsame]
    · rw [hsought]
      exact ⟨hunplayed.idle, hunplayed.playbacks, hunplayed.current⟩

theorem Renewed.pull (h : Renewed settled front s s₀) (now : Timestamp) (id : Nat) :
    (s.pull now (id + front.length)).Renewed settled front (s₀.pull now id) := by
  apply h.act fun n s => s.pull now (id + n)
  · intro front current time s
    exact s.behind_pull front current time id now
  · intro hunplayed
    rw [Session.pull, hunplayed.getElem?]
    exact hunplayed

theorem Renewed.resume (h : Renewed settled front s s₀) (now : Timestamp) (id : Nat) :
    (s.resume now (id + front.length)).Renewed settled front (s₀.resume now id) := by
  apply h.act fun n s => s.resume now (id + n)
  · intro front current time s
    exact s.behind_resume front current time id now
  · intro hunplayed
    rw [Session.resume, hunplayed.getElem?]
    exact hunplayed

theorem Renewed.closePlayback (h : Renewed settled front s s₀) (id : Nat) :
    (s.closePlayback (id + front.length)).Renewed settled front (s₀.closePlayback id) := by
  apply h.act fun n s => s.closePlayback (id + n)
  · intro front current time s
    exact s.behind_closePlayback front current time id
  · intro hunplayed
    rw [Session.closePlayback, hunplayed.getElem?]
    exact hunplayed

theorem Renewed.closeAt (h : Renewed settled front s s₀) (now : Timestamp) (id : Nat) (time : Float) :
    (s.closeAt now (id + front.length) time).Renewed settled front (s₀.closeAt now id time) := by
  -- closing with a report is not indifferent to the time of the start, but only a session with a run
  -- of its own has a playback to close, and then both sessions have the time of that run
  cases h with
  | unplayed h current start hsettled =>
      unfold Session.closeAt
      rw [behind_playbacks, h.getElem?]
      exact ⟨.unplayed h current start hsettled, rfl, rfl⟩
  | played =>
      rw [behind_closeAt]
      refine ⟨?_, rfl, rfl⟩
      have hkept : (s₀.closeAt now id time).session.current = s₀.current ∧
          (s₀.closeAt now id time).session.startTime = s₀.startTime := by
        unfold Session.closeAt
        split <;> exact ⟨rfl, rfl⟩
      exact .of_kept hkept.1 hkept.2

theorem Renewed.stop (h : Renewed settled front s s₀) : s.stop.Renewed settled front s₀.stop := by
  cases h with
  | unplayed h current time hsettled =>
      rw [stop_of_idle s₀ h.idle, stop_of_idle (s₀.behind front current time) h.idle]
      exact ⟨.unplayed h current time hsettled, rfl, rfl⟩
  | played =>
      rw [behind_stop]
      refine ⟨?_, rfl, rfl⟩
      have hsame := s₀.behind_stop [] s₀.startTime
      rw [show s₀.current.map (· + ([] : List Playback).length) = s₀.current by simp] at hsame
      have hcurrent : s₀.stop.session.current = s₀.current :=
        congrArg (fun reply => reply.session.current) hsame
      have htime : s₀.stop.session.startTime = s₀.startTime :=
        congrArg (fun reply => reply.session.startTime) hsame
      exact .of_kept hcurrent htime

theorem start_refused (h : s.start.result = false) : s.start.session = s := by
  rcases s.start_cases with ⟨_, hsame⟩ | ⟨hidle, program, hprogram, herrors⟩
  · exact hsame
  · rw [start_of_ready hidle hprogram herrors] at h
    cases h

theorem renewed_begun (s : Session) (current : Option Nat) (time start : Float) :
    Renewed settled front ((s.behind front current time).begun start) (s.begun start) := by
  rw [behind_begun]
  exact .played (s.begun start)

theorem suspended_start (s : Session) : s.start.session.suspended = s.suspended := by
  unfold start
  split
  · rfl
  · split
    · rfl
    · split <;> rfl

/-- Until a session has a run of its own, it can only let go of a playback of the residue. -/
theorem Renewed.suspended (h : Renewed settled front s s₀) (hsettled : settled) :
    s.suspended = s₀.suspended.map (· + front.length) := by
  cases h with
  | unplayed hunplayed current time hnone =>
      have hown : s₀.suspended = none := by
        rw [Session.suspended, hunplayed.current]
        rfl
      rw [hnone hsettled, hown, Option.map_none]
  | played => exact s₀.behind_suspended front s₀.startTime

/-- With the start of a run a session lets go of the playback of the run before, which is one of its
own or belongs to the residue. -/
theorem renewed_started {current : Option Nat} {time : Float} {kept : Bool}
    (hkept : kept = true ∨ settled)
    (hearlier : settled →
      (s.behind front current time).suspended = s.suspended.map (· + front.length))
    (start : Float) :
    Renewed settled front ((s.behind front current time).started start kept).session
        (s.started start kept).session ∧
      ((s.behind front current time).started start kept).notices = (s.started start kept).notices ∧
      ((s.behind front current time).started start kept).result =
        (s.started start kept).result + front.length := by
  have hlength : (s.behind front current time).playbacks.length =
      s.playbacks.length + front.length := by
    rw [behind, List.length_append, Nat.add_comm]
  have hbegun : Renewed settled front ((s.behind front current time).begun start) (s.begun start) :=
    s.renewed_begun current time start
  cases kept with
  | true => exact ⟨hbegun, rfl, hlength⟩
  | false =>
      have hearlier := hearlier (hkept.resolve_left Bool.false_ne_true)
      cases hsuspended : s.suspended with
      | none =>
          rw [hsuspended, Option.map_none] at hearlier
          rw [started_of_kept start (Or.inr hearlier), started_of_kept start (Or.inr hsuspended)]
          exact ⟨hbegun, rfl, hlength⟩
      | some earlier =>
          rw [hsuspended, Option.map_some] at hearlier
          rw [started_of_suspended start hearlier, started_of_suspended start hsuspended]
          have hclosed := hbegun.closePlayback earlier
          exact ⟨hclosed.session, congrArg (_ :: ·) hclosed.notices, hlength⟩

end Acts

end Session

namespace Bench

open Session (Outcome)

/-! ## Benches side by side -/

/-- The bench with another session and other runs. -/
def refit (session : Session) (runs : List (Option Nat)) (b : Bench) : Bench :=
  { b with session, runs }

/-- Two benches that differ in the residue of one session only. The runs of the one that has it come
after its older playbacks. The clock calls nothing back. -/
structure Renewed (settled : Prop) (front : List Playback) (b b₀ : Bench) : Prop where
  session : Session.Renewed settled front b.session b₀.session
  rest : b = b₀.refit b.session (b₀.runs.map (Option.map (· + front.length)))
  waitPlans : ∀ plan ∈ b₀.waitPlans, plan.2.Spares settled
  readingPlans : ∀ plan ∈ b₀.readingPlans, plan.2.IsClock

/-- Two benches side by side after a call, with what the call gave on each. -/
structure Alike {α : Type} (settled : Prop) (front : List Playback) (given given₀ : Bench × α) :
    Prop where
  bench : Renewed settled front given.1 given₀.1
  result : given.2 = given₀.2

/-- A way to carry out calls that keeps benches side by side, and for which what has to do with the
clock alone depends on neither the session nor the runs. -/
structure Renewing (perform : Performer) : Prop extends Faithful perform where
  alike : ∀ {settled : Prop} {front : List Playback} {b b₀ : Bench} {call : Call},
    Renewed settled front b b₀ → call.Spares settled → Alike settled front (perform b call) (perform b₀ call)
  apart : ∀ (b : Bench) (session : Session) (runs : List (Option Nat)) {call : Call}, call.IsClock →
    perform (b.refit session runs) call =
      ((perform b call).1.refit session runs, (perform b call).2)

variable {perform : Performer} {settled : Prop} {front : List Playback} {b b₀ : Bench}

theorem Renewed.now (h : Renewed settled front b b₀) : b.now = b₀.now := by
  rw [h.rest]
  rfl

theorem Renewed.clock (h : Renewed settled front b b₀) : b.clock = b₀.clock := by
  rw [h.rest]
  rfl

theorem Renewed.take {α : Type} {reply reply₀ : Reply α} (h : Renewed settled front b b₀)
    (hreply : reply.Renewed settled front reply₀) : Renewed settled front (b.take reply) (b₀.take reply₀) := by
  refine ⟨hreply.session, ?_, h.waitPlans, h.readingPlans⟩
  rw [h.rest, Bench.take, Bench.take, hreply.notices]
  rfl

theorem performPlanned_cons (perform : Performer) (b : Bench) (plan : Int × Call)
    (plans : List (Int × Call)) :
    performPlanned perform b (plan :: plans) = performPlanned perform
      { (perform b plan.2).1 with nested := (perform b plan.2).1.nested ++ [(perform b plan.2).2] }
      plans := rfl

theorem Renewed.performPlanned (hperform : Renewing perform) (h : Renewed settled front b b₀)
    (plans : List (Int × Call)) (hplans : ∀ plan ∈ plans, plan.2.Spares settled) :
    Renewed settled front (performPlanned perform b plans) (performPlanned perform b₀ plans) := by
  induction plans generalizing b b₀ with
  | nil => exact h
  | cons plan plans ih =>
      have halike := hperform.alike h (hplans plan List.mem_cons_self)
      have hbench := halike.bench
      rw [performPlanned_cons, performPlanned_cons]
      apply ih _ (fun other hother => hplans other (List.mem_cons_of_mem _ hother))
      refine ⟨hbench.session, ?_, hbench.waitPlans, hbench.readingPlans⟩
      rw [halike.result, hbench.rest]
      rfl

theorem Renewed.wait (hperform : Renewing perform) (h : Renewed settled front b b₀) (seconds : Float) :
    Renewed settled front (b.wait perform seconds) (b₀.wait perform seconds) := by
  obtain ⟨hsession, hrest, hwait, hreading⟩ := h
  rw [hrest]
  unfold Bench.wait
  simp only [List.partition_eq_filter_filter]
  have hplanned : Renewed settled front
      (refit b.session (b₀.runs.map (Option.map (· + front.length))) { b₀ with
        waitCount := b₀.waitCount + 1
        waitPlans := b₀.waitPlans.filter (not ∘ (·.1 == b₀.waitCount + 1))
        waits := b₀.waits ++ [seconds] })
      { b₀ with
        waitCount := b₀.waitCount + 1
        waitPlans := b₀.waitPlans.filter (not ∘ (·.1 == b₀.waitCount + 1))
        waits := b₀.waits ++ [seconds] } :=
    ⟨hsession, rfl, fun plan hplan => hwait plan (List.mem_filter.mp hplan).1, hreading⟩
  have hdue := hplanned.performPlanned hperform (b₀.waitPlans.filter (·.1 == b₀.waitCount + 1))
    (fun plan hplan => hwait plan (List.mem_filter.mp hplan).1)
  refine ⟨hdue.session, ?_, hdue.waitPlans, hdue.readingPlans⟩
  exact congrArg (fun bench : Bench => { bench with clock := bench.clock + seconds }) hdue.rest

theorem performPlanned_apart (hperform : Renewing perform) (b : Bench) (session : Session)
    (runs : List (Option Nat)) {plans : List (Int × Call)} (hplans : ∀ plan ∈ plans, plan.2.IsClock) :
    performPlanned perform (b.refit session runs) plans =
      (performPlanned perform b plans).refit session runs := by
  induction plans generalizing b with
  | nil => rfl
  | cons plan plans ih =>
      have hfirst := hperform.apart b session runs (hplans plan List.mem_cons_self)
      rw [performPlanned_cons, performPlanned_cons, hfirst, ← ih]
      · rfl
      · exact fun other hother => hplans other (List.mem_cons_of_mem _ hother)

theorem read_apart (hperform : Renewing perform) (session : Session) (runs : List (Option Nat))
    (h : ∀ plan ∈ b.readingPlans, plan.2.IsClock) :
    (b.refit session runs).read perform = (b.read perform).refit session runs := by
  unfold read
  simp only [List.partition_eq_filter_filter]
  exact performPlanned_apart hperform
    { b with
      readingCount := b.readingCount + 1
      readingPlans := b.readingPlans.filter (not ∘ (·.1 == b.readingCount + 1)) } session runs
    (fun plan hplan => h plan (List.mem_filter.mp hplan).1)

theorem Renewed.read (hperform : Renewing perform) (h : Renewed settled front b b₀) :
    Renewed settled front (b.read perform) (b₀.read perform) := by
  obtain ⟨readingCount, readingPlans, clock, nested, hread, hplans⟩ :=
    read_of_isClock hperform.toFaithful h.readingPlans
  rw [h.rest, read_apart hperform _ _ h.readingPlans, hread]
  exact ⟨h.session, rfl, h.waitPlans, hplans⟩

theorem Renewed.answer {α : Type} {reply reply₀ : Reply α} (h : Renewed settled front b b₀)
    (hreply : reply.Renewed settled front reply₀) :
    Alike settled front (b.take reply, reply.result) (b₀.take reply₀, reply₀.result) :=
  ⟨h.take hreply, hreply.result⟩

theorem Renewed.close (hperform : Renewing perform) (h : Renewed settled front b b₀) (fuel id : Nat) :
    Alike settled front (serve perform fuel b (id + front.length) .readClock)
      (serve perform fuel b₀ id .readClock) := by
  have hread := h.read hperform
  have hclosed : ((b.read perform).session.closeAt (b.read perform).now (id + front.length)
      (b.read perform).clock).Renewed settled front ((b₀.read perform).session.closeAt
        (b₀.read perform).now id (b₀.read perform).clock) := by
    rw [hread.now, hread.clock]
    exact hread.session.closeAt _ id _
  cases fuel <;> exact hread.answer hclosed

theorem Renewed.serve (hperform : Renewing perform) (h : Renewed settled front b b₀) (fuel id : Nat)
    (outcome : Outcome) :
    Alike settled front (serve perform fuel b (id + front.length) outcome)
      (serve perform fuel b₀ id outcome) := by
  induction fuel generalizing b b₀ outcome with
  | zero =>
      cases outcome with
      | readClock => exact h.close hperform _ id
      | _ => exact ⟨h, rfl⟩
  | succ fuel ih =>
      cases outcome with
      | wait seconds =>
          have hwaited := h.wait hperform seconds
          have hresumed := hwaited.session.resume (b₀.wait perform seconds).now id
          unfold Bench.serve
          dsimp only
          rw [hwaited.now, hresumed.result]
          exact ih (hwaited.take hresumed) _
      | readClock => exact h.close hperform _ id
      | _ => exact ⟨h, rfl⟩

theorem Renewed.pull (hperform : Renewing perform) (h : Renewed settled front b b₀) (id : Nat) :
    Alike settled front (b.pull perform (id + front.length)) (b₀.pull perform id) := by
  have hpulled := h.session.pull b₀.now id
  unfold Bench.pull
  dsimp only
  rw [h.now, hpulled.result]
  exact (h.take hpulled).serve hperform 2 id _

theorem Renewed.pullAll (hperform : Renewing perform) (h : Renewed settled front b b₀) (fuel id : Nat) :
    Alike settled front (b.pullAll perform fuel (id + front.length)) (b₀.pullAll perform fuel id) := by
  induction fuel generalizing b b₀ with
  | zero => exact ⟨h, rfl⟩
  | succ fuel ih =>
      obtain ⟨hbench, hresult⟩ := h.pull hperform id
      unfold Bench.pullAll
      cases hpulled : b.pull perform (id + front.length) with
      | mk b' outcome =>
          cases hpulled₀ : b₀.pull perform id with
          | mk b₀' outcome₀ =>
              rw [hpulled, hpulled₀] at hbench hresult
              obtain rfl : outcome = outcome₀ := hresult
              cases outcome with
              | shown snapshot =>
                  have hrest := ih hbench
                  exact ⟨hrest.bench, congrArg (Except.map (snapshot :: ·)) hrest.result⟩
              | failed fault => exact ⟨hbench, rfl⟩
              | wait | readClock | ended => exact ⟨hbench, rfl⟩

theorem Renewed.drain (hperform : Renewing perform) (h : Renewed settled front b b₀) (id : Nat) :
    Alike settled front (b.drain perform (id + front.length)) (b₀.drain perform id) := by
  have hremaining : b.session.remaining (id + front.length) = b₀.session.remaining id := by
    obtain ⟨current, time, hs⟩ := h.session.behind
    rw [hs, Session.behind_remaining]
  unfold Bench.drain
  rw [hremaining]
  exact h.pullAll hperform _ id

/-- Starts the run of a bench on which the clock has yet to be read. -/
def launch (perform : Performer) (b : Bench) (kept : Bool) : Bench × Nat :=
  let b := b.read perform
  let reply := b.session.started b.clock kept
  (b.take reply, reply.result)

theorem startRun_of_ready (perform : Performer) (kept : Bool) (h : b.session.start.result = true) :
    b.startRun perform kept = ((b.take b.session.start).launch perform kept).map id some := by
  unfold Bench.startRun
  rw [if_pos h]
  rfl

theorem launch_behind (hperform : Renewing perform)
    (hwait : ∀ plan ∈ b.waitPlans, plan.2.Spares settled)
    (hreading : ∀ plan ∈ b.readingPlans, plan.2.IsClock) {kept : Bool} (hkept : kept = true ∨ settled)
    {current : Option Nat} {time : Float}
    (hearlier : settled → (b.session.behind front current time).suspended =
      b.session.suspended.map (· + front.length)) :
    Renewed settled front
        ((b.refit (b.session.behind front current time)
          (b.runs.map (Option.map (· + front.length)))).launch perform kept).1
        (b.launch perform kept).1 ∧
      ((b.refit (b.session.behind front current time)
        (b.runs.map (Option.map (· + front.length)))).launch perform kept).2 =
          (b.launch perform kept).2 + front.length := by
  obtain ⟨readingCount, readingPlans, clock, nested, hread, hplans⟩ :=
    read_of_isClock hperform.toFaithful hreading
  obtain ⟨hsession, hnotices, hresult⟩ := Session.renewed_started hkept hearlier clock
  unfold launch
  rw [read_apart hperform _ _ hreading, hread]
  refine ⟨⟨hsession, ?_, hwait, hplans⟩, hresult⟩
  exact congrArg (fun told : List Notice => Bench.refit _ _ { b with
    readingCount, readingPlans, clock, nested, notices := b.notices ++ told }) hnotices

theorem Renewed.startRun (hperform : Renewing perform) (h : Renewed settled front b b₀) {kept : Bool}
    (hkept : kept = true ∨ settled) :
    Renewed settled front (b.startRun perform kept).1 (b₀.startRun perform kept).1 ∧
      (b.startRun perform kept).2 = (b₀.startRun perform kept).2.map (· + front.length) := by
  have hearlier := h.session.suspended
  obtain ⟨current, time, hs⟩ := h.session.behind
  rw [hs] at hearlier
  have hstart : b.session.start = b₀.session.start.behind front current time := by
    rw [hs, Session.behind_start]
  cases hresult : b₀.session.start.result with
  | false =>
      unfold Bench.startRun
      dsimp only
      rw [hstart, if_neg (by simp [Reply.behind, hresult]), if_neg (by simp [hresult])]
      refine ⟨h.take ⟨?_, rfl, rfl⟩, rfl⟩
      have hsame := h.session
      rw [hs] at hsame
      rwa [Reply.behind, Session.start_refused hresult]
  | true =>
      -- the sessions are running already, but have no playback yet, so they are neither unplayed nor
      -- played: up to the reading of the clock the benches are compared by the residue alone
      have hopened : b.take b.session.start =
          (b₀.take b₀.session.start).refit
            ((b₀.take b₀.session.start).session.behind front current time)
            (b₀.runs.map (Option.map (· + front.length))) := by
        rw [hstart, h.rest]
        rfl
      have hsuspended (hsettled : settled) :
          (b₀.session.start.session.behind front current time).suspended =
            b₀.session.start.session.suspended.map (· + front.length) := by
        have hbehind := (b₀.session.behind front current time).suspended_start
        rw [Session.behind_start] at hbehind
        rw [b₀.session.suspended_start, ← hearlier hsettled]
        exact hbehind
      have hlaunched := launch_behind (b := b₀.take b₀.session.start) hperform h.waitPlans
        h.readingPlans hkept hsuspended
      rw [startRun_of_ready perform kept hresult,
        startRun_of_ready perform kept (by rw [hstart]; exact hresult), hopened]
      exact ⟨hlaunched.1, congrArg some hlaunched.2⟩

theorem Renewed.report (h : Renewed settled front b b₀) : b.session.report = b₀.session.report := by
  obtain ⟨current, time, hs⟩ := h.session.behind
  rw [hs]
  rfl

theorem Renewed.completeRun (hperform : Renewing perform) (h : Renewed settled front b b₀) {kept : Bool}
    (hkept : kept = true ∨ settled) :
    Alike settled front (b.completeRun perform kept) (b₀.completeRun perform kept) := by
  obtain ⟨hbench, hresult⟩ := h.startRun hperform hkept
  unfold Bench.completeRun
  cases hstarted : b.startRun perform kept with
  | mk b' playback =>
      cases hstarted₀ : b₀.startRun perform kept with
      | mk b₀' playback₀ =>
          rw [hstarted, hstarted₀] at hbench hresult
          obtain rfl : playback = playback₀.map (· + front.length) := hresult
          cases playback₀ with
          | none => exact ⟨hbench, congrArg (CallResult.ofOption .report) hbench.report⟩
          | some id =>
              obtain ⟨hdrained, hsteps⟩ := hbench.drain hperform id
              dsimp only [Option.map_some]
              cases hdrain : b'.drain perform (id + front.length) with
              | mk d steps =>
                  cases hdrain₀ : b₀'.drain perform id with
                  | mk d₀ steps₀ =>
                      rw [hdrain, hdrain₀] at hdrained hsteps
                      obtain rfl : steps = steps₀ := hsteps
                      cases steps with
                      | ok => exact ⟨hdrained, congrArg (CallResult.ofOption .report) hdrained.report⟩
                      | error fault => exact ⟨hdrained, rfl⟩

theorem Renewed.playbackOf (h : Renewed settled front b b₀) (run : Option Int) :
    b.playbackOf run = (b₀.playbackOf run).map (Option.map (· + front.length)) := by
  rw [h.rest]
  unfold Bench.playbackOf refit
  rw [List.length_map]
  dsimp only
  generalize hindex : (if run.getD (-1) < 0 then run.getD (-1) + b₀.runs.length else run.getD (-1)) =
    index
  by_cases hinside : 0 ≤ index
  · rw [if_pos hinside, if_pos hinside, List.getElem?_map]
    cases b₀.runs[index.toNat]? <;> rfl
  · rw [if_neg hinside, if_neg hinside]
    rfl

theorem Renewed.onRun (h : Renewed settled front b b₀) (run : Option Int) (refused : CallResult)
    {accepted accepted₀ : Nat → Bench × CallResult}
    (haccepted : ∀ id, Alike settled front (accepted (id + front.length)) (accepted₀ id)) :
    Alike settled front (b.onRun run refused accepted) (b₀.onRun run refused accepted₀) := by
  unfold Bench.onRun
  rw [h.playbackOf run]
  cases b₀.playbackOf run with
  | error fault => exact ⟨h, rfl⟩
  | ok playback =>
      cases playback with
      | none => exact ⟨h, rfl⟩
      | some id => exact haccepted id

/-! ## Calls of a script -/

theorem Alike.map {α β : Type} {given given₀ : Bench × α} (h : Alike settled front given given₀)
    (f : α → β) : Alike settled front (given.1, f given.2) (given₀.1, f given₀.2) :=
  ⟨h.bench, congrArg f h.result⟩

theorem Renewed.performRun (hperform : Renewing perform) (h : Renewed settled front b b₀) {kept : Bool}
    (hkept : kept = true ∨ settled) :
    Alike settled front (performWith perform b (.run kept)) (performWith perform b₀ (.run kept)) := by
  obtain ⟨hbench, hresult⟩ := h.startRun hperform hkept
  constructor
  · refine ⟨hbench.session, ?_, hbench.waitPlans, hbench.readingPlans⟩
    simp only [Bench.performWith]
    rw [hresult, hbench.rest]
    simp [refit]
  · simp only [Bench.performWith]
    rw [hbench.rest]
    simp [refit]

theorem Renewed.performNext (hperform : Renewing perform) (h : Renewed settled front b b₀)
    (run : Option Int) :
    Alike settled front (performWith perform b (.next run)) (performWith perform b₀ (.next run)) := by
  apply h.onRun
  intro id
  obtain ⟨hbench, hresult⟩ := h.pull hperform id
  cases hpulled : b.pull perform (id + front.length) with
  | mk b' outcome =>
      cases hpulled₀ : b₀.pull perform id with
      | mk b₀' outcome₀ =>
          rw [hpulled, hpulled₀] at hbench hresult
          obtain rfl : outcome = outcome₀ := hresult
          cases outcome <;> exact ⟨hbench, rfl⟩

theorem Renewed.performClose (h : Renewed settled front b b₀) (run : Option Int) :
    Alike settled front (performWith perform b (.close run)) (performWith perform b₀ (.close run)) := by
  apply h.onRun
  intro id
  obtain ⟨hbench, hresult⟩ := h.answer (h.session.closePlayback id)
  dsimp only at hresult ⊢
  rw [hresult]
  cases (b₀.session.closePlayback id).result <;> exact ⟨hbench, rfl⟩

theorem renewing_performWith (hperform : Renewing perform) : Renewing (performWith perform) where
  toFaithful := faithful_performWith hperform.toFaithful
  alike := by
    intro settled front b b₀ call h hcall
    cases call with
    | load text => exact (h.answer (h.session.load text)).map (resultOf (.ofOption .program))
    | loadProgram program =>
        exact (h.answer (h.session.loadProgram program)).map (CallResult.ofOption .program)
    | run kept => exact h.performRun hperform hcall
    | next run => exact h.performNext hperform run
    | drain run =>
        apply h.onRun
        intro id
        exact (h.drain hperform id).map (resultOf .snapshots)
    | close run => exact h.performClose run
    | complete kept => exact h.completeRun hperform hcall
    | stop => exact (h.answer h.session.stop).map fun _ => CallResult.nothing
    | reset => exact (h.answer h.session.reset).map fun _ => CallResult.nothing
    | seek step =>
        exact (h.answer (h.session.seek step)).map (resultOf (.ofOption .snapshot))
    | advance seconds =>
        refine ⟨⟨h.session, ?_, h.waitPlans, h.readingPlans⟩, ?_⟩
        · exact congrArg (fun bench : Bench => { bench with clock := bench.clock + seconds }) h.rest
        · exact congrArg (fun clock => CallResult.clock (clock + seconds)) h.clock
    | failing fault => exact ⟨h, rfl⟩
    | onWait n call =>
        have hplans : ∀ plan ∈ b₀.waitPlans ++ [(b₀.waitCount + n, call)], plan.2.Spares settled :=
          List.forall_mem_append.mpr ⟨h.waitPlans, List.forall_mem_singleton.mpr hcall⟩
        refine ⟨⟨h.session, ?_, hplans, h.readingPlans⟩, rfl⟩
        exact congrArg (fun bench : Bench =>
          { bench with waitPlans := bench.waitPlans ++ [(bench.waitCount + n, call)] }) h.rest
    | onReading n call =>
        have hplans : ∀ plan ∈ b₀.readingPlans ++ [(b₀.readingCount + n, call)], plan.2.IsClock :=
          List.forall_mem_append.mpr ⟨h.readingPlans, List.forall_mem_singleton.mpr hcall⟩
        refine ⟨⟨h.session, ?_, h.waitPlans, hplans⟩, rfl⟩
        exact congrArg (fun bench : Bench =>
          { bench with readingPlans := bench.readingPlans ++ [(bench.readingCount + n, call)] }) h.rest
    | save =>
        obtain ⟨current, time, hs⟩ := h.session.behind
        refine ⟨h, ?_⟩
        dsimp only [Bench.performWith]
        rw [hs]
        rfl
  apart := by
    intro b session runs call hcall
    cases call with
    | advance seconds => rfl
    | _ => exact hcall.elim

theorem renewing_perform (fuel : Nat) : Renewing (Bench.perform fuel) := by
  induction fuel with
  | zero =>
      exact
        { toFaithful := faithful_perform 0
          alike := fun h _ => ⟨h, rfl⟩
          apart := fun _ _ _ _ _ => rfl }
  | succ fuel ih => exact renewing_performWith ih

end Bench

end TurretPunch
