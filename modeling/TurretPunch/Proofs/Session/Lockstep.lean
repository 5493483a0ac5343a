import TurretPunch.Proofs.Session.Drain
import TurretPunch.Proofs.Session.Refusal

namespace TurretPunch

/-!
# Runs that calls come into

A script that plays a run can be interrupted by calls between the steps of the run, and in its waits.
The run is compared with the one that the script without those calls plays. As long as they are
refused, both runs go on in lockstep.
-/

/-- A list into which elements were inserted, beside the list without them. -/
inductive Woven {α : Type} (own inserted : α → Prop) : List α → List α → Prop
  | nil : Woven own inserted [] []
  | own {a : α} {all rest : List α} (ha : own a) (h : Woven own inserted all rest) :
      Woven own inserted (a :: all) (a :: rest)
  | inserted {a : α} {all rest : List α} (ha : inserted a) (h : Woven own inserted all rest) :
      Woven own inserted (a :: all) rest

namespace Woven

variable {α : Type} {own inserted : α → Prop} {all rest more others : List α}

theorem of_own (h : ∀ a ∈ rest, own a) : Woven own inserted rest rest := by
  induction rest with
  | nil => exact .nil
  | cons a rest ih =>
      exact .own (h a List.mem_cons_self) (ih fun x hx => h x (List.mem_cons_of_mem _ hx))

theorem of_inserted (h : ∀ a ∈ all, inserted a) : Woven own inserted all [] := by
  induction all with
  | nil => exact .nil
  | cons a all ih =>
      exact .inserted (h a List.mem_cons_self) (ih fun x hx => h x (List.mem_cons_of_mem _ hx))

theorem append (h : Woven own inserted all rest) (hmore : Woven own inserted more others) :
    Woven own inserted (all ++ more) (rest ++ others) := by
  induction h with
  | nil => exact hmore
  | own ha _ ih => exact .own ha ih
  | inserted ha _ ih => exact .inserted ha ih

theorem filter (h : Woven own inserted all rest) (p : α → Bool) :
    Woven own inserted (all.filter p) (rest.filter p) := by
  induction h with
  | nil => exact .nil
  | @own a _ _ ha _ ih =>
      cases hp : p a with
      | true =>
          rw [List.filter_cons_of_pos hp, List.filter_cons_of_pos hp]
          exact .own ha ih
      | false =>
          rw [List.filter_cons_of_neg (by simp [hp]), List.filter_cons_of_neg (by simp [hp])]
          exact ih
  | @inserted a _ _ ha _ ih =>
      cases hp : p a with
      | true =>
          rw [List.filter_cons_of_pos hp]
          exact .inserted ha ih
      | false =>
          rw [List.filter_cons_of_neg (by simp [hp])]
          exact ih

end Woven

/-- A call that plays the run `k`, or that has to do with the clock alone. -/
inductive Call.Conducts (k : Nat) : Call → Prop
  | next : Conducts k (.next (some k))
  | drain : Conducts k (.drain (some k))
  | advance (seconds : Float) : Conducts k (.advance seconds)
  | onWait (n : Int) {call : Call} (h : call.IsClock) : Conducts k (.onWait n call)
  | onReading (n : Int) {call : Call} (h : call.IsClock) : Conducts k (.onReading n call)

namespace Bench

open Session (Outcome Amid Conducted settle)

variable {b b₀ b' : Bench} {call : Call} {k m id : Nat}

/-- A bench on which the run `k` is interrupted, beside one on which it is not. -/
structure Beside (k m id : Nat) (b b₀ : Bench) : Prop where
  session : b.session = b₀.session
  now : b.now = b₀.now
  clock : b.clock = b₀.clock
  waitCount : b.waitCount = b₀.waitCount
  readingCount : b.readingCount = b₀.readingCount
  waitPlans : Woven (fun plan => plan.2.IsClock) (fun plan => plan.2.Intrudes k m)
    b.waitPlans b₀.waitPlans
  readingPlans : b.readingPlans = b₀.readingPlans
  readings : ∀ plan ∈ b₀.readingPlans, plan.2.IsClock
  numbered : Numbered k m id b.runs
  own : b₀.runs[k]? = some (some id)

/-- Two benches on which the same was seen of a call, but for the calls that came in its waits. -/
structure Abreast (k m id : Nat) (b b₀ : Bench) : Prop extends Beside k m id b b₀ where
  waits : b.waits = b₀.waits
  nested : Woven (fun _ => True)
    (fun result => ∃ call : Call, call.Intrudes k m ∧ call.Answered k m result) b.nested b₀.nested

theorem Beside.spared (h : Beside k m id b b₀) (hb : Spared k m b b') : Beside k m id b' b₀ := by
  have hnumbered := h.numbered.spared hb
  obtain ⟨notices, plans, n, hplans, rfl⟩ := hb
  have hwoven := h.waitPlans.append (.of_inserted hplans)
  rw [List.append_nil] at hwoven
  exact { h with waitPlans := hwoven, numbered := hnumbered }

theorem Abreast.spared (h : Abreast k m id b b₀) (hb : Spared k m b b') :
    Abreast k m id b' b₀ := by
  have hbeside := h.toBeside.spared hb
  obtain ⟨notices, plans, n, _, rfl⟩ := hb
  exact { hbeside with waits := h.waits, nested := h.nested }

theorem Abreast.take {α : Type} (h : Abreast k m id b b₀) (reply : Reply α) :
    Abreast k m id (b.take reply) (b₀.take reply) :=
  { h with session := rfl }

theorem Abreast.advance (h : Abreast k m id b b₀) (seconds : Float) :
    Abreast k m id { b with clock := b.clock + seconds }
      { b₀ with clock := b₀.clock + seconds } :=
  { h with clock := congrArg (· + seconds) h.clock }

/-- What a call shows that is made on both benches in a wait. -/
theorem Abreast.nest (h : Abreast k m id b b₀) {result result₀ : CallResult}
    (hresult : result = result₀) :
    Abreast k m id { b with nested := b.nested ++ [result] }
      { b₀ with nested := b₀.nested ++ [result₀] } := by
  subst hresult
  exact { h with nested := h.nested.append (.own trivial .nil) }

/-- What a call shows that is made in a wait of the interrupted run only. -/
theorem Abreast.intrude (h : Abreast k m id b b₀) {result : CallResult}
    (hcall : call.Intrudes k m) (hresult : call.Answered k m result) :
    Abreast k m id { b with nested := b.nested ++ [result] } b₀ where
  toBeside := { h with }
  waits := h.waits
  nested := by
    have hnested := h.nested.append (.inserted ⟨call, hcall, hresult⟩ .nil)
    rwa [List.append_nil] at hnested

section Lockstep

variable (fuel fuel₀ : Nat)

theorem Abreast.performPlanned {plans plans₀ : List (Int × Call)} (h : Abreast k m id b b₀)
    (hplans : Woven (fun plan => plan.2.IsClock) (fun plan => plan.2.Intrudes k m) plans plans₀)
    (hready : (∀ plan ∈ plans, plan.2.IsClock) ∨ b.session.Amid id) :
    Abreast k m id (performPlanned (perform (fuel + 1)) b plans)
        (performPlanned (perform (fuel₀ + 1)) b₀ plans₀) ∧
      (performPlanned (perform (fuel + 1)) b plans).session = b.session ∧
        (performPlanned (perform (fuel + 1)) b plans).now = b.now := by
  induction hplans generalizing b b₀ with
  | nil => exact ⟨h, rfl, rfl⟩
  | @own plan plans plans₀ hclock _ ih =>
      obtain ⟨n, call⟩ := plan
      cases call with
      | advance seconds =>
          have hresult : CallResult.clock (b.clock + seconds) = .clock (b₀.clock + seconds) :=
            congrArg (fun clock => CallResult.clock (clock + seconds)) h.clock
          exact ih ((h.advance seconds).nest hresult)
            (hready.imp_left fun hall plan hplan => hall plan (List.mem_cons_of_mem _ hplan))
      | _ => exact hclock.elim
  | @inserted plan plans plans₀ hintrudes _ ih =>
      rcases hready with hall | hamid
      · exact absurd (hall plan List.mem_cons_self) hintrudes.not_isClock
      · obtain ⟨hspared, hanswered⟩ := perform_of_intrudes hamid h.numbered hintrudes fuel
        obtain ⟨hsession, hnow, _⟩ := hspared.same
        have hnext := (h.spared hspared).intrude hintrudes hanswered
        obtain ⟨habreast, hsame, hstill⟩ := ih hnext (.inr (by rw [hsession]; exact hamid))
        exact ⟨habreast, hsame.trans hsession, hstill.trans hnow⟩

theorem Abreast.wait (h : Abreast k m id b b₀) (hamid : b.session.Amid id) (seconds : Float) :
    Abreast k m id (b.wait (perform (fuel + 1)) seconds) (b₀.wait (perform (fuel₀ + 1)) seconds) ∧
      (b.wait (perform (fuel + 1)) seconds).session = b.session ∧
        (b.wait (perform (fuel + 1)) seconds).now = b.now := by
  unfold Bench.wait
  simp only [List.partition_eq_filter_filter]
  rw [← h.waitCount]
  let later : Int × Call → Bool := not ∘ (·.1 == b.waitCount + 1)
  have hstart : Abreast k m id
      { b with
        waitCount := b.waitCount + 1, waitPlans := b.waitPlans.filter later
        waits := b.waits ++ [seconds] }
      { b₀ with
        waitCount := b.waitCount + 1, waitPlans := b₀.waitPlans.filter later
        waits := b₀.waits ++ [seconds] } :=
    { h with
      waitCount := rfl, waitPlans := h.waitPlans.filter later
      waits := congrArg (· ++ [seconds]) h.waits }
  obtain ⟨habreast, hsame⟩ :=
    hstart.performPlanned fuel fuel₀ (h.waitPlans.filter (·.1 == b.waitCount + 1)) (.inr hamid)
  exact ⟨habreast.advance seconds, hsame⟩

theorem Abreast.read (h : Abreast k m id b b₀) :
    Abreast k m id (b.read (perform (fuel + 1))) (b₀.read (perform (fuel₀ + 1))) ∧
      (b.read (perform (fuel + 1))).session = b.session ∧
        (b.read (perform (fuel + 1))).now = b.now := by
  unfold Bench.read
  simp only [List.partition_eq_filter_filter]
  rw [h.readingPlans, h.readingCount]
  let count := b₀.readingCount + 1
  let later := b₀.readingPlans.filter (not ∘ (·.1 == count))
  have hdue : ∀ plan ∈ b₀.readingPlans.filter (·.1 == count), plan.2.IsClock :=
    fun plan hplan => h.readings plan (List.mem_filter.mp hplan).1
  have hstart : Abreast k m id { b with readingCount := count, readingPlans := later }
      { b₀ with readingCount := count, readingPlans := later } :=
    { h with
      readingCount := rfl, readingPlans := rfl
      readings := fun plan hplan => h.readings plan (List.mem_filter.mp hplan).1 }
  exact hstart.performPlanned fuel fuel₀ (.of_own hdue) (.inl hdue)

/-- What was done on the two benches had the same outcome. -/
structure InStep {α : Type} (k m id : Nat) (all own : Bench × α) : Prop where
  outcome : all.2 = own.2
  abreast : Abreast k m id all.1 own.1
  conducted : all.1.session.Conducted id

theorem InStep.eq {α : Type} {all own : Bench × α} (h : InStep k m id all own) :
    ∃ b b₀ outcome, all = (b, outcome) ∧ own = (b₀, outcome) ∧ Abreast k m id b b₀ ∧
      b.session.Conducted id :=
  ⟨all.1, own.1, own.2, Prod.ext rfl h.outcome, rfl, h.abreast, h.conducted⟩

/-- Both playbacks are given the same, and answer the same. -/
theorem Abreast.serve {b b₀ : Bench} (n : Nat) (reply : Reply Outcome) (h : Abreast k m id b b₀)
    (hwait : ∀ seconds, reply.result = .wait seconds → reply.session.Amid id)
    (hsettled : ∀ time, (settle reply b.now id time).session.Conducted id) :
    InStep k m id (serve (perform (fuel + 1)) n (b.take reply) id reply.result)
      (serve (perform (fuel₀ + 1)) n (b₀.take reply) id reply.result) := by
  have htaken := h.take reply
  cases hresult : reply.result with
  -- what comes in the wait leaves the session in the middle of the step, so that both go on alike
  | wait seconds =>
      have hconducted := hsettled 0.0
      rw [settle, hresult] at hconducted
      cases n with
      | zero => exact ⟨rfl, htaken, hconducted⟩
      | succ n =>
          have hamid := hwait seconds hresult
          obtain ⟨hwaited, hsession, hnow⟩ := htaken.wait fuel fuel₀ hamid seconds
          generalize hb : (b.take reply).wait (perform (fuel + 1)) seconds = waited at *
          generalize hb₀ : (b₀.take reply).wait (perform (fuel₀ + 1)) seconds = waited₀ at *
          have hgoes : waited.session.Amid id := hsession ▸ hamid
          have hresumed := hwaited.serve n (waited.session.resume waited.now id)
            (fun _ hnext => hgoes.resume hnext)
            (fun time => hgoes.conducted.turned (waited.session.settle_resume waited.now id time))
          rw [Bench.serve, Bench.serve, hb, hb₀, ← hwaited.session, ← hwaited.now]
          exact hresumed
  | readClock =>
      obtain ⟨hread, hsession, hnow⟩ := htaken.read fuel fuel₀
      have hconducted := hsettled ((b.take reply).read (perform (fuel + 1))).clock
      rw [Session.settle_of_readClock b.now id _ hresult] at hconducted
      generalize hb : (b.take reply).read (perform (fuel + 1)) = read at *
      generalize hb₀ : (b₀.take reply).read (perform (fuel₀ + 1)) = read₀ at *
      have hclosed : reply.session.closeAt b.now id read.clock =
          read.session.closeAt read.now id read.clock := by
        rw [hsession, hnow]
        rfl
      rw [hclosed] at hconducted
      have habreast := hread.take (read.session.closeAt read.now id read.clock)
      cases n <;>
        · rw [Bench.serve, Bench.serve, hb, hb₀, ← hread.session, ← hread.now, ← hread.clock]
          exact ⟨rfl, habreast, hconducted⟩
  | shown | ended | failed =>
      have hconducted := hsettled 0.0
      rw [settle, hresult] at hconducted
      cases n <;> exact ⟨rfl, htaken, hconducted⟩

theorem Abreast.pull (h : Abreast k m id b b₀) (hconducted : b.session.Conducted id) :
    InStep k m id (b.pull (perform (fuel + 1)) id) (b₀.pull (perform (fuel₀ + 1)) id) := by
  unfold Bench.pull
  dsimp only
  rw [← h.session, ← h.now]
  exact h.serve fuel fuel₀ 2 (b.session.pull b.now id) (fun _ => hconducted.pull)
    (fun time => hconducted.turned (b.session.settle_pull b.now id time))

theorem Abreast.pullAll (n : Nat) (h : Abreast k m id b b₀)
    (hconducted : b.session.Conducted id) :
    InStep k m id (b.pullAll (perform (fuel + 1)) n id) (b₀.pullAll (perform (fuel₀ + 1)) n id) := by
  induction n generalizing b b₀ with
  | zero => exact ⟨rfl, h, hconducted⟩
  | succ n ih =>
      obtain ⟨_, _, outcome, hall, hown, habreast, hpulled⟩ := (h.pull fuel fuel₀ hconducted).eq
      unfold Bench.pullAll
      rw [hall, hown]
      cases outcome with
      | shown snapshot =>
          obtain ⟨hmore, hrest, hended⟩ := ih habreast hpulled
          exact ⟨congrArg (Except.map (snapshot :: ·)) hmore, hrest, hended⟩
      | failed | ended | wait | readClock => exact ⟨rfl, habreast, hpulled⟩

/-! ## Scripts -/

/-- A call that plays the run goes on in lockstep, whatever comes in its waits. -/
theorem Abreast.conduct (h : Abreast k m id b b₀) (hrunning : b.session.phase = .running)
    (hreport : b.session.report = none) (hcall : call.Conducts k) :
    InStep k m id (perform (fuel + 2) b call) (perform (fuel₀ + 2) b₀ call) := by
  have hconducted : b.session.Conducted id :=
    ⟨fun _ => hreport, fun hidle => absurd hrunning hidle⟩
  rw [perform_succ (fuel + 1), perform_succ (fuel₀ + 1)]
  cases hcall with
  | next =>
      obtain ⟨_, _, outcome, hall, hown, habreast, hpulled⟩ := (h.pull fuel fuel₀ hconducted).eq
      simp only [performWith, onRun, playbackOf_natCast h.numbered.own, playbackOf_natCast h.own,
        hall, hown]
      cases outcome <;> exact ⟨rfl, habreast, hpulled⟩
  | drain =>
      obtain ⟨houtcome, habreast, hpulled⟩ :=
        h.pullAll fuel fuel₀ (b.session.remaining id) hconducted
      simp only [performWith, onRun, playbackOf_natCast h.numbered.own, playbackOf_natCast h.own,
        drain, ← h.session]
      exact ⟨congrArg (resultOf .snapshots) houtcome, habreast, hpulled⟩
  | advance seconds =>
      refine ⟨?_, h.advance seconds, hconducted⟩
      exact congrArg (fun clock => CallResult.clock (clock + seconds)) h.clock
  | @onWait n call hclock =>
      refine ⟨rfl, { h with waitPlans := ?_ }, hconducted⟩
      show Woven _ _ (b.waitPlans ++ [(b.waitCount + n, call)])
        (b₀.waitPlans ++ [(b₀.waitCount + n, call)])
      rw [← h.waitCount]
      exact h.waitPlans.append (.own hclock .nil)
  | @onReading n call hclock =>
      refine ⟨rfl, { h with readingPlans := ?_, readings := ?_ }, hconducted⟩
      · simp only [performWith, h.readingPlans, h.readingCount]
      · intro plan hplan
        rcases List.mem_append.mp hplan with hold | hnew
        · exact h.readings plan hold
        · obtain rfl := List.mem_singleton.mp hnew
          exact hclock

/-- What is seen of a script into which calls were inserted, beside what is seen of it without them,
until the active run is over. Each call of the script itself has the same result, leaves the same
session and waits for the same. An inserted one leaves the session as it is. -/
inductive Undisturbed (k m : Nat) : Session → List Call → List Stage → List Stage → Prop
  | past {s : Session} {calls : List Call} {stages stages₀ : List Stage}
      (h : s.phase ≠ .running) : Undisturbed k m s calls stages stages₀
  | done {s : Session} : Undisturbed k m s [] [] []
  | own {s : Session} {call : Call} {calls : List Call} {stage stage₀ : Stage}
      {stages stages₀ : List Stage} (hcall : call.Conducts k) (hresult : stage.result = stage₀.result)
      (hsession : stage.session = stage₀.session) (hwaits : stage.waits = stage₀.waits)
      (hnested : Woven (fun _ => True)
        (fun result => ∃ call : Call, call.Intrudes k m ∧ call.Answered k m result)
        stage.nested stage₀.nested)
      (h : Undisturbed k m stage.session calls stages stages₀) :
      Undisturbed k m s (call :: calls) (stage :: stages) (stage₀ :: stages₀)
  | inserted {s : Session} {call : Call} {calls : List Call} {stage : Stage}
      {stages stages₀ : List Stage} (hcall : call.Interrupts k m)
      (hresult : call.Answered k m stage.result) (hsession : stage.session = s)
      (hwaits : stage.waits = []) (hnested : stage.nested = [])
      (h : Undisturbed k m s calls stages stages₀) :
      Undisturbed k m s (call :: calls) (stage :: stages) stages₀

theorem Beside.undisturbed {calls own : List Call} (h : Beside k m id b b₀)
    (hreport : b.session.phase = .running → b.session.report = none)
    (hcalls : Woven (Call.Conducts k) (Call.Interrupts k m) calls own) :
    Undisturbed k m b.session calls (performAll (fuel + 2) b calls)
      (performAll (fuel₀ + 2) b₀ own) := by
  induction hcalls generalizing b b₀ with
  | nil => exact .done
  | @own call calls own hcall _ ih =>
      by_cases hrunning : b.session.phase = .running
      · let fresh : Bench := { b with notices := [], waits := [], nested := [] }
        let fresh₀ : Bench := { b₀ with notices := [], waits := [], nested := [] }
        have hfresh : Abreast k m id fresh fresh₀ := { h with waits := rfl, nested := .nil }
        obtain ⟨hresult, habreast, hconducted⟩ :=
          hfresh.conduct fuel fuel₀ hrunning (hreport hrunning) hcall
        exact .own hcall hresult habreast.session habreast.waits habreast.nested
          (ih habreast.toBeside hconducted.report)
      · exact .past hrunning
  | @inserted call calls own hcall _ ih =>
      by_cases hrunning : b.session.phase = .running
      · let fresh : Bench := { b with notices := [], waits := [], nested := [] }
        have hfresh : Beside k m id fresh b₀ := { h with }
        obtain ⟨hspared, hanswered⟩ := perform_of_interrupts (b := fresh) hrunning
          (hreport hrunning) h.numbered hcall (fuel + 1)
        obtain ⟨hsession, _, hwaits, hnested⟩ := hspared.same
        have hrest := ih (hfresh.spared hspared) (by rw [hsession]; exact hreport)
        rw [hsession] at hrest
        exact .inserted hcall hanswered hsession hwaits hnested hrest
      · exact .past hrunning

end Lockstep

/-- Calls that an active run refuses do not interfere with it, whether they come between its steps or in
its waits. The run goes on in lockstep with the one without them until it is over. Its playback is in
the middle of a step whenever it waits, and then it can neither be asked for the next one nor be
closed, and nothing is done by trying to. -/
theorem refused_calls_leave_run {allowed : Session → Session.Event → Prop} {b : Bench} {k id : Nat}
    (h : Session.Reached allowed b.session) (hquiet : b.Quiet)
    (hown : b.runs[k]? = some (some id)) :
    (∀ calls own : List Call,
      Woven (Call.Conducts k) (Call.Interrupts k b.runs.length) calls own →
        ∀ fuel fuel₀ : Nat, Undisturbed k b.runs.length b.session calls
          (performAll (fuel + 2) b calls) (performAll (fuel₀ + 2) b own)) ∧
      (∀ (s : Session) (now : Timestamp) (seconds : Float), s.phase = .running → s.report = none →
        (s.pull now id).result = .wait seconds → (s.pull now id).session.Amid id) ∧
      (∀ (s : Session) (now : Timestamp) (seconds : Float), s.Amid id →
        (s.resume now id).result = .wait seconds → (s.resume now id).session.Amid id) ∧
      ∀ (b' : Bench) (fuel : Nat), b'.session.Amid id → b'.runs[k]? = some (some id) →
        perform (fuel + 1) b' (.next (some k)) = (b', .failed .alreadyPlaying) ∧
          perform (fuel + 1) b' (.close (some k)) = (b', .failed .alreadyPlaying) := by
  have hreport := (Session.attended_of_reached h).report
  have hbeside : Beside k b.runs.length id b b := {
    session := rfl
    now := rfl
    clock := rfl
    waitCount := rfl
    readingCount := rfl
    waitPlans := .of_own hquiet.waitPlans
    readingPlans := rfl
    readings := hquiet.readingPlans
    numbered := ⟨hown, Nat.le_refl _, fun n hle hlt => absurd hlt (Nat.not_lt_of_le hle)⟩
    own := hown }
  refine ⟨?_, ?_, ?_, ?_⟩
  · intro calls own hcalls fuel fuel₀
    exact hbeside.undisturbed fuel fuel₀ hreport hcalls
  · intro s now seconds hphase hnone hwait
    have hconducted : s.Conducted id := ⟨fun _ => hnone, fun hidle => absurd hphase hidle⟩
    exact hconducted.pull hwait
  · intro s now seconds hamid hwait
    exact hamid.resume hwait
  · intro b' fuel hamid hrun
    exact perform_of_amid hamid hrun fuel

theorem refused_calls_leave_run_twoHits :
    let b := (perform 1 (loaded 300.0 twoHits) .run).1
    let calls : List Call := [.onWait 1 (.next (some 0)), .load "T2", .next (some 0), .run, .reset,
      .onWait 2 (.seek 0), .complete, .drain (some 0)]
    let own : List Call := [.next (some 0), .drain (some 0)]
    b.session.phase = .running ∧
      Undisturbed 0 1 b.session calls (performAll 2 b calls) (performAll 2 b own) ∧
      (performAll 2 b own).map (·.session.phase) = [.running, .completed] ∧
      (performAll 2 b calls).map (·.session.press.holes.length) = [0, 0, 1, 1, 1, 1, 1, 2] := by
  intro b calls own
  have hreached : Session.Reached (fun _ _ => True) b.session :=
    ((Session.Reached.fresh .empty ⟨300.0, 300.0⟩ 500.0 (.real 8.0) 100).event
      (.loadProgram twoHits) trivial).event (.run 0.0) trivial
  have hquiet : b.Quiet := ⟨nofun, nofun⟩
  have hcalls : Woven (Call.Conducts 0) (Call.Interrupts 0 1) calls own :=
    .inserted (.onWait 1 .next) (.inserted (.refused (.load "T2")) (.own .next
      (.inserted (.refused (.run true)) (.inserted (.refused .reset)
        (.inserted (.onWait 2 (.refused (.seek 0))) (.inserted (.refused (.complete true))
          (.own .drain .nil)))))))
  exact ⟨by decide +kernel, (refused_calls_leave_run hreached hquiet rfl).1 calls own hcalls 0 0,
    by decide +kernel, by decide +kernel⟩

end Bench

end TurretPunch
