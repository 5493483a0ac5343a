import TurretPunch.Proofs.Session.Script

namespace TurretPunch

/-!
# Quiet benches

On a quiet bench nothing is planned but what has to do with the clock alone, so that nothing comes
between a playback and what it waits for. A pull then comes down to one thing: the playback arrives
at its next operation, or at its end.
-/

namespace Session

/-- What a playback has yet to make: it was not asked for anything, or it has shown a step. -/
inductive Due (s : Session) (id : Nat) : Nat → List Operation → Prop
  | created (h : s.playbacks[id]? = some .created) : Due s id 0 s.operations
  | shown {index : Nat} {op : Operation} {rest : List Operation}
      (h : s.playbacks[id]? = some (.shown index op rest)) : Due s id (index + 1) rest

/-- What a playback does at its next operation, after the wait before it, or at its end. -/
def arrive (s : Session) (now : Timestamp) (id index : Nat) (last : Option Operation) :
    List Operation → Reply Outcome
  | [] => s.complete id last none
  | op :: rest => s.play now id index op rest

theorem arrive_cons (s : Session) (now : Timestamp) (id index : Nat) (last : Option Operation)
    (op : Operation) (rest : List Operation) :
    s.arrive now id index last (op :: rest) = s.play now id index op rest := rfl

theorem arrive_ne_wait (s : Session) (now : Timestamp) (id index : Nat) (last : Option Operation)
    (rest : List Operation) (seconds : Float) :
    (s.arrive now id index last rest).result ≠ .wait seconds := by
  cases rest with
  | nil => exact Outcome.noConfusion
  | cons op rest =>
      rw [arrive_cons]
      cases hresult : (s.makeStep now index).result with
      | error fault => simp [(play_of_fault id op rest hresult).2]
      | ok snapshot =>
          cases hop : op.isFinish with
          | true => simp [(play_of_isFinish id rest hresult hop).2]
          | false => simp [(play_of_snapshot id rest hresult hop).2]

end Session

namespace Bench

open Session (Outcome Due settle)

/-- A bench on which no calls are planned but what has to do with the clock alone. -/
structure Quiet (b : Bench) : Prop where
  waitPlans : ∀ plan ∈ b.waitPlans, plan.2.IsClock
  readingPlans : ∀ plan ∈ b.readingPlans, plan.2.IsClock

/-- A quiet bench that is the same as another one but for the clock and what is seen of it. -/
structure Stands (b b' : Bench) : Prop where
  session : b'.session = b.session
  now : b'.now = b.now
  runs : b'.runs = b.runs
  quiet : b'.Quiet

/-- A quiet bench on which a playback has got further, with nothing else done to the session. -/
structure Approaches (b b' : Bench) (playbacks : List Playback) : Prop where
  session : b'.session = { b.session with playbacks }
  length : playbacks.length = b.session.playbacks.length
  now : b'.now = b.now
  quiet : b'.Quiet

variable {perform : Performer} {b : Bench}

theorem wait_of_isClock (hperform : Faithful perform)
    (hplans : ∀ plan ∈ b.waitPlans, plan.2.IsClock) (seconds : Float) :
    ∃ waitCount waitPlans clock nested,
      b.wait perform seconds =
        { b with waitCount, waitPlans, waits := b.waits ++ [seconds], clock, nested } ∧
      ∀ plan ∈ waitPlans, plan.2.IsClock := by
  unfold Bench.wait
  simp only [List.partition_eq_filter_filter]
  obtain ⟨clock, nested, hdue⟩ :=
    performPlanned_of_isClock hperform
      { b with
        waitCount := b.waitCount + 1
        waitPlans := b.waitPlans.filter (not ∘ (·.1 == b.waitCount + 1))
        waits := b.waits ++ [seconds] }
      (fun plan hplan => hplans plan (List.mem_filter.mp hplan).1)
  rw [hdue]
  exact ⟨_, _, _, nested, rfl, fun plan hplan => hplans plan (List.mem_filter.mp hplan).1⟩

theorem Quiet.wait (hperform : Faithful perform) (h : b.Quiet) (seconds : Float) :
    Stands b (b.wait perform seconds) := by
  obtain ⟨waitCount, waitPlans, clock, nested, hwait, hplans⟩ :=
    wait_of_isClock hperform h.waitPlans seconds
  rw [hwait]
  exact ⟨rfl, rfl, rfl, ⟨hplans, h.readingPlans⟩⟩

theorem Quiet.read (hperform : Faithful perform) (h : b.Quiet) :
    Stands b (b.read perform) := by
  obtain ⟨readingCount, readingPlans, clock, nested, hread, hplans⟩ :=
    read_of_isClock hperform h.readingPlans
  rw [hread]
  exact ⟨rfl, rfl, rfl, ⟨h.waitPlans, hplans⟩⟩

theorem Quiet.take {α : Type} (h : b.Quiet) (reply : Reply α) : (b.take reply).Quiet :=
  ⟨h.waitPlans, h.readingPlans⟩

/-- Nothing is told in a wait. -/
theorem Quiet.notices_wait (hperform : Faithful perform) (h : b.Quiet) (seconds : Float) :
    (b.wait perform seconds).notices = b.notices := by
  obtain ⟨waitCount, waitPlans, clock, nested, hwait, _⟩ :=
    wait_of_isClock hperform h.waitPlans seconds
  rw [hwait]

theorem Quiet.notices_read (hperform : Faithful perform) (h : b.Quiet) :
    (b.read perform).notices = b.notices := by
  obtain ⟨readingCount, readingPlans, clock, nested, hread, _⟩ :=
    read_of_isClock hperform h.readingPlans
  rw [hread]

/-- A wait is followed by the playback that goes on. -/
theorem serve_wait (hperform : Faithful perform) (h : b.Quiet) (fuel id : Nat) (seconds : Float) :
    ∃ b', Stands b b' ∧ b'.notices = b.notices ∧ serve perform (fuel + 1) b id (.wait seconds) =
      serve perform fuel (b'.take (b.session.resume b.now id)) id
        (b.session.resume b.now id).result := by
  have hstands := h.wait hperform seconds
  refine ⟨b.wait perform seconds, hstands, h.notices_wait hperform seconds, ?_⟩
  rw [serve, ← hstands.session, ← hstands.now]

/-- What needs no wait gets what it needs at once. -/
theorem serve_settles (hperform : Faithful perform) (h : b.Quiet) (fuel id : Nat)
    {reply : Reply Outcome} (hreply : ∀ seconds, reply.result ≠ .wait seconds) :
    ∃ b', serve perform fuel (b.take reply) id reply.result =
        (b', (settle reply b.now id b'.clock).result) ∧
      b'.session = (settle reply b.now id b'.clock).session ∧ b'.Quiet := by
  cases hresult : reply.result with
  | wait seconds => exact absurd hresult (hreply seconds)
  | readClock =>
      have hstands := (h.take reply).read hperform
      let read := (b.take reply).read perform
      let closed := reply.session.closeAt b.now id read.clock
      refine ⟨read.take closed, ?_⟩
      rw [Session.settle_of_readClock b.now id _ hresult]
      refine ⟨?_, rfl, hstands.quiet.take closed⟩
      have hclosed : read.session.closeAt read.now id read.clock = closed := by
        rw [hstands.session, hstands.now]
        rfl
      cases fuel <;> rw [serve] <;> exact congrArg (fun r => (read.take r, r.result)) hclosed
  | shown | ended | failed =>
      have hclock : reply.result ≠ .readClock := by simp [hresult]
      refine ⟨b.take reply, ?_⟩
      rw [Session.settle_of_ne b.now id _ hclock, hresult]
      cases fuel <;> exact ⟨rfl, rfl, h.take reply⟩

/-- A playback goes on until it arrives at its next operation, or at its end. -/
theorem serve_proceed (hperform : Faithful perform) (h : b.Quiet) (fuel : Nat) {id : Nat}
    (index : Nat) (last : Option Operation) (rest : List Operation)
    (hid : id < b.session.playbacks.length) (hstop : b.session.stopRequested = false) :
    ∃ b' playbacks fuel', Approaches b b' playbacks ∧ b'.notices = b.notices ∧
      serve perform (fuel + 1) (b.take (b.session.proceed b.now id index last rest)) id
          (b.session.proceed b.now id index last rest).result =
        serve perform fuel' (b'.take (b'.session.arrive b.now id index last rest)) id
          (b'.session.arrive b.now id index last rest).result := by
  cases rest with
  | nil => exact ⟨b, _, fuel + 1, ⟨rfl, rfl, rfl, h⟩, rfl, rfl⟩
  | cons op rest =>
      cases hop : op.hole?.isSome with
      | false =>
          refine ⟨b, _, fuel + 1, ⟨rfl, rfl, rfl, h⟩, rfl, ?_⟩
          rw [Session.proceed_of_other b.now id index last rest hstop hop]
          rfl
      | true =>
          rw [Session.proceed_of_hit b.now id index last rest hstop hop]
          let waiting := b.session.setPlayback id (.approaching index op rest)
          obtain ⟨b', hstands, hnotices, hserve⟩ :=
            serve_wait hperform (h.take ⟨waiting, [], ()⟩) fuel id (b.session.interval / 2000.0)
          have happroaching : waiting.playbacks[id]? = some (.approaching index op rest) :=
            List.getElem?_set_self hid
          have hresume : waiting.resume b.now id = waiting.play b.now id index op rest := by
            rw [Session.resume, happroaching]
          refine ⟨b', _, fuel, ⟨hstands.session, List.length_set, hstands.now, hstands.quiet⟩,
            hnotices.trans (List.append_nil _), ?_⟩
          rw [hstands.session]
          refine hserve.trans ?_
          show serve perform fuel (b'.take (waiting.resume b.now id)) id
            (waiting.resume b.now id).result = _
          rw [hresume]
          rfl

/-- On a quiet bench a playback that is asked for a step arrives before anything else happens. -/
theorem Quiet.pull_arrives (hperform : Faithful perform) (h : b.Quiet) {id index : Nat}
    {rest : List Operation} (hdue : Due b.session id index rest)
    (hstop : b.session.stopRequested = false) :
    ∃ b' playbacks fuel last, Approaches b b' playbacks ∧ b'.notices = b.notices ∧ b.pull perform id =
      serve perform fuel (b'.take (b'.session.arrive b.now id index last rest)) id
        (b'.session.arrive b.now id index last rest).result := by
  cases hdue with
  | created hcreated =>
      have hid := Session.id_lt_length hcreated
      obtain ⟨b', playbacks, fuel, happroaches, hnotices, hserve⟩ :=
        serve_proceed hperform h 1 0 none b.session.operations hid hstop
      have hpull : b.session.pull b.now id =
          b.session.proceed b.now id 0 none b.session.operations := by
        rw [Session.pull, hcreated]
      refine ⟨b', playbacks, fuel, none, happroaches, hnotices, ?_⟩
      rw [Bench.pull, hpull]
      exact hserve
  | @shown index op rest hshown =>
      have hid := Session.id_lt_length hshown
      let resting := b.session.setPlayback id (.resting index op rest)
      have hpull : b.session.pull b.now id = ⟨resting, [], .wait (b.session.restAfter op)⟩ := by
        rw [Session.pull, hshown]
      have hresting : resting.playbacks[id]? = some (.resting index op rest) :=
        List.getElem?_set_self hid
      have hresume : resting.resume b.now id =
          resting.proceed b.now id (index + 1) (some op) rest := by
        rw [Session.resume, hresting]
      obtain ⟨b₁, hstands, hsilent, hwait⟩ :=
        serve_wait hperform (h.take ⟨resting, [], ()⟩) 1 id (b.session.restAfter op)
      have hsession : b₁.session = resting := hstands.session
      have hnow : b₁.now = b.now := hstands.now
      have hlength : resting.playbacks.length = b.session.playbacks.length := List.length_set
      obtain ⟨b', playbacks, fuel, happroaches, hnotices, hserve⟩ :=
        serve_proceed hperform hstands.quiet 0 (index + 1) (some op) rest
          (by rw [hsession, hlength]; exact hid) (by rw [hsession]; exact hstop)
      rw [hsession, hnow] at hserve
      refine ⟨b', playbacks, fuel, some op, ⟨?_, ?_, ?_, happroaches.quiet⟩,
        hnotices.trans (hsilent.trans (List.append_nil _)), ?_⟩
      · rw [happroaches.session, hsession]
        rfl
      · rw [happroaches.length, hsession, hlength]
      · rw [happroaches.now, hnow]
      · rw [Bench.pull, hpull]
        refine hwait.trans ?_
        show serve perform 1 (b₁.take (resting.resume b.now id)) id
          (resting.resume b.now id).result = _
        rw [hresume]
        exact hserve

/-- On a quiet bench a pull comes down to the playback arriving. -/
theorem Quiet.pull (hperform : Faithful perform) (h : b.Quiet) {id index : Nat}
    {rest : List Operation} (hdue : Due b.session id index rest)
    (hstop : b.session.stopRequested = false) :
    ∃ b' playbacks last reply, playbacks.length = b.session.playbacks.length ∧
      reply = settle (Session.arrive { b.session with playbacks } b.now id index last rest)
        b.now id b'.clock ∧
      b.pull perform id = (b', reply.result) ∧ b'.session = reply.session ∧ b'.Quiet := by
  obtain ⟨b', playbacks, fuel, last, happroaches, _, hserve⟩ := h.pull_arrives hperform hdue hstop
  obtain ⟨b'', hsettles, hsession, hquiet⟩ :=
    serve_settles hperform happroaches.quiet fuel id
      (b'.session.arrive_ne_wait b.now id index last rest)
  rw [happroaches.session, happroaches.now] at hsettles hsession
  refine ⟨b'', playbacks, last, _, happroaches.length, rfl, ?_, hsession, hquiet⟩
  rw [hserve, happroaches.session]
  exact hsettles

end Bench

end TurretPunch
