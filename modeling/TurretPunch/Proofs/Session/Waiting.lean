import TurretPunch.Proofs.Session.Quiet
import TurretPunch.Proofs.Session.Renewal

namespace TurretPunch

/-!
# Waits

A hit is waited for before it is made and after it was shown, a move and a tool change only after. A
bench on which nothing comes between a playback and its waits has waited as long as the playback asked
to, and its clock has advanced by that.
-/

namespace Operation

def waitsBefore (interval : Float) : Operation → List Float
  | hit .. => [interval / 2000.0]
  | _ => []

def waitsAfter (interval : Float) : Operation → List Float
  | toolChange .. => [interval / 4000.0]
  | move .. | hit .. => [interval / 2000.0]
  | finish .. => []

end Operation

/-- The waits before the first of operations. -/
def approach (interval : Float) (ops : List Operation) : List Float :=
  (ops.take 1).flatMap (·.waitsBefore interval)

namespace Session

/-- The waits that a playback asks for until it answers, at most `fuel`. -/
def asks (now : Timestamp) (id : Nat) : Nat → Session → Outcome → List Float
  | fuel + 1, s, .wait seconds =>
    seconds :: asks now id fuel (s.resume now id).session (s.resume now id).result
  | _, _, _ => []

variable {s : Session} {id : Nat}

theorem asks_of_ne (now : Timestamp) (id fuel : Nat) (s : Session) {outcome : Outcome}
    (h : ∀ seconds, outcome ≠ .wait seconds) : asks now id fuel s outcome = [] := by
  cases outcome with
  | wait seconds => exact absurd rfl (h seconds)
  | readClock | shown | ended | failed => cases fuel <;> rfl

theorem asks_arrive (now : Timestamp) (fuel index : Nat) (last : Option Operation)
    (rest : List Operation) (t : Session) :
    asks now id fuel t (s.arrive now id index last rest).result = [] :=
  asks_of_ne now id fuel t (s.arrive_ne_wait now id index last rest)

/-- Only a hit is waited for before it is made. -/
theorem asks_proceed (now : Timestamp) (fuel index : Nat) (last : Option Operation)
    (rest : List Operation) (hid : id < s.playbacks.length) (hstop : s.stopRequested = false) :
    asks now id (fuel + 1) (s.proceed now id index last rest).session
      (s.proceed now id index last rest).result = approach s.interval rest := by
  cases rest with
  | nil => rfl
  | cons op rest =>
      cases hop : op.hole?.isSome with
      | false =>
          have hother : op.waitsBefore s.interval = [] := by
            cases op with
            | hit => cases hop
            | toolChange | move | finish => rfl
          rw [proceed_of_other now id index last rest hstop hop, ← arrive_cons s now id index last,
            asks_arrive, approach]
          simp [hother]
      | true =>
          have hhit : op.waitsBefore s.interval = [s.interval / 2000.0] := by
            cases op with
            | hit => rfl
            | toolChange | move | finish => cases hop
          have happroaching :
              (s.setPlayback id (.approaching index op rest)).playbacks[id]? =
                some (.approaching index op rest) :=
            List.getElem?_set_self hid
          have hresume : (s.setPlayback id (.approaching index op rest)).resume now id =
              (s.setPlayback id (.approaching index op rest)).arrive now id index last
                (op :: rest) := by
            rw [resume, happroaching, arrive_cons]
          rw [proceed_of_hit now id index last rest hstop hop, asks]
          dsimp only
          rw [hresume, asks_arrive, approach]
          simp [hhit]

theorem asks_created (now : Timestamp) (h : s.playbacks[id]? = some .created)
    (hstop : s.stopRequested = false) :
    asks now id 2 (s.pull now id).session (s.pull now id).result =
      approach s.interval s.operations := by
  unfold pull
  rw [h]
  exact asks_proceed now 1 0 none s.operations (id_lt_length h) hstop

theorem asks_shown (now : Timestamp) {index : Nat} {op : Operation} {rest : List Operation}
    (h : s.playbacks[id]? = some (.shown index op rest)) (hop : op.isFinish = false)
    (hstop : s.stopRequested = false) :
    asks now id 2 (s.pull now id).session (s.pull now id).result =
      op.waitsAfter s.interval ++ approach s.interval rest := by
  have hresting : (s.setPlayback id (.resting index op rest)).playbacks[id]? =
      some (.resting index op rest) :=
    List.getElem?_set_self (id_lt_length h)
  have hlength : id < (s.setPlayback id (.resting index op rest)).playbacks.length :=
    id_lt_length hresting
  have hafter : op.waitsAfter s.interval = [s.restAfter op] := by
    cases op with
    | finish => cases hop
    | toolChange | move | hit => rfl
  rw [pull, h, asks, resume, hresting, hafter]
  exact congrArg _ (asks_proceed now 0 (index + 1) (some op) rest hlength hstop)

theorem resume_keeps (s : Session) (now : Timestamp) (id : Nat) :
    (s.resume now id).session.current = s.current ∧
      (s.resume now id).session.startTime = s.startTime :=
  have hindifferent : Indifferent fun n s => s.resume now (id + n) :=
    fun front current time s => s.behind_resume front current time id now
  hindifferent.keeps s

theorem pull_keeps (s : Session) (now : Timestamp) (id : Nat) :
    (s.pull now id).session.current = s.current ∧
      (s.pull now id).session.startTime = s.startTime :=
  have hindifferent : Indifferent fun n s => s.pull now (id + n) :=
    fun front current time s => s.behind_pull front current time id now
  hindifferent.keeps s

theorem closeAt_keeps (s : Session) (now : Timestamp) (id : Nat) (time : Float) :
    (s.closeAt now id time).session.current = s.current ∧
      (s.closeAt now id time).session.startTime = s.startTime := by
  unfold closeAt
  split <;> exact ⟨rfl, rfl⟩

end Session

namespace Bench

open Session (Outcome Due asks)

/-- A bench on which no call is planned. -/
def IsUnplanned (b : Bench) : Prop := b.waitPlans = [] ∧ b.readingPlans = []

/-- A bench after waits in the same run. Its clock has advanced by them alone if nothing is planned. -/
structure Passed (b b' : Bench) (seconds : List Float) : Prop where
  waits : b'.waits = b.waits ++ seconds
  runs : b'.runs = b.runs
  current : b'.session.current = b.session.current
  start : b'.session.startTime = b.session.startTime
  clock : b.IsUnplanned → b'.IsUnplanned ∧ b'.clock = seconds.foldl (· + ·) b.clock

variable {perform : Performer} {b b' b'' : Bench} {seconds more : List Float}

theorem Passed.refl (b : Bench) : Passed b b [] :=
  ⟨(List.append_nil _).symm, rfl, rfl, rfl, fun hunplanned => ⟨hunplanned, rfl⟩⟩

theorem Passed.trans (h : Passed b b' seconds) (h' : Passed b' b'' more) :
    Passed b b'' (seconds ++ more) where
  waits := by rw [h'.waits, h.waits, List.append_assoc]
  runs := h'.runs.trans h.runs
  current := h'.current.trans h.current
  start := h'.start.trans h.start
  clock := by
    intro hunplanned
    obtain ⟨hstill, hclock⟩ := h.clock hunplanned
    obtain ⟨hstill', hclock'⟩ := h'.clock hstill
    rw [List.foldl_append, ← hclock]
    exact ⟨hstill', hclock'⟩

theorem passed_take {α : Type} {reply : Reply α}
    (hkeeps : reply.session.current = b.session.current ∧
      reply.session.startTime = b.session.startTime) :
    Passed b (b.take reply) [] :=
  ⟨(List.append_nil _).symm, rfl, hkeeps.1, hkeeps.2, fun hunplanned => ⟨hunplanned, rfl⟩⟩

theorem passed_wait (hperform : Faithful perform) (h : b.Quiet) (seconds : Float) :
    Passed b (b.wait perform seconds) [seconds] := by
  have hstands := h.wait hperform seconds
  refine ⟨?_, hstands.runs, congrArg _ hstands.session, congrArg _ hstands.session, ?_⟩
  · obtain ⟨waitCount, waitPlans, clock, nested, hwait, _⟩ :=
      wait_of_isClock hperform h.waitPlans seconds
    rw [hwait]
  · rintro ⟨hwait, hreading⟩
    unfold Bench.wait
    rw [hwait]
    exact ⟨⟨rfl, hreading⟩, rfl⟩

theorem passed_read (hperform : Faithful perform) (h : b.Quiet) :
    Passed b (b.read perform) [] := by
  have hstands := h.read hperform
  refine ⟨?_, hstands.runs, congrArg _ hstands.session, congrArg _ hstands.session, ?_⟩
  · obtain ⟨readingCount, readingPlans, clock, nested, hread, _⟩ :=
      read_of_isClock hperform h.readingPlans
    rw [hread, List.append_nil]
  · rintro ⟨hwait, hreading⟩
    unfold Bench.read
    rw [hreading]
    exact ⟨⟨hwait, rfl⟩, rfl⟩

theorem passed_serve_readClock (hperform : Faithful perform) (h : b.Quiet) (fuel id : Nat) :
    Passed b (serve perform fuel b id .readClock).1 [] := by
  let read := b.read perform
  have hclosed : Passed read (read.take (read.session.closeAt read.now id read.clock)) [] :=
    passed_take (Session.closeAt_keeps _ _ id _)
  cases fuel <;> rw [serve] <;> exact (passed_read hperform h).trans hclosed

/-- A bench on which a playback gets what it asks for has waited as long as it asked to. -/
theorem passed_serve (hperform : Faithful perform) (fuel id : Nat) {b : Bench} (h : b.Quiet)
    (outcome : Outcome) :
    Passed b (serve perform fuel b id outcome).1 (asks b.now id fuel b.session outcome) := by
  induction fuel generalizing b outcome with
  | zero =>
      cases outcome with
      | readClock => exact passed_serve_readClock hperform h 0 id
      | wait | shown | ended | failed => exact .refl b
  | succ fuel ih =>
      cases outcome with
      | wait seconds =>
          have hstands := h.wait hperform seconds
          let reply := (b.wait perform seconds).session.resume (b.wait perform seconds).now id
          have htaken : Passed (b.wait perform seconds) ((b.wait perform seconds).take reply) [] :=
            passed_take (Session.resume_keeps _ _ id)
          have hserved := ih (hstands.quiet.take reply) reply.result
          have hall := (passed_wait hperform h seconds).trans (htaken.trans hserved)
          rw [serve, asks, ← hstands.session, ← hstands.now]
          exact hall
      | readClock => exact passed_serve_readClock hperform h (fuel + 1) id
      | shown | ended | failed => exact .refl b

theorem passed_pull (hperform : Faithful perform) (h : b.Quiet) (id : Nat) :
    Passed b (b.pull perform id).1
      (asks b.now id 2 (b.session.pull b.now id).session (b.session.pull b.now id).result) :=
  (passed_take (Session.pull_keeps _ _ id)).trans
    (passed_serve hperform 2 id (h.take (b.session.pull b.now id)) _)

theorem playbackOf_of_runs (h : b'.runs = b.runs) (run : Option Int) :
    b'.playbackOf run = b.playbackOf run := by
  unfold playbackOf
  rw [h]

/-- What a call for the next step results in. -/
def answer : Outcome → CallResult
  | .shown shot => .snapshot shot
  | .failed fault => .failed fault
  | _ => .nothing

theorem perform_next {id : Nat} {outcome : Outcome} (m : Nat)
    (hlast : b.playbackOf none = .ok (some id))
    (h : b.pull (Bench.perform m) id = (b', outcome)) :
    b.perform (m + 1) (.next none) = (b', answer outcome) := by
  rw [perform_succ, performWith, onRun, hlast]
  dsimp only
  rw [h]
  cases outcome <;> rfl

theorem perform_close {id : Nat} (m : Nat) (hlast : b.playbackOf none = .ok (some id)) :
    (b.perform (m + 1) (.close none)).1 = b.take (b.session.closePlayback id) := by
  rw [perform_succ, performWith, onRun, hlast]
  dsimp only
  split <;> rfl

end Bench

end TurretPunch
