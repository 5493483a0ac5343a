import TurretPunch.Proofs.Session.Quiet
import TurretPunch.Proofs.Session.Succession

namespace TurretPunch

/-!
# Calls that are refused

While a run is active its session refuses to load, to reset, to seek and to run, and a playback in the
middle of a step can neither be asked for another one nor be closed. Nothing comes of such calls but
notices, and runs without a playback.
-/

namespace Session

variable {s : Session} {id index : Nat}

/-- A session that refuses everything. -/
structure Occupied (s : Session) : Prop where
  reset : s.reset = ⟨s, [.resetRefused], ()⟩
  load : ∀ text, s.load text = ⟨s, [.loadRefused], .ok none⟩
  loadProgram : ∀ program, s.loadProgram program = ⟨s, [.loadRefused], none⟩
  seek : ∀ step, s.seek step = ⟨s, [.seekRefusedRunning step], .ok none⟩
  run : s.start = ⟨s, [.runRefusedRunning], false⟩

theorem occupied_of_running (hrunning : s.phase = .running) : Occupied s := by
  have hyes : s.isRunning = true := isRunning_iff.mpr hrunning
  constructor
  · rw [reset, if_pos hyes]
  · intro text
    rw [load, if_pos hyes]
  · intro program
    rw [loadProgram, if_pos hyes]
  · intro step
    rw [seek, if_pos hyes]
  · rw [start, if_pos hyes]

/-- A session that has no report while it runs, and in which a playback is over if no run is active. -/
structure Conducted (s : Session) (id : Nat) : Prop where
  report : s.phase = .running → s.report = none
  spent : s.phase ≠ .running → ∃ playback, s.playbacks[id]? = some playback ∧ playback.IsOver

theorem Conducted.turned {t : Session} (h : Conducted s id) (ht : Turned s id t) :
    Conducted t id where
  report := by
    intro hrunning
    obtain ⟨hbefore, _, hreport⟩ := ht.continues.running hrunning
    exact hreport.trans (h.report hbefore)
  spent := by
    intro hidle
    by_cases hrunning : s.phase = .running
    · rcases ht.passed with rfl | hpassed
      · exact absurd hrunning hidle
      · cases hpassed with
        | goesOn _ _ _ _ _ hphase => exact absurd (hphase.trans hrunning) hidle
        | @ends playback hplaybacks _ _ hover =>
            have hlt : id < s.playbacks.length := by
              by_contra hge
              have hnone := List.getElem?_eq_none (Nat.le_of_not_lt hge)
              exact hidle (ht.of_none hnone ▸ hrunning)
            rw [hplaybacks, List.getElem?_set_self hlt]
            exact ⟨playback, rfl, hover⟩
    · obtain ⟨playback, hid, hover⟩ := h.spent hrunning
      rcases ht.of_isOver hid hover with rfl | ⟨_, rfl⟩
      · exact ⟨playback, hid, hover⟩
      · rw [s.playbacks_abandoned id, List.getElem?_set_self (id_lt_length hid)]
        exact ⟨.finished, rfl, Or.inr rfl⟩

/-- A session whose active run is in the middle of a step of a playback. -/
structure Amid (s : Session) (id : Nat) : Prop where
  running : s.phase = .running
  report : s.report = none
  busy : ∃ playback, s.playbacks[id]? = some playback ∧ playback.isBusy = true

theorem Amid.conducted (h : Amid s id) : Conducted s id :=
  ⟨fun _ => h.report, fun hidle => absurd h.running hidle⟩

theorem Amid.pull (h : Amid s id) (now : Timestamp) :
    s.pull now id = ⟨s, [], .failed .alreadyPlaying⟩ := by
  obtain ⟨playback, hid, hbusy⟩ := h.busy
  rw [Session.pull, hid]
  cases playback with
  | approaching | resting | closing => rfl
  | created | shown | reported | finished => cases hbusy

theorem Amid.close (h : Amid s id) : s.closePlayback id = ⟨s, [], .failed .alreadyPlaying⟩ := by
  obtain ⟨playback, hid, hbusy⟩ := h.busy
  rw [closePlayback, hid]
  cases playback with
  | approaching | resting | closing => rfl
  | created | shown | reported | finished => cases hbusy

theorem amid_setPlayback {playback : Playback} (hrunning : s.phase = .running)
    (hreport : s.report = none) (hid : id < s.playbacks.length) (hbusy : playback.isBusy = true) :
    Amid (s.setPlayback id playback) id :=
  ⟨hrunning, hreport, playback, List.getElem?_set_self hid, hbusy⟩

/-- A playback that goes on waits only before a hit. -/
theorem proceed_of_wait {now : Timestamp} {last : Option Operation} {ops : List Operation}
    {seconds : Float} (h : (s.proceed now id index last ops).result = .wait seconds) :
    ∃ op rest, (s.proceed now id index last ops).session =
      s.setPlayback id (.approaching index op rest) := by
  cases ops with
  | nil => exact Outcome.noConfusion h
  | cons op rest =>
      cases hstop : s.stopRequested with
      | true =>
          rw [(proceed_of_stop now id index last op rest hstop).2] at h
          cases h
      | false =>
          cases hop : op.hole?.isSome with
          | true =>
              rw [proceed_of_hit now id index last rest hstop hop]
              exact ⟨op, rest, rfl⟩
          | false =>
              rw [proceed_of_other now id index last rest hstop hop] at h
              exact absurd h (s.arrive_ne_wait now id index last (op :: rest) seconds)

/-- A playback that is asked for a step waits only while its run is active. -/
theorem Conducted.pull {now : Timestamp} {seconds : Float} (hs : Conducted s id)
    (h : (s.pull now id).result = .wait seconds) : Amid (s.pull now id).session id := by
  unfold Session.pull at h ⊢
  cases hid : s.playbacks[id]? with
  | none =>
      rw [hid] at h
      cases h
  | some playback =>
      rw [hid] at h
      have hlt := id_lt_length hid
      have hrunning (hnot : ¬ playback.IsOver) : s.phase = .running := by
        by_contra hidle
        obtain ⟨other, hother, hover⟩ := hs.spent hidle
        obtain rfl := Option.some.inj (hid.symm.trans hother)
        exact hnot hover
      cases playback with
      | created =>
          have hphase := hrunning (by simp [Playback.IsOver])
          obtain ⟨op, rest, hsession⟩ := proceed_of_wait h
          dsimp only
          rw [hsession]
          exact amid_setPlayback hphase (hs.report hphase) hlt rfl
      | shown =>
          have hphase := hrunning (by simp [Playback.IsOver])
          exact amid_setPlayback hphase (hs.report hphase) hlt rfl
      | reported | finished | approaching | resting | closing => cases h

theorem Amid.resume {now : Timestamp} {seconds : Float} (hs : Amid s id)
    (h : (s.resume now id).result = .wait seconds) : Amid (s.resume now id).session id := by
  obtain ⟨playback, hid, hbusy⟩ := hs.busy
  unfold Session.resume at h ⊢
  rw [hid] at h ⊢
  have hlt := id_lt_length hid
  cases playback with
  | approaching index op rest =>
      exact absurd h (s.arrive_ne_wait now id index none (op :: rest) seconds)
  | resting =>
      obtain ⟨op, rest, hsession⟩ := proceed_of_wait h
      dsimp only
      rw [hsession]
      exact amid_setPlayback hs.running hs.report hlt rfl
  | closing => cases h
  | created | shown | reported | finished => cases hbusy

end Session

namespace Call

/-- A call that is refused while a run is active, where the runs from number `m` on were refused. -/
inductive IsRefused (m : Nat) : Call → Prop
  | load (text : Text.Points) : IsRefused m (.load text)
  | loadProgram (program : Program) : IsRefused m (.loadProgram program)
  | run (kept : Bool) : IsRefused m (.run kept)
  | complete (kept : Bool) : IsRefused m (.complete kept)
  | reset : IsRefused m .reset
  | seek (step : Int) : IsRefused m (.seek step)
  | next {n : Nat} (h : m ≤ n) : IsRefused m (.next (some n))

/-- A call that may come in a wait of the run `k`, also one that plans another such call. -/
inductive Intrudes (k m : Nat) : Call → Prop
  | refused {call : Call} (h : call.IsRefused m) : Intrudes k m call
  | next : Intrudes k m (.next (some k))
  | close : Intrudes k m (.close (some k))
  | onWait (n : Int) {call : Call} (h : Intrudes k m call) : Intrudes k m (.onWait n call)

theorem Intrudes.not_isClock {k m : Nat} {call : Call} (h : call.Intrudes k m) : ¬ call.IsClock := by
  intro hclock
  cases h with
  | refused hrefused => cases hrefused <;> exact hclock
  | next | close | onWait => exact hclock

/-- A call that may come between two steps of the run `k`. -/
inductive Interrupts (k m : Nat) : Call → Prop
  | refused {call : Call} (h : call.IsRefused m) : Interrupts k m call
  | onWait (n : Int) {call : Call} (h : call.Intrudes k m) : Interrupts k m (.onWait n call)

/-- What comes of a call that is refused, or that plans one. -/
inductive Answered (k m : Nat) : Call → CallResult → Prop
  | load (text : Text.Points) : Answered k m (.load text) .nothing
  | loadProgram (program : Program) : Answered k m (.loadProgram program) .nothing
  | run {n : Nat} (kept : Bool) (h : m ≤ n) : Answered k m (.run kept) (.run n)
  | complete (kept : Bool) : Answered k m (.complete kept) .nothing
  | reset : Answered k m .reset .nothing
  | seek (step : Int) : Answered k m (.seek step) .nothing
  | empty {n : Nat} (h : m ≤ n) : Answered k m (.next (some n)) .nothing
  | unknown {n : Nat} (h : m ≤ n) : Answered k m (.next (some n)) (.failed .noRun)
  | next : Answered k m (.next (some k)) (.failed .alreadyPlaying)
  | close : Answered k m (.close (some k)) (.failed .alreadyPlaying)
  | onWait (n : Int) (call : Call) : Answered k m (.onWait n call) .nothing

end Call

namespace Bench

variable {b b' : Bench} {call : Call} {k m id : Nat}

theorem playbackOf_natCast {n : Nat} {playback : Option Nat} (h : b.runs[n]? = some playback) :
    b.playbackOf (some n) = .ok playback := by
  have hnot : ¬ (n : Int) < 0 := Int.not_lt.mpr (Int.natCast_nonneg n)
  simp only [playbackOf, Option.getD_some, if_neg hnot, Int.natCast_nonneg, if_true,
    Int.toNat_natCast, h]

theorem playbackOf_natCast_of_none {n : Nat} (h : b.runs[n]? = none) :
    b.playbackOf (some n) = .error .noRun := by
  have hnot : ¬ (n : Int) < 0 := Int.not_lt.mpr (Int.natCast_nonneg n)
  simp only [playbackOf, Option.getD_some, if_neg hnot, Int.natCast_nonneg, if_true,
    Int.toNat_natCast, h]

/-- The run `k` has a playback, and the runs from number `m` on have none. -/
structure Numbered (k m id : Nat) (runs : List (Option Nat)) : Prop where
  own : runs[k]? = some (some id)
  length : m ≤ runs.length
  refused : ∀ n, m ≤ n → n < runs.length → runs[n]? = some none

/-- A bench on which calls were refused or planned, and nothing else was done. -/
def Spared (k m : Nat) (b b' : Bench) : Prop :=
  ∃ notices plans n, (∀ plan ∈ plans, plan.2.Intrudes k m) ∧
    b' = { b with
      notices, waitPlans := b.waitPlans ++ plans, runs := b.runs ++ List.replicate n none }

theorem Numbered.spared (h : Numbered k m id b.runs) (hb : Spared k m b b') :
    Numbered k m id b'.runs := by
  obtain ⟨notices, plans, n, _, rfl⟩ := hb
  refine ⟨?_, ?_, ?_⟩
  · exact (List.getElem?_append_left (List.getElem?_eq_some_iff.mp h.own).1).trans h.own
  · exact Nat.le_trans h.length (List.length_append ▸ Nat.le_add_right _ _)
  · intro i hm hi
    by_cases hold : i < b.runs.length
    · exact (List.getElem?_append_left hold).trans (h.refused i hm hold)
    · have hi' : i - b.runs.length < n := by
        simp only [List.length_append, List.length_replicate] at hi
        omega
      rw [List.getElem?_append_right (Nat.le_of_not_lt hold), List.getElem?_replicate, if_pos hi']

theorem Spared.same (h : Spared k m b b') : b'.session = b.session ∧ b'.now = b.now ∧
    b'.waits = b.waits ∧ b'.nested = b.nested := by
  obtain ⟨_, _, _, _, rfl⟩ := h
  exact ⟨rfl, rfl, rfl, rfl⟩

theorem spared_take {α : Type} (b : Bench) (notices : List Notice) (result : α) :
    Spared k m b (b.take ⟨b.session, notices, result⟩) :=
  ⟨b.notices ++ notices, [], 0, nofun, by simp [take]⟩

theorem spared_self (b : Bench) : Spared k m b b := ⟨b.notices, [], 0, nofun, by simp⟩

theorem startRun_of_running (perform : Performer) (hrunning : b.session.phase = .running)
    (kept : Bool) : b.startRun perform kept = (b.take ⟨b.session, [.runRefusedRunning], false⟩, none) := by
  simp [startRun, (Session.occupied_of_running hrunning).run]

/-- A call that is refused leaves everything else as it is. -/
theorem perform_of_isRefused (hrunning : b.session.phase = .running)
    (hreport : b.session.report = none) (h : Numbered k m id b.runs) (hcall : call.IsRefused m)
    (fuel : Nat) :
    Spared k m b (perform (fuel + 1) b call).1 ∧
      call.Answered k m (perform (fuel + 1) b call).2 := by
  have hoccupied := Session.occupied_of_running hrunning
  rw [perform_succ]
  cases hcall with
  | load text =>
      simp only [performWith, hoccupied.load]
      exact ⟨spared_take b _ _, .load text⟩
  | loadProgram program =>
      simp only [performWith, hoccupied.loadProgram]
      exact ⟨spared_take b _ _, .loadProgram program⟩
  | run kept =>
      simp only [performWith, startRun_of_running _ hrunning]
      exact ⟨⟨b.notices ++ [.runRefusedRunning], [], 1, nofun, by simp [take]⟩, .run kept h.length⟩
  | complete kept =>
      simp only [performWith, completeRun, startRun_of_running _ hrunning]
      refine ⟨spared_take b _ _, ?_⟩
      simp only [take, hreport]
      exact .complete kept
  | reset =>
      simp only [performWith, hoccupied.reset]
      exact ⟨spared_take b _ _, .reset⟩
  | seek step =>
      simp only [performWith, hoccupied.seek]
      exact ⟨spared_take b _ _, .seek step⟩
  | @next n hn =>
      by_cases hlt : n < b.runs.length
      · simp only [performWith, onRun, playbackOf_natCast (h.refused n hn hlt)]
        exact ⟨spared_self b, .empty hn⟩
      · have hnone : b.runs[n]? = none := List.getElem?_eq_none (Nat.le_of_not_lt hlt)
        simp only [performWith, onRun, playbackOf_natCast_of_none hnone]
        exact ⟨spared_self b, .unknown hn⟩

theorem perform_of_interrupts (hrunning : b.session.phase = .running)
    (hreport : b.session.report = none) (h : Numbered k m id b.runs) (hcall : call.Interrupts k m)
    (fuel : Nat) :
    Spared k m b (perform (fuel + 1) b call).1 ∧
      call.Answered k m (perform (fuel + 1) b call).2 := by
  cases hcall with
  | refused hrefused => exact perform_of_isRefused hrunning hreport h hrefused fuel
  | @onWait n call hintrudes =>
      refine ⟨⟨b.notices, [(b.waitCount + n, call)], 0, ?_, by simp [perform_succ, performWith]⟩,
        .onWait n call⟩
      simpa using hintrudes

/-- In the middle of a step a playback can neither be asked for the next one nor be closed. -/
theorem perform_of_amid (hamid : b.session.Amid id) (hown : b.runs[k]? = some (some id))
    (fuel : Nat) :
    perform (fuel + 1) b (.next (some k)) = (b, .failed .alreadyPlaying) ∧
      perform (fuel + 1) b (.close (some k)) = (b, .failed .alreadyPlaying) := by
  have hself : b.take ⟨b.session, [], Session.Outcome.failed .alreadyPlaying⟩ = b := by simp [take]
  rw [perform_succ]
  constructor
  · simp only [performWith, onRun, playbackOf_natCast hown, pull, hamid.pull, hself, serve]
  · simp only [performWith, onRun, playbackOf_natCast hown, hamid.close, hself]

theorem perform_of_intrudes (hamid : b.session.Amid id) (h : Numbered k m id b.runs)
    (hcall : call.Intrudes k m) (fuel : Nat) :
    Spared k m b (perform (fuel + 1) b call).1 ∧
      call.Answered k m (perform (fuel + 1) b call).2 := by
  obtain ⟨hnext, hclose⟩ := perform_of_amid hamid h.own fuel
  cases hcall with
  | refused hrefused => exact perform_of_isRefused hamid.running hamid.report h hrefused fuel
  | next =>
      rw [hnext]
      exact ⟨spared_self b, .next⟩
  | close =>
      rw [hclose]
      exact ⟨spared_self b, .close⟩
  | onWait n hintrudes =>
      exact perform_of_interrupts hamid.running hamid.report h (.onWait n hintrudes) fuel

end Bench

end TurretPunch
