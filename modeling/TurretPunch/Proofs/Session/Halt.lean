import TurretPunch.Proofs.Session.Phase
import TurretPunch.Proofs.Session.Release

namespace TurretPunch.Session

/-!
# After a stop

A stop takes effect where a playback comes to its next operation. If it is between two steps then, its
run is over at once and it makes nothing more; if it waits after an operation, its run is over when it
goes on. But a playback that waits before a hit still makes it, because it does not look for a stop
between the wait and the hit, and one that has waited after its last operation completes its run.
-/

variable {s t : Session} {id index : Nat} {op : Operation} {rest : List Operation}
  {playback : Playback}

/-- A playback that does nothing any more, whatever happens. -/
def Silent (s : Session) (id : Nat) : Prop :=
  ∀ (events : List Event) (now : Timestamp) (time : Float),
    let t := events.foldl Session.after s
    t.after (.pull id now time) = t ∧ t.after (.resume id now time) = t ∧ t.after (.close id) = t

theorem after_resume_of_finished (hid : s.playbacks[id]? = some .finished) (now : Timestamp)
    (time : Float) : s.after (.resume id now time) = s := by
  have hresume : s.resume now id = ⟨s, [], .ended⟩ := by rw [resume, hid]
  rw [after, hresume]
  rfl

theorem finished_of_set (other : Nat) (hid : s.playbacks[id]? = some .finished)
    (hplaybacks : t.playbacks = s.playbacks.set other playback)
    (hset : other = id → playback = .finished) : t.playbacks[id]? = some .finished := by
  rw [hplaybacks]
  by_cases heq : other = id
  · rw [hset heq, heq]
    exact List.getElem?_set_self (id_lt_length hid)
  · rw [List.getElem?_set_ne heq]
    exact hid

theorem Turned.finished {other : Nat} (h : Turned s other t)
    (hid : s.playbacks[id]? = some .finished) : t.playbacks[id]? = some .finished := by
  by_cases heq : other = id
  · subst heq
    rcases h.of_isOver hid (Or.inr rfl) with rfl | ⟨hreported, _⟩
    · exact hid
    · cases hreported
  · rcases h.passed with rfl | hpassed
    · exact hid
    · cases hpassed with
      | goesOn hplaybacks => exact finished_of_set other hid hplaybacks (absurd · heq)
      | ends hplaybacks => exact finished_of_set other hid hplaybacks (absurd · heq)

theorem Closed.finished {other : Nat} (h : Closed s other t)
    (hid : s.playbacks[id]? = some .finished) : t.playbacks[id]? = some .finished := by
  cases h with
  | kept => exact hid
  | unused => exact finished_of_set other hid rfl (fun _ => rfl)
  | abandoned => exact finished_of_set other hid (s.playbacks_abandoned other) (fun _ => rfl)

theorem finished_after (hid : s.playbacks[id]? = some .finished) (e : Event) :
    (s.after e).playbacks[id]? = some .finished := by
  generalize hafter : s.after e = t
  have ht : Happened s e t := hafter ▸ s.after_happened e
  cases ht with
  | kept | loaded | loadedProgram | stopping | cleared | sought => exact hid
  | launched => exact (List.getElem?_append_left (id_lt_length hid)).trans hid
  | pulled hturned => exact hturned.finished hid
  | resumed hturned => exact hturned.finished hid
  | closed hclosed => exact hclosed.finished hid
  | @stopped other _ _ _ hopen hclosed =>
      rw [hclosed.haltIfRunning_of_isOpen hopen]
      exact finished_of_set other hid (s.stopping.playbacks_abandoned other) (fun _ => rfl)

theorem silent_of_finished (hid : s.playbacks[id]? = some .finished) : s.Silent id := by
  intro events now time
  induction events generalizing s with
  | nil =>
      exact ⟨after_pull_of_finished hid now time, after_resume_of_finished hid now time,
        after_close_of_finished hid⟩
  | cons e events ih => exact ih (finished_after hid e)

/-- The run of a playback was stopped with the press as it was, and its playback is over. -/
structure Halted (press : Press) (id : Nat) (s : Session) : Prop where
  phase : s.phase = .stopped
  press : s.press = { press with running := false }
  report : s.report = none
  silent : s.Silent id

theorem halted_of_halt (hid : id < s.playbacks.length) (hreport : s.report = none) :
    Halted s.press id (s.setPlayback id .finished).halt.session where
  phase := rfl
  press := rfl
  report := hreport
  silent := silent_of_finished (List.getElem?_set_self hid)

theorem halted_of_abandoned (hrunning : s.phase = .running) (hid : id < s.playbacks.length)
    (hreport : s.report = none) : Halted s.press id (s.abandoned id) := by
  rw [abandoned_eq_halt id hrunning]
  exact halted_of_halt hid hreport

theorem after_resume_of_resting (hid : s.playbacks[id]? = some (.resting index op rest))
    (now : Timestamp) (time : Float) : s.after (.resume id now time) =
      (settle (s.proceed now id (index + 1) (some op) rest) now id time).session := by
  rw [after, resume, hid]

theorem after_resume_of_stopRequested (hid : s.playbacks[id]? = some (.resting index op rest))
    (hstop : s.stopRequested = true) (hrest : rest ≠ []) (now : Timestamp) (time : Float) :
    s.after (.resume id now time) = (s.setPlayback id .finished).halt.session := by
  rw [after_resume_of_resting hid]
  cases rest with
  | nil => exact absurd rfl hrest
  | cons next rest =>
      obtain ⟨hsession, hended⟩ := proceed_of_stop now id (index + 1) (some op) next rest hstop
      rw [settle_of_ne now id time (by simp [hended]), hsession]

/-- The end of a program that has no end is not kept back by a stop. -/
theorem after_resume_of_exhausted (hid : s.playbacks[id]? = some (.resting index op []))
    (now : Timestamp) (time : Float) : s.after (.resume id now time) = s.completed now id time := by
  have hclock : (s.proceed now id (index + 1) (some op) []).result = .readClock := rfl
  rw [after_resume_of_resting hid, settle_of_readClock now id time hclock]
  exact (closeAt_complete now time (some op) none (id_lt_length hid)).1

theorem after_resume_of_approaching
    (hid : s.playbacks[id]? = some (.approaching index op rest)) (now : Timestamp) (time : Float) :
    Played s id index op rest (s.after (.resume id now time)) := by
  rw [after, resume, hid]
  exact settle_play now time index op rest (id_lt_length hid)

theorem after_pull_of_shown (hid : s.playbacks[id]? = some (.shown index op rest))
    (now : Timestamp) (time : Float) :
    s.after (.pull id now time) = s.setPlayback id (.resting index op rest) := by
  rw [after, pull, hid]
  rfl

/-- A playback that has shown a step after a stop was requested makes nothing more. -/
theorem halted_of_shown (hid : s.playbacks[id]? = some (.shown index op rest))
    (hstop : s.stopRequested = true) (hreport : s.report = none) (hrest : rest ≠ [])
    (now next : Timestamp) (time later : Float) :
    Halted s.press id ((s.after (.pull id now time)).after (.resume id next later)) := by
  have hlt := id_lt_length hid
  rw [after_pull_of_shown hid]
  have hresting : (s.setPlayback id (.resting index op rest)).playbacks[id]? =
      some (.resting index op rest) := List.getElem?_set_self hlt
  rw [after_resume_of_stopRequested hresting hstop hrest]
  have hlength : id < (s.setPlayback id (.resting index op rest)).playbacks.length := by
    rwa [setPlayback, List.length_set]
  exact halted_of_halt (s := s.setPlayback id (.resting index op rest)) hlength hreport

theorem stop_of_not_isOpen (hrunning : s.phase = .running) (hcurrent : s.current = some id)
    (hbusy : s.isOpen id = false) : s.stop.session = s.stopping := by
  have hfilter : s.current.filter s.stopping.isOpen = none := by
    rw [hcurrent, Option.filter_some]
    exact if_neg (ne_true_of_eq_false hbusy)
  unfold stop
  rw [if_pos (isRunning_iff.mpr hrunning)]
  dsimp only
  split
  · rfl
  · next other hother => cases hother.symm.trans hfilter

theorem not_isOpen_of_isBusy (hid : s.playbacks[id]? = some playback)
    (hbusy : playback.isBusy = true) : s.isOpen id = false := by
  unfold isOpen
  rw [hid]
  cases playback with
  | approaching | resting | closing => rfl
  | created | shown | reported | finished => cases hbusy

theorem after_pull_of_isBusy (hid : s.playbacks[id]? = some playback)
    (hbusy : playback.isBusy = true) (now : Timestamp) (time : Float) :
    s.after (.pull id now time) = s := by
  rw [after, pull, hid]
  cases playback with
  | approaching | resting | closing => rfl
  | created | shown | reported | finished => cases hbusy

theorem after_close_of_isBusy (hid : s.playbacks[id]? = some playback)
    (hbusy : playback.isBusy = true) : s.after (.close id) = s := by
  rw [after, closePlayback, hid]
  cases playback with
  | approaching | resting | closing => rfl
  | created | shown | reported | finished => cases hbusy

/-- Once a stop is requested of a playback in the middle of a step, nothing happens until it goes on. -/
theorem Separate.after_of_stopRequested (h : Separate s) (hrunning : s.phase = .running)
    (hstop : s.stopRequested = true) (hcurrent : s.current = some id)
    (hid : s.playbacks[id]? = some playback) (hbusy : playback.isBusy = true) {e : Event}
    (he : SparesRuns s e) (hne : ∀ now time, e ≠ .resume id now time) : s.after e = s := by
  have hnewest := (h.current id).mp hcurrent
  have hover {other : Nat} (hother : other ≠ id) (p : Playback)
      (hp : s.playbacks[other]? = some p) : p.IsOver := by
    have hlt := id_lt_length hp
    exact h.past hp ⟨hlt, fun _ => by omega⟩
  generalize hafter : s.after e = t
  have ht : Happened s e t := hafter ▸ s.after_happened e
  cases ht with
  | kept => rfl
  | loaded hidle | loadedProgram hidle | launched hidle | cleared hidle | sought hidle =>
      exact absurd hrunning hidle
  | @pulled other now time _ hturned =>
      by_cases hother : other = id
      · subst hother
        rw [← hafter]
        exact after_pull_of_isBusy hid hbusy now time
      · exact eq_of_spent hrunning he (hover hother) hturned.of_none hturned.of_isOver
  | @resumed other now time _ hturned =>
      have hother : other ≠ id := by
        rintro rfl
        exact hne now time rfl
      exact eq_of_spent hrunning he (hover hother) hturned.of_none hturned.of_isOver
  | @closed other _ hclosed =>
      by_cases hother : other = id
      · subst hother
        rw [← hafter]
        exact after_close_of_isBusy hid hbusy
      · exact eq_of_spent hrunning he (hover hother) hclosed.of_none hclosed.of_isOver
  | stopping => rw [Session.stopping, ← hstop]
  | @stopped other _ _ hother hopen _ =>
      obtain rfl := Option.some.inj (hcurrent.symm.trans hother)
      cases hopen.symm.trans (not_isOpen_of_isBusy hid hbusy)

theorem Kept.putAway (h : Kept s) (id : Nat) : Kept (s.setPlayback id .finished) where
  account := h.account.setPlayback id .finished
  newest := by
    intro other p hnewest hp
    have hlength : (s.setPlayback id .finished).playbacks.length = s.playbacks.length :=
      List.length_set
    rw [hlength] at hnewest
    by_cases heq : id = other
    · subst heq
      have hlt : id < s.playbacks.length := by omega
      obtain rfl := Option.some.inj ((List.getElem?_set_self hlt).symm.trans hp)
      trivial
    · have hfollows := h.newest hnewest ((List.getElem?_set_ne heq).symm.trans hp)
      cases p with
      | created | approaching | shown | resting =>
          exact Playing.setPlayback hfollows id .finished
      | closing => exact hfollows.elim
      | reported | finished => trivial
  current := by
    intro other hother
    have hlength : (s.setPlayback id .finished).playbacks.length = s.playbacks.length :=
      List.length_set
    rw [hlength]
    exact h.current hother

theorem Kept.turned_of_spared (h : Kept s) (hseparate : Separate s)
    (hspared : s.playbacks[id]? = some .reported → s.phase ≠ .running) (ht : Turned s id t) :
    Kept t := by
  rcases hseparate.used hspared ht.of_none ht.of_isOver with rfl | rfl | ⟨_, hnewest⟩
  · exact h
  · exact h.putAway id
  · exact h.turned hnewest ht

theorem Kept.closed_of_spared (h : Kept s) (hseparate : Separate s)
    (hspared : s.playbacks[id]? = some .reported → s.phase ≠ .running) (ht : Closed s id t) :
    Kept t := by
  rcases hseparate.used hspared ht.of_none ht.of_isOver with rfl | rfl | ⟨_, hnewest⟩
  · exact h
  · exact h.putAway id
  · exact h.closed hnewest ht

/-- Older playbacks may be used as long as they spare the active run. -/
theorem kept_of_spared (h : Reached SparesRuns s) : Kept s := by
  induction h with
  | fresh => exact kept_of_reached (.fresh _ _ _ _ _)
  | @event s e hreached he ih =>
      have hseparate := separate_of_reached hreached
      cases e with
      | pull id now time =>
          exact ih.turned_of_spared hseparate he (s.settle_pull now id time)
      | resume id now time =>
          exact ih.turned_of_spared hseparate he (s.settle_resume now id time)
      | close id => exact ih.closed_of_spared hseparate he (s.closePlayback_closed id)
      | load | loadProgram | run | stop | reset | seek =>
          exact ih.happened (s.after_happened _) trivial

/-! ## What a stop does to a run -/

/-- The hit that was waited for is made, and then the run is over or the hit has been shown. -/
theorem Played.of_hit (h : Played s id index op rest t) (hrunning : s.phase = .running)
    (hreport : s.report = none) (hstop : s.stopRequested = true) (hid : id < s.playbacks.length)
    (hop : s.operations[index]? = some op) (hhit : op.hole?.isSome = true) :
    t.press.gathered = s.press.gathered.add s.interval op ∧ t.press.step = index ∧
      t.report = none ∧
      (Halted t.press id t ∨
        t.stopRequested = true ∧ t.playbacks[id]? = some (.shown index op rest)) := by
  have hstep (now : Timestamp) (out : Bool) : (s.stepped now index op out).press.step = index := by
    cases op <;> rfl
  cases h with
  | failed hattempted =>
      cases hattempted with
      | missing hmissing => cases hmissing.symm.trans hop
      | @made now other out hother =>
          obtain rfl := Option.some.inj (hother.symm.trans hop)
          have hgathered := gathered_stepped s now index other out
          have hstill : (s.stepped now index other out).phase = .running := hrunning
          have hhalted : Halted _ id ((s.stepped now index other out).abandoned id) :=
            halted_of_abandoned hstill hid hreport
          rw [abandoned_eq_halt id hstill] at hhalted ⊢
          exact ⟨hgathered, hstep now out, hreport, Or.inl ⟨rfl, rfl, hreport, hhalted.silent⟩⟩
  | finished _ hfinish => simp [Operation.isFinish_of_hole hhit] at hfinish
  | shown hattempted =>
      cases hattempted with
      | missing hmissing => cases hmissing.symm.trans hop
      | @made now other out hother =>
          obtain rfl := Option.some.inj (hother.symm.trans hop)
          refine ⟨gathered_stepped s now index other out, hstep now out, hreport, Or.inr ?_⟩
          exact ⟨hstop, List.getElem?_set_self hid⟩

theorem halted_of_hit (hreport : s.report = none) (hrest : rest ≠ [])
    (h : Halted s.press id s ∨
      s.stopRequested = true ∧ s.playbacks[id]? = some (.shown index op rest))
    (now next : Timestamp) (time later : Float) :
    Halted s.press id ((s.after (.pull id now time)).after (.resume id next later)) := by
  rcases h with hhalted | ⟨hstop, hshown⟩
  · have hpull := (hhalted.silent [] now time).1
    have hresume := (hhalted.silent [] next later).2.1
    simp only [List.foldl_nil] at hpull hresume
    rw [hpull, hresume]
    exact hhalted
  · exact halted_of_shown hshown hstop hreport hrest now next time later

section Stopping

variable (hrunning : s.phase = .running) (hcurrent : s.current = some id)
  (hid : s.playbacks[id]? = some playback)
include hrunning hcurrent hid

theorem stop_eq_stopping (h : playback.isBusy = true ∨ playback = .finished) :
    s.stop.session = s.stopping := by
  apply stop_of_not_isOpen hrunning hcurrent
  rcases h with hbusy | hfinished
  · exact not_isOpen_of_isBusy hid hbusy
  · simp [isOpen, hid, hfinished]

theorem stop_eq_halt (hidle : playback.isBusy = false) (hopen : playback ≠ .finished) :
    s.stop.session = (s.stopping.setPlayback id .finished).halt.session := by
  rw [← abandoned_eq_halt id (s := s.stopping) hrunning]
  exact stop_of_isOpen hrunning hcurrent (isOpen_of_playback hid hidle hopen)

theorem press_of_stop (h : Reached SparesRuns s) :
    s.stop.session.press = { s.press with running := s.stop.session.press.running } ∧
      s.stop.session.report = none := by
  have hreport := (separate_of_reached h).report hrunning
  by_cases hmiddle : playback.isBusy = true ∨ playback = .finished
  · rw [stop_eq_stopping hrunning hcurrent hid hmiddle]
    exact ⟨rfl, hreport⟩
  · obtain ⟨hidle, hopen⟩ := not_or.mp hmiddle
    rw [stop_eq_halt hrunning hcurrent hid (Bool.eq_false_iff.mpr hidle) hopen]
    exact ⟨rfl, hreport⟩

theorem silent_of_stop (hfinished : playback = .finished) : s.stop.session.Silent id := by
  rw [stop_eq_stopping hrunning hcurrent hid (.inr hfinished)]
  exact silent_of_finished (hfinished ▸ hid)

theorem halted_of_stop (h : Reached SparesRuns s) (hidle : playback.isBusy = false)
    (hopen : playback ≠ .finished) : Halted s.press id s.stop.session := by
  rw [stop_eq_halt hrunning hcurrent hid hidle hopen]
  exact halted_of_halt (s := s.stopping) (id_lt_length hid) ((separate_of_reached h).report hrunning)

theorem after_of_stop (h : Reached SparesRuns s) (hbusy : playback.isBusy = true) (e : Event)
    (he : SparesRuns s.stop.session e) (hne : ∀ now time, e ≠ .resume id now time) :
    s.stop.session.after e = s.stop.session := by
  rw [stop_eq_stopping hrunning hcurrent hid (.inl hbusy)] at he ⊢
  exact (separate_of_reached h).stopping.after_of_stopRequested hrunning rfl hcurrent hid hbusy he hne

end Stopping

section Waits

variable (h : Reached SparesRuns s) (hrunning : s.phase = .running) (hcurrent : s.current = some id)
include h hrunning hcurrent

theorem resume_rest_of_stop (hid : s.playbacks[id]? = some (.resting index op rest))
    (now : Timestamp) (time : Float) :
    let next := s.stop.session.after (.resume id now time)
    (rest ≠ [] → Halted s.press id next) ∧
      (rest = [] → next.phase = .completed ∧ next.report.isSome = true ∧
        next.press = { s.press with running := false }) := by
  rw [stop_eq_stopping hrunning hcurrent hid (.inl rfl)]
  constructor
  · intro hrest
    rw [after_resume_of_stopRequested (s := s.stopping) hid rfl hrest]
    exact halted_of_halt (s := s.stopping) (id_lt_length hid)
      ((separate_of_reached h).report hrunning)
  · rintro rfl
    rw [after_resume_of_exhausted (s := s.stopping) hid]
    exact ⟨rfl, rfl, rfl⟩

/-- The hit that was waited for is made, and then the run is halted. -/
theorem resume_hit_of_stop (hid : s.playbacks[id]? = some (.approaching index op rest))
    (now : Timestamp) (time : Float) :
    let made := s.stop.session.after (.resume id now time)
    s.operations[index]? = some op ∧ op.hole?.isSome = true ∧
      made.press.gathered = s.press.gathered.add s.interval op ∧ made.press.step = index ∧
      (rest ≠ [] → ∀ now₁ time₁ now₂ time₂, Halted made.press id
        ((made.after (.pull id now₁ time₁)).after (.resume id now₂ time₂))) := by
  rw [stop_eq_stopping hrunning hcurrent hid (.inl rfl)]
  have hseparate := separate_of_reached h
  have hplaying : s.Playing index (op :: rest) :=
    (kept_of_spared h).newest ((hseparate.current id).mp hcurrent) hid
  have hhit : op.hole?.isSome = true := hseparate.awaits _ (List.mem_of_getElem? hid)
  obtain ⟨hgathered, hstep, hnone, hnext⟩ :=
    (after_resume_of_approaching (s := s.stopping) hid now time).of_hit hrunning
      (hseparate.report hrunning) rfl (id_lt_length hid) hplaying.getElem? hhit
  refine ⟨hplaying.getElem?, hhit, hgathered, hstep, ?_⟩
  intro hrest now₁ time₁ now₂ time₂
  exact halted_of_hit hnone hrest hnext now₁ now₂ time₁ time₂

end Waits

/-- A stop of an active run does nothing to the press itself, and halts the run at once unless its
playback is in the middle of a step. Then nothing happens until it goes on, if no older playback that
has shown its report is used. After a last operation it completes; otherwise it is halted, once it has
made the hit that it was about to make. -/
theorem stop_halts_run (h : Reached SparesRuns s) (hrunning : s.phase = .running)
    (hcurrent : s.current = some id) (hid : s.playbacks[id]? = some playback) :
    let t := s.stop.session
    t.press = { s.press with running := t.press.running } ∧ t.report = none ∧
      (playback = .finished → t.Silent id) ∧
      (playback.isBusy = false → playback ≠ .finished → Halted s.press id t) ∧
      (playback.isBusy = true → ∀ e, SparesRuns t e → (∀ now time, e ≠ .resume id now time) →
        t.after e = t) ∧
      (∀ index op rest, playback = .resting index op rest → ∀ now time,
        (rest ≠ [] → Halted s.press id (t.after (.resume id now time))) ∧
          (rest = [] → (t.after (.resume id now time)).phase = .completed ∧
            (t.after (.resume id now time)).report.isSome = true ∧
            (t.after (.resume id now time)).press = { s.press with running := false })) ∧
      ∀ index op rest, playback = .approaching index op rest → ∀ now time,
        let made := t.after (.resume id now time)
        s.operations[index]? = some op ∧ op.hole?.isSome = true ∧
          made.press.gathered = s.press.gathered.add s.interval op ∧ made.press.step = index ∧
          (rest ≠ [] → ∀ now₁ time₁ now₂ time₂,
            Halted made.press id
              ((made.after (.pull id now₁ time₁)).after (.resume id now₂ time₂))) := by
  intro t
  obtain ⟨hpress, hreport⟩ := press_of_stop hrunning hcurrent hid h
  refine ⟨hpress, hreport, ?_, ?_, ?_, ?_, ?_⟩
  · exact silent_of_stop hrunning hcurrent hid
  · exact halted_of_stop hrunning hcurrent hid h
  · exact after_of_stop hrunning hcurrent hid h
  · rintro index op rest rfl now time
    exact resume_rest_of_stop h hrunning hcurrent hid now time
  · rintro index op rest rfl now time
    exact resume_hit_of_stop h hrunning hcurrent hid now time

theorem stop_halts_run_oneHit :
    let started := (plain.after (.loadProgram oneHit)).after (.run 0.0)
    let s := started.after (.pull 0 default 0.0)
    let made := s.stop.session.after (.resume 0 default 0.0)
    s.phase = .running ∧ made.press.holes.length = 1 ∧
      Halted made.press 0 ((made.after (.pull 0 default 0.0)).after (.resume 0 default 0.0)) := by
  intro started s made
  have hstarted : Reached SparesRuns started :=
    ((reached_plain _).event (.loadProgram oneHit) trivial).event (.run 0.0) trivial
  have hreached : Reached SparesRuns s := hstarted.event (.pull 0 default 0.0) nofun
  have hrunning : s.phase = .running := by decide +kernel
  have hcurrent : s.current = some 0 := rfl
  obtain ⟨_, _, _, _, _, _, hhit⟩ := stop_halts_run hreached hrunning hcurrent rfl
  obtain ⟨_, _, _, _, hhalted⟩ := hhit 0 _ [.finish 0] rfl default 0.0
  exact ⟨hrunning, by decide +kernel, hhalted nofun default 0.0 default 0.0⟩

/-- A stop that comes in the wait before a hit does not keep the hit back, and one that comes in the
wait after the last operation of a program without an end does not keep the run from completing. -/
theorem stop_in_a_wait_comes_late :
    let hitting := ((plain.after (.loadProgram oneHit)).after (.run 0.0)).after (.pull 0 default 0.0)
    let moving := (((plain.after (.loadProgram ⟨[.move 0 50.0 40.0 1], [], []⟩)).after
      (.run 0.0)).after (.pull 0 default 0.0)).after (.pull 0 default 0.0)
    (Reached (fun _ _ => True) hitting ∧ hitting.phase = .running ∧
        hitting.stop.session.press.holes.length = 0 ∧
        (hitting.stop.session.after (.resume 0 default 0.0)).press.holes.length = 1) ∧
      Reached (fun _ _ => True) moving ∧ moving.phase = .running ∧
        (moving.stop.session.after (.resume 0 default 0.0)).phase = .completed := by
  intro hitting moving
  have hhitting : Reached (fun _ _ => True) hitting :=
    (((reached_plain _).event (.loadProgram oneHit) trivial).event (.run 0.0) trivial).event
      (.pull 0 default 0.0) trivial
  have hmoving : Reached (fun _ _ => True) moving :=
    ((((reached_plain _).event (.loadProgram _) trivial).event (.run 0.0) trivial).event
      (.pull 0 default 0.0) trivial).event (.pull 0 default 0.0) trivial
  refine ⟨⟨hhitting, ?_, ?_, ?_⟩, hmoving, ?_, ?_⟩ <;> decide +kernel

end TurretPunch.Session
