import TurretPunch.Proofs.Session.Account

namespace TurretPunch

/-!
# One run after the other

A run starts only where none is active, so that the active run is that of the newest playback. A
playback whose run is over has shown its report, or is over itself, and whatever is asked of it then
leaves the session as it is. There is one exception: a playback that has shown its report ends a
newer run that is active, because all it looks at is whether the session is running.
-/

/-- A playback that has nothing more to make. -/
def Playback.IsOver (playback : Playback) : Prop := playback = .reported ∨ playback = .finished

/-- A playback that waits before an operation waits before a hit. -/
def Playback.AwaitsHit : Playback → Prop
  | approaching _ op _ => op.hole?.isSome = true
  | _ => True

theorem Playback.IsOver.awaitsHit {playback : Playback} (h : playback.IsOver) :
    playback.AwaitsHit := by
  rcases h with rfl | rfl <;> trivial

namespace Session

variable {s t u : Session} {id index : Nat} {op : Operation} {rest : List Operation}
  {playback : Playback}

/-- A session with the same runs. -/
structure SameRuns (s t : Session) : Prop where
  playbacks : t.playbacks = s.playbacks
  current : t.current = s.current
  program : t.program = s.program
  phase : t.phase = s.phase
  report : t.report = s.report

/-- A session in which a playback has gone on, or has come to its end and with it the run. -/
inductive Passed (s : Session) (id : Nat) (t : Session) : Prop
  | goesOn {playback : Playback} (hplaybacks : t.playbacks = s.playbacks.set id playback)
      (hcurrent : t.current = s.current) (hprogram : t.program = s.program)
      (hplayback : ¬ playback.IsOver) (hhit : playback.AwaitsHit) (hphase : t.phase = s.phase)
      (hreport : t.report = s.report)
  | ends {playback : Playback} (hplaybacks : t.playbacks = s.playbacks.set id playback)
      (hcurrent : t.current = s.current) (hprogram : t.program = s.program)
      (hplayback : playback.IsOver) (hphase : t.phase ≠ .running)

theorem Attempted.sameRuns (h : Attempted s index t) : SameRuns s t := by
  cases h with
  | missing => exact ⟨rfl, rfl, rfl, rfl, rfl⟩
  | made => exact ⟨rfl, rfl, rfl, rfl, rfl⟩

theorem Passed.of_sameRuns (h : SameRuns s u) (ht : Passed u id t) : Passed s id t := by
  cases ht with
  | goesOn hplaybacks hcurrent hprogram hplayback hhit hphase hreport =>
      exact .goesOn (h.playbacks ▸ hplaybacks) (hcurrent.trans h.current)
        (hprogram.trans h.program) hplayback hhit (hphase.trans h.phase) (hreport.trans h.report)
  | ends hplaybacks hcurrent hprogram hplayback hphase =>
      exact .ends (h.playbacks ▸ hplaybacks) (hcurrent.trans h.current)
        (hprogram.trans h.program) hplayback hphase

theorem program_abandoned (s : Session) (id : Nat) : (s.abandoned id).program = s.program := by
  unfold abandoned haltIfRunning
  split <;> rfl

theorem passed_abandoned (s : Session) (id : Nat) : Passed s id (s.abandoned id) :=
  .ends (s.playbacks_abandoned id) (s.current_abandoned id) (s.program_abandoned id) (Or.inr rfl)
    (s.phase_abandoned id)

theorem passed_completed (s : Session) (now : Timestamp) (id : Nat) (time : Float) :
    Passed s id (s.completed now id time) :=
  .ends rfl rfl rfl (Or.inl rfl) Phase.noConfusion

theorem passed_setPlayback (s : Session) (id : Nat) (h : ¬ playback.IsOver)
    (hhit : playback.AwaitsHit) : Passed s id (s.setPlayback id playback) :=
  .goesOn rfl rfl rfl h hhit rfl rfl

theorem Played.passed (h : Played s id index op rest t) : Passed s id t := by
  cases h with
  | @failed u hattempted => exact (u.passed_abandoned id).of_sameRuns hattempted.sameRuns
  | @finished u now time hattempted _ =>
      exact (u.passed_completed now id time).of_sameRuns hattempted.sameRuns
  | @shown u hattempted _ _ =>
      have hplayback : ¬ (Playback.shown index op rest).IsOver := by simp [Playback.IsOver]
      exact (u.passed_setPlayback id hplayback trivial).of_sameRuns hattempted.sameRuns

theorem Proceeded.passed {ops : List Operation} (h : Proceeded s id index ops t) :
    Passed s id t := by
  cases h with
  | exhausted => exact s.passed_completed _ id _
  | stopped => exact .ends rfl rfl rfl (Or.inr rfl) Phase.noConfusion
  | approaching _ hop => exact s.passed_setPlayback id (by simp [Playback.IsOver]) hop
  | played _ _ hplayed => exact hplayed.passed

theorem Turned.passed (h : Turned s id t) : t = s ∨ Passed s id t := by
  cases h with
  | kept =>
      left
      rfl
  | begun _ hproceeded =>
      right
      exact hproceeded.passed
  | rested =>
      right
      exact s.passed_setPlayback id (by simp [Playback.IsOver]) trivial
  | resumed _ hproceeded =>
      right
      exact hproceeded.passed
  | struck _ hplayed =>
      right
      exact hplayed.passed
  | ended =>
      right
      exact s.passed_abandoned id

/-! ## The newest run -/

/-- A session in which no run has started since, though one may have ended. -/
structure Continues (s t : Session) : Prop where
  length : t.playbacks.length = s.playbacks.length
  current : t.current = s.current
  running : t.phase = .running → s.phase = .running ∧ t.program = s.program ∧ t.report = s.report
  awaits : ∀ playback ∈ t.playbacks, playback ∈ s.playbacks ∨ playback.AwaitsHit

namespace Continues

theorem keep (hplaybacks : t.playbacks = s.playbacks) (hcurrent : t.current = s.current)
    (hrunning : t.phase = .running →
      s.phase = .running ∧ t.program = s.program ∧ t.report = s.report) : Continues s t where
  length := congrArg List.length hplaybacks
  current := hcurrent
  running := hrunning
  awaits := by
    intro playback hmem
    left
    rwa [← hplaybacks]

theorem set (hplaybacks : t.playbacks = s.playbacks.set id playback)
    (hcurrent : t.current = s.current) (hhit : playback.AwaitsHit)
    (hrunning : t.phase = .running →
      s.phase = .running ∧ t.program = s.program ∧ t.report = s.report) : Continues s t where
  length := by rw [hplaybacks, List.length_set]
  current := hcurrent
  running := hrunning
  awaits := by
    intro other hmem
    rw [hplaybacks] at hmem
    rcases List.mem_or_eq_of_mem_set hmem with hold | rfl
    · left
      exact hold
    · right
      exact hhit

theorem refl (s : Session) : Continues s s :=
  .keep rfl rfl (fun hrunning => ⟨hrunning, rfl, rfl⟩)

theorem trans (h : Continues s t) (ht : Continues t u) : Continues s u where
  length := ht.length.trans h.length
  current := ht.current.trans h.current
  running := by
    intro hrunning
    obtain ⟨hphase, hprogram, hreport⟩ := ht.running hrunning
    obtain ⟨hbefore, hsame, hnone⟩ := h.running hphase
    exact ⟨hbefore, hprogram.trans hsame, hreport.trans hnone⟩
  awaits := by
    intro playback hmem
    rcases ht.awaits playback hmem with hmid | hhit
    · exact h.awaits playback hmid
    · right
      exact hhit

theorem idle (hplaybacks : t.playbacks = s.playbacks) (hcurrent : t.current = s.current)
    (hidle : t.phase ≠ .running) : Continues s t :=
  .keep hplaybacks hcurrent (fun hrunning => absurd hrunning hidle)

theorem finished (s : Session) (id : Nat) : Continues s (s.setPlayback id .finished) :=
  .set rfl rfl trivial (fun hrunning => ⟨hrunning, rfl, rfl⟩)

theorem stopping (s : Session) : Continues s s.stopping :=
  .keep rfl rfl (fun hrunning => ⟨hrunning, rfl, rfl⟩)

theorem haltIfRunning (s : Session) : Continues s s.haltIfRunning.session := by
  unfold Session.haltIfRunning
  split
  · exact .idle rfl rfl Phase.noConfusion
  · exact .refl s

end Continues

theorem Passed.continues (h : Passed s id t) : Continues s t := by
  cases h with
  | goesOn hplaybacks hcurrent hprogram _ hhit hphase hreport =>
      refine .set hplaybacks hcurrent hhit fun hrunning => ?_
      exact ⟨hphase.symm.trans hrunning, hprogram, hreport⟩
  | ends hplaybacks hcurrent _ hplayback hidle =>
      exact .set hplaybacks hcurrent hplayback.awaitsHit (fun hrunning => absurd hrunning hidle)

theorem Turned.continues (h : Turned s id t) : Continues s t := by
  rcases h.passed with rfl | hpassed
  · exact .refl t
  · exact hpassed.continues

theorem Closed.continues (h : Closed s id t) : Continues s t := by
  cases h with
  | kept => exact .refl s
  | unused => exact .finished s id
  | abandoned => exact (s.passed_abandoned id).continues

/-- An event starts a run, where none is active, or none starts. -/
theorem Happened.continues {e : Event} (h : Happened s e t) :
    Continues s t ∨ s.phase ≠ .running ∧ ∃ program time, s.program = some program ∧
      program.errors = [] ∧ t = s.launched time := by
  cases h with
  | launched hidle hprogram herrors =>
      right
      exact ⟨hidle, _, _, hprogram, herrors, rfl⟩
  | kept =>
      left
      exact .refl s
  | loaded | loadedProgram | cleared =>
      left
      exact .idle rfl rfl Phase.noConfusion
  | pulled hturned | resumed hturned =>
      left
      exact hturned.continues
  | closed hclosed =>
      left
      exact hclosed.continues
  | stopping =>
      left
      exact .stopping s
  | stopped _ _ _ hclosed =>
      left
      exact ((Continues.stopping s).trans hclosed.continues).trans (.haltIfRunning _)
  | sought hidle =>
      left
      exact .idle rfl rfl hidle

/-- What every session keeps about its newest run. -/
structure Attended (s : Session) : Prop where
  current : ∀ id, s.current = some id ↔ id + 1 = s.playbacks.length
  started : s.phase = .running → s.playbacks ≠ []
  loaded : s.phase = .running → ∃ program, s.program = some program ∧ program.errors = []
  report : s.phase = .running → s.report = none
  awaits : ∀ playback ∈ s.playbacks, playback.AwaitsHit

namespace Attended

theorem continues (h : Attended s) (ht : Continues s t) : Attended t where
  current := by
    intro id
    rw [ht.current, ht.length]
    exact h.current id
  started := by
    intro hrunning hnil
    have hbefore := h.started (ht.running hrunning).1
    have hlength := ht.length
    rw [hnil] at hlength
    exact hbefore (List.length_eq_zero_iff.mp hlength.symm)
  loaded := by
    intro hrunning
    obtain ⟨hbefore, hprogram, _⟩ := ht.running hrunning
    rw [hprogram]
    exact h.loaded hbefore
  report := by
    intro hrunning
    obtain ⟨hbefore, _, hreport⟩ := ht.running hrunning
    exact hreport.trans (h.report hbefore)
  awaits := by
    intro playback hmem
    rcases ht.awaits playback hmem with hold | hhit
    · exact h.awaits playback hold
    · exact hhit

theorem launched (h : Attended s) {program : Program} (hprogram : s.program = some program)
    (herrors : program.errors = []) (time : Float) : Attended (s.launched time) where
  current := by
    intro id
    simp only [launched_eq, opened, begun, List.length_append,
      List.length_singleton, Option.some.injEq]
    omega
  started := by simp [launched_eq, opened, begun]
  loaded := fun _ => ⟨program, hprogram, herrors⟩
  report := fun _ => rfl
  awaits := by
    intro playback hmem
    rcases List.mem_append.mp hmem with hold | hnew
    · exact h.awaits playback hold
    · obtain rfl := List.mem_singleton.mp hnew
      trivial

theorem after (h : Attended s) (e : Event) : Attended (s.after e) := by
  rcases (s.after_happened e).continues with hcontinues | ⟨_, program, time, hprogram, herrors, heq⟩
  · exact h.continues hcontinues
  · rw [heq]
    exact h.launched hprogram herrors time

/-- The playback of an active run is there. -/
theorem exists_active (h : Attended s) (hrunning : s.phase = .running) :
    ∃ id playback, s.current = some id ∧ id + 1 = s.playbacks.length ∧
      s.playbacks[id]? = some playback := by
  have hlength := List.length_pos_iff.mpr (h.started hrunning)
  have hnewest : s.playbacks.length - 1 + 1 = s.playbacks.length := by omega
  have hlt : s.playbacks.length - 1 < s.playbacks.length := by omega
  exact ⟨_, _, (h.current _).mpr hnewest, hnewest, List.getElem?_eq_getElem hlt⟩

end Attended

theorem attended_of_reached {allowed : Session → Event → Prop} (h : Reached allowed s) :
    Attended s := by
  induction h with
  | fresh =>
      exact {
        current := by simp
        started := by simp
        loaded := by simp
        report := by simp
        awaits := by simp }
  | event e _ _ ih => exact ih.after e

/-! ## Playbacks whose run is over -/

/-- The run of a playback is over: no run is active, or the one that is active is a newer one. -/
def RunOver (s : Session) (id : Nat) : Prop :=
  id < s.playbacks.length ∧ (s.phase = .running → id + 1 < s.playbacks.length)

namespace RunOver

theorem of_idle (hidle : s.phase ≠ .running) (hid : id < s.playbacks.length) : s.RunOver id :=
  ⟨hid, fun hrunning => absurd hrunning hidle⟩

theorem continues (h : s.RunOver id) (ht : Continues s t) : t.RunOver id := by
  rw [RunOver, ht.length]
  exact ⟨h.1, fun hrunning => h.2 (ht.running hrunning).1⟩

theorem after (h : s.RunOver id) (e : Event) : (s.after e).RunOver id := by
  rcases (s.after_happened e).continues with hcontinues | ⟨_, program, time, _, _, heq⟩
  · exact h.continues hcontinues
  · have hlength : (s.launched time).playbacks.length = s.playbacks.length + 1 :=
      List.length_append
    have hid := h.1
    rw [heq, RunOver, hlength]
    omega

end RunOver

/-- An event in which no playback that has shown its report is used while a run is active. -/
def SparesRuns (s : Session) : Event → Prop
  | .pull id _ _ | .resume id _ _ | .close id =>
      s.playbacks[id]? = some .reported → s.phase ≠ .running
  | _ => True

/-- The runs of a session are separate if a playback goes on only for the active run. -/
structure Separate (s : Session) : Prop extends Attended s where
  past : ∀ {id : Nat} {playback : Playback}, s.playbacks[id]? = some playback → s.RunOver id →
    playback.IsOver

theorem setPlayback_self (h : s.playbacks[id]? = some playback) : s.setPlayback id playback = s := by
  have hid := id_lt_length h
  have hget : s.playbacks[id] = playback := (List.getElem?_eq_some_iff.mp h).2
  rw [setPlayback, ← hget, List.set_getElem_self]

theorem Turned.of_none (h : Turned s id t) (hid : s.playbacks[id]? = none) : t = s := by
  cases h with
  | kept => rfl
  | begun hsome | rested hsome | resumed hsome | struck hsome | ended hsome =>
      cases hid.symm.trans hsome

theorem Closed.of_none (h : Closed s id t) (hid : s.playbacks[id]? = none) : t = s := by
  cases h with
  | kept => rfl
  | unused hsome => cases hid.symm.trans hsome
  | abandoned hopen => simp [isOpen, hid] at hopen

theorem Turned.of_isOver (h : Turned s id t) (hid : s.playbacks[id]? = some playback)
    (hover : playback.IsOver) : t = s ∨ playback = .reported ∧ t = s.abandoned id := by
  have hdiffers {other : Playback} (hother : s.playbacks[id]? = some other)
      (hgoes : ¬ other.IsOver) : False := by
    obtain rfl := Option.some.inj (hid.symm.trans hother)
    exact hgoes hover
  cases h with
  | kept =>
      left
      rfl
  | ended hreported =>
      right
      exact ⟨Option.some.inj (hid.symm.trans hreported), rfl⟩
  | begun hcreated => exact (hdiffers hcreated (by simp [Playback.IsOver])).elim
  | rested hshown => exact (hdiffers hshown (by simp [Playback.IsOver])).elim
  | resumed hresting => exact (hdiffers hresting (by simp [Playback.IsOver])).elim
  | struck happroaching => exact (hdiffers happroaching (by simp [Playback.IsOver])).elim

theorem Closed.of_isOver (h : Closed s id t) (hid : s.playbacks[id]? = some playback)
    (hover : playback.IsOver) : t = s ∨ playback = .reported ∧ t = s.abandoned id := by
  cases h with
  | kept =>
      left
      rfl
  | unused hcreated =>
      obtain rfl := Option.some.inj (hid.symm.trans hcreated)
      rcases hover with hover | hover <;> cases hover
  | abandoned hopen =>
      rcases hover with rfl | rfl
      · right
        exact ⟨rfl, rfl⟩
      · simp [isOpen, hid] at hopen

/-- Either the active run is that of a playback, or the run of the playback is over. -/
theorem active_or_runOver (hid : id < s.playbacks.length) :
    s.phase = .running ∧ id + 1 = s.playbacks.length ∨ s.RunOver id := by
  by_cases hrunning : s.phase = .running
  · by_cases hnewest : id + 1 = s.playbacks.length
    · left
      exact ⟨hrunning, hnewest⟩
    · right
      exact ⟨hid, fun _ => by omega⟩
  · right
    exact .of_idle hrunning hid

/-- What a playback that has nothing more to make does in a session with an active run, as long as it
does not end that run. -/
theorem eq_of_spent (hrunning : s.phase = .running)
    (hspared : s.playbacks[id]? = some .reported → s.phase ≠ .running)
    (hover : ∀ playback, s.playbacks[id]? = some playback → playback.IsOver)
    (hnone : s.playbacks[id]? = none → t = s)
    (hspent : ∀ {playback : Playback}, s.playbacks[id]? = some playback → playback.IsOver →
      t = s ∨ playback = .reported ∧ t = s.abandoned id) : t = s := by
  cases hid : s.playbacks[id]? with
  | none => exact hnone hid
  | some playback =>
      rcases hspent hid (hover playback hid) with hsame | ⟨rfl, _⟩
      · exact hsame
      · exact absurd hrunning (hspared hid)

namespace Separate

theorem set (h : Separate s) (ht : Continues s t)
    (hplaybacks : t.playbacks = s.playbacks.set id playback)
    (hplayback : t.RunOver id → playback.IsOver)
    (hothers : ∀ other, other ≠ id → t.RunOver other → s.RunOver other) : Separate t where
  toAttended := h.toAttended.continues ht
  past := by
    intro other p hp hover
    by_cases heq : other = id
    · subst heq
      have hlt : other < s.playbacks.length := ht.length ▸ hover.1
      rw [hplaybacks, List.getElem?_set_self hlt] at hp
      obtain rfl := Option.some.inj hp
      exact hplayback hover
    · rw [hplaybacks, List.getElem?_set_ne (Ne.symm heq)] at hp
      exact h.past hp (hothers other heq hover)

/-- The playback of the active run goes on, or ends it. -/
theorem passed (h : Separate s) (hrunning : s.phase = .running)
    (hid : id + 1 = s.playbacks.length) (ht : Passed s id t) : Separate t := by
  have hcontinues := ht.continues
  have hothers (other : Nat) (hne : other ≠ id) (hover : t.RunOver other) : s.RunOver other := by
    have hlt := hover.1
    rw [hcontinues.length] at hlt
    exact ⟨hlt, fun _ => by omega⟩
  cases ht with
  | goesOn hplaybacks _ _ _ _ hphase _ =>
      refine h.set hcontinues hplaybacks (fun hover => ?_) hothers
      have hlt := hover.2 (hphase.trans hrunning)
      rw [hcontinues.length] at hlt
      omega
  | ends hplaybacks _ _ hplayback _ =>
      exact h.set hcontinues hplaybacks (fun _ => hplayback) hothers

theorem finished (h : Separate s) (id : Nat) : Separate (s.setPlayback id .finished) := by
  refine h.set (.finished s id) rfl (fun _ => Or.inr rfl) fun other _ hother => ?_
  have hlength : (s.setPlayback id .finished).playbacks.length = s.playbacks.length :=
    List.length_set
  rwa [RunOver, hlength] at hother

theorem stopping (h : Separate s) : Separate s.stopping where
  toAttended := h.toAttended.continues (.stopping s)
  past := h.past

theorem idle (h : Separate s) (hidle : s.phase ≠ .running) (ht : Continues s t)
    (hplaybacks : t.playbacks = s.playbacks) : Separate t where
  toAttended := h.toAttended.continues ht
  past := by
    intro id playback hplayback _
    rw [hplaybacks] at hplayback
    exact h.past hplayback (.of_idle hidle (id_lt_length hplayback))

theorem launched (h : Separate s) {program : Program} (hidle : s.phase ≠ .running)
    (hprogram : s.program = some program) (herrors : program.errors = []) (time : Float) :
    Separate (s.launched time) where
  toAttended := h.toAttended.launched hprogram herrors time
  past := by
    intro id playback hplayback hover
    have hlength : (s.launched time).playbacks.length = s.playbacks.length + 1 :=
      List.length_append
    have hlt := hover.2 rfl
    rw [hlength] at hlt
    have hid : id < s.playbacks.length := by omega
    have hold : s.playbacks[id]? = some playback :=
      (List.getElem?_append_left hid).symm.trans hplayback
    exact h.past hold (.of_idle hidle hid)

/-- To use a playback that spares the active run does nothing, or puts it away, unless the run is its
own. -/
theorem used (h : Separate s) (hspared : s.playbacks[id]? = some .reported → s.phase ≠ .running)
    (hnone : s.playbacks[id]? = none → t = s)
    (hspent : ∀ {playback : Playback}, s.playbacks[id]? = some playback → playback.IsOver →
      t = s ∨ playback = .reported ∧ t = s.abandoned id) :
    t = s ∨ t = s.setPlayback id .finished ∨ s.phase = .running ∧ id + 1 = s.playbacks.length := by
  cases hid : s.playbacks[id]? with
  | none =>
      left
      exact hnone hid
  | some playback =>
      rcases active_or_runOver (id_lt_length hid) with hactive | hover
      · right; right
        exact hactive
      · rcases hspent hid (h.past hid hover) with hsame | ⟨rfl, haway⟩
        · left
          exact hsame
        · right; left
          rw [haway, abandoned_eq_setPlayback id (hspared hid)]

theorem turned (h : Separate s) (hspared : s.playbacks[id]? = some .reported → s.phase ≠ .running)
    (ht : Turned s id t) : Separate t := by
  rcases h.used hspared ht.of_none ht.of_isOver with rfl | rfl | ⟨hrunning, hnewest⟩
  · exact h
  · exact h.finished id
  · rcases ht.passed with rfl | hpassed
    · exact h
    · exact h.passed hrunning hnewest hpassed

theorem closed (h : Separate s) (hspared : s.playbacks[id]? = some .reported → s.phase ≠ .running)
    (ht : Closed s id t) : Separate t := by
  rcases h.used hspared ht.of_none ht.of_isOver with rfl | rfl | ⟨hrunning, hnewest⟩
  · exact h
  · exact h.finished id
  · cases ht with
    | kept => exact h
    | unused => exact h.finished id
    | abandoned => exact h.passed hrunning hnewest (s.passed_abandoned id)

theorem happened {e : Event} (h : Separate s) (ht : Happened s e t) (he : SparesRuns s e) :
    Separate t := by
  cases ht with
  | kept => exact h
  | loaded hidle => exact h.idle hidle (.idle rfl rfl Phase.noConfusion) rfl
  | loadedProgram hidle => exact h.idle hidle (.idle rfl rfl Phase.noConfusion) rfl
  | launched hidle hprogram herrors => exact h.launched hidle hprogram herrors _
  | pulled hturned => exact h.turned he hturned
  | resumed hturned => exact h.turned he hturned
  | closed hclosed => exact h.closed he hclosed
  | stopping => exact h.stopping
  | @stopped id _ hrunning hid hopen hclosed =>
      rw [hclosed.haltIfRunning_of_isOpen hopen]
      exact h.stopping.passed hrunning ((h.current id).mp hid) (s.stopping.passed_abandoned id)
  | cleared hidle => exact h.idle hidle (.idle rfl rfl Phase.noConfusion) rfl
  | sought hidle => exact h.idle hidle (.idle rfl rfl hidle) rfl

end Separate

theorem separate_of_reached (h : Reached SparesRuns s) : Separate s := by
  induction h with
  | fresh turret sheet interval fallback logRoom =>
      have hfresh : Reached SparesRuns _ := .fresh turret sheet interval fallback logRoom
      exact ⟨attended_of_reached hfresh, fun hplayback => nomatch hplayback⟩
  | event e _ he ih => exact ih.happened (after_happened _ e) he

theorem after_pull_of_finished (hid : s.playbacks[id]? = some .finished) (now : Timestamp)
    (time : Float) : s.after (.pull id now time) = s := by
  have hpull : s.pull now id = ⟨s, [], .ended⟩ := by rw [pull, hid]
  rw [after, hpull]
  rfl

theorem after_close_of_finished (hid : s.playbacks[id]? = some .finished) :
    s.after (.close id) = s := by
  rw [after, closePlayback, hid]

theorem after_pull_of_reported (hid : s.playbacks[id]? = some .reported) (now : Timestamp)
    (time : Float) : s.after (.pull id now time) = s.abandoned id := by
  have hpull : s.pull now id = s.finishPlayback id .ended := by rw [pull, hid]
  rw [after, hpull]
  rfl

theorem after_close_of_reported (hid : s.playbacks[id]? = some .reported) :
    s.after (.close id) = s.abandoned id := by
  rw [after, closePlayback, hid]
  rfl

theorem results_of_isOver (hid : s.playbacks[id]? = some playback) (hover : playback.IsOver)
    (now : Timestamp) : (s.pull now id).result = .ended ∧ (s.closePlayback id).result = .ended := by
  rcases hover with rfl | rfl <;> simp [pull, closePlayback, hid, finishPlayback]

/-- A run that is over stays over, whatever happens. Its playback has shown its report or is over
itself, has nothing more to show, and leaves the session as it is when it is asked for a step or
closed, apart from being put away. Only if it has shown its report and a newer run is active, that
run ends. -/
theorem earlier_run_leaves_session (h : Reached SparesRuns s) (hover : s.RunOver id)
    (now : Timestamp) (time : Float) :
    (∀ e, (s.after e).RunOver id) ∧
      (s.playbacks[id]? = some .reported ∨ s.playbacks[id]? = some .finished) ∧
      (s.pull now id).result = .ended ∧ (s.closePlayback id).result = .ended ∧
      ((s.phase = .running → s.playbacks[id]? = some .finished) →
        s.after (.pull id now time) = s.setPlayback id .finished ∧
          s.after (.close id) = s.setPlayback id .finished) ∧
      (s.phase = .running → s.playbacks[id]? = some .reported →
        (s.after (.pull id now time)).phase = .stopped ∧
          (s.after (.close id)).phase = .stopped) := by
  obtain ⟨playback, hid⟩ : ∃ playback, s.playbacks[id]? = some playback :=
    ⟨_, List.getElem?_eq_getElem hover.1⟩
  have hisOver := (separate_of_reached h).past hid hover
  obtain ⟨hpull, hclose⟩ := results_of_isOver hid hisOver now
  refine ⟨hover.after, ?_, hpull, hclose, ?_, ?_⟩
  · rcases hisOver with rfl | rfl
    · left
      exact hid
    · right
      exact hid
  · intro hfinished
    rcases hisOver with rfl | rfl
    · have hidle : s.phase ≠ .running := by
        intro hrunning
        cases hid.symm.trans (hfinished hrunning)
      rw [after_pull_of_reported hid, after_close_of_reported hid, abandoned_eq_setPlayback id hidle]
      exact ⟨rfl, rfl⟩
    · rw [after_pull_of_finished hid, after_close_of_finished hid, setPlayback_self hid]
      exact ⟨rfl, rfl⟩
  · intro hrunning hreported
    rw [after_pull_of_reported hreported, after_close_of_reported hreported,
      abandoned_eq_halt id hrunning]
    exact ⟨rfl, rfl⟩

/-- A hit at (50, 40), and the end. -/
def oneHit : Program :=
  ⟨[.hit 0 50.0 40.0 (.real 8.0) 1, .finish 0], [.absolute, .absolute], []⟩

theorem earlier_run_leaves_session_oneHit :
    let stopped := ((plain.after (.loadProgram oneHit)).after (.run 0.0)).after .stop
    let s := stopped.after (.run 0.0)
    s.phase = .running ∧ s.after (.close 0) = s.setPlayback 0 .finished := by
  intro stopped s
  have hreached : Reached SparesRuns s :=
    ((((reached_plain SparesRuns).event (.loadProgram oneHit) trivial).event (.run 0.0)
      trivial).event .stop trivial).event (.run 0.0) trivial
  have hover : s.RunOver 0 := ⟨by decide +kernel, fun _ => by decide +kernel⟩
  obtain ⟨_, _, _, _, hleft, _⟩ := earlier_run_leaves_session hreached hover default 0.0
  exact ⟨by decide +kernel, (hleft fun _ => rfl).2⟩

/-- A playback that has shown its report ends a newer run when it is closed or asked for a step. -/
theorem newer_run_ended_by_earlier :
    let started := (plain.after (.loadProgram oneHit)).after (.run 0.0)
    let shown := (started.after (.pull 0 default 0.0)).after (.resume 0 default 0.0)
    let done := (shown.after (.pull 0 default 0.0)).after (.resume 0 default 0.0)
    let s := done.after (.run 0.0)
    Reached (fun _ _ => True) s ∧ done.phase = .completed ∧ s.RunOver 0 ∧ s.phase = .running ∧
      (s.after (.close 0)).phase = .stopped ∧ (s.after (.pull 0 default 0.0)).phase = .stopped := by
  intro started shown done s
  have hstarted : Reached (fun _ _ => True) started :=
    ((reached_plain _).event (.loadProgram oneHit) trivial).event (.run 0.0) trivial
  have hshown : Reached (fun _ _ => True) shown :=
    (hstarted.event (.pull 0 default 0.0) trivial).event (.resume 0 default 0.0) trivial
  have hdone : Reached (fun _ _ => True) done :=
    (hshown.event (.pull 0 default 0.0) trivial).event (.resume 0 default 0.0) trivial
  have hover : s.RunOver 0 := ⟨by decide +kernel, fun _ => by decide +kernel⟩
  refine ⟨hdone.event (.run 0.0) trivial, ?_, hover, ?_, ?_, ?_⟩ <;> decide +kernel

end Session

end TurretPunch
