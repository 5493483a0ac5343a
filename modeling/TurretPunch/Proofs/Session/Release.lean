import TurretPunch.Proofs.Session.Succession

namespace TurretPunch.Session

/-!
# How an active run is ended

A stop ends the active run at once, unless its playback is in the middle of a step, and so does
closing that playback. A session in which no run is active refuses nothing. But a playback that is
closed before it was asked for a step does not end its run, and then nothing does.
-/

variable {s t : Session} {id : Nat} {playback : Playback}

/-- A session that refuses nothing. -/
structure Free (s : Session) : Prop where
  reset : s.reset = ⟨s.cleared, [], ()⟩
  load : ∀ text program, Program.ofText s.tooling text = .ok program →
    (s.load text).result = .ok (some program)
  loadProgram : ∀ program, s.loadProgram program = s.accept program ""
  seek : ∀ (index : Nat) (op : Operation), s.operations[index]? = some op →
    s.seek index = s.seekTo index op
  run : ∀ program, s.program = some program → program.errors = [] → s.start = ⟨s.opened, [], true⟩

theorem free_of_idle (hidle : s.phase ≠ .running) : Free s := by
  have hnot : ¬ s.isRunning = true := fun hrunning => hidle (isRunning_iff.mp hrunning)
  refine ⟨?_, ?_, ?_, ?_, ?_⟩
  · rw [reset, if_neg hnot]
  · intro text program hread
    unfold load
    rw [if_neg hnot]
    simp only [hread]
    rfl
  · intro program
    rw [loadProgram, if_neg hnot]
  · intro index op hop
    unfold seek
    rw [if_neg hnot, if_pos (Int.natCast_nonneg index), Int.toNat_natCast, hop]
  · intro program hprogram herrors
    exact start_of_ready hidle hprogram herrors

/-- An event that does not close the playback of the active run before it was asked for a step. -/
def AsksBeforeClosing (s : Session) : Event → Prop
  | .close id => s.phase = .running → s.current = some id → s.playbacks[id]? ≠ some .created
  | _ => True

/-- The playback of the active run is not over. -/
def Held (s : Session) : Prop :=
  s.phase = .running → ∀ id, s.current = some id → s.playbacks[id]? ≠ some .finished

namespace Held

theorem of_idle (hidle : s.phase ≠ .running) : Held s := fun hrunning => absurd hrunning hidle

/-- Another playback than a finished one is set, or one that does not belong to the active run. -/
theorem set (h : Held s) (hphase : t.phase = s.phase) (hcurrent : t.current = s.current)
    (hplaybacks : t.playbacks = s.playbacks.set id playback)
    (hset : s.phase = .running → s.current = some id → playback ≠ .finished) : Held t := by
  intro hrunning other hother
  rw [hphase] at hrunning
  rw [hcurrent] at hother
  rw [hplaybacks]
  by_cases heq : other = id
  · subst heq
    intro hfinished
    have hlt : other < s.playbacks.length := by
      have hlength := (List.getElem?_eq_some_iff.mp hfinished).1
      rwa [List.length_set] at hlength
    rw [List.getElem?_set_self hlt] at hfinished
    exact hset hrunning hother (Option.some.inj hfinished)
  · rw [List.getElem?_set_ne (Ne.symm heq)]
    exact h hrunning other hother

theorem turned (h : Held s) (ht : Turned s id t) : Held t := by
  rcases ht.passed with rfl | hpassed
  · exact h
  · cases hpassed with
    | goesOn hplaybacks hcurrent _ hplayback _ hphase _ =>
        exact h.set hphase hcurrent hplaybacks (fun _ _ hfinished => hplayback (Or.inr hfinished))
    | ends _ _ _ _ hidle => exact .of_idle hidle

theorem happened {e : Event} (h : Held s) (ht : Happened s e t) (he : AsksBeforeClosing s e) :
    Held t := by
  cases ht with
  | kept => exact h
  | loaded | loadedProgram | cleared => exact .of_idle Phase.noConfusion
  | launched =>
      intro _ id hid
      obtain rfl := Option.some.inj hid
      simp [launched_eq, opened, begun]
  | pulled hturned => exact h.turned hturned
  | resumed hturned => exact h.turned hturned
  | closed hclosed =>
      cases hclosed with
      | kept => exact h
      | unused hcreated =>
          refine h.set rfl rfl rfl fun hrunning hid => ?_
          exact absurd hcreated (he hrunning hid)
      | abandoned => exact .of_idle (s.phase_abandoned _)
  | stopping => exact h
  | stopped _ _ hopen hclosed =>
      rw [hclosed.haltIfRunning_of_isOpen hopen]
      exact .of_idle (s.stopping.phase_abandoned _)
  | sought hidle => exact .of_idle hidle

end Held

theorem held_of_reached (h : Reached AsksBeforeClosing s) : Held s := by
  induction h with
  | fresh => exact .of_idle Phase.noConfusion
  | event e _ he ih => exact ih.happened (after_happened _ e) he

theorem isOpen_of_playback (hid : s.playbacks[id]? = some playback)
    (hbusy : playback.isBusy = false) (hfinished : playback ≠ .finished) :
    s.isOpen id = true := by
  unfold isOpen
  rw [hid]
  cases playback with
  | created | shown | reported => rfl
  | approaching | resting | closing => cases hbusy
  | finished => exact absurd rfl hfinished

/-- A stop ends the run of a playback that is not in the middle of a step. -/
theorem stop_of_isOpen (hrunning : s.phase = .running) (hid : s.current = some id)
    (hopen : s.isOpen id = true) : s.stop.session = s.stopping.abandoned id := by
  have hfilter : s.current.filter s.stopping.isOpen = some id := by
    rw [hid, Option.filter_some]
    exact if_pos hopen
  unfold stop
  rw [if_pos (isRunning_iff.mpr hrunning)]
  dsimp only
  split
  · next hnone => cases hnone.symm.trans hfilter
  · next other hother =>
    obtain rfl := Option.some.inj (hother.symm.trans hfilter)
    exact (closePlayback_closed s.stopping other).haltIfRunning_of_isOpen hopen

/-- To close a playback that has shown something ends its run. -/
theorem closePlayback_of_isOpen (hid : s.playbacks[id]? = some playback)
    (hopen : s.isOpen id = true) (hcreated : playback ≠ .created) :
    (s.closePlayback id).session = s.abandoned id ∧ (s.closePlayback id).result = .ended := by
  unfold isOpen at hopen
  rw [hid] at hopen
  unfold closePlayback
  rw [hid]
  cases playback with
  | created => exact absurd rfl hcreated
  | shown | reported => exact ⟨rfl, rfl⟩
  | approaching | resting | closing | finished => cases hopen

theorem closePlayback_of_created (hid : s.playbacks[id]? = some .created) :
    s.closePlayback id = ⟨s.setPlayback id .finished, [], .ended⟩ := by
  rw [closePlayback, hid]

/-- An active run of which no playback is in the middle of a step ends with a stop, and then the
session refuses nothing and can run again. It also ends when the playback of the run is closed, if
that was asked for a step before; if it was not, the run goes on without it. -/
theorem stop_and_close_end_run (h : Reached AsksBeforeClosing s) (hrunning : s.phase = .running)
    (hquiet : ∀ playback ∈ s.playbacks, playback.isBusy = false) :
    (s.stop.session.phase = .stopped ∧ s.stop.session.press.running = false ∧
        s.stop.session.Free ∧ s.stop.session.start.result = true) ∧
      ∃ id, s.current = some id ∧ id + 1 = s.playbacks.length ∧
        (s.closePlayback id).result = .ended ∧
        (s.playbacks[id]? ≠ some .created →
          (s.closePlayback id).session.phase = .stopped ∧
            (s.closePlayback id).session.press.running = false) ∧
        (s.playbacks[id]? = some .created → (s.closePlayback id).session.phase = .running) := by
  have hattended := attended_of_reached h
  obtain ⟨id, playback, hcurrent, hnewest, hid⟩ := hattended.exists_active hrunning
  obtain ⟨program, hprogram, herrors⟩ := hattended.loaded hrunning
  have hbusy := hquiet playback (List.mem_of_getElem? hid)
  have hfinished : playback ≠ .finished := by
    rintro rfl
    exact held_of_reached h hrunning id hcurrent hid
  have hopen := isOpen_of_playback hid hbusy hfinished
  have hstop : s.stop.session = (s.stopping.setPlayback id .finished).halt.session := by
    rw [stop_of_isOpen hrunning hcurrent hopen]
    exact abandoned_eq_halt id hrunning
  refine ⟨?_, id, hcurrent, hnewest, ?_, ?_, ?_⟩
  · rw [hstop]
    have hfree := free_of_idle (s := (s.stopping.setPlayback id .finished).halt.session)
      Phase.noConfusion
    exact ⟨rfl, rfl, hfree, congrArg Reply.result (hfree.run program hprogram herrors)⟩
  · by_cases hcreated : playback = .created
    · rw [closePlayback_of_created (hcreated ▸ hid)]
    · exact (closePlayback_of_isOpen hid hopen hcreated).2
  · intro hasked
    have hcreated : playback ≠ .created := fun heq => hasked (heq ▸ hid)
    rw [(closePlayback_of_isOpen hid hopen hcreated).1, abandoned_eq_halt id hrunning]
    exact ⟨rfl, rfl⟩
  · intro hcreated
    rw [closePlayback_of_created hcreated]
    exact hrunning

theorem stop_and_close_end_run_oneHit :
    let started := (plain.after (.loadProgram oneHit)).after (.run 0.0)
    let s := (started.after (.pull 0 default 0.0)).after (.resume 0 default 0.0)
    s.phase = .running ∧ s.press.step = 0 ∧ s.stop.session.phase = .stopped ∧
      s.stop.session.start.result = true := by
  intro started s
  have hstarted : Reached AsksBeforeClosing started :=
    ((reached_plain _).event (.loadProgram oneHit) trivial).event (.run 0.0) trivial
  have hreached : Reached AsksBeforeClosing s :=
    (hstarted.event (.pull 0 default 0.0) trivial).event (.resume 0 default 0.0) trivial
  have hrunning : s.phase = .running := by decide +kernel
  have hquiet : ∀ playback ∈ s.playbacks, playback.isBusy = false := by decide +kernel
  obtain ⟨⟨hphase, _, _, hstart⟩, _⟩ := stop_and_close_end_run hreached hrunning hquiet
  exact ⟨hrunning, by decide +kernel, hphase, hstart⟩

/-- A session with an active run that no playback is left to end. -/
structure Lost (s : Session) : Prop where
  phase : s.phase = .running
  playbacks : ∀ playback ∈ s.playbacks, playback = .finished

namespace Lost

theorem after (h : Lost s) (e : Event) : Lost (s.after e) := by
  have hfinished {id : Nat} {playback : Playback} (hid : s.playbacks[id]? = some playback) :
      playback = .finished :=
    h.playbacks playback (List.mem_of_getElem? hid)
  have hspared {id : Nat} (hreported : s.playbacks[id]? = some .reported) : s.phase ≠ .running :=
    nomatch hfinished hreported
  have hover (id : Nat) (playback : Playback) (hid : s.playbacks[id]? = some playback) :
      playback.IsOver :=
    Or.inr (hfinished hid)
  generalize hafter : s.after e = t
  have ht : Happened s e t := hafter ▸ s.after_happened e
  cases ht with
  | kept => exact h
  | loaded hidle | loadedProgram hidle | launched hidle | cleared hidle | sought hidle =>
      exact absurd h.phase hidle
  | pulled ht => exact eq_of_spent h.phase hspared (hover _) ht.of_none ht.of_isOver ▸ h
  | resumed ht => exact eq_of_spent h.phase hspared (hover _) ht.of_none ht.of_isOver ▸ h
  | closed ht => exact eq_of_spent h.phase hspared (hover _) ht.of_none ht.of_isOver ▸ h
  | stopping => exact ⟨h.phase, h.playbacks⟩
  | @stopped id _ _ _ hopen _ =>
      cases hid : s.playbacks[id]? with
      | none => simp [isOpen, hid] at hopen
      | some playback =>
          obtain rfl := hfinished hid
          simp [isOpen, hid] at hopen

theorem foldl (h : Lost s) (events : List Event) : Lost (events.foldl Session.after s) := by
  induction events generalizing s with
  | nil => exact h
  | cons e events ih => exact ih (h.after e)

end Lost

/-- A run whose playback is closed before it was asked for a step never ends: neither a stop nor
anything else leads out of it. -/
theorem run_closed_unasked_never_ends :
    let started := (plain.after (.loadProgram oneHit)).after (.run 0.0)
    let s := started.after (.close 0)
    Reached (fun _ _ => True) s ∧ started.phase = .running ∧
      (∀ playback ∈ s.playbacks, playback.isBusy = false) ∧ s.stop.session.phase = .running ∧
      ∀ events : List Event, (events.foldl Session.after s).phase = .running := by
  intro started s
  have hreached : Reached (fun _ _ => True) s :=
    (((reached_plain _).event (.loadProgram oneHit) trivial).event (.run 0.0) trivial).event
      (.close 0) trivial
  have hlost : Lost s := ⟨rfl, by intro playback hmem; simpa using List.mem_singleton.mp hmem⟩
  refine ⟨hreached, rfl, ?_, (hlost.after .stop).phase, fun events => (hlost.foldl events).phase⟩
  intro playback hmem
  rw [hlost.playbacks playback hmem]
  rfl

end TurretPunch.Session
