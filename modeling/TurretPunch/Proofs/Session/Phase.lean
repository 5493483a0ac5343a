import TurretPunch.Proofs.Program.Ending
import TurretPunch.Proofs.Session.Turn

namespace TurretPunch

/-!
# Phase, report and stop

Where a session is, whether its press is running, whether it has a report and whether a stop was
requested are kept in step, whatever order the events come in and however many playbacks are alive.
This rests on programs that end with an end: a playback of such a program does not run out of
operations, and it looks for a stop in the same event in which it comes to the end.
-/

theorem Operation.isFinish_of_hole {op : Operation} (h : op.hole?.isSome = true) :
    op.isFinish = false := by
  cases op with
  | hit => rfl
  | toolChange | move | finish => cases h

/-- A playback that is not over has an end before it. -/
def Playback.HasEnd (ops : List Operation) : Playback → Prop
  | created => HasFinish ops
  | approaching _ op rest => op.hole?.isSome = true ∧ HasFinish rest
  | shown _ _ rest => HasFinish rest
  | resting _ _ rest => HasFinish rest
  | closing .. | reported | finished => True

/-- An end before a playback stays there when another program with an end is loaded. -/
theorem Playback.HasEnd.mono {ops ops' : List Operation} {playback : Playback}
    (h : playback.HasEnd ops) (hops : HasFinish ops') : playback.HasEnd ops' := by
  cases playback with
  | created => exact hops
  | approaching | shown | resting | closing | reported | finished => exact h

namespace Session

/-- What a session keeps in step. -/
structure Orderly (s : Session) : Prop where
  running : s.press.running = true ↔ s.phase = .running
  report : s.report.isSome = true ↔ s.phase = .completed
  loaded : s.phase = .running → ∃ program, s.program = some program ∧ program.errors = []
  stop : s.stopRequested = true → s.report = none
  program : ∀ program, s.program = some program → HasFinish program.operations
  playbacks : ∀ playback ∈ s.playbacks, playback.HasEnd s.operations

namespace Orderly

variable {s : Session}

theorem report_of_running (h : Orderly s) (hrunning : s.phase = .running) : s.report = none := by
  cases hreport : s.report with
  | none => rfl
  | some report =>
      have hcompleted : s.phase = .completed := h.report.mp (by rw [hreport]; rfl)
      rw [hrunning] at hcompleted
      cases hcompleted

theorem playback (h : Orderly s) {id : Nat} {playback : Playback}
    (hid : s.playbacks[id]? = some playback) : playback.HasEnd s.operations :=
  h.playbacks playback (List.mem_of_getElem? hid)

theorem setPlayback (h : Orderly s) (id : Nat) {playback : Playback}
    (hplayback : playback.HasEnd s.operations) : Orderly (s.setPlayback id playback) where
  running := h.running
  report := h.report
  loaded := h.loaded
  stop := h.stop
  program := h.program
  playbacks := by
    intro other hother
    rcases List.mem_or_eq_of_mem_set hother with hother | rfl
    · exact h.playbacks other hother
    · exact hplayback

theorem halt (h : Orderly s) (hreport : s.report = none) : Orderly s.halt.session where
  running := by simp [Session.halt]
  report := by simp [Session.halt, hreport]
  loaded := by simp [Session.halt]
  stop := fun _ => hreport
  program := h.program
  playbacks := h.playbacks

theorem haltIfRunning (h : Orderly s) : Orderly s.haltIfRunning.session := by
  unfold Session.haltIfRunning
  split
  · next hrunning => exact h.halt (h.report_of_running (isRunning_iff.mp hrunning))
  · exact h

theorem finished (h : Orderly s) (id : Nat) : Orderly (s.setPlayback id .finished) :=
  have hend : Playback.finished.HasEnd s.operations := trivial
  h.setPlayback id hend

theorem abandoned (h : Orderly s) (id : Nat) : Orderly (s.abandoned id) :=
  (h.finished id).haltIfRunning

/-- A completed run has a report, and no stop was requested of it. -/
theorem completed (h : Orderly s) (now : Timestamp) (id : Nat) (time : Float)
    (hstop : s.stopRequested = false) : Orderly (s.completed now id time) where
  running := by simp [Session.completed]
  report := by simp [Session.completed]
  loaded := by simp [Session.completed]
  stop := fun hrequested => absurd (hstop.symm.trans hrequested) (by simp)
  program := h.program
  playbacks :=
    have hend : Playback.reported.HasEnd s.operations := trivial
    (h.setPlayback id hend).playbacks

theorem withPress (h : Orderly s) {press : Press} (hrunning : press.running = s.press.running) :
    Orderly { s with press } where
  running := by rw [← h.running]; exact Bool.eq_iff_iff.mp hrunning
  report := h.report
  loaded := h.loaded
  stop := h.stop
  program := h.program
  playbacks := h.playbacks

theorem stepped (h : Orderly s) (now : Timestamp) (index : Nat) (op : Operation) (out : Bool) :
    Orderly (s.stepped now index op out) :=
  h.withPress (by cases op <;> rfl)

theorem soughtTo (h : Orderly s) (index : Nat) (op : Operation) (out : Bool) :
    Orderly (s.soughtTo index op out) :=
  h.withPress rfl

theorem cleared (h : Orderly s) : Orderly s.cleared where
  running := by simp [Session.cleared]
  report := by simp [Session.cleared]
  loaded := by simp [Session.cleared]
  stop := fun _ => rfl
  program := h.program
  playbacks := h.playbacks

theorem accepted (h : Orderly s) {program : Program} {text : Text.Points}
    (hprogram : HasFinish program.operations) :
    Orderly (s.accept program text).session where
  running := h.cleared.running
  report := h.cleared.report
  loaded := by simp [accept, Session.cleared]
  stop := h.cleared.stop
  program := by
    intro p hp
    obtain rfl : program = p := Option.some.inj hp
    exact hprogram
  playbacks := fun playback hplayback => (h.playbacks playback hplayback).mono hprogram

theorem launched (h : Orderly s) {program : Program} (hprogram : s.program = some program)
    (herrors : program.errors = []) (time : Float) : Orderly (s.launched time) where
  running := by simp [launched_eq, opened, begun]
  report := by simp [launched_eq, opened, begun]
  loaded := fun _ => ⟨program, hprogram, herrors⟩
  stop := fun _ => rfl
  program := h.program
  playbacks := by
    intro playback hplayback
    rcases List.mem_append.mp hplayback with hold | hnew
    · exact h.playbacks playback hold
    · obtain rfl := List.mem_singleton.mp hnew
      exact (operations_of_program hprogram).symm ▸ h.program program hprogram

theorem stopping (h : Orderly s) (hrunning : s.phase = .running) : Orderly s.stopping where
  running := h.running
  report := h.report
  loaded := h.loaded
  stop := fun _ => h.report_of_running hrunning
  program := h.program
  playbacks := h.playbacks

theorem attempted {t : Session} {index : Nat} (h : Orderly s) (ht : Attempted s index t) :
    Orderly t ∧ t.stopRequested = s.stopRequested ∧ t.operations = s.operations := by
  cases ht with
  | missing => exact ⟨h, rfl, rfl⟩
  | made => exact ⟨h.stepped _ index _ _, rfl, rfl⟩

/-- A playback that comes to the end does so before a stop is requested. -/
theorem played {t : Session} {id index : Nat} {op : Operation} {rest : List Operation}
    (h : Orderly s) (ht : Played s id index op rest t)
    (hstop : op.isFinish = true → s.stopRequested = false)
    (hrest : op.isFinish = false → HasFinish rest) : Orderly t := by
  cases ht with
  | failed hattempted => exact (h.attempted hattempted).1.abandoned id
  | finished hattempted hop =>
      obtain ⟨horderly, hsame, _⟩ := h.attempted hattempted
      exact horderly.completed _ id _ (hsame.trans (hstop hop))
  | shown hattempted _ hop => exact (h.attempted hattempted).1.setPlayback id (hrest hop)

theorem proceeded {t : Session} {id index : Nat} {ops : List Operation} (h : Orderly s)
    (ht : Proceeded s id index ops t) (hops : HasFinish ops) : Orderly t := by
  cases ht with
  | exhausted => exact absurd hops not_hasFinish_nil
  | stopped hstop => exact (h.finished id).halt (h.stop hstop)
  | approaching hstop hop =>
      exact h.setPlayback id ⟨hop, hops.of_cons (Operation.isFinish_of_hole hop)⟩
  | played hstop _ hplayed => exact h.played hplayed (fun _ => hstop) hops.of_cons

theorem turned {t : Session} {id : Nat} (h : Orderly s) (ht : Turned s id t) : Orderly t := by
  cases ht with
  | kept => exact h
  | begun hid hproceeded => exact h.proceeded hproceeded (h.playback hid)
  | rested hid =>
      have hend : HasFinish _ := h.playback hid
      exact h.setPlayback id hend
  | resumed hid hproceeded => exact h.proceeded hproceeded (h.playback hid)
  | @struck _ _ op _ hid hplayed =>
      obtain ⟨hhit, hend⟩ := h.playback hid
      have hop := Operation.isFinish_of_hole hhit
      have hstop (hfinish : op.isFinish = true) : s.stopRequested = false :=
        absurd (hop.symm.trans hfinish) (by simp)
      exact h.played hplayed hstop (fun _ => hend)
  | ended => exact h.abandoned id

theorem closed {t : Session} {id : Nat} (h : Orderly s) (ht : Closed s id t) : Orderly t := by
  cases ht with
  | kept => exact h
  | unused => exact h.finished id
  | abandoned => exact h.abandoned id

end Orderly

/-- An event that takes a program from nowhere but a text. -/
def ReadsText (_ : Session) : Event → Prop
  | .loadProgram _ => False
  | _ => True

theorem Orderly.happened {s t : Session} {e : Event} (h : Orderly s) (ht : Happened s e t)
    (he : ReadsText s e) : Orderly t := by
  cases ht with
  | kept => exact h
  | loaded _ hread => exact h.accepted (Program.hasFinish_ofText hread)
  | loadedProgram => exact he.elim
  | launched _ hprogram herrors => exact h.launched hprogram herrors _
  | pulled ht => exact h.turned ht
  | resumed ht => exact h.turned ht
  | closed ht => exact h.closed ht
  | stopping hrunning => exact h.stopping hrunning
  | stopped hrunning _ _ ht => exact ((h.stopping hrunning).closed ht).haltIfRunning
  | cleared => exact h.cleared
  | sought => exact h.soughtTo _ _ _

theorem orderly_of_reached {s : Session} (h : Reached ReadsText s) : Orderly s := by
  induction h with
  | fresh =>
      exact {
        running := by simp
        report := by simp
        loaded := by simp
        stop := fun _ => rfl
        program := by simp
        playbacks := by simp }
  | event e _ he ih => exact ih.happened (after_happened _ e) he

end Session

end TurretPunch
