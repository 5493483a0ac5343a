import TurretPunch.Proofs.Press.Trail
import TurretPunch.Proofs.Session.Turn

namespace TurretPunch.Session

/-!
# Playing and seeking agree

A playback moves the press on operation by operation, and a seek puts it to an operation at once.
Whichever it was, and whatever happened in between, the press shows the trail of the operations up
to its step. Only a playback that belongs to the newest run may go on: an older one would move the
press of a run that is not its own.
-/

/-- The press shows the trail of the operations up to its step. -/
inductive Accounted (s : Session) : Prop
  | untouched (hstep : s.press.step = -1) (hline : s.press.line = -1)
      (hmode : s.press.mode = .absolute) (hgathered : s.press.gathered = {})
  | after {index : Nat} {op : Operation} (hop : s.operations[index]? = some op)
      (hstep : s.press.step = index) (hline : s.press.line = op.line)
      (hmode : s.press.mode = s.modeAt index)
      (htarget : ∀ q, op.target? = some q → (s.press.x, s.press.y) = q)
      (htallies : Replay.Tallies s.interval s.press.gathered (s.operations.take (index + 1)))

/-- The press has gathered the operations before an index, and `rest` is still to come. -/
structure Playing (s : Session) (index : Nat) (rest : List Operation) (phase : Phase := .running) :
    Prop where
  phase : s.phase = phase
  ahead : s.operations.drop index = rest
  shows : Replay.Shows s.interval s.press.gathered (s.operations.take index)

/-- A playback goes on where the press is. One that is over goes on nowhere. -/
def Follows (s : Session) : Playback → Prop
  | .created => s.Playing 0 s.operations
  | .approaching index op rest => s.Playing index (op :: rest)
  | .shown index _ rest => s.Playing (index + 1) rest
  | .resting index _ rest => s.Playing (index + 1) rest
  | .closing .. => False
  | .reported | .finished => True

/-- What a session keeps as long as only the newest playback goes on. -/
structure Kept (s : Session) : Prop where
  account : Accounted s
  newest : ∀ {id : Nat} {playback : Playback}, id + 1 = s.playbacks.length →
    s.playbacks[id]? = some playback → s.Follows playback
  current : ∀ {id : Nat}, s.current = some id → id + 1 = s.playbacks.length

variable {s t : Session} {id index : Nat} {op : Operation} {rest : List Operation} {phase : Phase}

namespace Playing

theorem getElem? (h : s.Playing index (op :: rest) phase) : s.operations[index]? = some op := by
  have hhead : (s.operations.drop index)[0]? = some op := by rw [h.ahead]; rfl
  rwa [List.getElem?_drop] at hhead

theorem take_succ (h : s.Playing index (op :: rest) phase) :
    s.operations.take (index + 1) = s.operations.take index ++ [op] :=
  Trail.take_succ h.getElem?

theorem setPlayback (h : s.Playing index rest) (id : Nat) (playback : Playback) :
    (s.setPlayback id playback).Playing index rest :=
  ⟨h.phase, h.ahead, h.shows⟩

end Playing

theorem gathered_stepped (s : Session) (now : Timestamp) (index : Nat) (op : Operation) (out : Bool) :
    (s.stepped now index op out).press.gathered = s.press.gathered.add s.interval op := by
  have hpress : (s.stepped now index op out).press.gathered =
      (s.pressAfter index op (.ofOperation s.turret now op)).gathered := rfl
  rw [hpress, pressAfter, Press.gathered_record, Press.gathered_carryOut]
  rfl

theorem Playing.stepped (h : s.Playing index (op :: rest) phase) (now : Timestamp) (out : Bool) :
    (s.stepped now index op out).Playing (index + 1) rest phase where
  phase := h.phase
  ahead := by
    have hrest : s.operations.drop (index + 1) = rest := by
      rw [← List.tail_drop, h.ahead, List.tail_cons]
    exact hrest
  shows := by
    have hshows : Replay.Shows s.interval (s.press.gathered.add s.interval op)
        (s.operations.take (index + 1)) := by
      rw [h.take_succ]
      exact h.shows.add op
    rw [gathered_stepped]
    exact hshows

theorem Playing.accounted_stepped (h : s.Playing index (op :: rest)) (now : Timestamp)
    (out : Bool) : Accounted (s.stepped now index op out) := by
  refine .after h.getElem? ?_ ?_ ?_ ?_ (h.stepped now out).shows.toTallies
  · cases op <;> rfl
  · cases op <;> rfl
  · cases op <;> rfl
  · intro q hq
    cases op with
    | move | hit => exact Option.some.inj hq
    | toolChange | finish => cases hq

/-- The operation that a playback attempts is the one that it has come to. -/
theorem Playing.attempted (h : s.Playing index (op :: rest)) (ht : Attempted s index t) :
    Accounted t ∧ t.Playing (index + 1) rest ∧ t.playbacks = s.playbacks ∧
      t.current = s.current := by
  cases ht with
  | missing hmissing => cases hmissing.symm.trans h.getElem?
  | made hmade =>
      obtain rfl := Option.some.inj (hmade.symm.trans h.getElem?)
      exact ⟨h.accounted_stepped _ _, h.stepped _ _, rfl, rfl⟩

namespace Accounted

/-- The account does not depend on the run itself. -/
theorem frame (h : Accounted s) {running outOfBounds : Bool} {log : List LogEntry} {phase : Phase}
    {report : Option Report} {stopRequested : Bool} {playbacks : List Playback} :
    Accounted { s with
      press := { s.press with running, outOfBounds, log }, phase, report, stopRequested
      playbacks } := by
  cases h with
  | untouched hstep hline hmode hgathered => exact .untouched hstep hline hmode hgathered
  | after hop hstep hline hmode htarget htallies =>
      exact .after hop hstep hline hmode htarget htallies

theorem setPlayback (h : Accounted s) (id : Nat) (playback : Playback) :
    Accounted (s.setPlayback id playback) :=
  h.frame

theorem haltIfRunning (h : Accounted s) : Accounted s.haltIfRunning.session := by
  unfold Session.haltIfRunning
  split
  · exact h.frame
  · exact h

theorem tallies (h : Accounted s) : Replay.Tallies s.interval s.press.gathered
    (s.operations.take (s.press.step + 1).toNat) := by
  cases h with
  | untouched hstep hline hmode hgathered =>
      rw [hstep, hgathered]
      exact (Replay.shows_nil s.interval).toTallies
  | @after index op hop hstep hline hmode htarget htallies =>
      have hdone : (s.press.step + 1).toNat = index + 1 := by rw [hstep]; omega
      rw [hdone]
      exact htallies

theorem soughtTo (hop : s.operations[index]? = some op) (out : Bool) :
    Accounted (s.soughtTo index op out) := by
  have hshows := Replay.shows_ofOperations s.interval (s.operations.take (index + 1))
  refine .after hop rfl rfl rfl ?_ ?_
  · intro q hq
    show op.target?.getD (0.0, 0.0) = q
    rw [hq, Option.getD_some]
  · exact ⟨hshows.tool, hshows.travel, hshows.hitTime, hshows.used, hshows.increasing, hshows.holes⟩

end Accounted

/-- Where no run is active, the newest playback is over. -/
theorem Follows.of_idle {playback : Playback} (h : s.Follows playback) (hidle : s.phase ≠ .running)
    (t : Session) : t.Follows playback := by
  cases playback with
  | created | approaching | shown | resting => exact absurd (Playing.phase h) hidle
  | closing => exact h.elim
  | reported | finished => trivial

theorem playbacks_abandoned (s : Session) (id : Nat) :
    (s.abandoned id).playbacks = s.playbacks.set id .finished := by
  unfold abandoned haltIfRunning
  split <;> rfl

theorem current_abandoned (s : Session) (id : Nat) : (s.abandoned id).current = s.current := by
  unfold abandoned haltIfRunning
  split <;> rfl

namespace Kept

/-- The newest playback is where it should be. -/
theorem set (h : Kept s) {playback : Playback} (hid : id + 1 = s.playbacks.length)
    (hplaybacks : t.playbacks = s.playbacks.set id playback) (hcurrent : t.current = s.current)
    (haccount : Accounted t) (hfollows : t.Follows playback) : Kept t where
  account := haccount
  newest := by
    intro other p hother hp
    rw [hplaybacks, List.length_set] at hother
    obtain rfl : other = id := by omega
    rw [hplaybacks, List.getElem?_set_self (by omega)] at hp
    obtain rfl := Option.some.inj hp
    exact hfollows
  current := by
    intro other hother
    rw [hplaybacks, List.length_set]
    exact h.current (hcurrent ▸ hother)

theorem abandoned (h : Kept s) (hid : id + 1 = s.playbacks.length)
    (hplaybacks : t.playbacks = s.playbacks) (hcurrent : t.current = s.current)
    (haccount : Accounted t) : Kept (t.abandoned id) := by
  refine h.set hid ?_ ?_ ?_ (show Follows _ .finished from trivial)
  · rw [playbacks_abandoned, hplaybacks]
  · rw [current_abandoned, hcurrent]
  · exact (haccount.setPlayback id .finished).haltIfRunning

/-- A session in which no run is active changes its press. -/
theorem idle (h : Kept s) (hidle : s.phase ≠ .running) (hplaybacks : t.playbacks = s.playbacks)
    (hcurrent : t.current = s.current) (haccount : Accounted t) : Kept t where
  account := haccount
  newest := by
    intro id playback hid hplayback
    rw [hplaybacks] at hid hplayback
    exact (h.newest hid hplayback).of_idle hidle t
  current := by
    intro id hid
    rw [hplaybacks]
    exact h.current (hcurrent ▸ hid)

theorem launched (s : Session) (time : Float) : Kept (s.launched time) where
  account := .untouched rfl rfl rfl rfl
  newest := by
    intro id playback hid hplayback
    have hlast : id = s.playbacks.length := by
      simpa [launched_eq, opened, begun] using hid
    have hcreated : playback = .created := by
      simpa [launched_eq, opened, begun, hlast, eq_comm] using hplayback
    rw [hcreated]
    exact ⟨rfl, rfl, Replay.shows_nil s.interval⟩
  current := by
    intro id hid
    obtain rfl := Option.some.inj hid
    simp [launched_eq, opened, begun]

theorem played (h : Kept s) (hid : id + 1 = s.playbacks.length)
    (hplaying : s.Playing index (op :: rest)) (ht : Played s id index op rest t) : Kept t := by
  cases ht with
  | failed hattempted =>
      obtain ⟨haccount, _, hplaybacks, hcurrent⟩ := hplaying.attempted hattempted
      exact h.abandoned hid hplaybacks hcurrent haccount
  | @finished u now time hattempted hop =>
      obtain ⟨haccount, _, hplaybacks, hcurrent⟩ := hplaying.attempted hattempted
      refine h.set hid ?_ hcurrent haccount.frame (show Follows _ .reported from trivial)
      rw [← hplaybacks]
      rfl
  | @shown u hattempted hmade hop =>
      obtain ⟨haccount, hnext, hplaybacks, hcurrent⟩ := hplaying.attempted hattempted
      have hfollows : (u.setPlayback id (.shown index op rest)).Follows (.shown index op rest) :=
        hnext.setPlayback id _
      refine h.set hid ?_ hcurrent (haccount.setPlayback id _) hfollows
      rw [← hplaybacks]
      rfl

theorem proceeded {ops : List Operation} (h : Kept s) (hid : id + 1 = s.playbacks.length)
    (hplaying : s.Playing index ops) (ht : Proceeded s id index ops t) : Kept t := by
  cases ht with
  | exhausted => exact h.set hid rfl rfl h.account.frame (show Follows _ .reported from trivial)
  | stopped => exact h.set hid rfl rfl h.account.frame (show Follows _ .finished from trivial)
  | approaching =>
      exact h.set hid rfl rfl (h.account.setPlayback id _) (hplaying.setPlayback id _)
  | played _ _ hplayed => exact h.played hid hplaying hplayed

theorem turned (h : Kept s) (hid : id + 1 = s.playbacks.length) (ht : Turned s id t) : Kept t := by
  cases ht with
  | kept => exact h
  | begun hcreated hproceeded => exact h.proceeded hid (h.newest hid hcreated) hproceeded
  | rested hshown =>
      have hplaying : s.Playing _ _ := h.newest hid hshown
      exact h.set hid rfl rfl (h.account.setPlayback id _) (hplaying.setPlayback id _)
  | resumed hresting hproceeded => exact h.proceeded hid (h.newest hid hresting) hproceeded
  | struck happroaching hplayed => exact h.played hid (h.newest hid happroaching) hplayed
  | ended => exact h.abandoned hid rfl rfl h.account

theorem finished (h : Kept s) (hid : id + 1 = s.playbacks.length) :
    Kept (s.setPlayback id .finished) :=
  h.set hid rfl rfl (h.account.setPlayback id .finished) (show Follows _ .finished from trivial)

theorem closed (h : Kept s) (hid : id + 1 = s.playbacks.length) (ht : Closed s id t) : Kept t := by
  cases ht with
  | kept => exact h
  | unused => exact h.finished hid
  | abandoned => exact h.abandoned hid rfl rfl h.account

theorem stopping (h : Kept s) : Kept s.stopping where
  account := h.account.frame
  newest := by
    intro id playback hid hplayback
    have hfollows := h.newest hid hplayback
    cases playback with
    | created | approaching | shown | resting =>
        exact ⟨hfollows.phase, hfollows.ahead, hfollows.shows⟩
    | closing => exact hfollows.elim
    | reported | finished => trivial
  current := h.current

/-- A stop that closes a playback ends its run. -/
theorem stopped (h : Kept s) (hid : id + 1 = s.playbacks.length) (hopen : s.isOpen id = true)
    (ht : Closed s id t) : Kept t.haltIfRunning.session := by
  rw [ht.haltIfRunning_of_isOpen hopen]
  exact h.abandoned hid rfl rfl h.account

end Kept

/-- An event in which a playback goes on, or is closed, only if it belongs to the newest run. -/
def UsesNewest (s : Session) : Event → Prop
  | .pull id _ _ | .resume id _ _ | .close id => id + 1 = s.playbacks.length
  | _ => True

theorem Kept.happened {e : Event} (h : Kept s) (ht : Happened s e t) (he : UsesNewest s e) :
    Kept t := by
  cases ht with
  | kept => exact h
  | loaded hidle => exact h.idle hidle rfl rfl (.untouched rfl rfl rfl rfl)
  | loadedProgram hidle => exact h.idle hidle rfl rfl (.untouched rfl rfl rfl rfl)
  | launched => exact .launched s _
  | pulled hturned => exact h.turned he hturned
  | resumed hturned => exact h.turned he hturned
  | closed hclosed => exact h.closed he hclosed
  | stopping => exact h.stopping
  | stopped _ hid hopen hclosed => exact h.stopping.stopped (h.current hid) hopen hclosed
  | cleared hidle => exact h.idle hidle rfl rfl (.untouched rfl rfl rfl rfl)
  | sought hidle hop => exact h.idle hidle rfl rfl (.soughtTo hop _)

theorem kept_of_reached (h : Reached UsesNewest s) : Kept s := by
  induction h with
  | fresh =>
      exact {
        account := .untouched rfl rfl rfl rfl
        newest := by simp
        current := by simp }
  | event e _ he ih => exact ih.happened (after_happened _ e) he

end TurretPunch.Session
