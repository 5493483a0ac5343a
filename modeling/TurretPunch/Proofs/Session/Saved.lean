import TurretPunch.Proofs.Session.Origin
import TurretPunch.Proofs.Storage.Saving

namespace TurretPunch

/-!
# The text that a session saves

A session saves the text that it took in last. Loads that are refused during a run or fail change nothing
of that, and a program that comes without a text leaves an empty one.
-/

namespace Session

variable (s : Session) (a : Act)

/-- The text that an act takes in: that of a load which answers with a program. -/
def takenText? : Act → Option Text.Points
  | .load text =>
    match (s.load text).result with
    | .ok (some _) => some text
    | _ => none
  | .loadProgram program => (s.loadProgram program).result.map fun _ => ""
  | _ => none

/-- The text that acts take in last. -/
def lastText? : Session → List Act → Option Text.Points
  | _, [] => none
  | s, a :: acts => (lastText? (s.act a) acts).or (s.takenText? a)

theorem text_load (text : Text.Points) :
    (s.load text).session.text = (s.takenText? (.load text)).getD s.text := by
  by_cases hrunning : s.isRunning = true
  · simp [takenText?, load, hrunning]
  · cases hread : Program.ofText s.tooling text with
    | error fault => simp [takenText?, load, hrunning, hread]
    | ok program => simp [takenText?, load, hrunning, hread, accept]

theorem text_loadProgram (program : Program) :
    (s.loadProgram program).session.text = (s.takenText? (.loadProgram program)).getD s.text := by
  unfold takenText? loadProgram
  split <;> rfl

theorem text_act : (s.act a).text = (s.takenText? a).getD s.text := by
  cases a with
  | load text => exact s.text_load text
  | loadProgram program => exact s.text_loadProgram program
  | start => exact congrArg Holding.text s.holding_start
  | started => rfl
  | pull now id => exact congrArg Holding.text (s.holding_pull now id)
  | resume now id => exact congrArg Holding.text (s.holding_resume now id)
  | closeAt now id time => exact congrArg Holding.text (s.holding_closeAt now id time)
  | interrupt id => exact congrArg Holding.text (s.holding_finishPlayback id (.failed .interrupted))
  | close id => exact congrArg Holding.text (s.holding_closePlayback id)
  | stop => exact congrArg Holding.text s.holding_stop
  | reset =>
      rw [act, reset]
      split <;> rfl
  | seek step => exact congrArg Holding.text (s.holding_seek step)

theorem text_acts (acts : List Act) :
    (acts.foldl act s).text = (s.lastText? acts).getD s.text := by
  induction acts generalizing s with
  | nil => rfl
  | cons a acts ih =>
      rw [List.foldl_cons, ih, lastText?, text_act]
      cases (s.act a).lastText? acts <;> rfl

/-- Saving a text touches one file, where the path leads or, if that is a folder, at the usual name in it;
nothing else is new but folders on the way. If saving fails, the files are as before, and for a file in
a folder that is there already it does not fail. What a session saves in this way is the text that it
took in last, or the empty text if there is none. -/
theorem save_touches_one_file (storage : Storage) (text : Text.Points) (path : Path) :
    (∀ saved target, storage.attemptSave text path = (saved, .ok target) →
      storage.IsTarget path target ∧
      ∃ t place, text = .ofString t ∧ saved.resolve target = .ok place ∧
        saved.get? place = some (.file (Text.encodeUtf8 t)) ∧
        storage.get? place ≠ some .folder ∧
        ∀ other, other ≠ place → storage.IsKeptAt saved [] target.parent.names other) ∧
    (∀ after fault, storage.attemptSave text path = (after, .error fault) → ∀ place content,
      after.get? place = some (.file content) ↔ storage.get? place = some (.file content)) ∧
    (∀ t target place, text = .ofString t → storage.IsTarget path target →
      storage.isFolder target.parent = .ok true → storage.resolve target = .ok place →
        storage.get? place ≠ some .folder →
          storage.attemptSave text path = (storage.set place (.file (Text.encodeUtf8 t)), .ok target)) ∧
    ∀ turret sheet interval fallback logRoom acts,
      let fresh : Session := { turret, sheet, interval, fallback, logRoom }
      (acts.foldl act fresh).attemptSave storage path =
        storage.attemptSave ((fresh.lastText? acts).getD "") path := by
  refine ⟨fun saved target h => ⟨(Storage.of_attemptSave_ok h).1, ?_⟩, fun after fault h => ?_, ?_, ?_⟩
  · exact Storage.exists_place_of_attemptSave h
  · exact Storage.file_iff_of_attemptSave_error h
  · rintro t target place rfl htarget hparent hresolve hplace
    exact Storage.attemptSave_of_isFolder htarget hparent hresolve hplace
  · intro turret sheet interval fallback logRoom acts fresh
    exact congrArg (storage.attemptSave · path) (fresh.text_acts acts)

theorem save_touches_one_file_refused_load :
    let storage : Storage := ⟨[(["b.nc"], .file [1]), (["d"], .folder)]⟩
    let place : List Text.Points := ["d", "punch_program.nc"]
    let fresh : Session :=
      { turret := ⟨[]⟩, sheet := ⟨9, 9⟩, interval := 0, fallback := .whole 8, logRoom := 1 }
    let s := [.load "M30", .start, .load "T1"].foldl act fresh
    (∃ saved, s.attemptSave storage ⟨["d"]⟩ = (saved, .ok ⟨place⟩) ∧
      saved.get? place = some (.file (Text.encodeUtf8 "M30")) ∧
      ∀ other, other ≠ place → storage.IsKeptAt saved [] ["d"] other) ∧
    ∃ after, s.attemptSave storage ⟨["m", "..", "b.nc", "x.nc"]⟩ = (after, .error .fileInTheWay) ∧
      after.get? ["m"] = some .folder ∧
      ∀ place content, after.get? place = some (.file content) ↔
        storage.get? place = some (.file content) := by
  intro storage place fresh s
  have hsame (path : Path) : s.attemptSave storage path = storage.attemptSave "M30" path := by
    have hlast : fresh.lastText? [.load "M30", .start, .load "T1"] =
        some (Text.Points.ofString "M30") := by with_unfolding_all rfl
    have htext := (save_touches_one_file storage "M30" path).2.2.2 ⟨[]⟩ ⟨9, 9⟩ 0 (.whole 8) 1
      [.load "M30", .start, .load "T1"]
    exact htext.trans (congrArg (fun text => storage.attemptSave (text.getD "") path) hlast)
  simp only [hsame]
  have hsaved : storage.attemptSave "M30" ⟨["d"]⟩ =
      (storage.add place (.file (Text.encodeUtf8 "M30")), .ok ⟨place⟩) := by with_unfolding_all rfl
  have hfailed : storage.attemptSave "M30" ⟨["m", "..", "b.nc", "x.nc"]⟩ =
      (storage.add ["m"] .folder, .error .fileInTheWay) := by with_unfolding_all rfl
  have hresolve : (storage.add place (.file (Text.encodeUtf8 "M30"))).resolve ⟨place⟩ = .ok place := by
    with_unfolding_all rfl
  obtain ⟨-, t, _, -, hplace, -, -, hkept⟩ := (save_touches_one_file storage _ _).1 _ _ hsaved
  obtain rfl := Except.ok.inj (hplace.symm.trans hresolve)
  exact ⟨⟨_, hsaved, by with_unfolding_all rfl, hkept⟩,
    _, hfailed, by with_unfolding_all rfl, (save_touches_one_file storage _ _).2.1 _ _ hfailed⟩

end Session

end TurretPunch
