import TurretPunch.Proofs.Storage.Written

namespace TurretPunch.Storage

/-!
# What saving touches

The folders on the way to a file are made where there is nothing, and then the file is put in its place.
At every other place there is what was there before. Where that fails, no file was touched.
-/

variable {s grown after saved : Storage} {start names place other : List Text.Points}
  {name : Text.Points} {path target : Path} {text : Text.Points} {content : List UInt8} {fault : Fault}

/-- The places to which the names on a way lead, one after another. -/
def IsOnWay (start names place : List Text.Points) : Prop :=
  ∃ first, first <+: names ∧ first.foldl leadFrom start = place

theorem isOnWay_cons_self (start : List Text.Points) (name : Text.Points) (names : List Text.Points) :
    IsOnWay start (name :: names) (leadFrom start name) :=
  ⟨[name], List.cons_prefix_cons.mpr ⟨rfl, List.nil_prefix⟩, rfl⟩

theorem IsOnWay.cons (h : IsOnWay (leadFrom start name) names place) :
    IsOnWay start (name :: names) place := by
  obtain ⟨first, hfirst, rfl⟩ := h
  exact ⟨name :: first, List.cons_prefix_cons.mpr ⟨rfl, hfirst⟩, rfl⟩

/-- At a place there is what was there before, or a folder on a way if there was nothing. -/
def IsKeptAt (s after : Storage) (start names place : List Text.Points) : Prop :=
  after.get? place = s.get? place ∨
    s.get? place = none ∧ after.get? place = some .folder ∧ IsOnWay start names place

theorem isKeptAt_self (s : Storage) (start names place : List Text.Points) :
    IsKeptAt s s start names place := .inl rfl

theorem IsKeptAt.cons (h : IsKeptAt s after (leadFrom start name) names place) :
    IsKeptAt s after start (name :: names) place :=
  h.imp_right fun ⟨hnone, hfolder, hway⟩ => ⟨hnone, hfolder, hway.cons⟩

theorem IsKeptAt.file_iff (h : IsKeptAt s after start names place) :
    after.get? place = some (.file content) ↔ s.get? place = some (.file content) := by
  obtain hsame | ⟨hnone, hfolder, -⟩ := h
  · rw [hsame]
  · simp [hnone, hfolder]

theorem get?_add (h : s.get? place = none) (entry : Entry) (other : List Text.Points) :
    (s.add place entry).get? other = if other = place then some entry else s.get? other := by
  unfold get? at h
  split at h
  · cases h
  · next hbelow =>
    by_cases heq : other = place
    · simp [get?, kept?_add, heq, hbelow, h]
    · simp [get?, kept?_add, heq]

/-- A folder that is made where there was nothing stays as one of those on the way. -/
theorem IsKeptAt.of_add (hnone : s.get? (leadFrom start name) = none)
    (h : IsKeptAt (s.add (leadFrom start name) .folder) after (leadFrom start name) names place) :
    IsKeptAt s after start (name :: names) place := by
  by_cases heq : place = leadFrom start name
  · subst heq
    have hmade := get?_add hnone .folder (leadFrom start name)
    rw [if_pos rfl] at hmade
    obtain hsame | ⟨hnone', -, -⟩ := h
    · exact .inr ⟨hnone, hsame.trans hmade, isOnWay_cons_self start name names⟩
    · rw [hmade] at hnone'
      cases hnone'
  · have hsame := get?_add hnone .folder place
    rw [if_neg heq] at hsame
    rw [IsKeptAt, hsame] at h
    exact IsKeptAt.cons h

/-- Whether all folders on a way are made or only some, nothing else changes. -/
theorem isKeptAt_makeFoldersFrom (s : Storage) (made : Bool) (start names place : List Text.Points) :
    IsKeptAt s (s.makeFoldersFrom made start names).1 start names place := by
  induction names generalizing s made start with
  | nil => exact isKeptAt_self s _ _ _
  | cons name names ih =>
      unfold makeFoldersFrom
      split
      · exact isKeptAt_self s _ _ _
      · dsimp only
        split
        · exact (ih s made _).cons
        · exact isKeptAt_self s _ _ _
        · next hnone =>
          split
          · exact isKeptAt_self s _ _ _
          · exact .of_add hnone (ih _ true _)

theorem isKeptAt_ensureFolders (s : Storage) (path : Path) (place : List Text.Points) :
    IsKeptAt s (s.ensureFolders path).1 [] path.names place := by
  unfold ensureFolders
  split
  · exact isKeptAt_self s _ _ _
  · exact isKeptAt_makeFoldersFrom s false [] path.names place

theorem folder_of_foldlM_enter (h : names.foldlM s.enter start = .ok place)
    (hplace : s.get? place = some .folder) : s.get? start = some .folder := by
  cases names with
  | nil =>
      obtain rfl := Except.ok.inj h
      exact hplace
  | cons name names =>
      obtain ⟨next, hnext, -⟩ := ok_of_bind h
      unfold enter at hnext
      split at hnext
      · next hfolder => exact hfolder
      · cases hnext
      · cases hnext

/-- On a way that leads to a folder no folder is made. -/
theorem makeFoldersFrom_of_folder (h : names.foldlM s.enter start = .ok place)
    (hplace : s.get? place = some .folder) (made : Bool) :
    s.makeFoldersFrom made start names = (s, .ok ()) := by
  induction names generalizing start with
  | nil => rfl
  | cons name names ih =>
      have hstart := folder_of_foldlM_enter h hplace
      obtain ⟨next, hnext, hrest⟩ := ok_of_bind h
      have hfolder := folder_of_foldlM_enter hrest hplace
      unfold enter at hnext
      simp only [hstart] at hnext
      split at hnext
      · cases hnext
      · next hshort =>
        obtain rfl := Except.ok.inj hnext
        simp only [makeFoldersFrom, if_neg hshort, hfolder]
        exact ih hrest

theorem exists_place_of_isFolder (h : s.isFolder path = .ok true) :
    ∃ place, s.resolve path = .ok place ∧ s.get? place = some .folder := by
  unfold isFolder find? at h
  split at h
  · next place hresolve =>
    have hplace := Except.ok.inj h
    exact ⟨place, hresolve, by simpa using hplace⟩
  · cases h
  · cases Except.ok.inj h

theorem ensureFolders_of_isFolder (h : s.isFolder path = .ok true) :
    s.ensureFolders path = (s, .ok ()) := by
  obtain ⟨place, hresolve, hplace⟩ := exists_place_of_isFolder h
  unfold resolve at hresolve
  split at hresolve
  · cases hresolve
  · next hproblem =>
    simp only [ensureFolders, hproblem]
    exact makeFoldersFrom_of_folder hresolve hplace false

theorem eq_ofString {text : Text.Points} {t : String} (h : text.string? = some t) :
    text = .ofString t := by
  obtain ⟨ps⟩ := text
  obtain ⟨cs, hcs, rfl⟩ := Option.map_eq_some_iff.mp h
  rw [Text.Points.ofString, String.toList_ofList]
  congr 1
  replace hcs : ps.mapM Text.Point.char? = some cs := hcs
  clear h
  induction ps generalizing cs with
  | nil =>
      obtain rfl := Option.some.inj hcs
      rfl
  | cons p ps ih =>
      cases p with
      | half surrogate => cases hcs
      | char c =>
          rw [List.mapM_cons] at hcs
          cases hrest : ps.mapM Text.Point.char? with
          | none =>
              rw [hrest] at hcs
              cases hcs
          | some rest =>
              rw [hrest] at hcs
              obtain rfl := Option.some.inj hcs
              rw [List.map_cons, ← ih rest hrest]

theorem exists_of_encoded (h : encoded text = .ok content) :
    ∃ t : String, text = .ofString t ∧ content = Text.encodeUtf8 t := by
  unfold encoded at h
  split at h
  · next t ht => exact ⟨t, eq_ofString ht, (Except.ok.inj h).symm⟩
  · cases h

/-- The file that a path stands for: one with the usual name in a folder, or itself. -/
def IsTarget (s : Storage) (path target : Path) : Prop :=
  s.isFolder path = .ok true ∧ target = path.child programName ∨
    s.isFolder path = .ok false ∧ target = path

/-- The folders on the way to the file that is asked for are made, and then it is written. -/
theorem of_attemptSave_ok (h : s.attemptSave text path = (saved, .ok target)) :
    s.IsTarget path target ∧ ∃ grown content, s.ensureFolders target.parent = (grown, .ok ()) ∧
      encoded text = .ok content ∧ grown.write target content = .ok saved := by
  unfold attemptSave at h
  split at h
  · cases (Prod.mk.inj h).2
  · next isFolder hfolder =>
    dsimp only at h
    split at h
    · cases (Prod.mk.inj h).2
    · next grown hgrown =>
      split at h
      · cases (Prod.mk.inj h).2
      · next written hwritten =>
        obtain ⟨rfl, htarget⟩ := Prod.mk.inj h
        obtain rfl := Except.ok.inj htarget
        obtain ⟨content, hcontent, hwrite⟩ := ok_of_bind hwritten
        refine ⟨?_, grown, content, hgrown, hcontent, hwrite⟩
        cases isFolder with
        | true => exact .inl ⟨hfolder, rfl⟩
        | false => exact .inr ⟨hfolder, rfl⟩

/-- In a folder that is there, where no other folder stands in the way, a text is saved at once. -/
theorem attemptSave_of_isFolder {t : String} (htarget : s.IsTarget path target)
    (hparent : s.isFolder target.parent = .ok true) (hresolve : s.resolve target = .ok place)
    (hplace : s.get? place ≠ some .folder) :
    s.attemptSave (.ofString t) path = (s.set place (.file (Text.encodeUtf8 t)), .ok target) := by
  have hencoded : encoded (.ofString t) = .ok (Text.encodeUtf8 t) := by simp [encoded]
  have hwrite : s.write target (Text.encodeUtf8 t) = .ok (s.set place (.file (Text.encodeUtf8 t))) := by
    rw [write, bind_of_ok _ hresolve]
    split
    · next hfolder => exact absurd hfolder hplace
    · rfl
  unfold attemptSave
  obtain ⟨hfolder, rfl⟩ | ⟨hfolder, rfl⟩ := htarget
  all_goals
    simp only [hfolder, if_true, Bool.false_eq_true, if_false, ensureFolders_of_isFolder hparent,
      bind_of_ok _ hencoded, hwrite]

/-- Where saving fails, folders may have been made and that is all. -/
theorem of_attemptSave_error (h : s.attemptSave text path = (after, .error fault)) :
    after = s ∨ ∃ folder, after = (s.ensureFolders folder).1 := by
  unfold attemptSave at h
  split at h
  · exact .inl (Prod.mk.inj h).1.symm
  · dsimp only at h
    split at h
    · next grown _ hgrown =>
      exact .inr ⟨_, (Prod.mk.inj h).1.symm.trans (congrArg Prod.fst hgrown).symm⟩
    · next grown hgrown =>
      split at h
      · exact .inr ⟨_, (Prod.mk.inj h).1.symm.trans (congrArg Prod.fst hgrown).symm⟩
      · cases (Prod.mk.inj h).2

/-- Where saving fails, the files are those that were there before. -/
theorem file_iff_of_attemptSave_error (h : s.attemptSave text path = (after, .error fault))
    (place : List Text.Points) (content : List UInt8) :
    after.get? place = some (.file content) ↔ s.get? place = some (.file content) := by
  obtain rfl | ⟨folder, rfl⟩ := of_attemptSave_error h
  · rfl
  · exact (isKeptAt_ensureFolders s folder place).file_iff

theorem attemptSave_of_saveProgram (h : s.saveProgram text path = .ok (saved, target)) :
    s.attemptSave text path = (saved, .ok target) := by
  unfold saveProgram completed at h
  split at h
  · next heq =>
    obtain ⟨rfl, rfl⟩ := Prod.mk.inj (Except.ok.inj h)
    exact heq
  · cases h

/-- A program that was saved is a text without halves of surrogate pairs, and in the file. -/
theorem holds_saveProgram (h : s.saveProgram text path = .ok (saved, target)) :
    ∃ t : String, text = .ofString t ∧ saved.Holds target (Text.encodeUtf8 t) := by
  obtain ⟨-, grown, content, -, hcontent, hwrite⟩ :=
    of_attemptSave_ok (attemptSave_of_saveProgram h)
  obtain ⟨t, rfl, rfl⟩ := exists_of_encoded hcontent
  exact ⟨t, rfl, holds_write hwrite⟩

/-- What is saved is in one file, and at every other place there is what was there before. Folders are
new where there was nothing on the way to the file. -/
theorem exists_place_of_attemptSave (h : s.attemptSave text path = (saved, .ok target)) :
    ∃ t place, text = .ofString t ∧ saved.resolve target = .ok place ∧
      saved.get? place = some (.file (Text.encodeUtf8 t)) ∧ s.get? place ≠ some .folder ∧
      ∀ other, other ≠ place → IsKeptAt s saved [] target.parent.names other := by
  obtain ⟨-, grown, content, hgrown, hcontent, hwrite⟩ := of_attemptSave_ok h
  obtain ⟨t, rfl, rfl⟩ := exists_of_encoded hcontent
  obtain ⟨place, hresolve, hfolder, rfl⟩ := exists_of_write hwrite
  have hkept := isKeptAt_ensureFolders s target.parent
  rw [hgrown] at hkept
  refine ⟨t, place, rfl, resolve_set hfolder hresolve, get?_set_self (isAbove_of_not_folder hfolder),
    ?_, fun other hother => ?_⟩
  · obtain hsame | ⟨hnone, -, -⟩ := hkept place
    · rwa [← hsame]
    · simp [hnone]
  · rw [IsKeptAt, get?_set_of_ne hother]
    exact hkept other

end TurretPunch.Storage
