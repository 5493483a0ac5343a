import Mathlib.Data.List.Find
import Mathlib.Data.List.Sort
import TurretPunch.Proofs.Configuration.Entry
import TurretPunch.Proofs.Outcome
import TurretPunch.Turret

namespace TurretPunch

/-!
# Tables of tools

A table lists the tools by their numbers, and it is read in that order. As no two tools have one
number, each station keeps its tool, and the tools that are read are listed in the same order again.
-/

/-- The number of a tool, where that is whole. -/
def Tool.station (t : Tool) : Int :=
  match t.number with
  | .whole n => n
  | _ => 0

theorem Tool.IsRegular.number_eq {t : Tool} (h : t.IsRegular) : t.number = .whole t.station := by
  obtain ⟨n, hn, _⟩ := h.number
  simp only [Tool.station, hn]

theorem Tool.IsRegular.hasNumber_iff {t : Tool} (h : t.IsRegular) {station : Int} :
    t.hasNumber station = true ↔ t.station = station := by
  rw [Tool.hasNumber, h.number_eq]
  exact beq_iff_eq

namespace Turret

/-- A turret of regular tools, no two with one number. -/
structure IsRegular (turret : Turret) : Prop where
  tools : ∀ t ∈ turret.tools, t.IsRegular
  distinct : (turret.tools.map (·.number)).Nodup

variable {turret : Turret}

theorem goesBefore_eq {place : Tool → Int} {s t : Tool} (hs : s.number.mark? = some (.at (place s) 1))
    (ht : t.number.mark? = some (.at (place t) 1)) :
    goesBefore s t = decide (place s < place t) := by
  simp [goesBefore, Quantity.lt, hs, ht, Quantity.Mark.lt]

/-- Tools that all have whole numbers are listed by them. -/
theorem listTools_of_marks {place : Tool → Int}
    (h : ∀ t ∈ turret.tools, t.number.mark? = some (.at (place t) 1)) :
    turret.listTools = .ok (turret.tools.mergeSort fun s t => place s ≤ place t) := by
  have hmarks : (turret.tools.map (·.number)).all (·.mark?.isSome) = true := by
    rw [List.all_map, List.all_eq_true]
    intro t ht
    rw [Function.comp_apply, h t ht]
    rfl
  have hsort : turret.tools.mergeSort (fun s t => !goesBefore t s) =
      turret.tools.mergeSort fun s t => place s ≤ place t := by
    have hsame : ∀ s ∈ turret.tools, ∀ t ∈ turret.tools,
        (!goesBefore t s) = decide (place s ≤ place t) := by
      intro s hs t ht
      rw [goesBefore_eq (h t ht) (h s hs), ← decide_not]
      exact decide_eq_decide.mpr Int.not_lt
    have hmap : (turret.tools.mergeSort fun s t => !goesBefore t s).map id =
        (turret.tools.map id).mergeSort fun s t => place s ≤ place t := List.map_mergeSort hsame
    rwa [List.map_id, List.map_id] at hmap
  rw [listTools, hmarks, Bool.true_or, if_pos rfl, hsort]

/-- Tools by their numbers. -/
def sorted (tools : List Tool) : List Tool := tools.mergeSort fun s t => s.station ≤ t.station

theorem sorted_perm (tools : List Tool) : (sorted tools).Perm tools := List.mergeSort_perm _ _

theorem sorted_sorted (tools : List Tool) : sorted (sorted tools) = sorted tools := by
  apply List.mergeSort_of_pairwise
  apply List.pairwise_mergeSort
  · intro s t u hst htu
    simp only [decide_eq_true_eq] at hst htu ⊢
    omega
  · intro s t
    simp only [Bool.or_eq_true, decide_eq_true_eq]
    omega

theorem listTools_of_regular (h : turret.IsRegular) : turret.listTools = .ok (sorted turret.tools) := by
  apply listTools_of_marks
  intro t ht
  rw [(h.tools t ht).number_eq]
  rfl

theorem add_of_regular {done : List Tool} {t : Tool} (hdone : ∀ s ∈ done, s.IsRegular)
    (ht : t.IsRegular) (hnew : t.number ∉ done.map (·.number)) :
    add ⟨done⟩ t = .ok ⟨done ++ [t]⟩ := by
  have hkey : t.number.isKey = true := by
    rw [ht.number_eq]
    rfl
  have hany : done.any (·.number.sameKey t.number) = false := by
    rw [List.any_eq_false]
    intro s hs hsame
    rw [(hdone s hs).number_eq, ht.number_eq] at hsame
    have hstation : s.station = t.station := beq_iff_eq.mp hsame
    apply hnew
    rw [ht.number_eq, ← hstation, ← (hdone s hs).number_eq]
    exact List.mem_map_of_mem hs
  simp [add, hkey, hany]

theorem IsRegular.of_append {done rest : List Tool} {t : Tool} (h : IsRegular ⟨done ++ t :: rest⟩) :
    (∀ s ∈ done, s.IsRegular) ∧ t.IsRegular ∧ t.number ∉ done.map (·.number) := by
  have hnodup := h.distinct
  rw [List.map_append, List.map_cons, List.nodup_middle, List.nodup_cons] at hnodup
  refine ⟨fun s hs => h.tools s (List.mem_append_left _ hs), h.tools t (by simp), ?_⟩
  intro hmem
  exact hnodup.1 (List.mem_append_left _ hmem)

theorem foldlM_of_regular (done rest : List Tool) (h : IsRegular ⟨done ++ rest⟩) :
    (rest.map (·.toJson)).foldlM (fun turret entry => do turret.add (← Tool.ofJson entry))
      (⟨done⟩ : Turret) = .ok ⟨done ++ rest⟩ := by
  induction rest generalizing done with
  | nil =>
      rw [List.append_nil]
      rfl
  | cons t rest ih =>
      obtain ⟨hdone, ht, hnew⟩ := h.of_append
      have hcons : done ++ t :: rest = (done ++ [t]) ++ rest := by simp
      rw [hcons] at h ⊢
      rw [List.map_cons, List.foldlM_cons, ht.ofJson_toJson, ← ih _ h]
      exact bind_of_ok _ (add_of_regular hdone ht hnew)

theorem ofEntries_of_regular (h : turret.IsRegular) :
    ofEntries (turret.tools.map (·.toJson)) = .ok turret := foldlM_of_regular [] turret.tools h

theorem IsRegular.sorted (h : turret.IsRegular) : IsRegular ⟨sorted turret.tools⟩ := by
  have hperm := sorted_perm turret.tools
  exact ⟨fun t ht => h.tools t (hperm.mem_iff.mp ht), (hperm.map _).nodup_iff.mpr h.distinct⟩

theorem get?_sorted (h : turret.IsRegular) (station : Int) :
    get? ⟨sorted turret.tools⟩ station = turret.get? station := by
  symm
  apply List.find?_eq_find?_of_perm (sorted_perm turret.tools).symm
  rintro s ⟨hs, hhas⟩ t ⟨ht, hhas'⟩
  apply List.inj_on_of_nodup_map h.distinct hs ht
  rw [(h.tools s hs).number_eq, (h.tools t ht).number_eq, (h.tools s hs).hasNumber_iff.mp hhas,
    (h.tools t ht).hasNumber_iff.mp hhas']

end Turret

end TurretPunch
