import TurretPunch.Proofs.Check.Warning
import TurretPunch.Proofs.Decimal.Order

namespace TurretPunch

/-!
# The sheet that a check asks for

A check asks for the smallest sheet that holds all hits: on each side the farthest hit tells the size.
A side along which all hits lie at the origin would have no size; there the sheet gets a standard one.
-/

namespace Sheet

/-- All hits of operations lie on a sheet. -/
def Holds (sheet : Sheet) (ops : List Operation) : Prop :=
  ∀ hole ∈ Trail.holes ops, Footprint.onSheet sheet.width sheet.height (hole.x, hole.y) = true

theorem holds_iff {sheet : Sheet} {ops : List Operation} :
    sheet.Holds ops ↔
      ∀ hole ∈ Trail.holes ops, (0 ≤ hole.x ∧ hole.x ≤ sheet.width) ∧
        0 ≤ hole.y ∧ hole.y ≤ sheet.height := by
  simp only [Holds, Footprint.onSheet_iff, and_assoc]

/-- One of some numbers, which no other of them exceeds. -/
structure IsFarthest (m : Float) (sizes : List Float) : Prop where
  mem : m ∈ sizes
  le : ∀ size ∈ sizes, size ≤ m

theorem larger_cases {x y : Float} (hx : x.isNaN = false) (hy : y.isNaN = false) :
    larger x y = x ∧ y ≤ x ∨ larger x y = y ∧ x ≤ y := by
  rw [larger, hx, if_neg Bool.false_ne_true]
  by_cases h : y ≤ x
  · exact Or.inl ⟨if_pos h, h⟩
  · exact Or.inr ⟨if_neg h, Decimal.le_of_lt ((Decimal.not_le hy hx).mp h)⟩

theorem isFarthest_foldl {x : Float} {xs : List Float} (h : ∀ y ∈ x :: xs, y.isNaN = false) :
    IsFarthest (xs.foldl larger x) (x :: xs) := by
  induction xs generalizing x with
  | nil =>
      refine ⟨List.mem_cons_self, fun y hy => ?_⟩
      obtain rfl := List.mem_singleton.mp hy
      exact Decimal.le_refl (h y hy)
  | cons y ys ih =>
      have hx : x.isNaN = false := h x List.mem_cons_self
      have hy : y.isNaN = false := h y (List.mem_cons_of_mem _ List.mem_cons_self)
      have hys : ∀ z ∈ ys, z.isNaN = false := fun z hz => h z (by simp [hz])
      rw [List.foldl_cons]
      rcases larger_cases hx hy with ⟨hlarger, hle⟩ | ⟨hlarger, hle⟩
      · rw [hlarger]
        obtain ⟨hmem, hmax⟩ := ih (List.forall_mem_cons.mpr ⟨hx, hys⟩)
        refine ⟨?_, fun z hz => ?_⟩
        · rcases List.mem_cons.mp hmem with hfirst | hrest
          · rw [hfirst]
            exact List.mem_cons_self
          · exact List.mem_cons_of_mem _ (List.mem_cons_of_mem _ hrest)
        · rcases List.mem_cons.mp hz with rfl | hz
          · exact hmax z List.mem_cons_self
          · rcases List.mem_cons.mp hz with rfl | hz
            · exact Decimal.le_trans hle (hmax x List.mem_cons_self)
            · exact hmax z (List.mem_cons_of_mem _ hz)
      · rw [hlarger]
        obtain ⟨hmem, hmax⟩ := ih (List.forall_mem_cons.mpr ⟨hy, hys⟩)
        refine ⟨List.mem_cons_of_mem _ hmem, fun z hz => ?_⟩
        rcases List.mem_cons.mp hz with rfl | hz
        · exact Decimal.le_trans hle (hmax y List.mem_cons_self)
        · exact hmax z hz

/-- A side is just long enough for some sizes, or a standard one if none of them needs any length. -/
structure IsSideFor (standard side : Float) (sizes : List Float) : Prop where
  reaches : ∀ size ∈ sizes, size ≤ side
  needed : (∃ size ∈ sizes, 0 < size) → side ∈ sizes
  standard : (∀ size ∈ sizes, ¬ 0 < size) → side = standard

theorem isSideFor_farthest {standard m : Float} {sizes : List Float} (hstandard : 0 < standard)
    (h : IsFarthest m sizes) (hsizes : ∀ size ∈ sizes, 0 ≤ size) :
    IsSideFor standard (if m + 0.0 ≤ 0.0 then standard else m + 0.0) sizes := by
  by_cases hm : 0 < m
  · have hnone : ¬ m ≤ 0.0 :=
      (Decimal.not_le (Decimal.isNaN_of_lt hm).2 (by decide)).mpr hm
    rw [Decimal.add_zero_of_lt hm, if_neg hnone]
    exact ⟨h.le, fun _ => h.mem, fun hzero => absurd hm (hzero m h.mem)⟩
  · rw [if_pos (Decimal.add_zero_le (hsizes m h.mem) hm)]
    have hzero (size : Float) (hsize : size ∈ sizes) : ¬ 0 < size :=
      fun hpos => hm (Decimal.lt_of_lt_of_le hpos (h.le size hsize))
    refine ⟨fun size hsize => ?_, fun ⟨size, hsize, hpos⟩ => absurd hpos (hzero size hsize),
      fun _ => rfl⟩
    have hnumber := (Decimal.isNaN_of_le (hsizes size hsize)).2
    have hle : size ≤ 0 := by
      by_contra habove
      exact hzero size hsize ((Decimal.not_le hnumber (by decide)).mp habove)
    exact Decimal.le_trans hle (Decimal.le_of_lt hstandard)

/-- The sheet around points that lie neither left of the origin nor below it has two such sides. -/
theorem isSideFor_around {points : List (Float × Float)} (hpoints : points ≠ [])
    (hfirst : ∀ x ∈ points.map (·.1), 0 ≤ x) (hsecond : ∀ y ∈ points.map (·.2), 0 ≤ y) :
    IsSideFor standardWidth (around 0.0 points).width (points.map (·.1)) ∧
      IsSideFor standardHeight (around 0.0 points).height (points.map (·.2)) := by
  cases points with
  | nil => exact absurd rfl hpoints
  | cons p points =>
      constructor
      · refine isSideFor_farthest (by decide) (isFarthest_foldl ?_) hfirst
        exact fun x hx => (Decimal.isNaN_of_le (hfirst x hx)).2
      · refine isSideFor_farthest (by decide) (isFarthest_foldl ?_) hsecond
        exact fun y hy => (Decimal.isNaN_of_le (hsecond y hy)).2

end Sheet

theorem hitPositions_eq (ops : List Operation) :
    hitPositions ops = (Trail.holes ops).map fun hole => (hole.x, hole.y) := by
  rw [hitPositions, Trail.holes, List.map_filterMap]
  congr 1
  funext op
  cases op <;> rfl

/-- The sides of the sheet around hits. -/
theorem isSideFor_hits {ops : List Operation} (hsome : Trail.holes ops ≠ [])
    (hnonneg : ∀ hole ∈ Trail.holes ops, 0 ≤ hole.x ∧ 0 ≤ hole.y) :
    Sheet.IsSideFor Sheet.standardWidth (Sheet.around 0.0 (hitPositions ops)).width
        ((Trail.holes ops).map (·.x)) ∧
      Sheet.IsSideFor Sheet.standardHeight (Sheet.around 0.0 (hitPositions ops)).height
        ((Trail.holes ops).map (·.y)) := by
  have hxs : (hitPositions ops).map (·.1) = (Trail.holes ops).map (·.x) := by
    rw [hitPositions_eq, List.map_map]
    rfl
  have hys : (hitPositions ops).map (·.2) = (Trail.holes ops).map (·.y) := by
    rw [hitPositions_eq, List.map_map]
    rfl
  rw [← hxs, ← hys]
  apply Sheet.isSideFor_around
  · rw [hitPositions_eq]
    exact fun h => hsome (List.map_eq_nil_iff.mp h)
  · rw [hxs]
    exact List.forall_mem_map.mpr fun hole hhole => (hnonneg hole hhole).1
  · rw [hys]
    exact List.forall_mem_map.mpr fun hole hhole => (hnonneg hole hhole).2

namespace Setup

variable {setup : Setup} {ops : List Operation} {tool : Int}

/-- What is found about an operation is not that there are no hits. -/
theorem noHits_notMem_of_checksOf {op : Operation} {found : List Finding}
    (h : .ok found ∈ setup.checksOf tool op) : Finding.noHits ∉ found := by
  have hposition {x y : Float} (h : .ok found = setup.checkPosition tool op x y) :
      Finding.noHits ∉ found := by
    obtain ⟨out, _, h⟩ := ok_of_bind h.symm
    obtain rfl := Except.ok.inj h
    cases out <;> simp
  have hsize {size : Quantity} (h : .ok found = setup.checkSize tool op size) :
      Finding.noHits ∉ found := by
    obtain ⟨bad, _, h⟩ := ok_of_bind h.symm
    split at h
    · obtain ⟨size, _, h⟩ := ok_of_bind h
      obtain rfl := Except.ok.inj h
      simp
    · obtain rfl := Except.ok.inj h
      exact List.not_mem_nil
  cases op with
  | toolChange | finish => cases h
  | move => exact hposition (List.mem_singleton.mp h)
  | hit =>
      rcases List.mem_cons.mp h with h | h
      · exact hposition h
      · exact hsize (List.mem_singleton.mp h)

/-- A check finds that there are no hits, and asks for no sheet, exactly if there are none. -/
theorem check_cases {check : Check} (h : setup.check ops = .ok check) :
    Trail.holes ops = [] ∧ check.requiredSheet = none ∧ Finding.noHits ∈ check.findings ∨
      Trail.holes ops ≠ [] ∧
        check.requiredSheet = some (Sheet.around 0.0 (hitPositions ops)) ∧
        Finding.noHits ∉ check.findings := by
  obtain ⟨findings, hcollected, h⟩ := ok_of_bind h
  obtain ⟨founds, hchecks, rfl⟩ := checks_of_collectFindings hcollected
  have hnone : Finding.noHits ∉ founds.flatten := by
    intro hmem
    obtain ⟨found, hfound, hmem⟩ := List.mem_flatten.mp hmem
    have hcheck : Except.ok found ∈ setup.checksFrom (Trail.tool []) ops :=
      hchecks ▸ List.mem_map_of_mem hfound
    obtain ⟨index, op, _, hcheck⟩ := mem_checksFrom.mp hcheck
    exact noHits_notMem_of_checksOf hcheck hmem
  split at h
  · next hhits =>
    obtain rfl := Except.ok.inj h
    rw [hitPositions_eq] at hhits
    exact Or.inl ⟨List.map_eq_nil_iff.mp hhits, rfl, by simp⟩
  · next hhits =>
    obtain rfl := Except.ok.inj h
    rw [hitPositions_eq] at hhits
    exact Or.inr ⟨fun hholes => hhits (by rw [hholes]; rfl), rfl, hnone⟩

/-- A check asks for no sheet, and warns that there are no hits, exactly if there are none. Otherwise, if
no hit lies left of the origin or below it, it asks for a sheet that holds them all. On each side no
other sheet that holds them is smaller, unless all hits lie at zero there; then that side is a standard
one. -/
theorem required_sheet_of_check {outcome : Check × List String}
    (h : setup.checkInWords ops = .ok outcome) :
    (outcome.1.requiredSheet = none ↔ Trail.holes ops = []) ∧
      (Finding.noHits ∈ outcome.1.findings ↔ Trail.holes ops = []) ∧
      (Trail.holes ops ≠ [] → (∀ hole ∈ Trail.holes ops, 0 ≤ hole.x ∧ 0 ≤ hole.y) →
        ∃ sheet, outcome.1.requiredSheet = some sheet ∧ sheet.Holds ops ∧
          ((∃ hole ∈ Trail.holes ops, 0 < hole.x) →
            ∀ other : Sheet, other.Holds ops → sheet.width ≤ other.width) ∧
          ((∃ hole ∈ Trail.holes ops, 0 < hole.y) →
            ∀ other : Sheet, other.Holds ops → sheet.height ≤ other.height) ∧
          ((∀ hole ∈ Trail.holes ops, ¬ 0 < hole.x) → sheet.width = Sheet.standardWidth) ∧
          ((∀ hole ∈ Trail.holes ops, ¬ 0 < hole.y) → sheet.height = Sheet.standardHeight)) := by
  rcases check_cases (check_of_checkInWords h) with ⟨hnone, hsheet, hwarned⟩ | ⟨hsome, hsheet, hquiet⟩
  · exact ⟨iff_of_true hsheet hnone, iff_of_true hwarned hnone, fun hsome => absurd hnone hsome⟩
  · refine ⟨iff_of_false (by simp [hsheet]) hsome, iff_of_false hquiet hsome, fun _ hnonneg => ?_⟩
    obtain ⟨hwidth, hheight⟩ := isSideFor_hits hsome hnonneg
    refine ⟨_, hsheet, ?_, ?_, ?_, ?_, ?_⟩
    · refine Sheet.holds_iff.mpr fun hole hhole => ⟨⟨(hnonneg hole hhole).1, ?_⟩,
        (hnonneg hole hhole).2, ?_⟩
      · exact hwidth.reaches _ (List.mem_map_of_mem hhole)
      · exact hheight.reaches _ (List.mem_map_of_mem hhole)
    · rintro ⟨off, hoff, hpos⟩ other hother
      obtain ⟨hole, hhole, hside⟩ :=
        List.mem_map.mp (hwidth.needed ⟨_, List.mem_map_of_mem hoff, hpos⟩)
      rw [← hside]
      exact (Sheet.holds_iff.mp hother hole hhole).1.2
    · rintro ⟨off, hoff, hpos⟩ other hother
      obtain ⟨hole, hhole, hside⟩ :=
        List.mem_map.mp (hheight.needed ⟨_, List.mem_map_of_mem hoff, hpos⟩)
      rw [← hside]
      exact (Sheet.holds_iff.mp hother hole hhole).2.2
    · exact fun hzero => hwidth.standard (List.forall_mem_map.mpr hzero)
    · exact fun hzero => hheight.standard (List.forall_mem_map.mpr hzero)

theorem required_sheet_of_check_twoHits :
    let setup : Setup := ⟨.empty, .real 8.0, .standard⟩
    let ops : List Operation :=
      [.hit 0 30.0 0.0 (.real 8.0) 1, .hit 1 10.0 20.0 (.real 8.0) 1, .finish 1]
    ∃ outcome sheet, setup.checkInWords ops = .ok outcome ∧
      outcome.1.requiredSheet = some sheet ∧ sheet.Holds ops ∧
      ∀ other : Sheet, other.Holds ops → sheet.width ≤ other.width ∧ sheet.height ≤ other.height := by
  intro setup ops
  have hchecked : (setup.checkInWords ops).isOk = true := by decide +kernel
  have hnonneg : ∀ hole ∈ Trail.holes ops, 0 ≤ hole.x ∧ 0 ≤ hole.y := by decide +kernel
  have hoff : (∃ hole ∈ Trail.holes ops, 0 < hole.x) ∧ ∃ hole ∈ Trail.holes ops, 0 < hole.y := by
    decide +kernel
  obtain ⟨outcome, houtcome⟩ := exists_of_isOk hchecked
  obtain ⟨_, _, hsmallest⟩ := required_sheet_of_check houtcome
  obtain ⟨sheet, hsheet, hholds, hwidth, hheight, _⟩ := hsmallest nofun hnonneg
  exact ⟨outcome, sheet, houtcome, hsheet, hholds, fun other hother =>
    ⟨hwidth hoff.1 other hother, hheight hoff.2 other hother⟩⟩

/-- A sheet that is one wide holds a hit on the edge through the origin, but the check asks for a
standard one. -/
theorem required_sheet_of_upright_hit :
    let setup : Setup := ⟨.empty, .real 8.0, .standard⟩
    let ops : List Operation := [.hit 0 0.0 10.0 (.real 8.0) 1, .finish 0]
    ∃ outcome sheet, setup.checkInWords ops = .ok outcome ∧
      outcome.1.requiredSheet = some sheet ∧ sheet.Holds ops ∧
      Sheet.Holds ⟨1.0, 10.0⟩ ops ∧ (0 : Float) < 1.0 ∧ (1.0 : Float) < sheet.width := by
  intro setup ops
  have hchecked : (setup.checkInWords ops).isOk = true := by decide +kernel
  obtain ⟨outcome, houtcome⟩ := exists_of_isOk hchecked
  rcases check_cases (check_of_checkInWords houtcome) with ⟨hnone, _⟩ | ⟨_, hsheet, _⟩
  · cases hnone
  · refine ⟨outcome, _, houtcome, hsheet, ?_, ?_, by decide +kernel, by decide +kernel⟩
    · intro hole hhole
      obtain rfl := List.mem_singleton.mp hhole
      decide +kernel
    · intro hole hhole
      obtain rfl := List.mem_singleton.mp hhole
      decide +kernel

end Setup

end TurretPunch
