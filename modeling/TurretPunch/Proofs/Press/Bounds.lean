import TurretPunch.Check
import TurretPunch.Proofs.Decimal.Number
import TurretPunch.Proofs.Press.Trail

namespace TurretPunch

/-!
# The bounds test along a trail

After every operation it is tested whether the active tool leaves the sheet where the press is. The test
asks for the first corner of a box, and has no answer if that is no number. On a sheet with ends there
is always an answer otherwise, as long as the tool has a size.
-/

/-- A sheet of which no side goes on without end. -/
def Sheet.IsBounded (sheet : Sheet) : Prop :=
  (sheet.width == Decimal.infinity) = false ∧ (sheet.height == Decimal.infinity) = false

open Decimal (IsInfinite)

namespace Footprint

variable {sheet : Sheet} {x y halfWidth halfHeight : Float} {fault : Fault}

theorem onSheet_iff {α : Type} [OfNat α 0] [LE α] [DecidableLE α] {width height : α} {p : α × α} :
    onSheet width height p = true ↔ 0 ≤ p.1 ∧ p.1 ≤ width ∧ 0 ≤ p.2 ∧ p.2 ≤ height := by
  simp [onSheet, and_assoc]

/-- A box without its first corner: around a position that is no number, or with a side that goes from
one end of the line to the other. -/
structure LacksCorner (x y halfWidth halfHeight : Float) : Prop where
  box : 0 < halfWidth ∧ 0 < halfHeight
  corner : x.isNaN = true ∨ y.isNaN = true ∨ IsInfinite .negative x ∧ IsInfinite .positive halfWidth ∨
    IsInfinite .positive y ∧ IsInfinite .positive halfHeight

/-- A sum with what is above zero is no number only in two ways. -/
theorem isNaN_add_of_lt {w : Float} (h : 0 < w) :
    (x + w).isNaN = true ↔ x.isNaN = true ∨ IsInfinite .negative x ∧ IsInfinite .positive w := by
  rw [Decimal.isNaN_add_iff, (Decimal.isNaN_of_lt h).2]
  constructor
  · rintro (hx | hw | ⟨s, hx, hw⟩)
    · exact Or.inl hx
    · cases hw
    · have hsign := hw.positive_of_lt h
      cases s with
      | negative => exact Or.inr ⟨hx, hw⟩
      | positive => cases hsign
  · rintro (hx | ⟨hx, hw⟩)
    · exact Or.inl hx
    · exact Or.inr (Or.inr ⟨.negative, hx, hw⟩)

theorem isNaN_sub_of_lt {w : Float} (h : 0 < w) :
    (x - w).isNaN = true ↔ x.isNaN = true ∨ IsInfinite .positive x ∧ IsInfinite .positive w := by
  rw [Decimal.isNaN_sub_iff, (Decimal.isNaN_of_lt h).2]
  constructor
  · rintro (hx | hw | ⟨s, hx, hw⟩)
    · exact Or.inl hx
    · cases hw
    · obtain rfl := hw.positive_of_lt h
      exact Or.inr ⟨hx, hw⟩
  · rintro (hx | ⟨hx, hw⟩)
    · exact Or.inl hx
    · exact Or.inr (Or.inr ⟨.positive, hx, hw⟩)

theorem isCornerless_iff :
    (around x y halfWidth halfHeight).isCornerless = true ↔ LacksCorner x y halfWidth halfHeight := by
  by_cases hbox : 0 < halfWidth ∧ 0 < halfHeight
  · have hcorner : (around x y halfWidth halfHeight).isCornerless =
        ((y - halfHeight).isNaN || (x + halfWidth).isNaN) := by
      rw [around, if_pos hbox, isCornerless]
    rw [hcorner, Bool.or_eq_true, isNaN_add_of_lt hbox.1, isNaN_sub_of_lt hbox.2]
    constructor
    · rintro ((hy | hy) | (hx | hx))
      · exact ⟨hbox, Or.inr (Or.inl hy)⟩
      · exact ⟨hbox, Or.inr (Or.inr (Or.inr hy))⟩
      · exact ⟨hbox, Or.inl hx⟩
      · exact ⟨hbox, Or.inr (Or.inr (Or.inl hx))⟩
    · rintro ⟨_, hx | hy | hx | hy⟩
      · exact Or.inr (Or.inl hx)
      · exact Or.inl (Or.inl hy)
      · exact Or.inr (Or.inr hx)
      · exact Or.inl (Or.inr hy)
  · have hnone : (around x y halfWidth halfHeight).isCornerless = false := by
      rw [around, if_neg hbox]
      split <;> rfl
    rw [hnone]
    exact iff_of_false Bool.false_ne_true fun h => hbox h.box

/-- A footprint that begins on a sheet with ends does not touch an end at infinity. -/
theorem leavesInside_of_isBounded {f : Footprint Float} (hsheet : sheet.IsBounded)
    (hcorner : onSheet sheet.width sheet.height f.corners.1 = true) :
    leavesInside sheet f = .ok f.corners.2.1.isNaN := by
  obtain ⟨hwidth, hheight⟩ := hsheet
  obtain ⟨hleft, hright, -, -⟩ := onSheet_iff.mp hcorner
  have hnumber := (Decimal.isNaN_of_le hleft).2
  have hbeyond : isBeyondSides sheet f.corners.1 = false := by
    have hinfinite : (f.corners.1.1 == Decimal.infinity) = false := by
      by_contra h
      have habove := Decimal.beq_infinity_of_le (by simpa using h) hright
      rw [hwidth] at habove
      cases habove
    rw [isBeyondSides, hinfinite, Bool.false_and]
  have hedge (p : Float × Float) : onEndlessEdge sheet p = false := by
    simp [onEndlessEdge, hwidth, hheight]
  simp only [leavesInside, hnumber, hbeyond, hedge, Bool.false_eq_true, if_false, Bool.or_false,
    ite_self]

/-- A box that reaches from infinity to the left is not on a sheet with ends. -/
theorem onSheet_of_isNaN (hsheet : sheet.IsBounded) (hwidth : 0 < halfWidth)
    (hleft : (x - halfWidth).isNaN = true) (hright : (x + halfWidth).isNaN = false) (bottom : Float) :
    onSheet sheet.width sheet.height (x + halfWidth, bottom) = false := by
  have hx : ¬ x.isNaN = true := by
    intro hx
    rw [← Bool.not_eq_true, isNaN_add_of_lt hwidth] at hright
    exact hright (Or.inl hx)
  obtain ⟨hend, hwide⟩ := ((isNaN_sub_of_lt hwidth).mp hleft).resolve_left hx
  have hbeyond := Decimal.beq_infinity_iff.mpr (hend.add hwide)
  rw [← Bool.not_eq_true]
  intro hon
  have habove := Decimal.beq_infinity_of_le hbeyond (onSheet_iff.mp hon).2.1
  rw [hsheet.1] at habove
  cases habove

/-- A footprint that has its first corner begins where its part with a place begins, if that part is on
a sheet with ends. -/
theorem onSheet_corner (hsheet : sheet.IsBounded)
    (hcorner : (around x y halfWidth halfHeight).isCornerless = false)
    (hwithin : (around x y halfWidth halfHeight).placed.within sheet.width sheet.height = true) :
    onSheet sheet.width sheet.height (around x y halfWidth halfHeight).corners.1 = true := by
  have hfirst : onSheet sheet.width sheet.height
      (around x y halfWidth halfHeight).placed.corners.1 = true := by
    rw [within, Bool.and_eq_true] at hwithin
    exact hwithin.1
  revert hcorner hfirst
  unfold around
  split
  · next hbox =>
    intro hcorner hfirst
    rw [isCornerless, Bool.or_eq_false_iff] at hcorner
    cases hleft : (x - halfWidth).isNaN with
    | false => simpa only [placed, corners, hleft, Bool.false_eq_true, if_false] using hfirst
    | true =>
        simp only [placed, corners, hleft, if_true] at hfirst
        rw [onSheet_of_isNaN hsheet hbox.1 hleft hcorner.2] at hfirst
        cases hfirst
  · split <;> exact fun _ hfirst => hfirst

theorem exists_leaves_of_corner (hsheet : sheet.IsBounded)
    (hcorner : ¬ LacksCorner x y halfWidth halfHeight) :
    ∃ out, leaves sheet (around x y halfWidth halfHeight) = .ok out := by
  rw [← isCornerless_iff, Bool.not_eq_true] at hcorner
  rw [leaves, hcorner, if_neg Bool.false_ne_true]
  split
  · exact ⟨true, rfl⟩
  · next hwithin =>
    rw [Bool.not_eq_true', Bool.not_eq_false] at hwithin
    exact ⟨_, leavesInside_of_isBounded hsheet (onSheet_corner hsheet hcorner hwithin)⟩

theorem leaves_of_lacksCorner (h : LacksCorner x y halfWidth halfHeight) :
    leaves sheet (around x y halfWidth halfHeight) = .error .cornerless := by
  rw [leaves, isCornerless_iff.mpr h, if_pos rfl]

theorem leavesInside_error {f : Footprint Float} (h : leavesInside sheet f = .error fault) :
    fault = .endlessEdge := by
  have hreason (undecided out : Bool)
      (h : (if undecided = true then .error .endlessEdge else .ok out : Except Fault Bool) =
        .error fault) : fault = .endlessEdge := by
    cases undecided with
    | false => cases h
    | true => exact (Except.error.inj h).symm
  exact hreason _ _ h

/-- There are two reasons for the test to have no answer, and the second one only on a sheet without
end. -/
theorem leaves_error (h : leaves sheet (around x y halfWidth halfHeight) = .error fault) :
    fault = .cornerless ∧ LacksCorner x y halfWidth halfHeight ∨
      fault = .endlessEdge ∧ ¬ sheet.IsBounded := by
  by_cases hcorner : LacksCorner x y halfWidth halfHeight
  · rw [leaves_of_lacksCorner hcorner] at h
    exact Or.inl ⟨(Except.error.inj h).symm, hcorner⟩
  · right
    refine ⟨?_, fun hsheet => ?_⟩
    · have hnone := mt isCornerless_iff.mp hcorner
      rw [leaves, if_neg hnone] at h
      split at h
      · cases h
      · exact leavesInside_error h
    · obtain ⟨out, hout⟩ := exists_leaves_of_corner hsheet hcorner
      rw [hout] at h
      cases h

theorem not_lacksCorner (hx : x.isFinite = true) (hy : y.isFinite = true) :
    ¬ LacksCorner x y halfWidth halfHeight := by
  rintro ⟨_, hx' | hy' | ⟨hx', _⟩ | ⟨hy', _⟩⟩
  · rw [Decimal.isNaN_of_isFinite hx] at hx'
    cases hx'
  · rw [Decimal.isNaN_of_isFinite hy] at hy'
    cases hy'
  · exact Decimal.not_isInfinite hx hx'
  · exact Decimal.not_isInfinite hy hy'

/-- On a sheet with ends it is always known whether a footprint around a finite position leaves. -/
theorem exists_leaves_around (hsheet : sheet.IsBounded) (hx : x.isFinite = true)
    (hy : y.isFinite = true) :
    ∃ out, leaves sheet (around x y halfWidth halfHeight) = .ok out :=
  exists_leaves_of_corner hsheet (not_lacksCorner hx hy)

end Footprint

/-- An operation that goes nowhere else than to a finite position. -/
def Operation.IsFinite (op : Operation) : Prop :=
  ∀ x y, op.target? = some (x, y) → x.isFinite = true ∧ y.isFinite = true

theorem Operation.isFinite_hit {x y : Float} (line : Int) (size : Quantity) (tool : Int)
    (hx : x.isFinite = true) (hy : y.isFinite = true) : (hit line x y size tool).IsFinite := by
  intro a b htarget
  obtain ⟨rfl, rfl⟩ := Prod.mk.inj (Option.some.inj htarget)
  exact ⟨hx, hy⟩

theorem Operation.isFinite_finish (line : Int) : (finish line).IsFinite :=
  fun _ _ htarget => nomatch htarget

theorem Trail.position_isFinite {ops : List Operation} (h : ∀ op ∈ ops, op.IsFinite) :
    (position ops).1.isFinite = true ∧ (position ops).2.isFinite = true := by
  induction ops using List.reverseRecOn with
  | nil => exact ⟨rfl, rfl⟩
  | append_singleton ops op ih =>
      rw [position_concat]
      cases htarget : op.target? with
      | none => exact ih (fun o ho => h o (List.mem_append_left _ ho))
      | some q => exact h op (List.mem_append_right _ List.mem_cons_self) q.1 q.2 htarget

namespace Setup

/-- Whether the active tool leaves the sheet after operations. -/
def outAfter (setup : Setup) (ops : List Operation) : Except Fault Bool :=
  setup.leaves (Trail.tool ops) (Trail.position ops).1 (Trail.position ops).2

/-- A sheet with ends, and sizes that are numbers, for every station. -/
structure IsMeasured (setup : Setup) : Prop where
  sheet : setup.sheet.IsBounded
  sizes : ∀ station, ∃ extents,
    Footprint.extents setup.fallback (setup.turret.get? station) = .ok extents

theorem IsMeasured.exists_leaves {setup : Setup} (h : setup.IsMeasured) (station : Int) {x y : Float}
    (hx : x.isFinite = true) (hy : y.isFinite = true) :
    ∃ out, setup.leaves station x y = .ok out := by
  obtain ⟨extents, hextents⟩ := h.sizes station
  obtain ⟨out, hout⟩ := Footprint.exists_leaves_around h.sheet hx hy
  refine ⟨out, ?_⟩
  rw [leaves, Footprint.toolLeaves, Footprint.ofTool, hextents]
  exact hout

/-- The test has an answer after operations that go to finite positions. -/
theorem IsMeasured.exists_outAfter {setup : Setup} (h : setup.IsMeasured) {ops : List Operation}
    (hops : ∀ op ∈ ops, op.IsFinite) : ∃ out, setup.outAfter ops = .ok out :=
  have hposition := Trail.position_isFinite hops
  h.exists_leaves _ hposition.1 hposition.2

/-- After operations the footprint is a box without its first corner. -/
def LacksCornerAfter (setup : Setup) (ops : List Operation) : Prop :=
  ∃ w h, Footprint.extents setup.fallback (setup.turret.get? (Trail.tool ops)) = .ok (w, h) ∧
    Footprint.LacksCorner (Trail.position ops).1 (Trail.position ops).2 w h

theorem outAfter_of_extents {setup : Setup} {ops : List Operation} {w h : Float}
    (hextents : Footprint.extents setup.fallback (setup.turret.get? (Trail.tool ops)) = .ok (w, h)) :
    setup.outAfter ops = Footprint.leaves setup.sheet
      (Footprint.around (Trail.position ops).1 (Trail.position ops).2 w h) := by
  rw [outAfter, leaves, Footprint.toolLeaves, Footprint.ofTool, hextents]
  rfl

theorem outAfter_of_lacksCornerAfter {setup : Setup} {ops : List Operation}
    (h : setup.LacksCornerAfter ops) : setup.outAfter ops = .error .cornerless := by
  obtain ⟨w, h, hextents, hcorner⟩ := h
  rw [outAfter_of_extents hextents, Footprint.leaves_of_lacksCorner hcorner]

end Setup

end TurretPunch
