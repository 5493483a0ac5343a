import Mathlib.Algebra.Order.Field.Basic
import Mathlib.Tactic.Linarith
import TurretPunch.Proofs.Decimal.Value
import TurretPunch.Proofs.Press.Bounds

namespace TurretPunch

/-!
# The bounds test in exact arithmetic

Where sums and halves are exact, a footprint is on a sheet if and only if every point that it covers is,
be it a box, a segment or a point. So a smaller footprint on a larger sheet is on it too.
-/

namespace Footprint

section Field

variable {α : Type} [Field α] [LinearOrder α] {x y halfWidth halfHeight width height : α}

/-- The points that a footprint covers. Its edges belong to it. -/
def Covers : Footprint α → α → α → Prop
  | box left bottom right top, p, q => left ≤ p ∧ p ≤ right ∧ bottom ≤ q ∧ q ≤ top
  | segment left bottom right top, p, q =>
    ∃ k, 0 ≤ k ∧ k ≤ 1 ∧ p = left + k * (right - left) ∧ q = bottom + k * (top - bottom)
  | point x y, p, q => p = x ∧ q = y

/-- Without a width and a height, neither of which is negative, there is only a point. -/
theorem eq_zero_of_not_lt (hwidth : 0 ≤ halfWidth) (hheight : 0 ≤ halfHeight)
    (h : ¬ (0 < halfWidth ∨ 0 < halfHeight)) : halfWidth = 0 ∧ halfHeight = 0 := by
  obtain ⟨hnone, hnone'⟩ := not_or.mp h
  exact ⟨le_antisymm (not_lt.mp hnone) hwidth, le_antisymm (not_lt.mp hnone') hheight⟩

theorem corners_around (hwidth : 0 ≤ halfWidth) (hheight : 0 ≤ halfHeight) :
    (around x y halfWidth halfHeight).corners =
      ((x - halfWidth, y - halfHeight), (x + halfWidth, y + halfHeight)) := by
  unfold around
  split
  · rfl
  · split
    · rfl
    · next hneither =>
      obtain ⟨rfl, rfl⟩ := eq_zero_of_not_lt hwidth hheight hneither
      simp [corners]

variable [IsStrictOrderedRing α]

/-- A footprint around a position is on a sheet if each of its four sides is, even where some of them are
one. -/
theorem within_around_iff (hwidth : 0 ≤ halfWidth) (hheight : 0 ≤ halfHeight) :
    (around x y halfWidth halfHeight).within width height = true ↔
      0 ≤ x - halfWidth ∧ x + halfWidth ≤ width ∧ 0 ≤ y - halfHeight ∧ y + halfHeight ≤ height := by
  rw [within, corners_around hwidth hheight, Bool.and_eq_true, onSheet_iff, onSheet_iff]
  constructor
  · rintro ⟨⟨hleft, -, hbottom, -⟩, -, hright, -, htop⟩
    exact ⟨hleft, hright, hbottom, htop⟩
  · rintro ⟨hleft, hright, hbottom, htop⟩
    exact ⟨⟨hleft, by linarith, hbottom, by linarith⟩, by linarith, hright, by linarith, htop⟩

theorem covers_corners (hwidth : 0 ≤ halfWidth) (hheight : 0 ≤ halfHeight) :
    (around x y halfWidth halfHeight).Covers (x - halfWidth) (y - halfHeight) ∧
      (around x y halfWidth halfHeight).Covers (x + halfWidth) (y + halfHeight) := by
  unfold around
  split
  · exact ⟨⟨le_rfl, by linarith, le_rfl, by linarith⟩, by linarith, le_rfl, by linarith, le_rfl⟩
  · split
    · exact ⟨⟨0, le_rfl, zero_le_one, by ring, by ring⟩, 1, zero_le_one, le_rfl, by ring, by ring⟩
    · next hneither =>
      obtain ⟨rfl, rfl⟩ := eq_zero_of_not_lt hwidth hheight hneither
      simp [Covers]

/-- What a footprint covers lies between its corners. -/
theorem Covers.between_corners (hwidth : 0 ≤ halfWidth) (hheight : 0 ≤ halfHeight) {p q : α}
    (h : (around x y halfWidth halfHeight).Covers p q) :
    x - halfWidth ≤ p ∧ p ≤ x + halfWidth ∧ y - halfHeight ≤ q ∧ q ≤ y + halfHeight := by
  unfold around at h
  split at h
  · exact h
  · split at h
    · obtain ⟨k, hk, hk', rfl, rfl⟩ := h
      have hx := mul_nonneg hk hwidth
      have hy := mul_nonneg hk hheight
      have hx' := mul_le_of_le_one_left hwidth hk'
      have hy' := mul_le_of_le_one_left hheight hk'
      refine ⟨?_, ?_, ?_, ?_⟩ <;> linarith
    · next hneither =>
      obtain ⟨rfl, rfl⟩ := eq_zero_of_not_lt hwidth hheight hneither
      obtain ⟨rfl, rfl⟩ := h
      simp

/-- Of a footprint on a sheet every point is on the sheet, and only of such a footprint. -/
theorem within_iff_covers (hwidth : 0 ≤ halfWidth) (hheight : 0 ≤ halfHeight) :
    (around x y halfWidth halfHeight).within width height = true ↔
      ∀ p q, (around x y halfWidth halfHeight).Covers p q →
        0 ≤ p ∧ p ≤ width ∧ 0 ≤ q ∧ q ≤ height := by
  rw [within_around_iff hwidth hheight]
  constructor
  · rintro ⟨hleft, hright, hbottom, htop⟩ p q hcovers
    obtain ⟨hleft', hright', hbottom', htop'⟩ := hcovers.between_corners hwidth hheight
    exact ⟨hleft.trans hleft', hright'.trans hright, hbottom.trans hbottom', htop'.trans htop⟩
  · intro h
    obtain ⟨hfirst, hsecond⟩ := covers_corners (x := x) (y := y) hwidth hheight
    obtain ⟨hleft, -, hbottom, -⟩ := h _ _ hfirst
    obtain ⟨-, hright, -, htop⟩ := h _ _ hsecond
    exact ⟨hleft, hright, hbottom, htop⟩

end Field

/-- The extents of a tool, or of what is assumed of a station without one, by a way to halve sizes. -/
def extentsBy {m : Type → Type} [Monad m] {α : Type} (half : Quantity → m α) (fallback : Quantity) :
    Option Tool → m (α × α)
  | some tool =>
    if tool.isRound then (fun r => (r, r)) <$> half tool.diameter
    else do
      let hw ← half tool.width
      let hh ← half tool.height
      return (hw, hh)
  | none => (fun r => (r, r)) <$> half fallback

theorem extents_eq_extentsBy (fallback : Quantity) (tool : Option Tool) :
    extents fallback tool = extentsBy Quantity.half fallback tool := by
  cases tool with
  | none => rfl
  | some tool => rfl

theorem toolLeaves_eq (sheet : Sheet) (fallback : Quantity) (tool : Option Tool) (x y : Float) :
    toolLeaves sheet fallback tool x y = (extentsBy Quantity.half fallback tool).bind
      fun (halfWidth, halfHeight) => leaves sheet (around x y halfWidth halfHeight) := by
  rw [toolLeaves, ofTool, extents_eq_extentsBy]
  cases extentsBy Quantity.half fallback tool <;> rfl

/-- The number that a size is, if it is one. -/
def exactSize? : Quantity → Option ℚ
  | .whole n => some n
  | .real x =>
    match Decimal.Reading.ofFloat x with
    | .finite f => some f.value
    | _ => none
  | .other value => value.toInt?.map (↑)

/-- The extents of a tool in exact arithmetic. -/
def exactExtents? (fallback : Quantity) (tool : Option Tool) : Option (ℚ × ℚ) :=
  extentsBy (fun size => (exactSize? size).map (· / 2)) fallback tool

/-- Whether a tool at a position is on a sheet, in exact arithmetic. -/
def exactlyWithin? {α : Type} [Field α] [LinearOrder α] (fallback : Quantity) (tool : Option Tool)
    (x y width height : α) : Option Bool :=
  (exactExtents? fallback tool).map fun (halfWidth, halfHeight) =>
    (around x y (halfWidth : α) (halfHeight : α)).within width height

open Decimal (IsExactly)

/-- A position and extents of which the sums, too, are the doubles that they are in exact arithmetic. -/
structure IsExactAround (a b c d : Float) (x y halfWidth halfHeight : ℚ) : Prop where
  across : IsExactly a x
  up : IsExactly b y
  width : IsExactly c halfWidth
  height : IsExactly d halfHeight
  left : IsExactly (a - c) (x - halfWidth)
  bottom : IsExactly (b - d) (y - halfHeight)
  right : IsExactly (a + c) (x + halfWidth)
  top : IsExactly (b + d) (y + halfHeight)

variable {a b c d u v : Float} {x y halfWidth halfHeight width height : ℚ}

theorem onSheet_of_exact (hu : IsExactly u width) (hv : IsExactly v height) (ha : IsExactly a x)
    (hb : IsExactly b y) : onSheet u v (a, b) = onSheet width height (x, y) := by
  simp only [onSheet, Decimal.isExactly_zero.le_iff ha, ha.le_iff hu, Decimal.isExactly_zero.le_iff hb,
    hb.le_iff hv]

/-- Where no corner is missing and the sheet has ends, a footprint leaves if it is not on the sheet. -/
theorem leaves_of_isBounded {sheet : Sheet} {f : Footprint Float} (hsheet : sheet.IsBounded)
    (hcorner : f.isCornerless = false) (hplaced : f.placed = f) (hend : f.corners.2.1.isNaN = false) :
    leaves sheet f = .ok (!f.within sheet.width sheet.height) := by
  rw [leaves, hcorner, if_neg Bool.false_ne_true, hplaced]
  cases hwithin : f.within sheet.width sheet.height with
  | false => rfl
  | true =>
      have hfirst := hwithin
      rw [within, Bool.and_eq_true] at hfirst
      rw [if_neg (by simp), leavesInside_of_isBounded hsheet hfirst.1, hend]
      rfl

/-- On exact doubles the test is the one in exact arithmetic. -/
theorem leaves_of_exact (h : IsExactAround a b c d x y halfWidth halfHeight)
    (hu : IsExactly u width) (hv : IsExactly v height) :
    leaves ⟨u, v⟩ (around a b c d) = .ok (!(around x y halfWidth halfHeight).within width height) := by
  have hwide : 0 < c ↔ 0 < halfWidth := Decimal.isExactly_zero.lt_iff h.width
  have hhigh : 0 < d ↔ 0 < halfHeight := Decimal.isExactly_zero.lt_iff h.height
  have hleft := onSheet_of_exact hu hv h.left h.bottom
  have hright := onSheet_of_exact hu hv h.right h.top
  have hsheet : Sheet.IsBounded ⟨u, v⟩ := ⟨hu.beq_infinity, hv.beq_infinity⟩
  unfold around
  simp only [hwide, hhigh]
  split
  · rw [leaves_of_isBounded hsheet]
    · simp only [within, corners, hleft, hright]
    · simp only [isCornerless, h.bottom.isNaN, h.right.isNaN, Bool.or_self]
    · simp only [placed, h.left.isNaN, Bool.false_eq_true, if_false]
    · exact h.right.isNaN
  · split
    · rw [leaves_of_isBounded hsheet rfl]
      · simp only [within, corners, hleft, hright]
      · simp only [placed, h.right.isNaN, Bool.false_eq_true, if_false]
      · exact h.right.isNaN
    · rw [leaves_of_isBounded (f := .point a b) hsheet rfl rfl h.across.isNaN]
      simp only [within, corners, onSheet_of_exact hu hv h.across h.up]

theorem ofSize_of_exact (hu : IsExactly u width) (hv : IsExactly v height) (hwidth : 0 < width)
    (hheight : 0 < height) : Sheet.ofSize u v = ⟨u, v⟩ := by
  have hzero : IsExactly 0.0 0 :=
    ⟨⟨false, 0, -1074⟩, by with_unfolding_all rfl, Decimal.BinaryFraction.value_of_zero rfl⟩
  have hwide : ¬ u ≤ 0.0 := mt (hu.le_iff hzero).mp (not_le.mpr hwidth)
  have hhigh : ¬ v ≤ 0.0 := mt (hv.le_iff hzero).mp (not_le.mpr hheight)
  rw [Sheet.ofSize, if_neg hwide, if_neg hhigh]

/-- A tool that is on a sheet in exact arithmetic is so on a larger sheet, and every smaller tool with it.
It is on the sheet exactly if its four sides are, and exactly if all that it covers is, edges and all.
Where the sums of doubles are exact, that is what the running test finds. -/
theorem exact_test_monotone {α : Type} [Field α] [LinearOrder α] [IsStrictOrderedRing α]
    {fallback fallback' : Quantity} {tool tool' : Option Tool}
    {halfWidth halfHeight halfWidth' halfHeight' : ℚ}
    (hsmall : exactExtents? fallback tool = some (halfWidth, halfHeight))
    (hlarge : exactExtents? fallback' tool' = some (halfWidth', halfHeight'))
    (hwidth : 0 ≤ halfWidth) (hheight : 0 ≤ halfHeight)
    (hwidth' : halfWidth ≤ halfWidth') (hheight' : halfHeight ≤ halfHeight') :
    (∀ x y width height width' height' : α, width ≤ width' → height ≤ height' →
      exactlyWithin? fallback' tool' x y width height = some true →
        exactlyWithin? fallback tool x y width' height' = some true) ∧
    (∀ x y width height : α, exactlyWithin? fallback tool x y width height = some true ↔
      0 ≤ x - halfWidth ∧ x + halfWidth ≤ width ∧ 0 ≤ y - halfHeight ∧ y + halfHeight ≤ height) ∧
    (∀ x y width height : α, exactlyWithin? fallback tool x y width height = some true ↔
      ∀ p q, (around x y (halfWidth : α) halfHeight).Covers p q →
        0 ≤ p ∧ p ≤ width ∧ 0 ≤ q ∧ q ≤ height) ∧
    ∀ (a b c d u v : Float) (x y width height : ℚ), extents fallback tool = .ok (c, d) →
      IsExactAround a b c d x y halfWidth halfHeight → IsExactly u width → IsExactly v height →
        0 < width → 0 < height → ∃ out, toolLeaves (Sheet.ofSize u v) fallback tool a b = .ok out ∧
          exactlyWithin? fallback tool x y width height = some (!out) := by
  have hexact (x y width height : α) : exactlyWithin? fallback tool x y width height = some true ↔
      (around x y (halfWidth : α) halfHeight).within width height = true := by
    rw [exactlyWithin?, hsmall, Option.map_some, Option.some_inj]
  have hexact' (x y width height : α) : exactlyWithin? fallback' tool' x y width height = some true ↔
      (around x y (halfWidth' : α) halfHeight').within width height = true := by
    rw [exactlyWithin?, hlarge, Option.map_some, Option.some_inj]
  have hw : (0 : α) ≤ halfWidth := by exact_mod_cast hwidth
  have hh : (0 : α) ≤ halfHeight := by exact_mod_cast hheight
  have hw' : (halfWidth : α) ≤ halfWidth' := by exact_mod_cast hwidth'
  have hh' : (halfHeight : α) ≤ halfHeight' := by exact_mod_cast hheight'
  refine ⟨?_, ?_, ?_, ?_⟩
  · intro x y width height width' height' hwide hhigh h
    rw [hexact', within_around_iff (hw.trans hw') (hh.trans hh')] at h
    rw [hexact, within_around_iff hw hh]
    obtain ⟨hleft, hright, hbottom, htop⟩ := h
    refine ⟨?_, ?_, ?_, ?_⟩ <;> linarith
  · intro x y width height
    exact (hexact x y width height).trans (within_around_iff hw hh)
  · intro x y width height
    exact (hexact x y width height).trans (within_iff_covers hw hh)
  · intro a b c d u v x y width height hextents hdoubles hu hv hwide hhigh
    refine ⟨!(around x y halfWidth halfHeight).within width height, ?_, ?_⟩
    · rw [ofSize_of_exact hu hv hwide hhigh, toolLeaves_eq, ← extents_eq_extentsBy, hextents]
      exact leaves_of_exact hdoubles hu hv
    · simp [exactlyWithin?, hsmall]

theorem exact_test_monotone_segment :
    let tool : Tool :=
      { number := .whole 1, name := .null, shape := .slot, width := .whole 4, height := .whole 0 }
    let fallback : Quantity := .real 9.0
    exactlyWithin? fallback none (5 : ℚ) 5 100 50 = some true ∧
      exactlyWithin? fallback (some tool) (5 : ℚ) 5 600 300 = some true ∧
      toolLeaves (Sheet.ofSize 600.0 300.0) fallback (some tool) 5.0 5.0 = .ok false := by
  intro tool fallback
  have hsmall : exactExtents? fallback (some tool) = some (2, 0) := by
    have hshape : tool.isRound = false := rfl
    norm_num [exactExtents?, extentsBy, exactSize?, hshape, tool]
  have hnine : exactSize? fallback = some 9 := by
    have hreading : Decimal.Reading.ofFloat 9.0 = .finite ⟨false, 0x12000000000000, -49⟩ := by
      with_unfolding_all rfl
    norm_num [exactSize?, fallback, hreading, Decimal.BinaryFraction.value]
  have hlarge : exactExtents? fallback none = some (9 / 2, 9 / 2) := by
    simp [exactExtents?, extentsBy, hnine]
  obtain ⟨-, hsides, -, -⟩ :=
    exact_test_monotone (α := ℚ) hlarge hlarge (by norm_num) (by norm_num) le_rfl le_rfl
  obtain ⟨hmono, -, -, hrunning⟩ :=
    exact_test_monotone (α := ℚ) hsmall hlarge (by norm_num) le_rfl (by norm_num) (by norm_num)
  have hbig : exactlyWithin? fallback none (5 : ℚ) 5 100 50 = some true :=
    (hsides 5 5 100 50).mpr (by norm_num)
  have hfits := hmono 5 5 100 50 600 300 (by norm_num) (by norm_num) hbig
  refine ⟨hbig, hfits, ?_⟩
  have hfive : IsExactly 5.0 5 :=
    ⟨⟨false, 0x14000000000000, -50⟩, by with_unfolding_all rfl,
      by norm_num [Decimal.BinaryFraction.value]⟩
  have hdoubles : IsExactAround 5.0 5.0 2.0 0.0 5 5 2 0 := by
    refine ⟨hfive, hfive, ?_, ?_, ?_, ?_, ?_, ?_⟩
    · exact ⟨⟨false, 0x10000000000000, -51⟩, by with_unfolding_all rfl,
        by norm_num [Decimal.BinaryFraction.value]⟩
    · exact ⟨⟨false, 0, -1074⟩, by with_unfolding_all rfl, by norm_num [Decimal.BinaryFraction.value]⟩
    · exact ⟨⟨false, 0x18000000000000, -51⟩, by with_unfolding_all rfl,
        by norm_num [Decimal.BinaryFraction.value]⟩
    · exact ⟨⟨false, 0x14000000000000, -50⟩, by with_unfolding_all rfl,
        by norm_num [Decimal.BinaryFraction.value]⟩
    · exact ⟨⟨false, 0x1c000000000000, -50⟩, by with_unfolding_all rfl,
        by norm_num [Decimal.BinaryFraction.value]⟩
    · exact ⟨⟨false, 0x14000000000000, -50⟩, by with_unfolding_all rfl,
        by norm_num [Decimal.BinaryFraction.value]⟩
  have hwide : IsExactly 600.0 600 :=
    ⟨⟨false, 0x12c00000000000, -43⟩, by with_unfolding_all rfl,
      by norm_num [Decimal.BinaryFraction.value]⟩
  have hhigh : IsExactly 300.0 300 :=
    ⟨⟨false, 0x12c00000000000, -44⟩, by with_unfolding_all rfl,
      by norm_num [Decimal.BinaryFraction.value]⟩
  obtain ⟨out, hout, hexact⟩ := hrunning 5.0 5.0 2.0 0.0 600.0 300.0 5 5 600 300
    (by with_unfolding_all rfl) hdoubles hwide hhigh (by norm_num) (by norm_num)
  obtain rfl : out = false := by simpa [hfits] using hexact
  exact hout

end Footprint

end TurretPunch
