import TurretPunch.Proofs.Decimal.Number
import TurretPunch.Proofs.Program.Position

namespace TurretPunch

/-!
# Coordinates that are no numbers

A word is always a number, but it can be infinite. A coordinate ceases to be a number where a relative
motion sets out from one end of the line for the other one, and nowhere else.
-/

/-- An operation that goes nowhere else than to a position that is a number on both axes. -/
def Operation.IsPlaced (op : Operation) : Prop :=
  ∀ x y, op.target? = some (x, y) → x.isNaN = false ∧ y.isNaN = false

theorem Trail.mem_of_lastTarget? {ops : List Operation} {q : Float × Float}
    (h : lastTarget? ops = some q) : ∃ op ∈ ops, op.target? = some q :=
  List.mem_filterMap.mp (List.mem_of_getLast? h)

theorem Trail.position_isPlaced {ops : List Operation} (h : ∀ op ∈ ops, op.IsPlaced) :
    (position ops).1.isNaN = false ∧ (position ops).2.isNaN = false := by
  induction ops using List.reverseRecOn with
  | nil => exact ⟨rfl, rfl⟩
  | append_singleton ops op ih =>
      rw [position_concat]
      cases htarget : op.target? with
      | none => exact ih (fun o ho => h o (List.mem_append_left _ ho))
      | some q => exact h op (List.mem_append_right _ List.mem_cons_self) q.1 q.2 htarget

theorem Trail.forall_of_take {P : Operation → Prop} {ops : List Operation}
    (h : ∀ n op, ops[n]? = some op → (∀ o ∈ ops.take n, P o) → P op) : ∀ op ∈ ops, P op := by
  have hindex (n : Nat) : ∀ op, ops[n]? = some op → P op := by
    induction n using Nat.strongRecOn with
    | ind n ih =>
        intro op hop
        apply h n op hop
        intro o ho
        obtain ⟨m, hm⟩ := List.mem_iff_getElem?.mp ho
        rw [List.getElem?_take] at hm
        split at hm
        · next hmn => exact ih m hmn o hm
        · cases hm
  intro op hop
  obtain ⟨n, hn⟩ := List.mem_iff_getElem?.mp hop
  exact hindex n op hn

namespace Program

open Decimal (IsInfinite)

theorem isFinite_of_beq_zero {x : Float} (h : (x == 0.0) = true) : x.isFinite = true := by
  have hcompare : (x.toModel.unpack.compare (0.0 : Float).toModel.unpack == some .eq) = true := h
  show x.toModel.unpack.isFinite = true
  revert hcompare
  cases x.toModel.unpack with
  | infinity s => cases s <;> exact nofun
  | notANumber => exact nofun
  | zero | finite => exact fun _ => rfl

theorem isNaN_unsigned (x : Float) : (unsigned x).isNaN = x.isNaN := by
  unfold unsigned
  split
  · next hzero => rw [Decimal.isNaN_of_isFinite (isFinite_of_beq_zero hzero)]; rfl
  · rfl

theorem isInfinite_unsigned {s : Float.Model.UnpackedFloat.Sign} {x : Float} :
    IsInfinite s (unsigned x) ↔ IsInfinite s x := by
  unfold unsigned
  split
  · next hzero =>
    exact iff_of_false (Decimal.not_isInfinite rfl)
      (Decimal.not_isInfinite (isFinite_of_beq_zero hzero))
  · rfl

theorem isNaN_getD {value : Option Float} (h : ∀ x ∈ value, x.isNaN = false) :
    (value.getD 0.0).isNaN = false := by
  cases value with
  | none => rfl
  | some x => exact h x rfl

theorem isInfinite_getD {s : Float.Model.UnpackedFloat.Sign} {value : Option Float} :
    IsInfinite s (value.getD 0.0) ↔ ∃ x ∈ value, IsInfinite s x := by
  cases value with
  | none => exact iff_of_false (Decimal.not_isInfinite rfl) (by simp)
  | some x => simp

/-- A relative motion along an axis from one end of the line towards the other. -/
def Clashes (mode : Mode) (last word : Option Float) : Prop :=
  mode = .relative ∧ ∃ s, (∃ x ∈ last, IsInfinite s x) ∧ ∃ y ∈ word, IsInfinite (-s) y

theorem Resolves.isNaN_iff {mode : Mode} {last word : Option Float} {x : Float}
    (h : Resolves mode last word x) (hlast : ∀ y ∈ last, y.isNaN = false)
    (hword : ∀ y ∈ word, y.isNaN = false) : x.isNaN = true ↔ Clashes mode last word := by
  cases h with
  | given =>
      rw [hword x rfl]
      exact iff_of_false Bool.false_ne_true fun hclash => nomatch hclash.1
  | kept =>
      rw [hlast x rfl]
      exact iff_of_false Bool.false_ne_true fun hclash => nomatch hclash.1
  | origin => exact iff_of_false Bool.false_ne_true fun hclash => nomatch hclash.1
  | moved =>
      rw [Decimal.isNaN_add_iff, isNaN_unsigned, isNaN_unsigned, isNaN_getD hlast, isNaN_getD hword]
      simp only [isInfinite_unsigned, isInfinite_getD, Bool.false_eq_true, false_or, Clashes, true_and]

theorem valueOf?_isNaN {letter : Char} {cs : List Char} :
    ∀ x ∈ valueOf? letter cs, x.isNaN = false := by
  intro x hx
  obtain ⟨n, _, rfl⟩ := Option.map_eq_some_iff.mp hx
  exact n.isNaN_toFloat

variable {tooling : Tooling} {program : Program} {text : Text.Points}

/-- The motion at an index sets out from one end of an axis towards the other. -/
def ClashesAt (text : Text.Points) (program : Program) (n : Nat) : Prop :=
  ∃ (op : Operation) (i : Nat) (ps : List Text.Point) (mode : Mode),
    program.operations[n]? = some op ∧ op.target?.isSome = true ∧ op.line = i ∧
      (Text.lines text.toList)[i]? = some ps ∧ program.modes[n]? = some mode ∧
      let last := Trail.lastTarget? (program.operations.take n)
      Clashes mode (last.map (·.1)) (Words.inLine ps).x ∨
        Clashes mode (last.map (·.2)) (Words.inLine ps).y

theorem clashesAt_iff (h : ofText tooling text = .ok program) {n : Nat} {op : Operation} {x y : Float}
    (hop : program.operations[n]? = some op) (htarget : op.target? = some (x, y))
    (hdone : ∀ o ∈ program.operations.take n, o.IsPlaced) :
    ClashesAt text program n ↔ x.isNaN = true ∨ y.isNaN = true := by
  obtain ⟨i, ps, mode, hline, hps, hmode, hresolved⟩ := resolved_of_ofText h hop htarget
  have hlast : ∀ q ∈ Trail.lastTarget? (program.operations.take n),
      q.1.isNaN = false ∧ q.2.isNaN = false := by
    intro q hq
    obtain ⟨o, ho, hoq⟩ := Trail.mem_of_lastTarget? hq
    exact hdone o ho q.1 q.2 hoq
  have hx := hresolved.x.isNaN_iff (by simpa using fun a b hq => (hlast (a, b) hq).1) valueOf?_isNaN
  have hy := hresolved.y.isNaN_iff (by simpa using fun a b hq => (hlast (b, a) hq).2) valueOf?_isNaN
  rw [hx, hy]
  constructor
  · rintro ⟨op', i', ps', mode', hop', _, hline', hps', hmode', hclash⟩
    obtain rfl := Option.some.inj (hop.symm.trans hop')
    obtain rfl := Int.ofNat.inj (hline.symm.trans hline')
    obtain rfl := Option.some.inj (hps.symm.trans hps')
    obtain rfl := Option.some.inj (hmode.symm.trans hmode')
    exact hclash
  · intro hclash
    exact ⟨op, i, ps, mode, hop, by rw [htarget]; rfl, hline, hps, hmode, hclash⟩

theorem isPlaced_iff (h : ofText tooling text = .ok program) :
    (∀ op ∈ program.operations, op.IsPlaced) ↔ ∀ n, ¬ ClashesAt text program n := by
  constructor
  · intro hplaced n hclash
    obtain ⟨op, i, ps, mode, hop, hgoes, _⟩ := id hclash
    obtain ⟨⟨x, y⟩, htarget⟩ := Option.isSome_iff_exists.mp hgoes
    obtain ⟨hx, hy⟩ := hplaced op (List.mem_of_getElem? hop) x y htarget
    rcases (clashesAt_iff h hop htarget fun o ho => hplaced o (List.mem_of_mem_take ho)).mp hclash with
      hx' | hy'
    · rw [hx] at hx'
      cases hx'
    · rw [hy] at hy'
      cases hy'
  -- the last position is a number if those of all operations before are, which carries the induction
  · intro hclash
    apply Trail.forall_of_take
    intro n op hop hdone x y htarget
    have hnumber := mt (clashesAt_iff h hop htarget hdone).mpr (hclash n)
    rwa [not_or, Bool.not_eq_true, Bool.not_eq_true] at hnumber

end Program

end TurretPunch
