import TurretPunch.Proofs.Json.Roundtrip
import TurretPunch.Proofs.Text.Newline

namespace TurretPunch.Json

/-!
# Documents without carriage returns

A document has no carriage return in it. So nothing of it changes when newlines are unified.
-/

open Text (IsFigures)

variable {value : Json} {cs ds : List Char}

theorem return_not_mem_of_figures (h : IsFigures cs) : '\r' ∉ cs := by
  intro hmem
  cases h '\r' hmem

theorem return_not_mem_signText (negative : Bool) : '\r' ∉ signText negative := by
  cases negative <;> decide

theorem return_not_mem_zeros (k : Nat) : '\r' ∉ List.replicate k '0' :=
  return_not_mem_of_figures (isFigures_zeros k)

theorem return_not_mem_exponentText (e : Int) : '\r' ∉ Decimal.exponentText e := by
  have hfigures := return_not_mem_of_figures (isFigures_exponentFigures e)
  rw [exponentText_eq]
  split <;> simp [hfigures]

theorem return_not_mem_write (hds : '\r' ∉ ds) (e : Int) :
    '\r' ∉ Decimal.shortestLayout.write ds e := by
  have htake (n : Nat) : '\r' ∉ ds.take n := fun h => hds (List.mem_of_mem_take h)
  have hdrop (n : Nat) : '\r' ∉ ds.drop n := fun h => hds (List.mem_of_mem_drop h)
  have hexponent := return_not_mem_exponentText e
  have hzeros := return_not_mem_zeros
  unfold Decimal.Layout.write
  dsimp only
  split
  · split
    · simp [htake, hexponent]
    · simpa [htake, hexponent] using hdrop 1
  · split
    · simp [hds, hzeros]
    · split
      · split <;> simp [htake, hzeros]
      · simp [htake, hdrop, hzeros]

theorem return_not_mem_floatText (x : Float) : '\r' ∉ (floatText x).toList := by
  unfold floatText
  cases hreading : Decimal.Reading.ofFloat x with
  | nan => exact show '\r' ∉ "NaN".toList by decide
  | infinite negative =>
      cases negative with
      | false => exact show '\r' ∉ "Infinity".toList by decide
      | true => exact show '\r' ∉ "-Infinity".toList by decide
  | finite f =>
      dsimp only
      unfold Decimal.shortest
      rw [hreading]
      dsimp only
      rw [apply_ite String.toList]
      split
      · rw [signed_eq]
        simp [return_not_mem_signText]
      · next hpos =>
        obtain ⟨n, first, hdigits, _⟩ := Decimal.shortestDigits_spec
          (Decimal.isDouble_of_reading hreading) (Nat.pos_of_ne_zero hpos)
        obtain ⟨k, hk⟩ := Decimal.exists_append_dropTrailingZeros (Decimal.digits n)
        have hds : '\r' ∉ Decimal.dropTrailingZeros (Decimal.digits n) := by
          intro hmem
          apply return_not_mem_of_figures (Decimal.isFigures_digits n)
          rw [hk]
          exact List.mem_append_left _ hmem
        rw [hdigits, signed_eq]
        simp [return_not_mem_signText, return_not_mem_write hds]

theorem return_not_mem_breakChars (depth : Nat) : '\r' ∉ breakChars depth := by
  simp [breakChars]

theorem return_not_mem_nameChars (s : String) : '\r' ∉ nameChars (.ofString s) := by
  rw [nameChars_ofString]
  simp [return_not_mem_stringChar]

theorem return_not_mem_integer (n : Int) : '\r' ∉ (Decimal.integer n).toList := by
  have hdigits := return_not_mem_of_figures (Decimal.isFigures_digits n.natAbs)
  rw [Decimal.integer, String.toList_ofList]
  split
  · simp [hdigits]
  · exact hdigits

variable {items : List Json} {members : List (Text.Points × Json)} {depth : Nat}

theorem return_not_mem_array (h : ∀ item ∈ items, ∀ depth, '\r' ∉ chars depth item) :
    '\r' ∉ chars depth (.array items) := by
  cases items with
  | nil =>
      rw [chars, pieces]
      decide
  | cons first items =>
      have hitems : '\r' ∉ itemsChars depth items := by
        intro hmem
        obtain ⟨item, hitem, hmem⟩ := List.mem_flatMap.mp hmem
        simp [return_not_mem_breakChars, h item (List.mem_cons_of_mem _ hitem)] at hmem
      rw [chars_array_cons]
      simp [return_not_mem_breakChars, h first List.mem_cons_self, hitems]

theorem return_not_mem_object (hnames : ∀ m ∈ members, ∃ s : String, m.1 = .ofString s)
    (h : ∀ m ∈ members, ∀ depth, '\r' ∉ chars depth m.2) :
    '\r' ∉ chars depth (.object members) := by
  have hmember (m : Text.Points × Json) (hm : m ∈ members) : '\r' ∉ memberChars depth m := by
    obtain ⟨s, hs⟩ := hnames m hm
    rw [memberChars, hs]
    simp [return_not_mem_nameChars, h m hm]
  cases members with
  | nil =>
      rw [chars, pieces]
      decide
  | cons first members =>
      have hmembers : '\r' ∉ membersChars depth members := by
        intro hmem
        obtain ⟨m, hm, hmem⟩ := List.mem_flatMap.mp hmem
        simp [return_not_mem_breakChars, hmember m (List.mem_cons_of_mem _ hm)] at hmem
      rw [chars_object_cons]
      simp [return_not_mem_breakChars, hmember first List.mem_cons_self, hmembers]

theorem IsRegular.return_not_mem (h : value.IsRegular) (depth : Nat) : '\r' ∉ chars depth value := by
  induction h generalizing depth with
  | null =>
      rw [chars, pieces]
      decide
  | bool b =>
      cases b <;> rw [chars, pieces] <;> decide
  | @int n _ =>
      rw [chars, pieces, List.flatMap_singleton]
      exact return_not_mem_integer n
  | @float x _ =>
      rw [chars, pieces, List.flatMap_singleton]
      exact return_not_mem_floatText x
  | string s =>
      rw [chars, pieces, List.flatMap_singleton, toList_stringText]
      exact return_not_mem_nameChars s
  | array _ ih => exact return_not_mem_array ih
  | object hnames _ _ ih => exact return_not_mem_object hnames ih

end TurretPunch.Json
