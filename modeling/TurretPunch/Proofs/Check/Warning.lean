import TurretPunch.Proofs.Outcome
import TurretPunch.Proofs.Press.Bounds

namespace TurretPunch

/-!
# The warnings of a check

A check follows the tool by itself. It warns of exactly those operations at whose position the bounds
test says that the tool leaves the sheet, once each and in their order.
-/

/-- Whether a finding is that a tool leaves the sheet. -/
def Finding.isLeaving : Finding → Bool
  | leavesSheet .. => true
  | _ => false

theorem mapM_ok {α : Type} (items : List α) :
    items.mapM (fun item => (.ok item : Except Fault α)) = .ok items := by
  induction items with
  | nil => rfl
  | cons item items ih =>
      rw [List.mapM_cons, ih]
      rfl

/-- If everything was collected, every check has found something. -/
theorem checks_of_collectFindings {checks : List (Except Fault (List Finding))}
    {findings : List Finding} (h : collectFindings .ok checks = .ok findings) :
    ∃ founds : List (List Finding), checks = founds.map .ok ∧ findings = founds.flatten := by
  induction checks generalizing findings with
  | nil => exact ⟨[], rfl, (Except.ok.inj h).symm⟩
  | cons check checks ih =>
      obtain ⟨found, hcheck, h⟩ := ok_of_bind h
      obtain ⟨here, hhere, h⟩ := ok_of_bind h
      obtain ⟨more, hmore, h⟩ := ok_of_bind h
      obtain rfl : found = here := Except.ok.inj ((mapM_ok found).symm.trans hhere)
      obtain ⟨founds, hchecks, rfl⟩ := ih hmore
      exact ⟨found :: founds, by rw [hcheck, hchecks, List.map_cons], (Except.ok.inj h).symm⟩

namespace Setup

variable {setup : Setup} {ops done rest : List Operation} {op : Operation}
  {founds : List (List Finding)}

/-- The warning that an operation after others calls for. -/
def warningAfter (setup : Setup) (done : List Operation) (op : Operation) : Option Finding :=
  match op.target?, setup.outAfter (done ++ [op]) with
  | some (x, y), .ok true => some (.leavesSheet op (Trail.tool done) x y setup.sheet)
  | _, _ => none

/-- Checks of a setup find one thing of a kind about each operation, or none, and which one it is
depends on the operations before it. -/
def Finds (setup : Setup) (kind : Finding → Bool)
    (found : List Operation → Operation → Option Finding) : Prop :=
  ∀ (done : List Operation) (op : Operation) (founds : List (List Finding)),
    setup.checksOf (Trail.tool done) op = founds.map .ok →
      founds.flatten.filter kind = (found done op).toList

/-- The warning that the operation at an index calls for. -/
def warningAt (setup : Setup) (ops : List Operation) (index : Nat) : Option Finding :=
  ops[index]?.bind (setup.warningAfter (ops.take index))

theorem outAfter_of_target {x y : Float} (h : op.target? = some (x, y)) :
    setup.outAfter (done ++ [op]) = setup.leaves (Trail.tool done) x y := by
  have htool : Trail.tool (done ++ [op]) = Trail.tool done := by
    rw [Trail.tool_concat]
    cases op with
    | move | hit => rfl
    | toolChange | finish => cases h
  have hposition : Trail.position (done ++ [op]) = (x, y) := by
    rw [Trail.position_concat, h, Option.getD_some]
  rw [outAfter, htool, hposition]

theorem checkPosition_found {x y : Float} {found : List Finding} (h : op.target? = some (x, y))
    (hfound : setup.checkPosition (Trail.tool done) op x y = .ok found) :
    found = (setup.warningAfter done op).toList := by
  obtain ⟨out, hout, hfound⟩ := ok_of_bind hfound
  obtain rfl := Except.ok.inj hfound
  unfold warningAfter
  rw [h, outAfter_of_target h, hout]
  cases out <;> rfl

theorem checkSize_found {tool : Int} {size : Quantity} {found : List Finding}
    (hfound : setup.checkSize tool op size = .ok found) :
    found.filter (·.isLeaving) = [] := by
  obtain ⟨bad, _, hfound⟩ := ok_of_bind hfound
  split at hfound
  · obtain ⟨size, _, hfound⟩ := ok_of_bind hfound
    obtain rfl := Except.ok.inj hfound
    rfl
  · obtain rfl := Except.ok.inj hfound
    rfl

/-- The checks of one operation warn of it if it calls for that. -/
theorem finds_leaving (setup : Setup) : setup.Finds (·.isLeaving) setup.warningAfter := by
  intro done op founds h
  have hwarning : (setup.warningAfter done op).toList.filter (·.isLeaving) =
      (setup.warningAfter done op).toList := by
    unfold warningAfter
    split <;> rfl
  cases op with
  | toolChange | finish =>
      obtain rfl := List.map_eq_nil_iff.mp h.symm
      rfl
  | move line x y tool =>
      obtain ⟨found, rest, rfl, hfound, hrest⟩ := List.map_eq_cons_iff.mp h.symm
      obtain rfl := List.map_eq_nil_iff.mp hrest
      rw [List.flatten_singleton, checkPosition_found rfl hfound.symm, hwarning]
  | hit line x y size tool =>
      obtain ⟨found, rest, rfl, hfound, hrest⟩ := List.map_eq_cons_iff.mp h.symm
      obtain ⟨sized, rest, rfl, hsized, hrest⟩ := List.map_eq_cons_iff.mp hrest
      obtain rfl := List.map_eq_nil_iff.mp hrest
      rw [List.flatten_cons, List.flatten_singleton, List.filter_append,
        checkPosition_found rfl hfound.symm, hwarning, checkSize_found hsized.symm, List.append_nil]

theorem tool_concat_eq_toolAfter (done : List Operation) (op : Operation) :
    Trail.tool (done ++ [op]) = toolAfter (Trail.tool done) op := by
  rw [Trail.tool_concat]
  cases op <;> rfl

/-- The checks of operations find what there is to find about each of them, in order. -/
theorem Finds.checksFrom {kind : Finding → Bool}
    {found : List Operation → Operation → Option Finding} (hfinds : setup.Finds kind found)
    (h : setup.checksFrom (Trail.tool done) rest = founds.map .ok) :
    founds.flatten.filter kind = (List.range' done.length rest.length).filterMap fun index =>
      (done ++ rest)[index]?.bind (found ((done ++ rest).take index)) := by
  induction rest generalizing done founds with
  | nil =>
      obtain rfl := List.map_eq_nil_iff.mp h.symm
      rfl
  | cons op rest ih =>
      obtain ⟨here, more, rfl, hhere, hmore⟩ := List.map_eq_append_iff.mp h.symm
      have hhead : (done ++ op :: rest)[done.length]?.bind
          (found ((done ++ op :: rest).take done.length)) = found done op := by
        simp
      have hops : done ++ [op] ++ rest = done ++ op :: rest := by simp
      have hlength : (done ++ [op]).length = done.length + 1 := List.length_append
      have hrest := @ih (done ++ [op]) more (tool_concat_eq_toolAfter done op ▸ hmore.symm)
      rw [hops, hlength] at hrest
      rw [List.flatten_append, List.filter_append, hfinds done op here hhere.symm, hrest,
        List.length_cons, List.range'_succ, List.filterMap_cons, hhead]
      cases found done op <;> rfl

/-- What a check finds of a kind that is always about an operation. -/
theorem Finds.check {kind : Finding → Bool}
    {found : List Operation → Operation → Option Finding} (hfinds : setup.Finds kind found)
    (hnone : kind .noHits = false) {check : Check} (h : setup.check ops = .ok check) :
    check.findings.filter kind =
      (List.range ops.length).filterMap fun index => ops[index]?.bind (found (ops.take index)) := by
  obtain ⟨findings, hcollected, h⟩ := ok_of_bind h
  obtain ⟨founds, hchecks, rfl⟩ := checks_of_collectFindings hcollected
  have hstart : setup.checksFrom (Trail.tool []) ops = founds.map .ok := hchecks
  have hall := hfinds.checksFrom hstart
  rw [List.range_eq_range']
  split at h
  · obtain rfl := Except.ok.inj h
    have hrest : [Finding.noHits].filter kind = [] := List.filter_eq_nil_iff.mpr (by simp [hnone])
    rw [List.filter_append, hall, hrest]
    exact List.append_nil _
  · obtain rfl := Except.ok.inj h
    exact hall

/-- Whatever else a check finds, its warnings are those that the operations call for. -/
theorem leaving_of_check {check : Check} (h : setup.check ops = .ok check) :
    check.findings.filter (·.isLeaving) =
      (List.range ops.length).filterMap (setup.warningAt ops) :=
  setup.finds_leaving.check rfl h

theorem check_of_checkInWords {outcome : Check × List String}
    (h : setup.checkInWords ops = .ok outcome) : setup.check ops = .ok outcome.1 := by
  obtain ⟨_, _, h⟩ := ok_of_bind h
  obtain ⟨check, hcheck, h⟩ := ok_of_bind h
  obtain ⟨words, _, h⟩ := ok_of_bind h
  obtain rfl := Except.ok.inj h
  exact hcheck

end Setup

/-- An operation that makes no hole, or one with a size that is a number. -/
def Operation.IsSized (op : Operation) : Prop :=
  ∀ hole, op.hole? = some hole → ∃ x, hole.diameter.toFloat = .ok x

/-- An operation that goes to a finite position, with a size that is a number, in a line that can be
written. -/
structure Operation.IsCheckable (op : Operation) : Prop where
  finite : op.IsFinite
  size : ∀ hole, op.hole? = some hole → ∃ x, hole.diameter.toFloat = .ok x
  line : ∃ text, lineNumber (op.line + 1) = .ok text

/-- What is found about an operation can be worded if its line can be written. -/
theorem Finding.exists_message_of_line (finding : Finding) {op : Operation}
    (hop : finding.operation? = some op) (hline : ∃ text, lineNumber (op.line + 1) = .ok text) :
    ∃ text, finding.message = .ok text := by
  obtain ⟨line, hline⟩ := hline
  cases finding with
  | leavesSheet | badSize =>
      obtain rfl := Option.some.inj hop
      rw [message, lineText, hline]
      exact ⟨_, rfl⟩
  | noHits => cases hop

theorem exists_mapM {α β : Type} {f : α → Except Fault β} {items : List α}
    (h : ∀ item ∈ items, ∃ b, f item = .ok b) : ∃ bs, items.mapM f = .ok bs := by
  induction items with
  | nil => exact ⟨[], rfl⟩
  | cons item items ih =>
      obtain ⟨b, hb⟩ := h item List.mem_cons_self
      obtain ⟨bs, hbs⟩ := ih (fun other hother => h other (List.mem_cons_of_mem _ hother))
      refine ⟨b :: bs, ?_⟩
      rw [List.mapM_cons, hb, hbs]
      rfl

theorem exists_collectFindings {α : Type} {form : Finding → Except Fault α}
    {checks : List (Except Fault (List Finding))}
    (h : ∀ check ∈ checks, ∃ found, check = .ok found ∧ ∀ finding ∈ found, ∃ a, form finding = .ok a) :
    ∃ all, collectFindings form checks = .ok all := by
  induction checks with
  | nil => exact ⟨[], rfl⟩
  | cons check checks ih =>
      obtain ⟨found, rfl, hfound⟩ := h check List.mem_cons_self
      obtain ⟨here, hhere⟩ := exists_mapM hfound
      obtain ⟨more, hmore⟩ := ih (fun other hother => h other (List.mem_cons_of_mem _ hother))
      refine ⟨here ++ more, ?_⟩
      rw [collectFindings, bind_of_ok _ rfl, bind_of_ok _ hhere, bind_of_ok _ hmore]
      rfl

/-- The size of a hit that is a number can be compared and written. -/
theorem Quantity.isNonPositive_of_toFloat {size : Quantity} {x : Float} (h : size.toFloat = .ok x) :
    (∃ bad, size.isNonPositive = .ok bad) ∧ ∃ y, size.writable = .ok y := by
  cases size with
  | whole n => exact ⟨⟨_, rfl⟩, x, h⟩
  | real y => exact ⟨⟨_, rfl⟩, y, rfl⟩
  | other value =>
      cases hvalue : value.toInt? with
      | none => simp [toFloat, hvalue] at h
      | some n =>
          refine ⟨⟨decide (n ≤ 0), by rw [isNonPositive, hvalue]⟩, x, ?_⟩
          cases value with
          | string s => cases hvalue
          | _ => exact h

namespace Setup

variable {setup : Setup} {done ops : List Operation} {op : Operation} {tool : Int}

/-- The checks of operations are those of each one, with the tool that is active there. -/
theorem mem_checksFrom {check : Except Fault (List Finding)} :
    check ∈ setup.checksFrom (Trail.tool done) ops ↔
      ∃ index op, ops[index]? = some op ∧
        check ∈ setup.checksOf (Trail.tool (done ++ ops.take index)) op := by
  induction ops generalizing done with
  | nil => exact iff_of_false List.not_mem_nil (by simp)
  | cons op rest ih =>
      rw [checksFrom, List.mem_append, ← tool_concat_eq_toolAfter, ih]
      constructor
      · rintro (hhere | ⟨index, other, hother, hcheck⟩)
        · exact ⟨0, op, rfl, by simpa using hhere⟩
        · exact ⟨index + 1, other, hother, by simpa using hcheck⟩
      · rintro ⟨index, other, hother, hcheck⟩
        cases index with
        | zero =>
            obtain rfl := Option.some.inj hother
            exact Or.inl (by simpa using hcheck)
        | succ index => exact Or.inr ⟨index, other, hother, by simpa using hcheck⟩

theorem exists_checkPosition {x y : Float} {out : Bool} (op : Operation)
    (hout : setup.leaves tool x y = .ok out) :
    ∃ found, setup.checkPosition tool op x y = .ok found ∧
      ∀ finding ∈ found, finding.operation? = some op := by
  refine ⟨if out then [.leavesSheet op tool x y setup.sheet] else [], ?_, ?_⟩
  · unfold checkPosition
    rw [hout]
    rfl
  · intro finding hfinding
    cases out with
    | false => cases hfinding
    | true =>
        obtain rfl := List.mem_singleton.mp hfinding
        rfl

theorem exists_checkSize (op : Operation) (tool : Int) {size : Quantity} {x : Float}
    (hsize : size.toFloat = .ok x) :
    ∃ found, setup.checkSize tool op size = .ok found ∧
      ∀ finding ∈ found, finding.operation? = some op := by
  obtain ⟨⟨bad, hbad⟩, y, hy⟩ := Quantity.isNonPositive_of_toFloat hsize
  refine ⟨if bad && setup.isRound tool then [.badSize op y] else [], ?_, ?_⟩
  · rw [checkSize, bind_of_ok _ hbad]
    split
    · rw [bind_of_ok _ hy]
      rfl
    · rfl
  · intro finding hfinding
    split at hfinding
    · obtain rfl := List.mem_singleton.mp hfinding
      rfl
    · cases hfinding

theorem exists_checksOf (hsized : op.IsSized)
    (htest : ∀ x y, op.target? = some (x, y) → ∃ out, setup.leaves tool x y = .ok out)
    {check : Except Fault (List Finding)} (hcheck : check ∈ setup.checksOf tool op) :
    ∃ found, check = .ok found ∧ ∀ finding ∈ found, finding.operation? = some op := by
  cases op with
  | toolChange | finish => cases hcheck
  | move line x y t =>
      obtain rfl := List.mem_singleton.mp hcheck
      obtain ⟨out, hout⟩ := htest x y rfl
      exact exists_checkPosition _ hout
  | hit line x y size t =>
      rcases List.mem_cons.mp hcheck with rfl | hcheck
      · obtain ⟨out, hout⟩ := htest x y rfl
        exact exists_checkPosition _ hout
      · obtain rfl := List.mem_singleton.mp hcheck
        obtain ⟨d, hd⟩ := hsized _ rfl
        exact exists_checkSize _ tool hd

/-- Checks that all find something, in words, give an outcome. -/
theorem exists_checkInWords_of_checks
    (hchecks : ∀ check ∈ setup.checksFrom 1 ops,
      ∃ found, check = .ok found ∧ ∀ finding ∈ found, ∃ text, finding.message = .ok text) :
    ∃ outcome, setup.checkInWords ops = .ok outcome := by
  obtain ⟨texts, htexts⟩ := exists_collectFindings hchecks
  have hcollects : ∃ findings, collectFindings .ok (setup.checksFrom 1 ops) = .ok findings := by
    apply exists_collectFindings
    intro check hcheck
    obtain ⟨found, hfound, _⟩ := hchecks check hcheck
    exact ⟨found, hfound, fun finding _ => ⟨finding, rfl⟩⟩
  obtain ⟨findings, hfindings⟩ := hcollects
  have hworded : ∀ finding ∈ findings, ∃ text, finding.message = .ok text := by
    obtain ⟨founds, hmap, rfl⟩ := checks_of_collectFindings hfindings
    intro finding hfinding
    obtain ⟨found, hfound, hmem⟩ := List.mem_flatten.mp hfinding
    obtain ⟨same, hsame, hwords⟩ := hchecks (.ok found) (hmap ▸ List.mem_map_of_mem hfound)
    obtain rfl := Except.ok.inj hsame
    exact hwords finding hmem
  have houtcome : ∃ check, setup.check ops = .ok check ∧
      ∀ finding ∈ check.findings, ∃ text, finding.message = .ok text := by
    rw [Setup.check, bind_of_ok _ hfindings]
    split
    · refine ⟨_, rfl, fun finding hfinding => ?_⟩
      rcases List.mem_append.mp hfinding with hfound | hnone
      · exact hworded finding hfound
      · obtain rfl := List.mem_singleton.mp hnone
        exact ⟨_, rfl⟩
    · exact ⟨_, rfl, hworded⟩
  obtain ⟨check, hcheck, hwords⟩ := houtcome
  obtain ⟨words, hwords⟩ := exists_mapM hwords
  refine ⟨(check, words), ?_⟩
  rw [checkInWords, bind_of_ok _ htexts, bind_of_ok _ hcheck, bind_of_ok _ hwords]
  rfl

/-- A check has an outcome exactly if the bounds test has an answer wherever an operation goes. -/
theorem exists_checkInWords_iff (hsized : ∀ op ∈ ops, op.IsSized)
    (hlines : ∀ op ∈ ops, ∃ text, lineNumber (op.line + 1) = .ok text) :
    (∃ outcome, setup.checkInWords ops = .ok outcome) ↔
      ∀ index op, ops[index]? = some op → op.target?.isSome = true →
        ∃ out, setup.outAfter (ops.take (index + 1)) = .ok out := by
  have hmem {check : Except Fault (List Finding)} : check ∈ setup.checksFrom 1 ops ↔
      ∃ index op, ops[index]? = some op ∧ check ∈ setup.checksOf (Trail.tool (ops.take index)) op :=
    @mem_checksFrom setup [] ops check
  constructor
  · rintro ⟨outcome, houtcome⟩ index op hop hgoes
    obtain ⟨⟨x, y⟩, htarget⟩ := Option.isSome_iff_exists.mp hgoes
    obtain ⟨findings, hcollected, _⟩ := ok_of_bind (check_of_checkInWords houtcome)
    obtain ⟨founds, hchecks, _⟩ := checks_of_collectFindings hcollected
    have hcheck : setup.checkPosition (Trail.tool (ops.take index)) op x y ∈ setup.checksFrom 1 ops := by
      refine hmem.mpr ⟨index, op, hop, ?_⟩
      cases op with
      | toolChange | finish => cases htarget
      | move | hit =>
          obtain ⟨rfl, rfl⟩ := Prod.mk.inj (Option.some.inj htarget)
          exact List.mem_cons_self
    rw [hchecks] at hcheck
    obtain ⟨found, _, hfound⟩ := List.mem_map.mp hcheck
    obtain ⟨out, hout, _⟩ := ok_of_bind hfound.symm
    exact ⟨out, by rw [Trail.take_succ hop, outAfter_of_target htarget, hout]⟩
  · intro htests
    apply exists_checkInWords_of_checks
    intro check hcheck
    obtain ⟨index, op, hop, hcheck⟩ := hmem.mp hcheck
    have hinside := List.mem_of_getElem? hop
    have htest : ∀ x y, op.target? = some (x, y) →
        ∃ out, setup.leaves (Trail.tool (ops.take index)) x y = .ok out := by
      intro x y htarget
      obtain ⟨out, hout⟩ := htests index op hop (by rw [htarget]; rfl)
      rw [Trail.take_succ hop, outAfter_of_target htarget] at hout
      exact ⟨out, hout⟩
    obtain ⟨found, hfound, habout⟩ := exists_checksOf (hsized op hinside) htest hcheck
    refine ⟨found, hfound, fun finding hfinding => ?_⟩
    exact finding.exists_message_of_line (habout finding hfinding) (hlines op hinside)

/-- Operations that can be checked are checked, and everything that is found can be worded. -/
theorem exists_checkInWords (hsetup : setup.IsMeasured) (hops : ∀ op ∈ ops, op.IsCheckable) :
    ∃ outcome, setup.checkInWords ops = .ok outcome := by
  refine (exists_checkInWords_iff (fun op hop => (hops op hop).size)
    (fun op hop => (hops op hop).line)).mpr fun index op hop _ => ?_
  apply hsetup.exists_outAfter
  intro o ho
  exact (hops o (List.mem_of_mem_take ho)).finite

end Setup

end TurretPunch
