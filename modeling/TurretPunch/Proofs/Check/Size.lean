import TurretPunch.Proofs.Session.Acceptance

namespace TurretPunch

/-!
# The errors of a check

A check calls a size bad that is not positive, while a round tool or an unknown one is active. In a
program that was read from a text the reader and the check follow the same tool. So the sizes that the
reader takes from the turret are never bad, and a bad size was written in the line of its hit.
-/

/-- Whether a finding is an error. -/
def Finding.isError (finding : Finding) : Bool := finding.severity == .error

namespace Setup

variable {setup : Setup} {done : List Operation} {op : Operation}

/-- The error that an operation after others calls for. -/
def errorAfter (setup : Setup) (done : List Operation) (op : Operation) : Option Finding :=
  match op with
  | .hit _ _ _ size _ =>
    match size.isNonPositive, size.writable with
    | .ok true, .ok x =>
      if setup.isRound (Trail.tool done) then some (.badSize op x) else none
    | _, _ => none
  | _ => none

theorem not_isError_of_position {x y : Float} {found : List Finding} (tool : Int)
    (h : setup.checkPosition tool op x y = .ok found) : found.filter (·.isError) = [] := by
  obtain ⟨out, _, h⟩ := ok_of_bind h
  obtain rfl := Except.ok.inj h
  cases out <;> rfl

theorem errorAfter_of_checkSize {line : Int} {x y : Float} {size : Quantity} {tool : Int}
    {found : List Finding}
    (h : setup.checkSize (Trail.tool done) (.hit line x y size tool) size = .ok found) :
    found = (setup.errorAfter done (.hit line x y size tool)).toList := by
  obtain ⟨bad, hbad, h⟩ := ok_of_bind h
  unfold errorAfter
  dsimp only
  rw [hbad]
  cases bad with
  | false =>
      obtain rfl := Except.ok.inj h
      rfl
  | true =>
      cases hround : setup.isRound (Trail.tool done) with
      | false =>
          rw [hround] at h
          obtain rfl := Except.ok.inj h
          cases size.writable <;> rfl
      | true =>
          rw [hround] at h
          obtain ⟨d, hd, h⟩ := ok_of_bind h
          obtain rfl := Except.ok.inj h
          rw [hd]
          rfl

/-- The checks of one operation find the error that it calls for. -/
theorem finds_errors (setup : Setup) : setup.Finds (·.isError) setup.errorAfter := by
  intro done op founds h
  cases op with
  | toolChange | finish =>
      obtain rfl := List.map_eq_nil_iff.mp h.symm
      rfl
  | move line x y tool =>
      obtain ⟨found, rest, rfl, hfound, hrest⟩ := List.map_eq_cons_iff.mp h.symm
      obtain rfl := List.map_eq_nil_iff.mp hrest
      rw [List.flatten_singleton, not_isError_of_position _ hfound.symm]
      rfl
  | hit line x y size tool =>
      obtain ⟨found, rest, rfl, hfound, hrest⟩ := List.map_eq_cons_iff.mp h.symm
      obtain ⟨sized, rest, rfl, hsized, hrest⟩ := List.map_eq_cons_iff.mp hrest
      obtain rfl := List.map_eq_nil_iff.mp hrest
      have herrors : (setup.errorAfter done (.hit line x y size tool)).toList.filter (·.isError) =
          (setup.errorAfter done (.hit line x y size tool)).toList := by
        unfold errorAfter
        dsimp only
        split
        · split <;> rfl
        · rfl
      rw [List.flatten_cons, List.flatten_singleton, List.filter_append,
        not_isError_of_position _ hfound.symm, List.nil_append,
        errorAfter_of_checkSize hsized.symm, herrors]

end Setup

/-- The size word in the line that an operation was read from. -/
def Program.sizeWord (text : Text.Points) (op : Operation) : Option Float :=
  (Text.lines text.toList)[op.line.toNat]?.bind fun ps => (Words.inLine ps).size

theorem Program.sizeWord_eq_some {text : Text.Points} {op : Operation} {size : Float} {i : Nat}
    (hline : op.line = i) : sizeWord text op = some size ↔
      ∃ ps, (Text.lines text.toList)[i]? = some ps ∧ (Words.inLine ps).size = some size := by
  rw [sizeWord, hline, Int.toNat_natCast, Option.bind_eq_some_iff]

namespace Setup

variable {setup : Setup} {text : Text.Points} {program : Program} {done : List Operation}
  {op : Operation} {finding : Finding}

/-- The error that an operation after others calls for by the size word in its line. -/
def wordedError (setup : Setup) (text : Text.Points) (done : List Operation) (op : Operation) :
    Option Finding :=
  match op.hole?, Program.sizeWord text op with
  | some _, some size =>
    if size ≤ 0.0 ∧ setup.isRound (Trail.tool done) = true then some (.badSize op size) else none
  | _, _ => none

theorem wordedError_eq_some : setup.wordedError text done op = some finding ↔
    ∃ size, op.hole?.isSome = true ∧ Program.sizeWord text op = some size ∧ size ≤ 0.0 ∧
      setup.isRound (Trail.tool done) = true ∧ finding = .badSize op size := by
  unfold wordedError
  constructor
  · intro h
    split at h
    · next hhole hword =>
      obtain ⟨⟨hsize, hround⟩, h⟩ := Option.ite_some_none_eq_some.mp h
      exact ⟨_, by rw [hhole]; rfl, hword, hsize, hround, h.symm⟩
    · cases h
  · rintro ⟨size, hhole, hword, hsize, hround, rfl⟩
    obtain ⟨hole, hhole⟩ := Option.isSome_iff_exists.mp hhole
    rw [hhole, hword]
    exact if_pos ⟨hsize, hround⟩

/-- A turret with round tools that have a size, and a size for a punch at a station without a tool. -/
structure HasSizes (setup : Setup) : Prop where
  tools : ∀ tool ∈ setup.turret.tools, tool.isRound = true →
    tool.diameter.isNonPositive = .ok false
  fallback : setup.fallback.isNonPositive = .ok false

/-- A size that was taken from the turret is bad for no round tool. -/
theorem errorAfter_of_size (hsizes : setup.HasSizes) {line : Int} {x y : Float} {size : Quantity}
    {word : Option Float}
    (h : Program.Sized ⟨setup.turret, setup.fallback⟩ (Trail.tool done) word size) :
    setup.errorAfter done (.hit line x y size (Trail.tool done)) = word.bind fun d =>
      if d ≤ 0.0 ∧ setup.isRound (Trail.tool done) = true then
        some (.badSize (.hit line x y size (Trail.tool done)) d) else none := by
  unfold errorAfter
  dsimp only
  cases h with
  | word d =>
      by_cases hd : d ≤ 0.0
      · simp [Quantity.isNonPositive, Quantity.writable, Quantity.toFloat, hd]
      · simp [Quantity.isNonPositive, hd]
  | @tool t ht =>
      cases hround : t.isRound with
      | true =>
          rw [hsizes.tools t (List.mem_of_find?_eq_some ht) hround]
          rfl
      | false =>
          have hshaped : setup.isRound (Trail.tool done) = false := by
            rw [isRound, ht]
            exact hround
          rw [hshaped]
          split <;> rfl
  | fallback =>
      rw [hsizes.fallback]
      rfl

/-- In a program that was read from a text only size words call for errors. -/
theorem errorAfter_of_ofText (hsizes : setup.HasSizes)
    (h : Program.ofText ⟨setup.turret, setup.fallback⟩ text = .ok program) {index : Nat}
    (hop : program.operations[index]? = some op) :
    setup.errorAfter (program.operations.take index) op =
      setup.wordedError text (program.operations.take index) op := by
  cases op with
  | toolChange | move | finish => rfl
  | hit line x y size tool =>
      obtain ⟨i, ps, hline, hps, hattributed⟩ := Program.attributed_of_ofText h hop rfl
      obtain rfl := hattributed.tool tool rfl
      have hsized := hattributed.size _ rfl
      have hword : Program.sizeWord text
          (.hit line x y size (Trail.tool (program.operations.take index))) =
            (Program.Words.inLine ps).size := by
        unfold Program.sizeWord
        rw [hline, Int.toNat_natCast, hps, Option.bind_some]
      rw [errorAfter_of_size hsizes hsized, wordedError, hword]
      cases (Program.Words.inLine ps).size <;> rfl

theorem errors_of_check {check : Check} (hsizes : setup.HasSizes)
    (h : Program.ofText ⟨setup.turret, setup.fallback⟩ text = .ok program)
    (hcheck : setup.check program.operations = .ok check) :
    check.findings.filter (·.isError) =
      (List.range program.operations.length).filterMap fun index =>
        program.operations[index]?.bind
          (setup.wordedError text (program.operations.take index)) := by
  rw [setup.finds_errors.check rfl hcheck]
  congr 1
  funext index
  cases hop : program.operations[index]? with
  | none => rfl
  | some op => exact errorAfter_of_ofText hsizes h hop

section Errors

variable {check : Check} (hsizes : setup.HasSizes)
  (h : Program.ofText ⟨setup.turret, setup.fallback⟩ text = .ok program)
  (hcheck : setup.check program.operations = .ok check)
include hsizes h hcheck

theorem mem_errors_of_check (finding : Finding) :
    finding ∈ check.findings ∧ finding.isError = true ↔
      ∃ (index : Nat) (op : Operation), program.operations[index]? = some op ∧
        setup.wordedError text (program.operations.take index) op = some finding := by
  rw [← List.mem_filter, errors_of_check hsizes h hcheck, List.mem_filterMap]
  constructor
  · rintro ⟨index, _, hfound⟩
    obtain ⟨op, hop, hfound⟩ := Option.bind_eq_some_iff.mp hfound
    exact ⟨index, op, hop, hfound⟩
  · rintro ⟨index, op, hop, hfound⟩
    have hlt : index < program.operations.length := (List.getElem?_eq_some_iff.mp hop).1
    exact ⟨index, List.mem_range.mpr hlt, Option.bind_eq_some_iff.mpr ⟨op, hop, hfound⟩⟩

/-- A line has an error exactly if a hit was read from it whose size word is bad. -/
theorem exists_error_in_line_iff (i : Nat) :
    (∃ finding ∈ check.findings, finding.severity = .error ∧
        ∃ op, finding.operation? = some op ∧ op.line = i) ↔
      ∃ (index : Nat) (op : Operation) (ps : List Text.Point) (size : Float),
        program.operations[index]? = some op ∧ op.hole?.isSome = true ∧ op.line = i ∧
        (Text.lines text.toList)[i]? = some ps ∧ (Program.Words.inLine ps).size = some size ∧
        size ≤ 0.0 ∧ setup.isRound (Trail.tool (program.operations.take index)) = true := by
  constructor
  · rintro ⟨finding, hfinding, herror, op', hop', hline⟩
    have hisError : finding.isError = true := by simp [herror, Finding.isError]
    obtain ⟨index, op, hop, hfound⟩ :=
      (mem_errors_of_check hsizes h hcheck finding).mp ⟨hfinding, hisError⟩
    obtain ⟨size, hhole, hword, hsize, hround, rfl⟩ := wordedError_eq_some.mp hfound
    obtain rfl : op = op' := Option.some.inj hop'
    obtain ⟨ps, hps, hword⟩ := (Program.sizeWord_eq_some hline).mp hword
    exact ⟨index, op, ps, size, hop, hhole, hline, hps, hword, hsize, hround⟩
  · rintro ⟨index, op, ps, size, hop, hhole, hline, hps, hword, hsize, hround⟩
    have hfound : setup.wordedError text (program.operations.take index) op =
        some (.badSize op size) :=
      wordedError_eq_some.mpr ⟨size, hhole,
        (Program.sizeWord_eq_some hline).mpr ⟨ps, hps, hword⟩, hsize, hround, rfl⟩
    obtain ⟨hfinding, _⟩ := (mem_errors_of_check hsizes h hcheck _).mpr ⟨index, op, hop, hfound⟩
    exact ⟨_, hfinding, rfl, op, rfl, hline⟩

theorem hasErrors_of_no_size
    (hwords : ∀ ps ∈ Text.lines text.toList, (Program.Words.inLine ps).size = none) :
    check.hasErrors = false := by
  rw [Check.hasErrors, List.any_eq_false]
  intro finding hfinding herror
  obtain ⟨index, op, _, hfound⟩ :=
    (mem_errors_of_check hsizes h hcheck finding).mp ⟨hfinding, herror⟩
  obtain ⟨size, _, hword, _⟩ := wordedError_eq_some.mp hfound
  obtain ⟨ps, hps, hsize⟩ := Option.bind_eq_some_iff.mp hword
  cases (hwords ps (List.mem_of_getElem? hps)).symm.trans hsize

end Errors

/-- A check of a program against the turret that it was read for finds an error for each hit with a size
word in its line that is not positive, while a round tool or an unknown one is active, in their order,
and no other error. On a sheet with ends, with sizes that are numbers and finite positions, it always
has an outcome. -/
theorem check_errors_from_words (hsizes : setup.HasSizes)
    (h : Program.ofText ⟨setup.turret, setup.fallback⟩ text = .ok program) :
    let ops := program.operations
    let lines := Text.lines text.toList
    (∀ outcome, setup.checkInWords ops = .ok outcome →
      outcome.1.findings.filter (·.severity == .error) =
        ((List.range ops.length).filterMap fun index =>
          ops[index]?.bind (setup.wordedError text (ops.take index))) ∧
      (∀ i : Nat, (∃ finding ∈ outcome.1.findings, finding.severity = .error ∧
          ∃ op, finding.operation? = some op ∧ op.line = i) ↔
        ∃ (index : Nat) (op : Operation) (ps : List Text.Point) (size : Float),
          ops[index]? = some op ∧ op.hole?.isSome = true ∧ op.line = i ∧ lines[i]? = some ps ∧
          (Program.Words.inLine ps).size = some size ∧ size ≤ 0.0 ∧
          setup.isRound (Trail.tool (ops.take index)) = true) ∧
      ((∀ ps ∈ lines, (Program.Words.inLine ps).size = none) → outcome.1.hasErrors = false)) ∧
    (setup.sheet.IsBounded → setup.turret.IsSized setup.fallback → (∀ op ∈ ops, op.IsFinite) →
      (lines.length : Int) < 10 ^ Text.maxDigits →
        ∃ outcome, setup.checkInWords ops = .ok outcome) := by
  intro ops lines
  refine ⟨?_, ?_⟩
  · intro outcome houtcome
    have hcheck := check_of_checkInWords houtcome
    exact ⟨errors_of_check hsizes h hcheck, exists_error_in_line_iff hsizes h hcheck,
      hasErrors_of_no_size hsizes h hcheck⟩
  · intro hsheet hsized hfinite hlines
    have hmeasured : setup.IsMeasured := ⟨hsheet, hsized.exists_extents⟩
    refine (setup.checkInWords_of_ofText h hlines hsized).mpr fun index op hop _ => ?_
    apply hmeasured.exists_outAfter
    exact fun o ho => hfinite o (List.mem_of_mem_take ho)

/-- One hit in its line, with a size of zero. -/
def sizeless : Program := ⟨[.hit 0 50.0 4.0 (.real 0.0) 1, .finish 0], [.absolute, .absolute], []⟩

theorem ofText_sizeless :
    Program.ofText ⟨Turret.empty, .real 8.0⟩ "G81 X50 Y4 D0" = .ok sizeless := by
  with_unfolding_all rfl

theorem hasSizes_empty (sheet : Sheet) : HasSizes ⟨Turret.empty, .real 8.0, sheet⟩ where
  tools _ htool := nomatch htool
  fallback := congrArg Except.ok (by decide +kernel)

theorem isFinite_sizeless : ∀ op ∈ sizeless.operations, op.IsFinite := by
  simp only [sizeless, List.forall_mem_cons]
  refine ⟨Operation.isFinite_hit _ _ _ ?_ ?_, Operation.isFinite_finish _, nofun⟩
  all_goals decide +kernel

theorem check_errors_from_words_sizeless :
    let setup : Setup := ⟨Turret.empty, .real 8.0, ⟨300.0, 300.0⟩⟩
    ∃ check words, setup.checkInWords sizeless.operations = .ok (check, words) ∧
      check.findings.filter (·.severity == .error) =
        ((List.range 2).filterMap fun index => sizeless.operations[index]?.bind
          (setup.wordedError "G81 X50 Y4 D0" (sizeless.operations.take index))) ∧
      ∃ finding ∈ check.findings, finding.severity = .error := by
  intro setup
  have hsizes : setup.HasSizes := hasSizes_empty _
  obtain ⟨hfinds, hgives⟩ := check_errors_from_words hsizes ofText_sizeless
  have hlines : ((Text.lines ("G81 X50 Y4 D0" : Text.Points).toList).length : Int) <
      10 ^ Text.maxDigits := lt_pow_maxDigits (by decide)
  have hsheet : setup.sheet.IsBounded := ⟨by decide +kernel, by decide +kernel⟩
  obtain ⟨⟨check, words⟩, hcheck⟩ :=
    hgives hsheet (Bench.isSized_empty 8.0) isFinite_sizeless hlines
  obtain ⟨herrors, hline, _⟩ := hfinds _ hcheck
  refine ⟨check, words, hcheck, herrors, ?_⟩
  obtain ⟨finding, hfinding, herror, _⟩ := (hline 0).mpr
    ⟨0, _, _, 0.0, rfl, rfl, rfl, rfl, by with_unfolding_all rfl, by decide +kernel, rfl⟩
  exact ⟨finding, hfinding, herror⟩

/-- On a sheet without end the check of a hit with a bad size can have no outcome. -/
theorem check_of_size_fails_on_endless_sheet :
    let setup : Setup := ⟨Turret.empty, .real 8.0, ⟨Decimal.infinity, 300.0⟩⟩
    setup.HasSizes ∧ Program.ofText ⟨Turret.empty, .real 8.0⟩ "G81 X50 Y4 D0" = .ok sizeless ∧
      (∀ op ∈ sizeless.operations, op.IsFinite) ∧
      Program.sizeWord "G81 X50 Y4 D0" (.hit 0 50.0 4.0 (.real 0.0) 1) = some 0.0 ∧
      setup.isRound (Trail.tool []) = true ∧
      ∀ outcome, setup.checkInWords sizeless.operations ≠ .ok outcome := by
  intro setup
  have hcheck : (setup.checkInWords sizeless.operations).isOk = false := by decide +kernel
  refine ⟨hasSizes_empty _, ofText_sizeless, isFinite_sizeless, by with_unfolding_all rfl, rfl, ?_⟩
  intro outcome houtcome
  rw [houtcome] at hcheck
  cases hcheck

end Setup

end TurretPunch
