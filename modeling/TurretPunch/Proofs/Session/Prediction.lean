import TurretPunch.Proofs.Check.Warning
import TurretPunch.Proofs.Program.Ending
import TurretPunch.Proofs.Session.Drain

namespace TurretPunch

/-!
# What a check predicts

A check, a run and a seek each follow the operations in a way of their own. They all put the same
question to the bounds test, with the tool of the trail and at its position, so that a check warns of
an operation exactly if the step shows that the tool leaves the sheet.
-/

namespace Setup

variable {setup : Setup} {ops : List Operation} {index : Nat} {op : Operation}

/-- An operation that goes somewhere calls for a warning if the test says that the tool leaves. -/
theorem isSome_warningAt (hop : ops[index]? = some op) (htarget : op.target?.isSome = true) :
    (setup.warningAt ops index).isSome = true ↔
      setup.outAfter (ops.take (index + 1)) = .ok true := by
  obtain ⟨⟨x, y⟩, hxy⟩ := Option.isSome_iff_exists.mp htarget
  have htake : ops.take (index + 1) = ops.take index ++ [op] := Trail.take_succ hop
  rw [warningAt, hop, Option.bind_some, warningAfter, hxy, htake]
  cases setup.outAfter (ops.take index ++ [op]) with
  | error fault => simp
  | ok out => cases out <;> simp

theorem isSome_warningAt_of_outAfter {out : Bool} (hop : ops[index]? = some op)
    (htarget : op.target?.isSome = true) (htest : setup.outAfter (ops.take (index + 1)) = .ok out) :
    (setup.warningAt ops index).isSome = true ↔ out = true := by
  rw [isSome_warningAt hop htarget, htest, Except.ok.injEq]

/-- A warning is about the operation that calls for it. -/
theorem warningAt_eq_some {finding : Finding} (h : setup.warningAt ops index = some finding) :
    ∃ op x y, ops[index]? = some op ∧ op.target? = some (x, y) ∧
      finding = .leavesSheet op (Trail.tool (ops.take index)) x y setup.sheet := by
  obtain ⟨op, hop, hwarning⟩ := Option.bind_eq_some_iff.mp h
  unfold warningAfter at hwarning
  split at hwarning
  · next x y hxy _ => exact ⟨op, x, y, hop, hxy, (Option.some.inj hwarning).symm⟩
  · cases hwarning

end Setup

namespace Session

variable {s : Session} {index : Nat} {op : Operation}

/-- A seek to an operation that goes somewhere asks the bounds test what a run would ask it. -/
theorem seek_of_target (hidle : s.phase ≠ .running) (hop : s.operations[index]? = some op)
    (htarget : op.target?.isSome = true) :
    (s.seek index).result = (s.setup.outAfter (s.operations.take (index + 1))).map fun out =>
      some ((s.soughtTo index op out).snapshot (some op) none none) := by
  have hshows := Replay.shows_ofOperations s.interval (s.operations.take (index + 1))
  obtain ⟨q, hq⟩ := Option.isSome_iff_exists.mp htarget
  have hposition : Trail.position (s.operations.take (index + 1)) = q := by
    rw [Trail.take_succ hop, Trail.position_concat, hq, Option.getD_some]
  have hleaves : Session.pressLeaves { s with press := s.pressAt index op } =
      s.setup.outAfter (s.operations.take (index + 1)) := by
    show s.setup.leaves (Replay.ofOperations s.interval (s.operations.take (index + 1))).tool
      (op.target?.getD (0.0, 0.0)).1 (op.target?.getD (0.0, 0.0)).2 = _
    rw [hshows.tool, hq, Option.getD_some, Setup.outAfter, hposition]
  have hfound :
      (if (0 : Int) ≤ index then s.operations[(index : Int).toNat]? else none) = some op := by
    rw [if_pos (Int.natCast_nonneg _), Int.toNat_natCast, hop]
  unfold seek
  rw [if_neg (fun hrunning => hidle (isRunning_iff.mp hrunning)), hfound]
  dsimp only
  unfold seekTo
  dsimp only
  rw [if_pos htarget, Int.toNat_natCast, hleaves]
  cases s.setup.outAfter (s.operations.take (index + 1)) <;> rfl

/-- What a seek shows is what the bounds test says. -/
theorem bounds_of_seek {shot : Snapshot} (hidle : s.phase ≠ .running)
    (hop : s.operations[index]? = some op) (htarget : op.target?.isSome = true)
    (hseek : (s.seek index).result = .ok (some shot)) :
    shot.step = index ∧ s.setup.outAfter (s.operations.take (index + 1)) = .ok shot.outOfBounds := by
  rw [seek_of_target hidle hop htarget] at hseek
  cases htest : s.setup.outAfter (s.operations.take (index + 1)) with
  | error fault =>
      rw [htest] at hseek
      cases hseek
  | ok out =>
      rw [htest] at hseek
      obtain rfl := Option.some.inj (Except.ok.inj hseek)
      exact ⟨rfl, rfl⟩

theorem exists_seek (hsetup : s.setup.IsMeasured) (hops : ∀ op ∈ s.operations, op.IsFinite)
    (hidle : s.phase ≠ .running) (hop : s.operations[index]? = some op)
    (htarget : op.target?.isSome = true) : ∃ shot, (s.seek index).result = .ok (some shot) := by
  have hfinite : ∀ op ∈ s.operations.take (index + 1), op.IsFinite :=
    fun op hmem => hops op (List.mem_of_mem_take hmem)
  obtain ⟨out, htest⟩ := hsetup.exists_outAfter hfinite
  rw [seek_of_target hidle hop htarget, htest]
  exact ⟨_, rfl⟩

end Session

/-- An operation that goes somewhere comes before the end. -/
theorem lt_findIdx_of_endsLast {ops : List Operation} {index : Nat} {op : Operation}
    (hends : EndsLast ops) (hop : ops[index]? = some op) (htarget : op.target?.isSome = true) :
    index < ops.findIdx (·.isFinish) := by
  have hindex := (List.getElem?_eq_some_iff.mp hop).1
  by_contra hle
  let first := ops.findIdx (·.isFinish)
  have hfirst : first < ops.length := by omega
  have hfinish : ops[first].isFinish = true := List.findIdx_getElem
  have hne : first ≠ index := by
    intro heq
    have hsame : ops[first] = op := by
      obtain ⟨_, hget⟩ := List.getElem?_eq_some_iff.mp hop
      simp only [heq, hget]
    rw [hsame, Operation.isFinish_of_target htarget] at hfinish
    cases hfinish
  have hmem : ops[first] ∈ ops.dropLast := by
    refine List.mem_of_getElem? (i := first) ?_
    rw [List.getElem?_dropLast, if_pos (by omega), List.getElem?_eq_getElem hfirst]
  rw [hends _ hmem] at hfinish
  cases hfinish

theorem CallResult.eq_ok_of_snapshots {result : Except Fault (List Snapshot)}
    {shots : List Snapshot} (h : Bench.resultOf .snapshots result = .snapshots shots) :
    result = .ok shots := by
  cases result with
  | error fault => cases h
  | ok all =>
      obtain rfl := CallResult.snapshots.inj h
      rfl

/-- A step of a run shows what the bounds test says of the operation. -/
theorem Traced.exists_step {setup : Setup} {ops : List Operation} {interval : Float} {s : Session}
    {phase : Phase} {shots : List Snapshot} {index : Nat} {op : Operation}
    (h : Traced setup ops interval phase 0 ops (.ok shots) s) (hends : EndsLast ops)
    (hop : ops[index]? = some op) (htarget : op.target?.isSome = true) :
    ∃ shot, shots[index]? = some shot ∧ shot.ShowsStep setup ops index op phase := by
  obtain ⟨steps, last, report, rfl, hlength, hsteps, _⟩ := h.snapshots rfl
  have hindex := lt_findIdx_of_endsLast hends hop htarget
  obtain ⟨shot, hshot, hshows⟩ := hsteps index op hindex hop
  rw [Nat.zero_add] at hshows
  refine ⟨shot, ?_, hshows⟩
  rw [List.getElem?_append_left (by omega), hshot]

/-- Whenever a check, a run that is drained on a quiet bench and a seek give what they are asked for,
they agree: the check warns once of each operation that the other two show off the sheet, in order, and
of nothing else. On a sheet with ends, with sizes that are numbers, finite positions and lines that can
be written, all of them do. -/
theorem Setup.check_predicts_playback (m n : Nat) {b : Bench} {program : Program}
    (hquiet : b.Quiet) (hidle : b.session.phase ≠ .running)
    (hprogram : b.session.program = some program) (herrors : program.errors = [])
    (hends : EndsLast program.operations) (kept : Bool) :
    let ops := program.operations
    let setup := b.session.setup
    let drained := (b.perform (m + 1) (.run kept)).1.perform (n + 1) (.drain none)
    (∀ check words, setup.checkInWords ops = .ok (check, words) →
      check.findings.filter (·.isLeaving) =
        (List.range ops.length).filterMap (setup.warningAt ops)) ∧
    (∀ (index : Nat) (finding : Finding), setup.warningAt ops index = some finding →
      ∃ op x y, ops[index]? = some op ∧ op.target? = some (x, y) ∧
        finding = .leavesSheet op (Trail.tool (ops.take index)) x y setup.sheet) ∧
    (∀ (index : Nat) (op : Operation), ops[index]? = some op → op.target?.isSome = true →
      (∀ shots, drained.2 = .snapshots shots →
        ∃ shot, shots[index]? = some shot ∧ shot.step = index ∧
          ((setup.warningAt ops index).isSome = true ↔ shot.outOfBounds = true)) ∧
      (∀ (s : Session) (shot : Snapshot), s.phase ≠ .running → s.program = some program →
        s.setup = setup → (s.seek index).result = .ok (some shot) →
          shot.step = index ∧
            ((setup.warningAt ops index).isSome = true ↔ shot.outOfBounds = true))) ∧
    (setup.IsMeasured → (∀ op ∈ ops, op.IsCheckable) →
      (∃ outcome, setup.checkInWords ops = .ok outcome) ∧
      (∃ shots, drained.2 = .snapshots shots) ∧
      ∀ (index : Nat) (op : Operation), ops[index]? = some op → op.target?.isSome = true →
        ∀ s : Session, s.phase ≠ .running → s.program = some program → s.setup = setup →
          ∃ shot, (s.seek index).result = .ok (some shot)) ∧
    ∀ tooling text parsed, Program.ofText tooling text = .ok parsed →
      EndsLast parsed.operations := by
  obtain ⟨b', result, hdrained, htraced⟩ := hquiet.run_drain m n hidle hprogram herrors kept
  dsimp only
  rw [hdrained]
  refine ⟨?_, fun index finding => warningAt_eq_some, fun index op hop htarget => ⟨?_, ?_⟩,
    fun hmeasured hcheckable => ⟨exists_checkInWords hmeasured hcheckable, ?_, ?_⟩,
    fun tooling text parsed => Program.endsLast_ofText⟩
  · intro check words hcheck
    exact leaving_of_check (check_of_checkInWords hcheck)
  · intro shots hshots
    obtain rfl := CallResult.eq_ok_of_snapshots hshots
    obtain ⟨shot, hshot, hshows⟩ := htraced.exists_step hends hop htarget
    exact ⟨shot, hshot, hshows.step, isSome_warningAt_of_outAfter hop htarget hshows.bounds⟩
  · intro s shot hs hsprogram hsetup hseek
    have hsops := Session.operations_of_program hsprogram
    obtain ⟨hstep, htest⟩ := Session.bounds_of_seek hs (hsops ▸ hop) htarget hseek
    rw [hsops, hsetup] at htest
    exact ⟨hstep, isSome_warningAt_of_outAfter hop htarget htest⟩
  · obtain ⟨all, hall⟩ := htraced.exists_snapshots fun i _ =>
      hmeasured.exists_outAfter fun op hop => (hcheckable op (List.mem_of_mem_take hop)).finite
    exact ⟨all, by rw [hall]; rfl⟩
  · intro index op hop htarget s hs hsprogram hsetup
    have hsops := Session.operations_of_program hsprogram
    have hfinite : ∀ op ∈ s.operations, op.IsFinite := by
      intro op hmem
      rw [hsops] at hmem
      exact (hcheckable op hmem).finite
    exact Session.exists_seek (hsetup.symm ▸ hmeasured) hfinite hs (hsops ▸ hop) htarget

theorem Bench.endsLast_twoHits : EndsLast twoHits.operations := by
  show ∀ op ∈ twoHits.operations.dropLast, op.isFinish = false
  decide

theorem Bench.isCheckable_twoHits : ∀ op ∈ twoHits.operations, op.IsCheckable := by
  have hsizes : ∀ op ∈ twoHits.operations,
      op.hole?.all (fun hole => hole.diameter.toFloat.isOk) = true := by
    decide +kernel
  have hlines : ∀ op ∈ twoHits.operations, (lineNumber (op.line + 1)).isOk = true := by
    decide +kernel
  intro op hop
  refine ⟨isFinite_twoHits op hop, fun hole hhole => ?_, exists_of_isOk (hlines op hop)⟩
  have hsize := hsizes op hop
  rw [hhole] at hsize
  exact exists_of_isOk hsize

theorem Setup.check_predicts_playback_twoHits :
    ∃ check words shots shot,
      (Bench.loaded 300.0 Bench.twoHits).session.setup.checkInWords Bench.twoHits.operations =
        .ok (check, words) ∧
      check.findings.filter (·.isLeaving) = (List.range 3).filterMap
        ((Bench.loaded 300.0 Bench.twoHits).session.setup.warningAt Bench.twoHits.operations) ∧
      (((Bench.loaded 300.0 Bench.twoHits).perform 1 .run).1.perform 1 (.drain none)).2 =
        .snapshots shots ∧
      shots[0]? = some shot ∧ shot.outOfBounds = true := by
  obtain ⟨hwarnings, _, hsteps, hgives, _⟩ :=
    check_predicts_playback 0 0 (Bench.quiet_loaded 300.0 Bench.twoHits) Phase.noConfusion rfl rfl
      Bench.endsLast_twoHits true
  obtain ⟨⟨⟨check, words⟩, hcheck⟩, ⟨shots, hshots⟩, _⟩ :=
    hgives (Bench.isMeasured_loaded Bench.twoHits) Bench.isCheckable_twoHits
  obtain ⟨shot, hshot, _, hagree⟩ := (hsteps 0 _ rfl rfl).1 shots hshots
  refine ⟨check, words, shots, shot, hcheck, hwarnings check words hcheck, hshots, hshot, ?_⟩
  exact hagree.mp (by decide +kernel)

/-- On a sheet without end a check can have no outcome although a seek shows that the tool leaves. -/
theorem Setup.check_fails_on_endless_sheet :
    let b := Bench.loaded Decimal.infinity Bench.twoHits
    b.session.phase = .idle ∧ b.session.program = some Bench.twoHits ∧
      Bench.twoHits.errors = [] ∧ EndsLast Bench.twoHits.operations ∧
      (∀ op ∈ Bench.twoHits.operations, op.IsFinite) ∧
      (∀ outcome, b.session.setup.checkInWords Bench.twoHits.operations ≠ .ok outcome) ∧
      ∃ shot, (b.session.seek (0 : Nat)).result = .ok (some shot) ∧ shot.outOfBounds = true := by
  intro b
  have hcheck : (b.session.setup.checkInWords Bench.twoHits.operations).isOk = false := by
    decide +kernel
  have htest : (b.session.setup.outAfter (Bench.twoHits.operations.take 1)).toOption = some true := by
    decide +kernel
  refine ⟨rfl, rfl, rfl, Bench.endsLast_twoHits, Bench.isFinite_twoHits, ?_, ?_⟩
  · intro outcome houtcome
    rw [houtcome] at hcheck
    cases hcheck
  · have hseek := @Session.seek_of_target b.session 0 _ Phase.noConfusion rfl rfl
    cases hout : b.session.setup.outAfter (Bench.twoHits.operations.take 1) with
    | error fault =>
        rw [hout] at htest
        cases htest
    | ok out =>
        rw [hout] at htest
        obtain rfl := Option.some.inj htest
        refine ⟨_, hseek.trans (congrArg (Except.map _) hout), rfl⟩

end TurretPunch
