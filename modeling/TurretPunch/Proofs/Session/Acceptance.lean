import Mathlib.Algebra.Group.Int.Defs
import TurretPunch.Proofs.Program.Clash
import TurretPunch.Proofs.Program.Tooling
import TurretPunch.Proofs.Session.Prediction

namespace TurretPunch

/-!
# What becomes of an accepted program

A program that was read without errors can be checked, sought and played as far as the bounds test has
answers, and with sizes that are numbers on a sheet with ends the test has an answer unless some motion
sets out from one end of an axis for the other.
-/

/-- Sizes that are numbers, of all tools and of a punch at a station without one. -/
structure Turret.IsSized (turret : Turret) (fallback : Quantity) : Prop where
  tools : ∀ t ∈ turret.tools, (∃ x, t.diameter.toFloat = .ok x) ∧ (∃ x, t.width.toFloat = .ok x) ∧
    ∃ x, t.height.toFloat = .ok x
  fallback : ∃ x, fallback.toFloat = .ok x

namespace Turret.IsSized

variable {turret : Turret} {fallback : Quantity}

theorem of_get? (h : turret.IsSized fallback) {station : Int} {t : Tool}
    (ht : turret.get? station = some t) : (∃ x, t.diameter.toFloat = .ok x) ∧
      (∃ x, t.width.toFloat = .ok x) ∧ ∃ x, t.height.toFloat = .ok x :=
  h.tools t (List.mem_of_find?_eq_some ht)

theorem exists_extents (h : turret.IsSized fallback) (station : Int) :
    ∃ extents, Footprint.extents fallback (turret.get? station) = .ok extents := by
  have hhalf {q : Quantity} {x : Float} (hq : q.toFloat = .ok x) : q.half = .ok (x / 2.0) := by
    rw [Quantity.half, hq]
    rfl
  cases ht : turret.get? station with
  | none =>
      obtain ⟨x, hx⟩ := h.fallback
      rw [Footprint.extents, hhalf hx]
      exact ⟨_, rfl⟩
  | some t =>
      obtain ⟨⟨d, hd⟩, ⟨w, hw⟩, ⟨e, he⟩⟩ := h.of_get? ht
      rw [Footprint.extents, Tool.halfExtents, Tool.radius, hhalf hd, hhalf hw, hhalf he]
      split <;> exact ⟨_, rfl⟩

theorem exists_size (h : turret.IsSized fallback) {station : Int} {word : Option Float}
    {size : Quantity} (hsize : Program.Sized ⟨turret, fallback⟩ station word size) :
    ∃ x, size.toFloat = .ok x := by
  cases hsize with
  | word x => exact ⟨x, rfl⟩
  | tool ht => exact (h.of_get? ht).1
  | fallback => exact h.fallback

end Turret.IsSized

namespace Setup

variable {setup : Setup} {ops : List Operation}

/-- The bounds test has an answer after operations. -/
def Answers (setup : Setup) (ops : List Operation) : Prop := ∃ out, setup.outAfter ops = .ok out

/-- Half sizes that are finite, for every station. -/
def HasFiniteExtents (setup : Setup) : Prop :=
  ∀ station w h, Footprint.extents setup.fallback (setup.turret.get? station) = .ok (w, h) →
    w.isFinite = true ∧ h.isFinite = true

/-- The test has an answer, or else one of two reasons not to have one. -/
theorem answers_or (hsized : setup.turret.IsSized setup.fallback) (ops : List Operation) :
    setup.Answers ops ∨
      setup.outAfter ops = .error .cornerless ∧ setup.LacksCornerAfter ops ∨
      setup.outAfter ops = .error .endlessEdge ∧ ¬ setup.sheet.IsBounded := by
  obtain ⟨⟨w, h⟩, hextents⟩ := hsized.exists_extents (Trail.tool ops)
  have houtcome := outAfter_of_extents hextents
  cases hleaves : setup.outAfter ops with
  | ok out => exact Or.inl ⟨out, hleaves⟩
  | error fault =>
      right
      rcases Footprint.leaves_error (houtcome.symm.trans hleaves) with ⟨rfl, hcorner⟩ | ⟨rfl, hsheet⟩
      · exact Or.inl ⟨rfl, w, h, hextents, hcorner⟩
      · exact Or.inr ⟨rfl, hsheet⟩

theorem not_answers (h : setup.LacksCornerAfter ops) : ¬ setup.Answers ops := by
  rintro ⟨out, hout⟩
  rw [outAfter_of_lacksCornerAfter h] at hout
  cases hout

/-- Finite tools have their first corner wherever they are. -/
theorem not_lacksCornerAfter (hextents : setup.HasFiniteExtents) (hops : ∀ op ∈ ops, op.IsPlaced) :
    ¬ setup.LacksCornerAfter ops := by
  obtain ⟨hx, hy⟩ := Trail.position_isPlaced hops
  rintro ⟨w, h, hsize, _, hx' | hy' | ⟨_, hw⟩ | ⟨_, hh⟩⟩
  · rw [hx] at hx'
    cases hx'
  · rw [hy] at hy'
    cases hy'
  · exact Decimal.not_isInfinite (hextents _ w h hsize).1 hw
  · exact Decimal.not_isInfinite (hextents _ w h hsize).2 hh

theorem answers_of_isPlaced (hsized : setup.turret.IsSized setup.fallback)
    (hsheet : setup.sheet.IsBounded) (hextents : setup.HasFiniteExtents)
    (hops : ∀ op ∈ ops, op.IsPlaced) : setup.Answers ops := by
  rcases answers_or hsized ops with hanswers | ⟨_, hcorner⟩ | ⟨_, hendless⟩
  · exact hanswers
  · exact absurd hcorner (not_lacksCornerAfter hextents hops)
  · exact absurd hsheet hendless

end Setup

theorem exists_lineNumber {n : Int} (hn : 0 ≤ n) (hlt : n < 10 ^ Text.maxDigits) :
    ∃ text, lineNumber n = .ok text := by
  obtain ⟨k, rfl⟩ := Int.eq_ofNat_of_zero_le hn
  have hpositive : 0 < Text.maxDigits := by decide
  unfold lineNumber Decimal.digitCount Decimal.digits
  generalize Text.maxDigits = room at *
  have hcount : (Nat.toDigits 10 k).length ≤ room := by
    rw [Nat.length_toDigits_le_iff (by decide) hpositive]
    exact_mod_cast hlt
  dsimp only
  rw [Int.natAbs_natCast, if_neg (Nat.not_lt.mpr hcount)]
  exact ⟨_, rfl⟩

theorem lt_pow_maxDigits {n : Nat} (h : n < Text.maxDigits) : (n : Int) < 10 ^ Text.maxDigits := by
  generalize Text.maxDigits = room at *
  exact_mod_cast Nat.lt_trans h (Nat.lt_pow_self (by decide))

namespace Program

variable {tooling : Tooling} {text : Text.Points} {program : Program} {op : Operation}

theorem line_of_ofText (h : ofText tooling text = .ok program) (hop : op ∈ program.operations) :
    0 ≤ op.line ∧ op.line < (Text.lines text.toList).length := by
  cases hfinish : op.isFinish with
  | false =>
      obtain ⟨n, hn⟩ := List.mem_iff_getElem?.mp hop
      obtain ⟨i, ps, hline, hps, _⟩ := attributed_of_ofText h hn hfinish
      have hi := (List.getElem?_eq_some_iff.mp hps).1
      omega
  | true =>
      obtain ⟨read, state, hhistory, rfl⟩ := history_of_ofText h
      rcases List.mem_append.mp hop with hread | hend
      · rw [hhistory.isOpen op hread] at hfinish
        cases hfinish
      · obtain rfl := List.mem_singleton.mp hend
        have hlines := List.length_pos_iff.mpr (Text.lines_ne_nil text.toList)
        show 0 ≤ ((Text.lines text.toList).length - 1 : Int) ∧
          ((Text.lines text.toList).length - 1 : Int) < (Text.lines text.toList).length
        omega

theorem isSized_of_ofText (hsized : tooling.turret.IsSized tooling.fallback)
    (h : ofText tooling text = .ok program) (hop : op ∈ program.operations) : op.IsSized := by
  intro hole hhole
  obtain ⟨n, hn⟩ := List.mem_iff_getElem?.mp hop
  have hfinish := Operation.isFinish_of_hole (by rw [hhole]; rfl)
  obtain ⟨i, ps, _, _, hattributed⟩ := attributed_of_ofText h hn hfinish
  exact hsized.exists_size (hattributed.size hole hhole)

theorem findIdx_of_ofText (h : ofText tooling text = .ok program) :
    program.operations.findIdx (·.isFinish) + 1 = program.operations.length := by
  obtain ⟨ops, line, hops, hopen⟩ := ofText_ends h
  have hbefore : ops.findIdx (·.isFinish) = ops.length :=
    List.findIdx_eq_length.mpr hopen
  rw [hops, List.findIdx_append, hbefore, if_neg (Nat.lt_irrefl _), List.length_append]
  exact congrArg (· + 1) (Nat.zero_add _)

end Program

/-- A seek shows something exactly if there is nowhere to go or the test has an answer. -/
theorem Session.exists_seek_iff {s : Session} {index : Nat} {op : Operation}
    (hidle : s.phase ≠ .running) (hop : s.operations[index]? = some op) :
    (∃ shot, (s.seek index).result = .ok (some shot)) ↔
      (op.target?.isSome = true → s.setup.Answers (s.operations.take (index + 1))) := by
  constructor
  · rintro ⟨shot, hshot⟩ htarget
    exact ⟨shot.outOfBounds, (bounds_of_seek hidle hop htarget hshot).2⟩
  · intro hanswers
    cases htarget : op.target?.isSome with
    | true =>
        obtain ⟨out, hout⟩ := hanswers htarget
        rw [seek_of_target hidle hop htarget, hout]
        exact ⟨_, rfl⟩
    | false =>
        have hfound :
            (if (0 : Int) ≤ index then s.operations[(index : Int).toNat]? else none) = some op := by
          rw [if_pos (Int.natCast_nonneg _), Int.toNat_natCast, hop]
        unfold seek
        rw [if_neg (fun hrunning => hidle (isRunning_iff.mp hrunning)), hfound]
        dsimp only
        unfold seekTo
        rw [htarget]
        exact ⟨_, rfl⟩

/-- A run comes to its report exactly if the test has an answer at every step. -/
theorem Traced.completes_iff {setup : Setup} {ops : List Operation} {interval : Float}
    {phase : Phase} {result : Except Fault (List Snapshot)} {s : Session}
    (h : Traced setup ops interval phase 0 ops result s) :
    (∃ shots last report, result = .ok (shots ++ [last]) ∧ last.report = some report ∧
        s.phase = .completed ∧ s.report = some report) ↔
      ∀ k < ops.findIdx (·.isFinish), setup.Answers (ops.take (k + 1)) := by
  constructor
  · rintro ⟨shots, last, _, hresult, _⟩ k hk
    obtain ⟨_, _, _, _, _, hsteps, _⟩ := h.snapshots hresult
    have hlt : k < ops.length := Nat.lt_of_lt_of_le hk List.findIdx_le_length
    obtain ⟨shot, _, hshows⟩ := hsteps k ops[k] hk (List.getElem?_eq_getElem hlt)
    have hbounds := hshows.bounds
    rw [Nat.zero_add] at hbounds
    exact ⟨shot.outOfBounds, hbounds⟩
  · intro hanswers
    obtain ⟨all, hall⟩ :=
      h.exists_snapshots (by simpa only [Nat.zero_add, Setup.Answers] using hanswers)
    obtain ⟨shots, last, report, rfl, _, _, hlast, hphase, hreport⟩ := h.snapshots hall
    exact ⟨shots, last, report, hall, hlast.reported, hphase, hreport⟩

theorem Setup.checkInWords_of_ofText (setup : Setup) {tooling : Program.Tooling} {text : Text.Points}
    {program : Program} (hread : Program.ofText tooling text = .ok program)
    (hlines : ((Text.lines text.toList).length : Int) < 10 ^ Text.maxDigits)
    (hsized : tooling.turret.IsSized tooling.fallback) :
    (∃ outcome, setup.checkInWords program.operations = .ok outcome) ↔
      ∀ k op, program.operations[k]? = some op → op.target?.isSome = true →
        setup.Answers (program.operations.take (k + 1)) := by
  apply exists_checkInWords_iff
  · intro op hop
    exact Program.isSized_of_ofText hsized hread hop
  · intro op hop
    obtain ⟨hle, hlt⟩ := Program.line_of_ofText hread hop
    exact exists_lineNumber (by omega) (Int.lt_of_le_of_lt (by omega) hlines)

namespace Bench

theorem Quiet.completes_iff (m n : Nat) {b : Bench} {program : Program} (hquiet : b.Quiet)
    (hidle : b.session.phase ≠ .running) (hprogram : b.session.program = some program)
    (herrors : program.errors = []) :
    let drained := (b.perform (m + 1) .run).1.perform (n + 1) (.drain none)
    (∃ (shots : List Snapshot) (last : Snapshot) (report : Report),
        drained.2 = .snapshots (shots ++ [last]) ∧ last.report = some report ∧
          drained.1.session.phase = .completed ∧ drained.1.session.report = some report) ↔
      ∀ k < program.operations.findIdx (·.isFinish),
        b.session.setup.Answers (program.operations.take (k + 1)) := by
  obtain ⟨b', result, hdrained, htraced⟩ := hquiet.run_drain m n hidle hprogram herrors true
  dsimp only
  rw [hdrained, ← htraced.completes_iff]
  constructor
  · rintro ⟨shots, last, report, hshots, hlast⟩
    exact ⟨shots, last, report, CallResult.eq_ok_of_snapshots hshots, hlast⟩
  · rintro ⟨shots, last, report, rfl, hlast⟩
    exact ⟨shots, last, report, rfl, hlast⟩

/-- A program that was read without errors is checked, shown by seeks and played to its report exactly
if the bounds test has an answer wherever it is asked. Where it has none, a box is without its first
corner, or the sheet goes on without end. On a sheet with ends and with finite tools it always has one,
unless a relative motion sets out from one end of an axis for the other. -/
theorem accepted_text_plays (m n : Nat) {b : Bench} {tooling : Program.Tooling}
    {text : Text.Points} {program : Program} (hread : Program.ofText tooling text = .ok program)
    (herrors : program.errors = [])
    (hlines : ((Text.lines text.toList).length : Int) < 10 ^ Text.maxDigits)
    (hsized : tooling.turret.IsSized tooling.fallback)
    (hsetup : b.session.setup.turret.IsSized b.session.setup.fallback) (hquiet : b.Quiet)
    (hidle : b.session.phase ≠ .running) (hprogram : b.session.program = some program) :
    let ops := program.operations
    let setup := b.session.setup
    let drained := (b.perform (m + 1) .run).1.perform (n + 1) (.drain none)
    let checked := ∃ outcome, setup.checkInWords ops = .ok outcome
    let shown := fun k : Nat => ∃ shot, (b.session.seek k).result = .ok (some shot)
    let played := ∃ (shots : List Snapshot) (last : Snapshot) (report : Report),
      drained.2 = .snapshots (shots ++ [last]) ∧ last.report = some report ∧
        drained.1.session.phase = .completed ∧ drained.1.session.report = some report
    (checked ↔ ∀ k op, ops[k]? = some op → op.target?.isSome = true →
      setup.Answers (ops.take (k + 1))) ∧
    (∀ k op, ops[k]? = some op →
      (shown k ↔ (op.target?.isSome = true → setup.Answers (ops.take (k + 1))))) ∧
    (played ↔ ∀ k, k + 1 < ops.length → setup.Answers (ops.take (k + 1))) ∧
    (∀ done, (setup.LacksCornerAfter done → ¬ setup.Answers done) ∧
      (setup.Answers done ∨
        setup.outAfter done = .error .cornerless ∧ setup.LacksCornerAfter done ∨
        setup.outAfter done = .error .endlessEdge ∧ ¬ setup.sheet.IsBounded)) ∧
    ((∀ op ∈ ops, op.IsPlaced) ↔ ∀ k, ¬ Program.ClashesAt text program k) ∧
    (setup.sheet.IsBounded → setup.HasFiniteExtents → (∀ k, ¬ Program.ClashesAt text program k) →
      checked ∧ (∀ k < ops.length, shown k) ∧ played) := by
  intro ops setup drained checked shown played
  have hops : b.session.operations = ops := Session.operations_of_program hprogram
  have hcheck := setup.checkInWords_of_ofText hread hlines hsized
  have hshow (k : Nat) (op : Operation) (hop : ops[k]? = some op) :
      shown k ↔ (op.target?.isSome = true → setup.Answers (ops.take (k + 1))) := by
    rw [← hops] at hop ⊢
    exact Session.exists_seek_iff hidle hop
  have hplay : played ↔ ∀ k, k + 1 < ops.length → setup.Answers (ops.take (k + 1)) := by
    have hcount : ops.findIdx (·.isFinish) + 1 = ops.length := Program.findIdx_of_ofText hread
    simp only [← hcount, Nat.add_lt_add_iff_right]
    exact hquiet.completes_iff m n hidle hprogram herrors
  have hplaced := Program.isPlaced_iff hread
  refine ⟨hcheck, hshow, hplay,
    fun done => ⟨Setup.not_answers, Setup.answers_or hsetup done⟩, hplaced, ?_⟩
  intro hsheet hextents hclash
  have hanswers (k : Nat) : setup.Answers (ops.take k) :=
    Setup.answers_of_isPlaced hsetup hsheet hextents
      fun op hop => hplaced.mpr hclash op (List.mem_of_mem_take hop)
  refine ⟨hcheck.mpr fun k op _ _ => hanswers _, fun k hk => ?_, hplay.mpr fun k _ => hanswers _⟩
  exact (hshow k ops[k] (List.getElem?_eq_getElem hk)).mpr fun _ => hanswers _

theorem isSized_empty (size : Float) : Turret.empty.IsSized (.real size) where
  tools _ ht := absurd ht List.not_mem_nil
  fallback := ⟨size, rfl⟩

theorem isBounded_loaded (program : Program) : (loaded 300.0 program).session.setup.sheet.IsBounded :=
  (isMeasured_loaded program).sheet

/-- A program that stays at the end of an axis. -/
def atTheEnd : Program :=
  ⟨[.move 1 Decimal.infinity 0.0 1, .move 2 Decimal.infinity 0.0 1, .finish 2],
    [.relative, .relative, .relative], []⟩

theorem accepted_text_plays_atTheEnd :
    let b := loaded 300.0 atTheEnd
    Program.ofText b.session.tooling "G91\nG00 X1e999\nG00 X5" = .ok atTheEnd ∧
      (∃ outcome, b.session.setup.checkInWords atTheEnd.operations = .ok outcome) ∧
      (∃ shot, (b.session.seek (1 : Nat)).result = .ok (some shot)) ∧
      ∃ (shots : List Snapshot) (last : Snapshot) (report : Report),
        ((b.perform 1 .run).1.perform 1 (.drain none)).2 = .snapshots (shots ++ [last]) ∧
          last.report = some report := by
  intro b
  have hread : Program.ofText b.session.tooling "G91\nG00 X1e999\nG00 X5" = .ok atTheEnd := by
    with_unfolding_all rfl
  have hlines : ((Text.lines ("G91\nG00 X1e999\nG00 X5" : Text.Points).toList).length : Int) <
      10 ^ Text.maxDigits := lt_pow_maxDigits (by decide)
  obtain ⟨_, _, _, _, hplaced, hplays⟩ :=
    accepted_text_plays 0 0 (b := b) hread rfl hlines (isSized_empty 8.0) (isSized_empty 8.0)
      (quiet_loaded 300.0 atTheEnd) Phase.noConfusion rfl
  have hnumbers : ∀ op ∈ atTheEnd.operations, op.IsPlaced := by
    simp only [atTheEnd, List.forall_mem_cons]
    refine ⟨?_, ?_, nofun, List.forall_mem_nil _⟩
    all_goals
      intro x y htarget
      obtain ⟨rfl, rfl⟩ := Prod.mk.inj (Option.some.inj htarget)
      decide +kernel
  have hextents : b.session.setup.HasFiniteExtents := by
    rintro station w h hw
    obtain ⟨rfl, rfl⟩ := Prod.mk.inj (Except.ok.inj hw)
    exact ⟨by decide +kernel, by decide +kernel⟩
  obtain ⟨hchecked, hshown, shots, last, report, hshots, hlast, _⟩ :=
    hplays (isBounded_loaded atTheEnd) hextents (hplaced.mp hnumbers)
  exact ⟨hread, hchecked, hshown 1 (by decide), shots, last, report, hshots, hlast⟩

/-- A program that sets out from the end of an axis for the other one. -/
def thereAndBack : Program :=
  ⟨[.move 1 Decimal.infinity 0.0 1, .move 2 Decimal.notANumber 0.0 1, .finish 2],
    [.relative, .relative, .relative], []⟩

theorem accepted_text_breaks_off :
    let b := loaded 300.0 thereAndBack
    Program.ofText b.session.tooling "G91\nG00 X1e999\nG00 X-1e999" = .ok thereAndBack ∧
      thereAndBack.errors = [] ∧ b.session.setup.turret.IsSized b.session.setup.fallback ∧
      b.session.setup.sheet.IsBounded ∧ b.Quiet ∧ b.session.phase = .idle ∧
      b.session.program = some thereAndBack ∧
      (∀ outcome, b.session.setup.checkInWords thereAndBack.operations ≠ .ok outcome) ∧
      (∀ shot, (b.session.seek (1 : Nat)).result ≠ .ok shot) ∧
      ∀ shots, ((b.perform 1 .run).1.perform 1 (.drain none)).2 ≠ .snapshots shots := by
  intro b
  have hcheck : (b.session.setup.checkInWords thereAndBack.operations).isOk = false := by
    decide +kernel
  have hseek : (b.session.seek (1 : Nat)).result.isOk = false := by
    decide +kernel
  have hrun : ((b.perform 1 .run).1.perform 1 (.drain none)).2.isSnapshots = false := by
    decide +kernel
  refine ⟨by with_unfolding_all rfl, rfl, isSized_empty 8.0, isBounded_loaded _, quiet_loaded _ _,
    rfl, rfl, ?_, ?_, ?_⟩
  · intro outcome houtcome
    rw [houtcome] at hcheck
    cases hcheck
  · intro shot hshot
    rw [hshot] at hseek
    cases hseek
  · intro shots hshots
    rw [hshots] at hrun
    cases hrun

end Bench

end TurretPunch
