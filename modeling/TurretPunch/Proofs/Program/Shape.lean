import TurretPunch.Proofs.Program.Ending
import TurretPunch.Proofs.Program.Error
import TurretPunch.Proofs.Text.Line

namespace TurretPunch

/-!
# The shape of programs

A program that was read has an operation for some of its lines, in their order, and then its end. The
mode of an operation is the one that the last line down to its own has set. A line that has both an
operation and an error changes to a station without a tool.
-/

namespace Program

variable {tooling : Tooling} {state after : ReaderState} {line : Int} {program added : Program}
  {lines : List (List Text.Point)} {ps : List Text.Point} {mode : Mode} {i : Nat}

theorem mentions_iff {word cs : List Char} : mentions word cs = true ↔ word <:+: cs := by
  induction cs with
  | nil => simp [mentions]
  | cons c cs ih =>
      rw [mentions, Bool.or_eq_true, ih, List.isPrefixOf_iff_prefix, List.infix_cons_iff]

theorem Statement.mode?_ofCapitals (cs : List Char) :
    (Statement.ofCapitals cs).mode? =
      if mentions ['G', '9', '0'] cs then some .absolute
      else if mentions ['G', '9', '1'] cs then some .relative
      else none := by
  unfold Statement.ofCapitals
  split
  · rfl
  · split
    · rfl
    · split
      · rfl
      · rfl
      · dsimp only
        split <;> rfl

/-- A line sets a mode with the word for it, wherever it stands in the line. The word for the absolute
mode comes before the other one. -/
def SetsMode (ps : List Text.Point) (mode : Mode) : Prop :=
  let cs := Text.capitals ((stripComments ps).map (·.replacement))
  match mode with
  | .absolute => ['G', '9', '0'] <:+: cs
  | .relative => ['G', '9', '1'] <:+: cs ∧ ¬ ['G', '9', '0'] <:+: cs

theorem setsMode_iff : SetsMode ps mode ↔ (Statement.ofLine ps).mode? = some mode := by
  unfold SetsMode Statement.ofLine
  rw [Statement.mode?_ofCapitals]
  generalize Text.capitals ((stripComments ps).map (·.replacement)) = cs
  simp only [← mentions_iff]
  by_cases habsolute : mentions ['G', '9', '0'] cs = true
  · cases mode <;> simp [habsolute]
  · by_cases hrelative : mentions ['G', '9', '1'] cs = true
    · cases mode <;> simp [habsolute, hrelative]
    · cases mode <;> simp [habsolute, hrelative]

theorem not_setsMode (h : (Statement.ofLine ps).mode? = none) (mode : Mode) : ¬ SetsMode ps mode := by
  intro hset
  rw [setsMode_iff, h] at hset
  cases hset

/-- The mode in force at a line: that of the last line down to it that sets one, or else the absolute
mode. -/
inductive ModeAt (lines : List (List Text.Point)) (i : Nat) : Mode → Prop
  | set {j : Nat} {ps : List Text.Point} {mode : Mode} (hj : j ≤ i) (hps : lines[j]? = some ps)
      (hset : SetsMode ps mode)
      (hlast : ∀ k, j < k → k ≤ i → ∀ qs, lines[k]? = some qs → ∀ other, ¬ SetsMode qs other) :
      ModeAt lines i mode
  | first (hnone : ∀ k ≤ i, ∀ qs, lines[k]? = some qs → ∀ other, ¬ SetsMode qs other) :
      ModeAt lines i .absolute

/-- A line that sets no mode leaves the one in force. -/
theorem ModeAt.succ (h : ModeAt lines i mode)
    (hunset : ∀ qs, lines[i + 1]? = some qs → ∀ other, ¬ SetsMode qs other) :
    ModeAt lines (i + 1) mode := by
  cases h with
  | set hj hps hset hlast =>
      refine .set (Nat.le_succ_of_le hj) hps hset fun k hlt hle qs hqs => ?_
      rcases Nat.le_succ_iff.mp hle with hle | rfl
      · exact hlast k hlt hle qs hqs
      · exact hunset qs hqs
  | first hnone =>
      refine .first fun k hle qs hqs => ?_
      rcases Nat.le_succ_iff.mp hle with hle | rfl
      · exact hnone k hle qs hqs
      · exact hunset qs hqs

theorem modeAfter_take_succ (hi : i < lines.length) :
    modeAfter (lines.take (i + 1)) =
      (Statement.ofLine lines[i]).mode?.getD (modeAfter (lines.take i)) := by
  rw [← List.take_append_getElem hi, modeAfter_concat]

theorem modeAt_of_set (hi : i < lines.length) (h : (Statement.ofLine lines[i]).mode? = some mode) :
    ModeAt lines i mode :=
  .set (Nat.le_refl i) (List.getElem?_eq_getElem hi) (setsMode_iff.mpr h) fun _ hlt hle =>
    absurd hle (Nat.not_le_of_lt hlt)

theorem unset_of_mode (hi : i < lines.length) (h : (Statement.ofLine lines[i]).mode? = none)
    (qs : List Text.Point) (hqs : lines[i]? = some qs) (other : Mode) : ¬ SetsMode qs other := by
  obtain rfl := Option.some.inj ((List.getElem?_eq_getElem hi).symm.trans hqs)
  exact not_setsMode h other

theorem modeAt_modeAfter (hi : i < lines.length) : ModeAt lines i (modeAfter (lines.take (i + 1))) := by
  induction i with
  | zero =>
      rw [modeAfter_take_succ hi]
      cases hmode : (Statement.ofLine lines[0]).mode? with
      | some mode => exact modeAt_of_set hi hmode
      | none =>
          refine .first fun k hk => ?_
          obtain rfl := Nat.le_zero.mp hk
          exact unset_of_mode hi hmode
  | succ i ih =>
      rw [modeAfter_take_succ hi]
      cases hmode : (Statement.ofLine lines[i + 1]).mode? with
      | some mode => exact modeAt_of_set hi hmode
      | none => exact (ih (Nat.lt_of_succ_lt hi)).succ (unset_of_mode hi hmode)

theorem ModeAt.unique {other : Mode} (h : ModeAt lines i mode) (hother : ModeAt lines i other) :
    mode = other := by
  cases h with
  | @set j ps _ hj hps hset hlast =>
      cases hother with
      | @set k qs _ hk hqs hset' hlast' =>
          rcases Nat.lt_trichotomy j k with hlt | rfl | hlt
          · exact absurd hset' (hlast k hlt hk qs hqs other)
          · obtain rfl := Option.some.inj (hps.symm.trans hqs)
            exact Option.some.inj ((setsMode_iff.mp hset).symm.trans (setsMode_iff.mp hset'))
          · exact absurd hset (hlast' j hlt hj ps hps mode)
      | first hnone => exact absurd hset (hnone j hj ps hps mode)
  | first hnone =>
      cases hother with
      | @set k qs _ hk hqs hset' _ => exact absurd hset' (hnone k hk qs hqs other)
      | first => rfl

/-- Operations come in the order of the lines, at most one for each. -/
theorem History.pairwise_lines (h : History tooling lines program state) :
    program.operations.Pairwise (·.line < ·.line) := by
  induction h with
  | start => exact List.Pairwise.nil
  | line hbefore ps hexecuted ih =>
      have heffect := effect_of_execute hexecuted
      have hadded := heffect.line_eq.1
      rw [operations_append]
      refine List.pairwise_append.mpr ⟨ih, ?_, fun op hop op' hop' => ?_⟩
      · rcases heffect.operations with ⟨hnone, _⟩ | ⟨op, hone, _, _⟩
        · rw [hnone]
          exact List.Pairwise.nil
        · rw [hone]
          exact List.pairwise_singleton _ _
      · have hlt := hbefore.line_lt.1 op hop
        have heq := hadded op' hop'
        omega

/-- An operation has the mode that is in force at its line. -/
theorem History.modeAt {n : Nat} {op : Operation} (h : History tooling lines program state)
    (hop : program.operations[n]? = some op) :
    ∃ (i : Nat) (mode : Mode), op.line = i ∧ i < lines.length ∧ program.modes[n]? = some mode ∧
      ModeAt lines i mode := by
  obtain ⟨i, ps, before, added, mid, next, hps, hbefore, heffect, hadded, _, hmode⟩ := h.origin hop
  obtain ⟨hi, hline⟩ := List.getElem?_eq_some_iff.mp hps
  refine ⟨i, mid.mode, heffect.line_eq.1 op (by simp [hadded]), hi, hmode, ?_⟩
  have hunset : (Statement.ofLine ps).mode? = none := by
    cases heffect with
    | nothing | mode | idle | refused => cases hadded
    | toolChange hchange =>
        rw [hchange]
        rfl
    | rapid hrequest | hit hrequest => exact Statement.mode_of_request hrequest
  have hforce := modeAt_modeAfter hi
  rwa [modeAfter_take_succ hi, hline, hunset, Option.getD_none, ← hbefore.mode] at hforce

theorem ending_eq (text : Text.Points) (mode : Mode) :
    ending text mode = ofOperation mode (.finish (text.toList.count (.char '\n'))) := by
  have hlength := Text.length_lines text.toList
  have hlast : ((Text.lines text.toList).length - 1 : Int) = text.toList.count (.char '\n') := by omega
  exact congrArg (fun line => ofOperation mode (.finish line)) hlast

/-- The end of a program stands in the last line of its text. -/
theorem getLast?_of_ofText {text : Text.Points} (h : ofText tooling text = .ok program) :
    program.operations.getLast? = some (.finish (text.toList.count (.char '\n'))) := by
  obtain ⟨read, state, _, rfl⟩ := history_of_ofText h
  rw [operations_append, ending_eq]
  exact List.getLast?_concat

theorem eq_of_line {ops : List Operation} (h : ops.Pairwise (·.line < ·.line)) {m n : Nat}
    {op other : Operation} (hop : ops[m]? = some op) (hother : ops[n]? = some other)
    (hline : op.line = other.line) : m = n := by
  obtain ⟨hm, rfl⟩ := List.getElem?_eq_some_iff.mp hop
  obtain ⟨hn, rfl⟩ := List.getElem?_eq_some_iff.mp hother
  rw [List.pairwise_iff_getElem] at h
  rcases Nat.lt_trichotomy m n with hlt | heq | hlt
  · have hless := h m n hm hn hlt
    omega
  · exact heq
  · have hless := h n m hn hm hlt
    omega

/-- A line has an operation and an error exactly if it changes to a station without a tool. -/
theorem History.line_of_both (h : History tooling lines program state) :
    ((∃ op ∈ program.operations, op.line = line) ∧ ∃ e ∈ program.errors, e.line = line) ↔
      ∃ station, .toolChange line station ∈ program.operations ∧
        tooling.turret.contains station = false := by
  constructor
  · rintro ⟨⟨op, hop, hline⟩, e, he, rfl⟩
    rcases h.mem_errors.mp he with ⟨station, hchange, hunknown, _⟩ | ⟨i, hi, hvain, _⟩
    · exact ⟨station, hchange, hunknown⟩
    · exact absurd (hline.trans hi) (h.line_ne_of_asksInVain hvain hop)
  · rintro ⟨station, hchange, hunknown⟩
    have herror : ⟨line, .unknownStation station⟩ ∈ program.errors :=
      h.mem_errors.mpr (.inl ⟨station, hchange, hunknown, rfl⟩)
    exact ⟨⟨_, hchange, rfl⟩, _, herror, rfl⟩

/-- A program that was read ends in the last line of its text, and nowhere else. Before that it has at
most one operation for each line, in the order of the lines, with the mode that is in force there; and
so a line of the text tells the operation. A line with an operation and an error changes to a station
without a tool. -/
theorem ofText_shape {text : Text.Points} (h : ofText tooling text = .ok program) :
    let lines := Text.lines text.toList
    let last := text.toList.count (.char '\n')
    ∃ ops : List Operation, program.operations = ops ++ [.finish last] ∧
      (∀ op ∈ ops, op.isFinish = false) ∧
      program.modes.length = program.operations.length ∧
      (∀ (n : Nat) (op : Operation), program.operations[n]? = some op → ∃ i : Nat, op.line = i ∧ i ≤ last ∧
        ∀ mode, program.modes[n]? = some mode ↔ ModeAt lines i mode) ∧
      ops.Pairwise (·.line < ·.line) ∧ program.errors.Pairwise (·.line < ·.line) ∧
      (∀ line, ((∃ op ∈ ops, op.line = line) ∧ ∃ e ∈ program.errors, e.line = line) ↔
        ∃ station, .toolChange line station ∈ ops ∧ tooling.turret.contains station = false) ∧
      ∀ (m n : Nat) (op other : Operation), ops[m]? = some op → ops[n]? = some other →
        op.line = other.line → m = n := by
  obtain ⟨read, state, hhistory, rfl⟩ := history_of_ofText h
  intro lines last
  have hlength : lines.length = last + 1 := Text.length_lines text.toList
  have herrors : (read ++ ending text state.mode).errors = read.errors := List.append_nil _
  have hmodes : (read ++ ending text state.mode).modes = read.modes ++ [state.mode] := rfl
  have hoperations : (read ++ ending text state.mode).operations =
      read.operations ++ [.finish last] := by
    rw [ending_eq]
    rfl
  rw [herrors, hmodes, hoperations]
  have hsame := hhistory.length_modes
  refine ⟨read.operations, rfl, hhistory.isOpen, ?_, ?_, hhistory.pairwise_lines,
    hhistory.pairwise_errors, fun line => hhistory.line_of_both,
    fun m n op other => eq_of_line hhistory.pairwise_lines⟩
  · rw [List.length_append, List.length_append, hsame]
    rfl
  · intro n op hop
    by_cases hn : n < read.operations.length
    · rw [List.getElem?_append_left hn] at hop
      obtain ⟨i, mode, hline, hi, hmode, hforce⟩ := hhistory.modeAt hop
      have hlt : i < last + 1 := Nat.lt_of_lt_of_eq hi hlength
      refine ⟨i, hline, Nat.lt_succ_iff.mp hlt, fun other => ?_⟩
      rw [List.getElem?_append_left (hsame ▸ hn), hmode, Option.some.injEq]
      exact ⟨fun heq => heq ▸ hforce, hforce.unique⟩
    · have hlt := (List.getElem?_eq_some_iff.mp hop).1
      rw [List.length_append, List.length_singleton] at hlt
      obtain rfl : n = read.operations.length := by omega
      rw [List.getElem?_concat_length] at hop
      obtain rfl := Option.some.inj hop
      have hforce := modeAt_modeAfter (show last < lines.length by omega)
      rw [← hlength, List.take_length, ← hhistory.mode] at hforce
      refine ⟨last, rfl, Nat.le_refl last, fun other => ?_⟩
      rw [← hsame, List.getElem?_concat_length, Option.some.injEq]
      exact ⟨fun heq => heq ▸ hforce, hforce.unique⟩

theorem ofText_shape_unknownStation :
    let tooling : Tooling := ⟨⟨[]⟩, .real 8.0⟩
    let text : Text.Points := "G91 (G90)\nT7\n(G90) X1\nG00 X2\n"
    let ops : List Operation := [.toolChange 1 7, .move 3 2.0 0.0 7]
    ofText tooling text = .ok ⟨ops ++ [.finish 4], [.relative, .relative, .relative],
        [⟨1, .unknownStation 7⟩]⟩ ∧
      ModeAt (Text.lines text.toList) 3 .relative ∧ ModeAt (Text.lines text.toList) 4 .relative := by
  intro tooling text ops
  have hread : ofText tooling text = .ok ⟨ops ++ [.finish 4], [.relative, .relative, .relative],
      [⟨1, .unknownStation 7⟩]⟩ := by with_unfolding_all rfl
  obtain ⟨_, _, _, _, hmodes, _⟩ := ofText_shape hread
  refine ⟨hread, ?_, ?_⟩
  · obtain ⟨i, hline, _, hmode⟩ := hmodes 1 _ rfl
    obtain rfl : 3 = i := Int.ofNat.inj hline
    exact (hmode .relative).mp rfl
  · obtain ⟨i, hline, _, hmode⟩ := hmodes 2 _ rfl
    obtain rfl : 4 = i := Int.ofNat.inj hline
    exact (hmode .relative).mp rfl

end Program

end TurretPunch
