import TurretPunch.Proofs.Program.Modal
import TurretPunch.Proofs.Program.Position

namespace TurretPunch.Program

/-!
# The errors of a program

There are two errors that a line can have: it changes to a station without a tool, or it asks for a
hit without saying where. The second one depends on all lines before, through the mode, the last
command and the position, of which nothing is known until something has moved.
-/

variable {tooling : Tooling} {state after : ReaderState} {line : Int} {program added : Program}
  {lines before : List (List Text.Point)} {ps : List Text.Point} {i : Nat}

/-- A line acts as a hit: its first command is one, or it has words for the last command and that
was one. -/
def ActsAsHit (before : List (List Text.Point)) (ps : List Text.Point) : Prop :=
  let cs := Text.capitals ((stripComments ps).map (·.replacement))
  (mentions ['G', '9', '0'] cs = false ∧ mentions ['G', '9', '1'] cs = false ∧
    digitsAfter? 'T' cs = none) ∧
  (digitsAfter? 'G' cs = some ['8', '1'] ∨
    digitsAfter? 'G' cs = none ∧ digitsAfter? 'M' cs = none ∧
      (Words.inLine ps).isEmpty = false ∧ motionAfter before = some .punch)

theorem ofDigits?_eq_punch {ds : List Char} :
    Motion.ofDigits? ds = some .punch ↔ ds = ['8', '1'] := by
  unfold Motion.ofDigits?
  split
  · next h => simp [h]
  · split
    · next h => simp [h]
    · next h => simp [h]

theorem actsAsHit_iff : ActsAsHit before ps ↔
    (Statement.ofLine ps).request? (motionAfter before) = some (some .punch, Words.inLine ps) := by
  unfold ActsAsHit Statement.ofLine Statement.ofCapitals Words.inLine
  generalize Text.capitals ((stripComments ps).map (·.replacement)) = cs
  dsimp only
  by_cases habsolute : mentions ['G', '9', '0'] cs = true
  · simp [habsolute, Statement.request?]
  by_cases hrelative : mentions ['G', '9', '1'] cs = true
  · simp [habsolute, hrelative, Statement.request?]
  simp only [habsolute, hrelative, Bool.false_eq_true, if_false, true_and]
  cases htool : digitsAfter? 'T' cs with
  | some ds => simp [Statement.request?]
  | none =>
      cases hcommand : digitsAfter? 'G' cs with
      | some ds => simp [Statement.request?, ofDigits?_eq_punch]
      | none =>
          cases hother : digitsAfter? 'M' cs with
          | some ds => simp [Statement.request?]
          | none =>
              cases hwords : (Words.ofLine cs).isEmpty with
              | true => simp [Statement.request?]
              | false => simp [Statement.request?]

/-- A line asks for a hit in vain: in the absolute mode, with a word missing, and before all motions
among operations. -/
structure AsksInVain (lines : List (List Text.Point)) (ops : List Operation) (i : Nat) : Prop where
  hit : ∃ ps, lines[i]? = some ps ∧ ActsAsHit (lines.take i) ps ∧
    ((Words.inLine ps).x = none ∨ (Words.inLine ps).y = none)
  mode : modeAfter (lines.take i) = .absolute
  unmoved : ∀ op ∈ ops, op.target?.isSome = true → (i : Int) < op.line

theorem coordinate_eq_none {mode : Mode} {last word : Option Float} :
    coordinate mode last word = none ↔ mode = .absolute ∧ last = none ∧ word = none := by
  cases mode with
  | relative => simp [coordinate]
  | absolute => simp [coordinate, and_comm]

/-- A reader that knows no position can make no hit for which a word is missing. -/
def Lacks (state : ReaderState) (words : Words) : Prop :=
  state.mode = .absolute ∧ state.position = none ∧ (words.x = none ∨ words.y = none)

theorem lacks_iff {words : Words} : Lacks state words ↔
    coordinate state.mode (state.position.map (·.1)) words.x = none ∨
      coordinate state.mode (state.position.map (·.2)) words.y = none := by
  simp only [Lacks, coordinate_eq_none, Option.map_eq_none_iff]
  tauto

theorem errors_append (p q : Program) : (p ++ q).errors = p.errors ++ q.errors := rfl

theorem errors_changeTool (tooling : Tooling) (mode : Mode) (line station : Int) :
    (changeTool tooling mode line station).errors =
      if tooling.turret.contains station then [] else [⟨line, .unknownStation station⟩] := by
  unfold changeTool
  split <;> rfl

theorem Effect.mem_errors {e : LineError}
    (h : Effect tooling state line (.ofLine ps) added after) : e ∈ added.errors ↔
      (∃ station, .toolChange line station ∈ added.operations ∧
        tooling.turret.contains station = false ∧ e = ⟨line, .unknownStation station⟩) ∨
      (Statement.ofLine ps).request? state.motion = some (some .punch, Words.inLine ps) ∧
        Lacks state (Words.inLine ps) ∧ e = ⟨line, .incompleteHit⟩ := by
  cases h with
  | nothing h | mode h => simp [h, Statement.request?]
  | @toolChange ds station h hstation =>
      rw [errors_changeTool, operations_changeTool, h]
      cases hfound : tooling.turret.contains station <;>
        simp [hfound, Statement.request?]
  | idle h => simp [h]
  | rapid h => simp [h, ofOperation]
  | @hit words x y h hx hy =>
      obtain rfl := Statement.words_of_request h
      have hcomplete : ¬ Lacks state (Words.inLine ps) := by simp [lacks_iff, hx, hy]
      simp [hcomplete, ofOperation]
  | @refused words h hmissing =>
      obtain rfl := Statement.words_of_request h
      simp [h, lacks_iff.mpr hmissing, ofError]

/-- What a line adds has its number. -/
theorem Effect.line_eq (h : Effect tooling state line (.ofLine ps) added after) :
    (∀ op ∈ added.operations, op.line = line) ∧ ∀ e ∈ added.errors, e.line = line := by
  constructor
  · rcases h.operations with ⟨hnone, _⟩ | ⟨op, hone, _, hline⟩
    · simp [hnone]
    · simp [hone, hline]
  · intro e he
    rcases h.mem_errors.mp he with ⟨station, _, _, rfl⟩ | ⟨_, _, rfl⟩ <;> rfl

/-- A hit that is asked for in vain adds nothing to the operations. -/
theorem Effect.operations_of_lacks (h : Effect tooling state line (.ofLine ps) added after)
    (hrequest : (Statement.ofLine ps).request? state.motion = some (some .punch, Words.inLine ps))
    (hlacks : Lacks state (Words.inLine ps)) : added.operations = [] := by
  cases h with
  | nothing | mode | idle | refused => rfl
  | toolChange h =>
      rw [h] at hrequest
      cases hrequest
  | rapid h => cases hrequest.symm.trans h
  | hit h hx hy =>
      obtain rfl := Statement.words_of_request h
      rcases lacks_iff.mp hlacks with hmissing | hmissing
      · cases hmissing.symm.trans hx
      · cases hmissing.symm.trans hy

theorem History.line_lt (h : History tooling lines program state) :
    (∀ op ∈ program.operations, op.line < lines.length) ∧
      ∀ e ∈ program.errors, e.line < lines.length := by
  induction h with
  | start => exact ⟨nofun, nofun⟩
  | line _ ps hexecuted ih =>
      obtain ⟨hops, herrors⟩ := (effect_of_execute hexecuted).line_eq
      rw [operations_append, errors_append, List.length_append, List.length_singleton]
      constructor
      · intro op hop
        rcases List.mem_append.mp hop with hold | hnew
        · have hlt := ih.1 op hold
          omega
        · have heq := hops op hnew
          omega
      · intro e he
        rcases List.mem_append.mp he with hold | hnew
        · have hlt := ih.2 e hold
          omega
        · have heq := herrors e hnew
          omega

theorem Effect.pairwise_errors (h : Effect tooling state line (.ofLine ps) added after) :
    added.errors.Pairwise (·.line < ·.line) := by
  cases h with
  | nothing | mode | idle | rapid | hit => exact List.Pairwise.nil
  | refused => exact List.pairwise_singleton _ _
  | toolChange =>
      rw [errors_changeTool]
      split
      · exact List.Pairwise.nil
      · exact List.pairwise_singleton _ _

/-- Errors come in the order of the lines, at most one for each. -/
theorem History.pairwise_errors (h : History tooling lines program state) :
    program.errors.Pairwise (·.line < ·.line) := by
  induction h with
  | start => exact List.Pairwise.nil
  | line hbefore ps hexecuted ih =>
      have heffect := effect_of_execute hexecuted
      rw [errors_append]
      refine List.pairwise_append.mpr ⟨ih, heffect.pairwise_errors, fun e he e' he' => ?_⟩
      have hlt := hbefore.line_lt.2 e he
      have heq := heffect.line_eq.2 e' he'
      omega

/-- A reader knows no position as long as nothing was moved. -/
theorem History.position_eq_none (h : History tooling lines program state) :
    state.position = none ↔ ∀ op ∈ program.operations, op.target? = none := by
  rw [h.position]
  unfold Trail.lastTarget? Trail.targets
  rw [List.getLast?_eq_none_iff, List.filterMap_eq_nil_iff]

section Concat

variable {ops more : List Operation}

theorem asksInVain_concat_of_lt (hi : i < lines.length)
    (hmore : ∀ op ∈ more, op.line = lines.length) :
    AsksInVain (lines ++ [ps]) (ops ++ more) i ↔ AsksInVain lines ops i := by
  have htake : (lines ++ [ps]).take i = lines.take i :=
    List.take_append_of_le_length (Nat.le_of_lt hi)
  have hline : (lines ++ [ps])[i]? = lines[i]? := List.getElem?_append_left hi
  constructor
  · rintro ⟨hhit, hmode, hunmoved⟩
    rw [htake, hline] at hhit
    rw [htake] at hmode
    exact ⟨hhit, hmode, fun op hop => hunmoved op (List.mem_append_left _ hop)⟩
  · rintro ⟨hhit, hmode, hunmoved⟩
    refine ⟨by rwa [htake, hline], by rwa [htake], fun op hop htarget => ?_⟩
    rcases List.mem_append.mp hop with hold | hnew
    · exact hunmoved op hold htarget
    · have heq := hmore op hnew
      omega

theorem asksInVain_last (hops : ∀ op ∈ ops, op.line < lines.length)
    (hmore : ∀ op ∈ more, op.line = lines.length) :
    AsksInVain (lines ++ [ps]) (ops ++ more) lines.length ↔
      ActsAsHit lines ps ∧ ((Words.inLine ps).x = none ∨ (Words.inLine ps).y = none) ∧
        modeAfter lines = .absolute ∧ ∀ op ∈ ops ++ more, op.target? = none := by
  have hlast : (lines ++ [ps])[lines.length]? = some ps := List.getElem?_concat_length
  constructor
  · rintro ⟨⟨qs, hqs, hacts, hmissing⟩, hmode, hunmoved⟩
    obtain rfl := Option.some.inj (hlast.symm.trans hqs)
    rw [List.take_left] at hacts hmode
    refine ⟨hacts, hmissing, hmode, fun op hop => ?_⟩
    by_contra htarget
    have hlt := hunmoved op hop (Option.isSome_iff_ne_none.mpr htarget)
    rcases List.mem_append.mp hop with hold | hnew
    · have hbefore := hops op hold
      omega
    · have heq := hmore op hnew
      omega
  · rintro ⟨hacts, hmissing, hmode, hnone⟩
    refine ⟨⟨ps, hlast, ?_, hmissing⟩, ?_, fun op hop htarget => ?_⟩
    · rwa [List.take_left]
    · rwa [List.take_left]
    · simp [hnone op hop] at htarget

end Concat

/-- The last line asks in vain if its hit lacks a position. -/
theorem History.asksInVain_last (h : History tooling lines program state)
    (heffect : Effect tooling state lines.length (.ofLine ps) added after) :
    AsksInVain (lines ++ [ps]) (program.operations ++ added.operations) lines.length ↔
      (Statement.ofLine ps).request? state.motion = some (some .punch, Words.inLine ps) ∧
        Lacks state (Words.inLine ps) := by
  rw [Program.asksInVain_last h.line_lt.1 heffect.line_eq.1, actsAsHit_iff, ← h.motion, ← h.mode]
  constructor
  · rintro ⟨hrequest, hmissing, hmode, hnone⟩
    refine ⟨hrequest, hmode, ?_, hmissing⟩
    exact h.position_eq_none.mpr fun op hop => hnone op (List.mem_append_left _ hop)
  · rintro ⟨hrequest, hlacks⟩
    have ⟨hmode, hposition, hmissing⟩ := hlacks
    refine ⟨hrequest, hmissing, hmode, ?_⟩
    rw [heffect.operations_of_lacks hrequest hlacks, List.append_nil]
    exact h.position_eq_none.mp hposition

/-- There is an error at each tool change to a station without a tool and at each line that asks for a
hit in vain, and no other. -/
theorem History.mem_errors {e : LineError} (h : History tooling lines program state) :
    e ∈ program.errors ↔
      (∃ station, .toolChange e.line station ∈ program.operations ∧
        tooling.turret.contains station = false ∧ e.problem = .unknownStation station) ∨
      ∃ i : Nat, e.line = i ∧ AsksInVain lines program.operations i ∧
        e.problem = .incompleteHit := by
  induction h with
  | start =>
      constructor
      · nofun
      · rintro (⟨station, hchange, _⟩ | ⟨i, _, ⟨⟨ps, hps, _⟩, _, _⟩, _⟩)
        · cases hchange
        · cases hps
  | @line lines program added state after hbefore ps hexecuted ih =>
      have heffect := effect_of_execute hexecuted
      have hlines := heffect.line_eq.1
      rw [errors_append, operations_append, List.mem_append, ih, heffect.mem_errors]
      constructor
      · rintro ((⟨station, hchange, hunknown, hproblem⟩ | ⟨i, hi, hvain, hproblem⟩) |
          ⟨station, hchange, hunknown, rfl⟩ | ⟨hrequest, hlacks, rfl⟩)
        · left
          exact ⟨station, List.mem_append_left _ hchange, hunknown, hproblem⟩
        · right
          obtain ⟨_, hps, _⟩ := hvain.hit
          have hlt := (List.getElem?_eq_some_iff.mp hps).1
          exact ⟨i, hi, (asksInVain_concat_of_lt hlt hlines).mpr hvain, hproblem⟩
        · left
          exact ⟨station, List.mem_append_right _ hchange, hunknown, rfl⟩
        · right
          exact ⟨lines.length, rfl, (hbefore.asksInVain_last heffect).mpr ⟨hrequest, hlacks⟩, rfl⟩
      · rintro (⟨station, hchange, hunknown, hproblem⟩ | ⟨i, hi, hvain, hproblem⟩)
        · rcases List.mem_append.mp hchange with hold | hnew
          · left; left
            exact ⟨station, hold, hunknown, hproblem⟩
          · right; left
            obtain ⟨number, problem⟩ := e
            obtain rfl : number = lines.length := hlines _ hnew
            obtain rfl : problem = .unknownStation station := hproblem
            exact ⟨station, hnew, hunknown, rfl⟩
        · obtain ⟨_, hps, _⟩ := hvain.hit
          have hle := (List.getElem?_eq_some_iff.mp hps).1
          rw [List.length_append, List.length_singleton] at hle
          by_cases hlt : i < lines.length
          · left; right
            exact ⟨i, hi, (asksInVain_concat_of_lt hlt hlines).mp hvain, hproblem⟩
          · right; right
            obtain rfl : i = lines.length := by omega
            obtain ⟨hrequest, hlacks⟩ := (hbefore.asksInVain_last heffect).mp hvain
            obtain ⟨number, problem⟩ := e
            obtain rfl : number = lines.length := hi
            obtain rfl : problem = .incompleteHit := hproblem
            exact ⟨hrequest, hlacks, rfl⟩

/-- A line that asks for a hit in vain has no operation. -/
theorem History.line_ne_of_asksInVain (h : History tooling lines program state)
    (hvain : AsksInVain lines program.operations i) {op : Operation}
    (hop : op ∈ program.operations) : op.line ≠ i := by
  intro hline
  obtain ⟨n, hn⟩ := List.mem_iff_getElem?.mp hop
  obtain ⟨j, ps, before, added, mid, next, hps, hbefore, heffect, hadded, _⟩ := h.origin hn
  have hj : op.line = j := heffect.line_eq.1 op (by simp [hadded])
  obtain rfl : j = i := by omega
  obtain ⟨qs, hqs, hacts, _⟩ := hvain.hit
  obtain rfl := Option.some.inj (hps.symm.trans hqs)
  have hrequest := actsAsHit_iff.mp hacts
  have hunmoved : op.target?.isSome = false := by
    by_contra htarget
    have hlt := hvain.unmoved op hop (by simpa [Option.isSome_iff_ne_none] using htarget)
    omega
  cases heffect with
  | nothing | mode | idle | refused => cases hadded
  | toolChange hchange =>
      rw [hchange] at hrequest
      cases hrequest
  | rapid | hit =>
      obtain rfl := List.singleton_inj.mp hadded
      cases hunmoved

theorem asksInVain_finish {ops : List Operation} :
    AsksInVain lines (ops ++ [.finish line]) i ↔ AsksInVain lines ops i := by
  constructor
  · rintro ⟨hhit, hmode, hunmoved⟩
    exact ⟨hhit, hmode, fun op hop => hunmoved op (List.mem_append_left _ hop)⟩
  · rintro ⟨hhit, hmode, hunmoved⟩
    refine ⟨hhit, hmode, fun op hop htarget => ?_⟩
    rcases List.mem_append.mp hop with hold | hlast
    · exact hunmoved op hold htarget
    · obtain rfl := List.mem_singleton.mp hlast
      cases htarget

theorem mem_changes_finish {ops : List Operation} {number station last : Int} :
    Operation.toolChange number station ∈ ops ++ [.finish last] ↔
      Operation.toolChange number station ∈ ops := by
  simp

/-- The errors of a program that was read are known from its operations and its lines alone. In the
order of the lines, there is one for each tool change to a station without a tool and one for each line
that asks for a hit in vain. Such a line has no operation. -/
theorem errors_exact {text : Text.Points} (h : ofText tooling text = .ok program) :
    let lines := Text.lines text.toList
    program.errors.Pairwise (·.line < ·.line) ∧
      (∀ e, e ∈ program.errors ↔
        (∃ station, .toolChange e.line station ∈ program.operations ∧
          tooling.turret.contains station = false ∧ e.problem = .unknownStation station) ∨
        ∃ i : Nat, e.line = i ∧ AsksInVain lines program.operations i ∧
          e.problem = .incompleteHit) ∧
      (∀ i : Nat, AsksInVain lines program.operations i →
        ∀ op ∈ program.operations, op.line = i → op.isFinish = true) ∧
      (program.isOk = true ↔
        (∀ line station, .toolChange line station ∈ program.operations →
          tooling.turret.contains station = true) ∧
        ∀ i, ¬ AsksInVain lines program.operations i) := by
  obtain ⟨read, state, hhistory, rfl⟩ := history_of_ofText h
  have hoperations : (read ++ ending text state.mode).operations =
      read.operations ++ [.finish ((Text.lines text.toList).length - 1 : Int)] := rfl
  have herrors : (read ++ ending text state.mode).errors = read.errors := List.append_nil _
  simp only [hoperations, herrors, asksInVain_finish, mem_changes_finish]
  refine ⟨hhistory.pairwise_errors, fun e => hhistory.mem_errors, ?_, ?_⟩
  · intro i hvain op hop hline
    rcases List.mem_append.mp hop with hold | hlast
    · exact absurd hline (hhistory.line_ne_of_asksInVain hvain hold)
    · obtain rfl := List.mem_singleton.mp hlast
      rfl
  · rw [isOk, List.isEmpty_iff, herrors, List.eq_nil_iff_forall_not_mem]
    constructor
    · intro hnone
      constructor
      · intro line station hchange
        by_contra hunknown
        refine hnone ⟨line, .unknownStation station⟩ (hhistory.mem_errors.mpr (.inl ?_))
        exact ⟨station, hchange, by simpa using hunknown, rfl⟩
      · intro i hvain
        exact hnone ⟨i, .incompleteHit⟩ (hhistory.mem_errors.mpr (.inr ⟨i, rfl, hvain, rfl⟩))
    · rintro ⟨hknown, hgiven⟩ e he
      rcases hhistory.mem_errors.mp he with ⟨station, hchange, hunknown, _⟩ | ⟨i, _, hvain, _⟩
      · cases hunknown.symm.trans (hknown _ _ hchange)
      · exact hgiven i hvain

theorem errors_exact_threeErrors :
    let text : Text.Points := "T98\nG81 X1\nT97\nG81 X5 Y5"
    ∃ program, ofText ⟨⟨[]⟩, .real 8.0⟩ text = .ok program ∧
      program.errors = [⟨0, .unknownStation 98⟩, ⟨1, .incompleteHit⟩, ⟨2, .unknownStation 97⟩] ∧
      AsksInVain (Text.lines text.toList) program.operations 1 := by
  intro text
  let errors : List LineError :=
    [⟨0, .unknownStation 98⟩, ⟨1, .incompleteHit⟩, ⟨2, .unknownStation 97⟩]
  let program : Program := ⟨[.toolChange 0 98, .toolChange 2 97, .hit 3 5.0 5.0 (.real 8.0) 97,
    .finish 3], [.absolute, .absolute, .absolute, .absolute], errors⟩
  have hread : ofText ⟨⟨[]⟩, .real 8.0⟩ text = .ok program := by with_unfolding_all rfl
  refine ⟨program, hread, rfl, ?_⟩
  have hmem : ⟨1, .incompleteHit⟩ ∈ program.errors := List.mem_cons_of_mem _ List.mem_cons_self
  rcases ((errors_exact hread).2.1 _).mp hmem with ⟨_, _, _, hproblem⟩ | ⟨i, hi, hvain, _⟩
  · cases hproblem
  · obtain rfl : 1 = i := Int.ofNat.inj hi
    exact hvain

end TurretPunch.Program
