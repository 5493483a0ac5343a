import TurretPunch.CommandLine.Preparation
import TurretPunch.Proofs.Program.Layout
import TurretPunch.Proofs.Program.Shape
import TurretPunch.Proofs.Storage.Saving
import TurretPunch.Proofs.Text.Newline

namespace TurretPunch

/-!
# Programs that are saved and read again

A program is saved as it is, and read again with its newlines unified. A carriage return in front of a
newline is a blank at the end of its line and says nothing, so that the program stays the same. One that
stands alone makes two lines of one, and the program ends further down.
-/

namespace Program

variable {tooling : Tooling} {short line : List Text.Point}

/-- A carriage return at the end of a line says nothing. -/
theorem ofLine_of_isCut (h : Text.IsCut short line) :
    Statement.ofLine short = Statement.ofLine line := by
  rcases h with rfl | rfl
  · rfl
  · exact (ofLine_append_right (by decide) short).symm

/-- Where no carriage return stands alone, a text with its newlines unified is the same program. -/
theorem ofText_unifyNewlines (tooling : Tooling) {cs : List Char} (h : Text.loneReturns cs = 0) :
    ofText tooling (.ofChars (Text.unifyNewlines cs)) = ofText tooling (.ofChars cs) := by
  apply ofText_congr
  rw [← List.forall₂_eq_eq_eq, List.forall₂_map_left_iff, List.forall₂_map_right_iff]
  exact (Text.lines_unifyNewlines h).imp fun _ _ => ofLine_of_isCut

theorem count_ofChars (cs : List Char) :
    (Text.Points.ofChars cs).toList.count (.char '\n') = cs.count '\n' := by
  induction cs with
  | nil => rfl
  | cons c cs ih =>
      have hmap : (Text.Points.ofChars (c :: cs)).toList =
          .char c :: (Text.Points.ofChars cs).toList := rfl
      rw [hmap, List.count_cons, List.count_cons, ih]
      simp

end Program

open CommandLine in
theorem useFile_of_holds {s : Storage} {path : Path} {t : String}
    (h : s.Holds path (Text.encodeUtf8 t)) (printed : List Printed) :
    (useFile path).run.run ⟨s, printed⟩ =
      (.ok (.ofChars (Text.unifyNewlines t.toList)), ⟨s, printed⟩) := by
  have hrun : (useFile path).run.run ⟨s, printed⟩ =
      ((do
        if ← require (s.contains path) then
          return .ofChars (← require (s.readText path))
        else refuse ("program not found: " ++ path.text) : Job Text.Points)).run.run ⟨s, printed⟩ := rfl
  rw [hrun, h.contains, h.readText]
  rfl

namespace Program

variable {text : Text.Points} {program : Program} {s saved : Storage} {path target : Path}

/-- A program that is saved is found again as a text with its newlines unified. That is the same
program exactly if no carriage return of the text stands alone. Each one that does puts the end one
line further down. -/
theorem saved_program_rereads (hread : ofText tooling text = .ok program)
    (hsave : s.saveProgram text path = .ok (saved, target)) :
    ∃ again : Text.Points,
      (∀ printed, (CommandLine.useFile target).run.run ⟨saved, printed⟩ =
        (.ok again, ⟨saved, printed⟩)) ∧
      (ofText tooling again = .ok program ↔ Text.loneReturns text.chars = 0) ∧
      ∀ other, ofText tooling again = .ok other → other.operations.getLast? =
        some (.finish (text.toList.count (.char '\n') + Text.loneReturns text.chars)) := by
  obtain ⟨t, rfl, hholds⟩ := Storage.holds_saveProgram hsave
  have hchars : (Text.Points.ofString t).chars = t.toList := Text.Points.chars_ofChars _
  have hend (other : Program)
      (hother : ofText tooling (.ofChars (Text.unifyNewlines t.toList)) = .ok other) :
      other.operations.getLast? = some (.finish
        ((Text.Points.ofString t).toList.count (.char '\n') + Text.loneReturns t.toList)) := by
    rw [getLast?_of_ofText hother, count_ofChars, Text.count_unifyNewlines, Text.Points.ofString,
      count_ofChars, Int.natCast_add]
  rw [hchars]
  refine ⟨_, useFile_of_holds hholds, ⟨fun hagain => ?_, fun hnone => ?_⟩, hend⟩
  · have hlast := (hend program hagain).symm.trans (getLast?_of_ofText hread)
    have hline := Operation.finish.inj (Option.some.inj hlast)
    omega
  · rw [ofText_unifyNewlines tooling hnone]
    exact hread

theorem saved_program_rereads_pairs :
    let tooling : Tooling := ⟨⟨[]⟩, .real 8.0⟩
    let text : Text.Points := "G91\r\nG00 X2\r\n"
    let program : Program := ⟨[.move 1 2.0 0.0 1, .finish 2], [.relative, .relative], []⟩
    ∃ saved, ofText tooling text = .ok program ∧
      Storage.empty.saveProgram text ⟨["p.nc"]⟩ = .ok (saved, ⟨["p.nc"]⟩) ∧
      ∃ again, (CommandLine.useFile ⟨["p.nc"]⟩).run.run ⟨saved, []⟩ = (.ok again, ⟨saved, []⟩) ∧
        ofText tooling again = .ok program := by
  intro tooling text program
  have hread : ofText tooling text = .ok program := by with_unfolding_all rfl
  have hsave : Storage.empty.saveProgram text ⟨["p.nc"]⟩ =
      .ok (⟨[(["p.nc"], .file (Text.encodeUtf8 "G91\r\nG00 X2\r\n"))]⟩, ⟨["p.nc"]⟩) := by
    with_unfolding_all rfl
  obtain ⟨again, huse, hsame, _⟩ := saved_program_rereads hread hsave
  exact ⟨_, hread, hsave, again, huse [], hsame.mpr (by decide)⟩

/-- A carriage return between two tool changes is a blank in the text, but ends a line in the file. -/
theorem lone_return_rereads_as_line :
    let tooling : Tooling := ⟨⟨[]⟩, .real 8.0⟩
    let text : Text.Points := "T1\rT2"
    ∃ saved again,
      Storage.empty.saveProgram text ⟨["p.nc"]⟩ = .ok (saved, ⟨["p.nc"]⟩) ∧
      (CommandLine.useFile ⟨["p.nc"]⟩).run.run ⟨saved, []⟩ = (.ok again, ⟨saved, []⟩) ∧
      ofText tooling text = .ok ⟨[.toolChange 0 1, .finish 0], [.absolute, .absolute],
        [⟨0, .unknownStation 1⟩]⟩ ∧
      ofText tooling again = .ok ⟨[.toolChange 0 1, .toolChange 1 2, .finish 1],
        [.absolute, .absolute, .absolute], [⟨0, .unknownStation 1⟩, ⟨1, .unknownStation 2⟩]⟩ := by
  intro tooling text
  have hsave : Storage.empty.saveProgram text ⟨["p.nc"]⟩ =
      .ok (⟨[(["p.nc"], .file (Text.encodeUtf8 "T1\rT2"))]⟩, ⟨["p.nc"]⟩) := by
    with_unfolding_all rfl
  refine ⟨_, .ofChars (Text.unifyNewlines "T1\rT2".toList), hsave, ?_, ?_, ?_⟩
  · with_unfolding_all rfl
  · with_unfolding_all rfl
  · with_unfolding_all rfl

end Program

end TurretPunch
