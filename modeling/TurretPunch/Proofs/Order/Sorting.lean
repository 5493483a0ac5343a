import TurretPunch.Turret

namespace TurretPunch

/-!
# Sorting loses nothing

Sorting moves elements around, and does nothing else to them, however they compare: runs are cut from
the list, filled up and merged, and in each of these steps the elements stay the same but for their
order. So a turret lists all its tools and no others, even where their numbers cannot be compared.
-/

namespace Order

variable {α : Type} {lt : α → α → Bool}

theorem insert_perm (lt : α → α → Bool) (xs : List α) (a : α) : (insert lt xs a).Perm (a :: xs) := by
  rw [insert]
  exact List.perm_middle.trans (by rw [List.take_append_drop])

theorem foldl_insert_perm (lt : α → α → Bool) (xs run : List α) :
    (xs.foldl (insert lt) run).Perm (run ++ xs) := by
  induction xs generalizing run with
  | nil => rw [List.foldl_nil, List.append_nil]
  | cons a xs ih =>
      rw [List.foldl_cons]
      exact (ih _).trans (((insert_perm lt run a).append_right xs).trans List.perm_middle.symm)

theorem spanFitting_append (fits : α → α → Bool) (a : α) (xs : List α) :
    (spanFitting fits a xs).1 ++ (spanFitting fits a xs).2 = a :: xs := by
  induction xs generalizing a with
  | nil => rfl
  | cons b rest ih =>
      rw [spanFitting]
      split
      · rw [List.cons_append, ih]
      · rfl

theorem spanFitting_ne_nil (fits : α → α → Bool) (a : α) (xs : List α) :
    (spanFitting fits a xs).1 ≠ [] := by
  cases xs with
  | nil => exact List.cons_ne_nil _ _
  | cons b rest =>
      rw [spanFitting]
      split <;> exact List.cons_ne_nil _ _

theorem firstRun_perm (lt : α → α → Bool) (xs : List α) :
    ((firstRun lt xs).1 ++ (firstRun lt xs).2).Perm xs := by
  rcases xs with _ | ⟨a, _ | ⟨b, rest⟩⟩
  · exact .rfl
  · exact .rfl
  · rw [firstRun]
    split
    · refine ((List.reverse_perm _).append_right _).trans ?_
      rw [spanFitting_append]
    · rw [spanFitting_append]

theorem firstRun_ne_nil (lt : α → α → Bool) (a : α) (xs : List α) : (firstRun lt (a :: xs)).1 ≠ [] := by
  cases xs with
  | nil => exact List.cons_ne_nil _ _
  | cons b rest =>
      rw [firstRun]
      split
      · exact List.reverse_ne_nil_iff.mpr (spanFitting_ne_nil _ a _)
      · exact spanFitting_ne_nil _ a _

namespace Merging

variable {side : Side} {yields : α → α → Bool}

theorem takeLong_perm (n : Nat) (m : Merging α) : (m.takeLong n).toList.Perm m.toList := by
  simp only [toList, takeLong, List.reverse_append, List.reverse_reverse, List.append_assoc]
  rw [← List.append_assoc (m.long.take n), List.take_append_drop]

theorem takeShort_perm (n : Nat) (m : Merging α) : (m.takeShort n).toList.Perm m.toList := by
  simp only [toList, takeShort, List.reverse_append, List.reverse_reverse, List.append_assoc]
  refine List.Perm.append_left _ ?_
  refine (List.perm_append_comm_assoc _ _ _).trans ?_
  rw [List.take_append_drop]

theorem takeOne_perm (yields : α → α → Bool) (m : Merging α) :
    (m.takeOne yields).toList.Perm m.toList := by
  unfold takeOne
  split
  · split
    · exact m.takeLong_perm 1
    · exact m.takeShort_perm 1
  · exact .rfl

theorem takeShortStretch_perm (side : Side) (yields : α → α → Bool) (m : Merging α) :
    (m.takeShortStretch side yields).toList.Perm m.toList := by
  unfold takeShortStretch
  split
  · exact m.takeShort_perm _
  · exact .rfl

theorem takeLongStretch_perm (side : Side) (yields : α → α → Bool) (m : Merging α) :
    (m.takeLongStretch side yields).toList.Perm m.toList := by
  unfold takeLongStretch
  split
  · exact m.takeLong_perm _
  · exact .rfl

theorem stretches_perm {part : Merging α → Merging α} (h : part ∈ stretches side yields)
    (m : Merging α) : (part m).toList.Perm m.toList := by
  have hpart : part = takeShortStretch side yields ∨ part = takeLong 1 ∨
      part = takeLongStretch side yields ∨ part = takeShort 1 := by
    cases side <;> simp only [stretches, List.mem_append, List.mem_cons, List.not_mem_nil] at h <;>
      grind
  rcases hpart with rfl | rfl | rfl | rfl
  · exact m.takeShortStretch_perm side yields
  · exact m.takeLong_perm 1
  · exact m.takeLongStretch_perm side yields
  · exact m.takeShort_perm 1

theorem takeStretches_perm (side : Side) (yields : α → α → Bool) (m : Merging α) :
    (m.takeStretches side yields).toList.Perm m.toList := by
  have hparts : ((stretches side yields).foldl (fun m part => if m.isOpen then part m else m)
      m).toList.Perm m.toList := by
    refine List.foldlRecOn _ _ (motive := fun n : Merging α => n.toList.Perm m.toList) .rfl ?_
    intro n hn part hpart
    split
    · exact (stretches_perm hpart n).trans hn
    · exact hn
  unfold takeStretches
  dsimp only
  split
  · exact hparts
  · split <;> exact hparts

theorem advance_perm (side : Side) (yields : α → α → Bool) (steps : Nat) (m : Merging α) :
    (advance side yields steps m).toList.Perm m.toList := by
  induction steps generalizing m with
  | zero => exact .rfl
  | succ steps ih =>
      rw [advance]
      split
      · exact .rfl
      · refine (ih _).trans ?_
        split
        · exact m.takeStretches_perm side yields
        · exact m.takeOne_perm yields

end Merging

theorem mergeFrom_perm (side : Side) (yields : α → α → Bool) (patience : Nat) (short long : List α) :
    (mergeFrom side yields patience short long).1.Perm (short ++ long) := by
  let start : Merging α := ⟨short, long, [], 0, 0, false, patience⟩
  have hstart : (long ++ short).Perm (short ++ long) := List.perm_append_comm
  exact ((Merging.advance_perm side yields _ _).trans (start.takeLong_perm 1)).trans hstart

theorem perm_between {before middle after left right : List α} (h : middle.Perm (left ++ right)) :
    (before ++ middle ++ after).Perm (before ++ left ++ (right ++ after)) := by
  have hmiddle := (h.append_left before).append_right after
  rwa [← List.append_assoc before, List.append_assoc (before ++ left)] at hmiddle

theorem mergeRuns_perm (lt : α → α → Bool) (patience : Nat) (left right : List α) :
    (mergeRuns lt patience left right).1.Perm (left ++ right) := by
  have hleft (n : Nat) : left.take n ++ left.drop n = left := List.take_append_drop n left
  have hright (n : Nat) :
      (right.reverse.drop n).reverse ++ (right.reverse.take n).reverse = right := by
    rw [← List.reverse_append, List.take_append_drop, List.reverse_reverse]
  cases right with
  | nil =>
      rw [List.append_nil]
      exact .rfl
  | cons b rest =>
      unfold mergeRuns
      dsimp only
      generalize gallop .front (fun a => !lt b a) left = n
      cases hlast : (left.drop n).getLast? with
      | none =>
          have hall := hleft n
          rw [List.getLast?_eq_none_iff.mp hlast, List.append_nil] at hall
          dsimp only
          rw [hall]
      | some a =>
          dsimp only
          generalize gallop .back (fun b => !lt b a) (b :: rest).reverse = k
          have hparts : (left.take n ++ left.drop n ++ (((b :: rest).reverse.drop k).reverse ++
              ((b :: rest).reverse.take k).reverse)) = left ++ b :: rest := by
            rw [hleft, hright]
          rw [← hparts]
          split
          · next hempty =>
            rw [List.isEmpty_iff.mp hempty, List.reverse_nil, List.nil_append]
          · split
            · exact perm_between (mergeFrom_perm _ _ _ _ _)
            · refine perm_between ((List.reverse_perm _).trans ?_)
              refine (mergeFrom_perm _ _ _ _ _).trans (List.perm_append_comm.trans ?_)
              exact (List.reverse_perm _).append (List.reverse_perm _).symm

/-- The elements of runs. -/
def elementsOf (runs : List (Run α)) : List α := runs.flatMap (·.elements)

theorem elementsOf_cons (run : Run α) (runs : List (Run α)) :
    elementsOf (run :: runs) = run.elements ++ elementsOf runs := rfl

namespace Waiting

theorem merged_perm (lt : α → α → Bool) (patience : Nat) (left right : Run α) :
    (merged lt patience left right).1.elements.Perm (left.elements ++ right.elements) :=
  mergeRuns_perm lt patience left.elements right.elements

theorem settle_perm (lt : α → α → Bool) (depth patience : Nat) (last : Run α) (runs : List (Run α)) :
    (elementsOf (settle lt depth patience last runs).runs).Perm (elementsOf (last :: runs)) := by
  induction runs generalizing patience last with
  | nil => exact .rfl
  | cons before runs ih =>
      rw [settle]
      split
      · refine (ih _ _).trans ?_
        rw [elementsOf_cons, elementsOf_cons, elementsOf_cons, ← List.append_assoc]
        exact ((merged_perm lt patience before last).trans List.perm_append_comm).append_right _
      · exact .rfl

theorem add_perm (lt : α → α → Bool) (length : Nat) (waiting : Waiting α) (run : Run α) :
    (elementsOf (waiting.add lt length run).runs).Perm (run.elements ++ elementsOf waiting.runs) := by
  unfold add
  cases hruns : waiting.runs with
  | nil => exact .rfl
  | cons last runs => exact (settle_perm lt _ _ last runs).append_left run.elements

theorem finish_perm (lt : α → α → Bool) (patience : Nat) (last : Run α) (runs : List (Run α)) :
    (finish lt patience last runs).Perm (elementsOf (last :: runs)) := by
  fun_induction finish lt patience last runs with
  | case1 patience last => rw [elementsOf_cons, elementsOf, List.flatMap_nil, List.append_nil]
  | case2 patience last before =>
      rw [elementsOf_cons, elementsOf_cons, elementsOf, List.flatMap_nil, List.append_nil]
      exact (merged_perm lt patience before last).trans List.perm_append_comm
  | case3 patience last middle before runs _ joined patience' hmerged ih =>
      have hjoined := merged_perm lt patience before middle
      rw [hmerged] at hjoined
      refine ih.trans ?_
      simp only [elementsOf_cons, ← List.append_assoc last.elements]
      rw [List.append_assoc, List.append_assoc, ← List.append_assoc middle.elements]
      exact ((hjoined.trans List.perm_append_comm).append_right _).append_left _
  | case4 patience last middle before runs _ joined patience' hmerged ih =>
      have hjoined := merged_perm lt patience middle last
      rw [hmerged] at hjoined
      refine ih.trans ?_
      simp only [elementsOf_cons]
      rw [← List.append_assoc last.elements]
      exact (hjoined.trans List.perm_append_comm).append_right _

theorem addAll_perm (lt : α → α → Bool) (length count : Nat) (waiting : Waiting α) (xs : List α)
    (hcount : xs.length ≤ count) :
    (elementsOf (waiting.addAll lt length count xs).runs).Perm (elementsOf waiting.runs ++ xs) := by
  induction count generalizing waiting xs with
  | zero =>
      obtain rfl := List.eq_nil_of_length_eq_zero (Nat.le_zero.mp hcount)
      rw [List.append_nil]
      exact .rfl
  | succ count ih =>
      cases xs with
      | nil =>
          rw [List.append_nil]
          exact .rfl
      | cons a rest =>
          have hcut := firstRun_perm lt (a :: rest)
          have hne := firstRun_ne_nil lt a rest
          unfold addAll
          generalize firstRun lt (a :: rest) = cut at hcut hne ⊢
          obtain ⟨run, after⟩ := cut
          dsimp only at hcut hne ⊢
          generalize leastRun length - run.length = missing
          have hlength : (after.drop missing).length ≤ count := by
            have hwhole := hcut.length_eq
            have hpos := List.length_pos_iff.mpr hne
            simp only [List.length_append, List.length_cons, List.length_drop] at hwhole hcount ⊢
            omega
          have hfilled : ((after.take missing).foldl (insert lt) run ++ after.drop missing).Perm
              (a :: rest) := by
            refine ((foldl_insert_perm lt _ run).append_right _).trans ?_
            rwa [List.append_assoc, List.take_append_drop]
          refine (ih _ _ hlength).trans (((add_perm lt length waiting _).append_right _).trans ?_)
          refine (List.perm_append_comm.append_right _).trans ?_
          rw [List.append_assoc]
          exact hfilled.append_left _

end Waiting

theorem sort_perm (lt : α → α → Bool) (xs : List α) : (sort lt xs).Perm xs := by
  have hall := Waiting.addAll_perm lt xs.length xs.length {} xs (Nat.le_refl _)
  unfold sort
  dsimp only
  cases hruns : (Waiting.addAll lt xs.length xs.length {} xs).runs with
  | nil =>
      rw [hruns] at hall
      exact hall
  | cons last runs =>
      rw [hruns] at hall
      exact (Waiting.finish_perm lt _ last runs).trans hall

end Order

/-- A turret lists its tools, each of them once. -/
theorem Turret.listTools_perm {turret : Turret} {listed : List Tool}
    (h : turret.listTools = .ok listed) : listed.Perm turret.tools := by
  unfold listTools at h
  dsimp only at h
  split at h
  · obtain rfl := Except.ok.inj h
    exact List.mergeSort_perm _ _
  · split at h
    · obtain rfl := Except.ok.inj h
      exact Order.sort_perm goesBefore turret.tools
    · cases h

end TurretPunch
