import TurretPunch.Text.Line

namespace TurretPunch.Text

/-!
# Lines of texts

A newline parts the lines before it from those after it. What has no newline belongs to one line, and
changes nothing in the others.
-/

variable {p : Point} {ps rest first : List Point} {more : List (List Point)}

theorem lines_newline (ps : List Point) : lines (.char '\n' :: ps) = [] :: lines ps := by
  rw [lines, if_pos rfl]

theorem lines_cons_of_ne (hp : p ≠ .char '\n') (ps : List Point) :
    ∃ first more, lines ps = first :: more ∧ lines (p :: ps) = (p :: first) :: more := by
  rw [lines, if_neg hp]
  cases h : lines ps with
  | nil => exact absurd h (lines_ne_nil ps)
  | cons first more => exact ⟨first, more, rfl, rfl⟩

theorem length_lines (ps : List Point) : (lines ps).length = ps.count (.char '\n') + 1 := by
  induction ps with
  | nil => rfl
  | cons p ps ih =>
      by_cases hp : p = .char '\n'
      · rw [hp, lines_newline, List.count_cons_self, List.length_cons, ih]
      · obtain ⟨first, more, hlines, hcons⟩ := lines_cons_of_ne hp ps
        rw [List.count_cons_of_ne hp, ← ih, hlines, hcons]
        rfl

theorem lines_append (ps qs : List Point) :
    lines (ps ++ .char '\n' :: qs) = lines ps ++ lines qs := by
  induction ps with
  | nil => exact lines_newline qs
  | cons p ps ih =>
      by_cases hp : p = .char '\n'
      · rw [hp, List.cons_append, lines_newline, lines_newline, ih, List.cons_append]
      · obtain ⟨first, more, hlines, hcons⟩ := lines_cons_of_ne hp ps
        rw [List.cons_append, lines, if_neg hp, ih, hlines, hcons]
        rfl

theorem lines_append_of_not_mem (h : .char '\n' ∉ ps) (hrest : lines rest = first :: more) :
    lines (ps ++ rest) = (ps ++ first) :: more := by
  induction ps with
  | nil => exact hrest
  | cons p ps ih =>
      rw [List.cons_append, lines, if_neg (Ne.symm (List.ne_of_not_mem_cons h)),
        ih (List.not_mem_of_not_mem_cons h)]
      rfl

theorem lines_of_newline_not_mem (h : .char '\n' ∉ ps) : lines ps = [ps] := by
  have hlines : lines (ps ++ []) = (ps ++ []) :: [] := lines_append_of_not_mem h rfl
  rwa [List.append_nil] at hlines

theorem newline_not_mem_of_mem_lines (h : first ∈ lines ps) : .char '\n' ∉ first := by
  induction ps generalizing first with
  | nil =>
      obtain rfl := List.mem_singleton.mp h
      exact List.not_mem_nil
  | cons p ps ih =>
      by_cases hp : p = .char '\n'
      · rw [hp, lines_newline] at h
        rcases List.mem_cons.mp h with rfl | h
        · exact List.not_mem_nil
        · exact ih h
      · obtain ⟨line, more, hlines, hcons⟩ := lines_cons_of_ne hp ps
        rw [hlines] at ih
        rw [hcons] at h
        rcases List.mem_cons.mp h with rfl | h
        · exact List.not_mem_cons_of_ne_of_not_mem (Ne.symm hp) (ih List.mem_cons_self)
        · exact ih (List.mem_cons_of_mem line h)

theorem lines_intercalate {texts : List (List Point)} (hne : texts ≠ []) :
    lines (List.intercalate [.char '\n'] texts) = texts.flatMap lines := by
  induction texts with
  | nil => exact absurd rfl hne
  | cons first rest ih =>
      cases rest with
      | nil => rw [List.intercalate_singleton, List.flatMap_singleton]
      | cons next rest =>
          rw [List.intercalate_cons_cons, List.append_assoc, List.singleton_append, lines_append,
            ih (List.cons_ne_nil _ _)]
          rfl

theorem lines_intercalate_eq_self {lines : List (List Point)} (hne : lines ≠ [])
    (h : ∀ ps ∈ lines, .char '\n' ∉ ps) :
    Text.lines (List.intercalate [.char '\n'] lines) = lines := by
  have hsingle : ∀ ps ∈ lines, Text.lines ps = [ps] := fun ps hps => lines_of_newline_not_mem (h ps hps)
  rw [lines_intercalate hne, List.flatMap_def, List.map_congr_left hsingle, ← List.flatMap_def,
    List.flatMap_singleton']

theorem exists_last_line (ps : List Point) :
    ∃ before last, last <:+ ps ∧ .char '\n' ∉ last ∧ ∀ {rest first more},
      lines rest = first :: more → lines (ps ++ rest) = before ++ (last ++ first) :: more := by
  by_cases hmem : .char '\n' ∈ ps
  · obtain ⟨last, before, hreverse, hlast⟩ :=
      List.eq_append_cons_of_mem (List.mem_reverse.mpr hmem)
    have hps : ps = before.reverse ++ .char '\n' :: last.reverse := by
      rw [← List.reverse_reverse ps, hreverse]
      simp
    have hnone : .char '\n' ∉ last.reverse := by simpa using hlast
    refine ⟨lines before.reverse, last.reverse, ⟨before.reverse ++ [.char '\n'], by simp [hps]⟩,
      hnone, fun hrest => ?_⟩
    rw [hps, List.append_assoc, List.cons_append, lines_append, lines_append_of_not_mem hnone hrest]
  · exact ⟨[], ps, List.suffix_refl ps, hmem, lines_append_of_not_mem hmem⟩

theorem exists_first_line (ps : List Point) :
    ∃ first after, first <+: ps ∧ .char '\n' ∉ first ∧ lines ps = first :: after := by
  by_cases hmem : .char '\n' ∈ ps
  · obtain ⟨first, after, rfl, hfirst⟩ := List.eq_append_cons_of_mem hmem
    refine ⟨first, lines after, ⟨_, rfl⟩, hfirst, ?_⟩
    rw [lines_append, lines_of_newline_not_mem hfirst]
    rfl
  · exact ⟨ps, [], List.prefix_refl ps, hmem, lines_of_newline_not_mem hmem⟩

/-- A place in a text lies in one line. What is put there and has no newline comes between the parts of
that line, and the other lines stay. -/
theorem exists_lines_around (ps qs : List Point) :
    ∃ before first last after, first <:+ ps ∧ last <+: qs ∧ (.char '\n' ∉ first ∧ .char '\n' ∉ last) ∧
      ∀ inner, .char '\n' ∉ inner →
        lines (ps ++ (inner ++ qs)) = before ++ (first ++ (inner ++ last)) :: after := by
  obtain ⟨before, first, hfirst, hnone, hbefore⟩ := exists_last_line ps
  obtain ⟨last, after, hlast, hnone', hafter⟩ := exists_first_line qs
  exact ⟨before, first, last, after, hfirst, hlast, ⟨hnone, hnone'⟩, fun inner hinner =>
    hbefore (lines_append_of_not_mem hinner hafter)⟩

end TurretPunch.Text
