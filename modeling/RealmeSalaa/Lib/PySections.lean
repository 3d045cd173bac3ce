import RealmeSalaa.Lib.PyLines

/-!
# Sections of lines

Sections of full lines that were joined with an empty line in between are what the lines split into
(`splitBlankLines_intercalate`). A section without lines is there as an empty line, and the ones at
both ends go when the text is stripped (`trim_intercalate`).
-/

namespace PyText

/-- Some full lines, or the empty line that stands for a section without any. -/
def IsSection (s : List (List Char)) : Prop := s = [[]] ∨ s ≠ [] ∧ [] ∉ s

theorem IsSection.ne_nil {s : List (List Char)} (h : IsSection s) : s ≠ [] := by
  rcases h with rfl | ⟨hne, -⟩
  · exact List.cons_ne_nil _ _
  · exact hne

/-! ## Splitting at empty lines -/

theorem splitBlankLines_of_full {s : List (List Char)} (hne : s ≠ []) (h : [] ∉ s) :
    splitBlankLines s = [s] := by
  induction s with
  | nil => exact absurd rfl hne
  | cons line s ih =>
    rw [List.mem_cons, not_or] at h
    cases s with
    | nil => rfl
    | cons line' s =>
      have hline' : line' ≠ [] := fun heq => h.2 (heq ▸ List.mem_cons_self)
      rw [splitBlankLines, ih (List.cons_ne_nil _ _) h.2]
      · rfl
      · exact fun _ _ heq _ => hline' heq

theorem splitBlankLines_append {s rest : List (List Char)} (hs : IsSection s) (hrest : rest ≠ []) :
    splitBlankLines (s ++ [] :: rest) = s :: splitBlankLines rest := by
  obtain ⟨first, rest, rfl⟩ := List.exists_cons_of_ne_nil hrest
  rcases hs with rfl | ⟨hne, hfull⟩
  · rfl
  induction s with
  | nil => exact absurd rfl hne
  | cons line s ih =>
    rw [List.mem_cons, not_or] at hfull
    cases s with
    | nil => rfl
    | cons line' s =>
      have hline' : line' ≠ [] := fun heq => hfull.2 (heq ▸ List.mem_cons_self)
      have hstep : splitBlankLines (line :: line' :: (s ++ [] :: first :: rest)) =
          (splitBlankLines (line' :: (s ++ [] :: first :: rest))).modifyHead (line :: ·) := by
        rw [splitBlankLines]
        exact fun _ _ heq _ => hline' heq
      refine hstep.trans ?_
      rw [← List.cons_append, ih (List.cons_ne_nil _ _) hfull.2]
      rfl

theorem intercalate_ne_nil {sections : List (List (List Char))} (hne : sections ≠ [])
    (h : ∀ s ∈ sections, IsSection s) : [[]].intercalate sections ≠ [] := by
  obtain ⟨s, sections, rfl⟩ := List.exists_cons_of_ne_nil hne
  have hs := (h s List.mem_cons_self).ne_nil
  cases sections with
  | nil => rwa [List.intercalate_singleton]
  | cons s' sections =>
    rw [List.intercalate_cons_cons, List.append_assoc]
    exact List.append_ne_nil_of_left_ne_nil hs _

/-- Joined sections split into what they were joined from. -/
theorem splitBlankLines_intercalate {sections : List (List (List Char))} (hne : sections ≠ [])
    (h : ∀ s ∈ sections, IsSection s) : splitBlankLines ([[]].intercalate sections) = sections := by
  induction sections with
  | nil => exact absurd rfl hne
  | cons s sections ih =>
    obtain ⟨hs, hsections⟩ := List.forall_mem_cons.1 h
    cases sections with
    | nil =>
      rw [List.intercalate_singleton]
      rcases hs with rfl | ⟨hne, hfull⟩
      · rfl
      · exact splitBlankLines_of_full hne hfull
    | cons s' sections =>
      have hrest := intercalate_ne_nil (List.cons_ne_nil s' sections) hsections
      rw [List.intercalate_cons_cons, List.append_assoc, List.singleton_append,
        splitBlankLines_append hs hrest, ih (List.cons_ne_nil _ _) hsections]

theorem intercalate_concat {sections : List (List (List Char))} (hne : sections ≠ [])
    (s : List (List Char)) :
    [[]].intercalate (sections ++ [s]) = [[]].intercalate sections ++ [] :: s := by
  induction sections with
  | nil => exact absurd rfl hne
  | cons t sections ih =>
    cases sections with
    | nil => simp
    | cons t' sections =>
      have hrest := ih (List.cons_ne_nil t' sections)
      rw [List.cons_append] at hrest
      rw [List.cons_append, List.cons_append, List.intercalate_cons_cons, hrest,
        List.intercalate_cons_cons, List.append_assoc, List.append_assoc, List.append_assoc]

/-! ## Stripping -/

/-- The sections without the ones at both ends that have no lines. -/
def trimSections (sections : List (List (List Char))) : List (List (List Char)) :=
  (sections.dropWhile List.isEmpty).rdropWhile List.isEmpty

theorem trimSections_isInfix (sections : List (List (List Char))) :
    trimSections sections <:+: sections :=
  (List.rdropWhile_prefix _ _).isInfix.trans (List.dropWhile_suffix _).isInfix

/-- Sections with lines stay. -/
theorem filter_trimSections (sections : List (List (List Char))) :
    (trimSections sections).filter (· ≠ []) = sections.filter (· ≠ []) := by
  have hright : ∀ sections : List (List (List Char)),
      (sections.rdropWhile List.isEmpty).filter (· ≠ []) = sections.filter (· ≠ []) := by
    intro sections
    induction sections using List.reverseRecOn with
    | nil => rfl
    | append_singleton sections s ih =>
      cases s with
      | nil =>
        rw [List.rdropWhile_concat_pos _ _ _ rfl, ih, List.filter_append]
        exact (List.append_nil _).symm
      | cons line s => rw [List.rdropWhile_concat_neg _ _ _ (by simp)]
  unfold trimSections
  rw [hright]
  induction sections with
  | nil => rfl
  | cons s sections ih =>
    cases s with
    | nil =>
      rw [List.dropWhile_cons_of_pos rfl, ih, List.filter_cons_of_neg (by simp)]
    | cons line s => rw [List.dropWhile_cons_of_neg (by simp)]

/-- The section as it is joined: one without lines is an empty line. -/
def spaced (s : List (List Char)) : List (List Char) := if s = [] then [[]] else s

theorem joinLines_spaced (s : List (List Char)) : joinLines (spaced s) = joinLines s := by
  unfold spaced
  split_ifs with h
  · rw [h]; rfl
  · rfl

theorem spaced_ne_nil (s : List (List Char)) : spaced s ≠ [] := by
  unfold spaced
  split_ifs with h
  · exact List.cons_ne_nil _ _
  · exact h

/-- Joined sections are joined lines. -/
theorem joinBlank_spaced (sections : List (List (List Char))) :
    joinBlank (sections.map joinLines) = joinLines ([[]].intercalate (sections.map spaced)) := by
  have hsections : sections.map joinLines = (sections.map spaced).map joinLines := by
    rw [List.map_map]
    exact List.map_congr_left fun s _ => (joinLines_spaced s).symm
  rw [hsections, joinBlank_map_joinLines]
  rintro lines hlines
  obtain ⟨s, -, rfl⟩ := List.mem_map.1 hlines
  exact spaced_ne_nil s

theorem isSection_spaced {s : List (List Char)} (h : [] ∉ s) : IsSection (spaced s) := by
  unfold spaced
  split_ifs with hnil
  · exact .inl rfl
  · exact .inr ⟨hnil, h⟩

section

variable {sections : List (List (List Char))} (h : ∀ s ∈ sections, [] ∉ s)

include h

theorem isSection_of_mem_spaced {s : List (List Char)} (hs : s ∈ sections.map spaced) :
    IsSection s := by
  obtain ⟨t, ht, rfl⟩ := List.mem_map.1 hs
  exact isSection_spaced (h t ht)

theorem dropWhile_intercalate :
    ([[]].intercalate (sections.map spaced)).dropWhile List.isEmpty =
      [[]].intercalate ((sections.dropWhile List.isEmpty).map spaced) := by
  induction sections with
  | nil => rfl
  | cons s sections ih =>
    obtain ⟨hs, hsections⟩ := List.forall_mem_cons.1 h
    cases s with
    | nil =>
      rw [List.dropWhile_cons_of_pos rfl, ← ih hsections]
      cases sections with
      | nil => rfl
      | cons s' sections =>
        rw [List.map_cons, List.map_cons, List.intercalate_cons_cons]
        rfl
    | cons line s =>
      have hline : line ≠ [] := fun heq => hs (heq ▸ List.mem_cons_self)
      rw [List.dropWhile_cons_of_neg (by simp)]
      have hhead :
          ∃ rest, [[]].intercalate (((line :: s) :: sections).map spaced) = line :: rest := by
        cases sections with
        | nil => exact ⟨s, by simp [spaced]⟩
        | cons s' sections =>
          rw [List.map_cons, List.map_cons, List.intercalate_cons_cons, List.append_assoc]
          exact ⟨_, rfl⟩
      obtain ⟨rest, hrest⟩ := hhead
      rw [hrest, List.dropWhile_cons_of_neg (by rwa [List.isEmpty_iff])]

theorem rdropWhile_intercalate :
    ([[]].intercalate (sections.map spaced)).rdropWhile List.isEmpty =
      [[]].intercalate ((sections.rdropWhile List.isEmpty).map spaced) := by
  induction sections using List.reverseRecOn with
  | nil => rfl
  | append_singleton sections s ih =>
    have hs : [] ∉ s := h s (List.mem_append_right _ List.mem_cons_self)
    have hsections : ∀ s ∈ sections, [] ∉ s := fun s hs => h s (List.mem_append_left _ hs)
    have hjoin : ∀ t, sections ≠ [] → [[]].intercalate ((sections ++ [t]).map spaced) =
        [[]].intercalate (sections.map spaced) ++ [] :: spaced t := by
      intro t hne
      rw [List.map_append, List.map_singleton, intercalate_concat (by simpa using hne)]
    cases s with
    | nil =>
      rw [List.rdropWhile_concat_pos _ _ _ rfl, ← ih hsections]
      by_cases hne : sections = []
      · rw [hne]; rfl
      have hspaced : [[]].intercalate ((sections ++ [[]]).map spaced) =
          ([[]].intercalate (sections.map spaced) ++ [[]]) ++ [[]] := by
        rw [hjoin [] hne, List.append_assoc]
        rfl
      rw [hspaced, List.rdropWhile_concat_pos _ _ _ rfl, List.rdropWhile_concat_pos _ _ _ rfl]
    | cons line s =>
      -- the last line of the last section is full
      obtain ⟨lines, last, hlast⟩ := List.eq_nil_or_concat (line :: s) |>.resolve_left
        (List.cons_ne_nil line s)
      rw [List.concat_eq_append] at hlast
      have hfull : last ≠ [] := fun heq => hs (by rw [hlast, ← heq]; simp)
      have hspaced : ∃ front, [[]].intercalate ((sections ++ [line :: s]).map spaced) =
          front ++ [last] := by
        by_cases hne : sections = []
        · refine ⟨lines, ?_⟩
          rw [hne, ← hlast]
          simp [spaced]
        · refine ⟨[[]].intercalate (sections.map spaced) ++ [] :: lines, ?_⟩
          rw [hjoin _ hne, List.append_assoc, List.cons_append, ← hlast]
          rfl
      obtain ⟨front, hfront⟩ := hspaced
      rw [List.rdropWhile_concat_neg _ _ _ (by simp), hfront,
        List.rdropWhile_concat_neg _ _ _ (by rwa [List.isEmpty_iff])]

theorem trim_intercalate :
    trim ([[]].intercalate (sections.map spaced)) =
      [[]].intercalate ((trimSections sections).map spaced) := by
  unfold trim trimSections
  rw [dropWhile_intercalate h, rdropWhile_intercalate]
  exact fun s hs => h s ((List.dropWhile_suffix _).subset hs)

end

/-! ## Splitting what was joined -/

/-- A newline behind the last line changes no section. -/
theorem map_splitlines_joinLines {lines : List (List Char)}
    (h : ∀ line ∈ lines, line ≠ [] → IsLine line) (hne : lines ≠ [])
    (hlast : lines.getLast? ≠ some []) :
    (splitBlank (joinLines lines ++ ['\n'])).map splitlines =
      (splitBlankLines lines).map fun s => splitlines (joinLines s) := by
  obtain ⟨line, hline⟩ := Option.ne_none_iff_exists'.1 (mt List.getLast?_eq_none_iff.1 hne)
  obtain ⟨before, hlines⟩ := List.getLast?_eq_some_iff.1 hline
  have hfull : line ≠ [] := by
    rintro rfl
    exact hlast hline
  have hchars : (joinLines lines).getLast? = line.getLast? := by
    rw [hlines, getLast?_joinLines_concat hfull]
  have hsplit : splitBlank (joinLines lines) = (splitBlankLines lines).map joinLines := by
    refine splitBlank_joinLines fun line hmem hnewline => ?_
    exact (h line hmem (List.ne_nil_of_mem hnewline)).inline _ hnewline isBoundary_newline
  rw [map_splitlines_splitBlank, hsplit, List.map_map]
  · rfl
  · intro hnil
    rw [hnil, eq_comm, List.getLast?_nil, List.getLast?_eq_none_iff] at hchars
    exact hfull hchars
  · intro c hc hboundary
    rw [hchars] at hc
    exact (h line (List.mem_of_getLast? hline) hfull).last c hc (isSpace_of_isBoundary hboundary)

/-- The lines of a section are those it was joined from. -/
theorem splitlines_joinLines_spaced {s : List (List Char)} (h : ∀ line ∈ s, IsLine line) :
    splitlines (joinLines (spaced s)) = s := by
  rw [joinLines_spaced]
  refine splitlines_joinLines (fun line hline => (h line hline).inline) fun hlast => ?_
  exact (h [] (List.mem_of_getLast? hlast)).ne_nil rfl

section

variable {sections : List (List (List Char))} (h : ∀ s ∈ sections, ∀ line ∈ s, IsLine line)

include h

theorem nil_not_mem_of_isLine : ∀ s ∈ sections, [] ∉ s :=
  fun s hs hnil => (h s hs [] hnil).ne_nil rfl

theorem isLine_of_mem_spaced {line : List Char}
    (hline : line ∈ [[]].intercalate (sections.map spaced)) (hne : line ≠ []) : IsLine line := by
  rcases mem_intercalate hline with hnil | ⟨lines, hlines, hline⟩
  · exact absurd hnil hne
  obtain ⟨s, hs, rfl⟩ := List.mem_map.1 hlines
  unfold spaced at hline
  split_ifs at hline with hempty
  · exact absurd (List.mem_singleton.1 hline) hne
  · exact h s hs line hline

/-- Joining and stripping drops the sections without lines at both ends. -/
theorem strip_joinBlank : strip (joinBlank (sections.map joinLines)) =
    joinLines ([[]].intercalate ((trimSections sections).map spaced)) := by
  rw [joinBlank_spaced, strip_joinLines fun line => isLine_of_mem_spaced h,
    trim_intercalate (nil_not_mem_of_isLine h)]

/-- The text that was joined from sections has these sections. -/
theorem map_splitlines_intercalate (hne : trimSections sections ≠ []) :
    (splitBlank (strip (joinBlank (sections.map joinLines)) ++ ['\n'])).map splitlines =
      trimSections sections := by
  have hkept : ∀ s ∈ trimSections sections, ∀ line ∈ s, IsLine line := fun s hs =>
    h s ((trimSections_isInfix sections).subset hs)
  have hspaced : (trimSections sections).map spaced ≠ [] := by simpa using hne
  have hsection : ∀ s ∈ (trimSections sections).map spaced, IsSection s := fun s hs =>
    isSection_of_mem_spaced (nil_not_mem_of_isLine hkept) hs
  have hlast : ([[]].intercalate ((trimSections sections).map spaced)).getLast? ≠ some [] := by
    rw [← trim_intercalate (nil_not_mem_of_isLine h)]
    exact getLast?_trim _
  rw [strip_joinBlank h, map_splitlines_joinLines (fun line => isLine_of_mem_spaced hkept)
    (intercalate_ne_nil hspaced hsection) hlast, splitBlankLines_intercalate hspaced hsection,
    List.map_map]
  refine (List.map_congr_left fun s hs => ?_).trans (List.map_id _)
  exact splitlines_joinLines_spaced (hkept s hs)

end

end PyText
