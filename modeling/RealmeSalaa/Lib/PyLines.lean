import RealmeSalaa.Lib.PyText

/-!
# Joined lines

A text that was joined from stripped lines, some of them empty, is known by these lines: splitting
it at blank lines splits the list of lines (`splitBlank_joinLines`), and stripping it drops empty
lines at both ends (`strip_joinLines`). An odd number of newlines leaves an empty line in front of a
section, so the sections are not just the runs of full lines; but the full lines of the sections are
(`blocks_eq`).
-/

namespace PyText

/-! ## Lists of lines -/

/-- The lines that are not empty. -/
def full (lines : List (List Char)) : List (List Char) := lines.filter (· ≠ [])

theorem full_ne_nil_iff {lines : List (List Char)} :
    full lines ≠ [] ↔ ∃ line ∈ lines, line ≠ [] := by
  constructor
  · intro h
    obtain ⟨line, hline⟩ := List.exists_mem_of_ne_nil _ h
    exact ⟨line, (List.mem_filter.1 hline).1, of_decide_eq_true (List.mem_filter.1 hline).2⟩
  · rintro ⟨line, hline, hne⟩
    exact List.ne_nil_of_mem (List.mem_filter.2 ⟨hline, decide_eq_true hne⟩)

/-- The runs of lines that are not empty. -/
def blocks (lines : List (List Char)) : List (List (List Char)) :=
  (lines.splitOnP List.isEmpty).filter (· ≠ [])

/-- The lines without the empty ones at both ends. -/
def trim (lines : List (List Char)) : List (List Char) :=
  (lines.dropWhile List.isEmpty).rdropWhile List.isEmpty

/-- The sections of a text that is joined from the lines. -/
def splitBlankLines : List (List Char) → List (List (List Char))
  | [] => [[]]
  | [line] => [[line]]
  | line :: [] :: line' :: lines => [line] :: splitBlankLines (line' :: lines)
  | line :: line' :: lines => (splitBlankLines (line' :: lines)).modifyHead (line :: ·)

theorem blocks_append_cons (lines lines' : List (List Char)) :
    blocks (lines ++ [] :: lines') = blocks lines ++ blocks lines' := by
  unfold blocks
  rw [List.splitOnP_append_cons lines lines' rfl, List.filter_append]

theorem blocks_cons_nil (lines : List (List Char)) : blocks ([] :: lines) = blocks lines :=
  blocks_append_cons [] lines

theorem blocks_append_nil (lines : List (List Char)) : blocks (lines ++ [[]]) = blocks lines := by
  rw [blocks_append_cons]
  exact List.append_nil _

/-- Lines that are not empty are one block. -/
theorem blocks_of_full {lines : List (List Char)} (hne : lines ≠ []) (h : [] ∉ lines) :
    blocks lines = [lines] := by
  unfold blocks
  rw [List.splitOnP_eq_singleton fun line hline => ?_]
  · simp [hne]
  · rw [List.isEmpty_eq_false_iff]
    rintro rfl
    exact h hline

/-- A line that is not empty begins the first run. -/
theorem splitOnP_cons_of_full {line : List Char} (hline : line ≠ []) (lines : List (List Char)) :
    (line :: lines).splitOnP List.isEmpty =
      (lines.splitOnP List.isEmpty).modifyHead (line :: ·) := by
  rw [List.splitOnP_cons_eq_if_modifyHead, if_neg (by rwa [List.isEmpty_iff])]

theorem flatten_blocks (lines : List (List Char)) : (blocks lines).flatten = full lines := by
  have hflatten : (lines.splitOnP List.isEmpty).flatten = full lines := by
    induction lines with
    | nil => rfl
    | cons line lines ih =>
      cases line with
      | nil => rwa [List.splitOnP_cons_eq_if_modifyHead]
      | cons c line =>
        obtain ⟨run, runs, hruns⟩ := List.exists_cons_of_ne_nil
          (List.splitOnP_ne_nil List.isEmpty lines)
        rw [hruns] at ih
        rw [splitOnP_cons_of_full (List.cons_ne_nil c line), hruns, List.modifyHead_cons,
          List.flatten_cons, List.cons_append, ← List.flatten_cons, ih]
        rfl
  unfold blocks
  rw [← hflatten]
  exact List.flatten_filter_ne_nil

theorem blocks_cons_cons {line line' : List Char} (hline : line ≠ []) (hline' : line' ≠ [])
    (lines : List (List Char)) :
    blocks (line :: line' :: lines) = (blocks (line' :: lines)).modifyHead (line :: ·) := by
  obtain ⟨run, runs, hruns⟩ := List.exists_cons_of_ne_nil
    (List.splitOnP_ne_nil List.isEmpty lines)
  unfold blocks
  rw [splitOnP_cons_of_full hline, splitOnP_cons_of_full hline', hruns]
  simp

theorem splitBlankLines_ne_nil (lines : List (List Char)) : splitBlankLines lines ≠ [] := by
  fun_induction splitBlankLines lines with
  | case1 => exact List.cons_ne_nil _ _
  | case2 => exact List.cons_ne_nil _ _
  | case3 => exact List.cons_ne_nil _ _
  | case4 line line' lines hnot ih => rwa [ne_eq, List.modifyHead_eq_nil_iff]

theorem exists_splitBlankLines_cons (line : List Char) (lines : List (List Char)) :
    ∃ s sections, splitBlankLines (line :: lines) = (line :: s) :: sections := by
  cases lines with
  | nil => exact ⟨[], [], rfl⟩
  | cons line' lines =>
    obtain ⟨s, sections, hsplit⟩ := List.exists_cons_of_ne_nil
      (splitBlankLines_ne_nil (line' :: lines))
    cases line' with
    | nil =>
      cases lines with
      | nil => exact ⟨[[]], [], rfl⟩
      | cons line'' lines => exact ⟨[], _, rfl⟩
    | cons c line' => exact ⟨s, sections, congrArg (List.modifyHead (line :: ·)) hsplit⟩

/-- The full lines of the sections are the runs of full lines. -/
theorem blocks_eq (lines : List (List Char)) :
    ((splitBlankLines lines).map full).filter (· ≠ []) = blocks lines := by
  fun_induction splitBlankLines lines with
  | case1 => rfl
  | case2 line => cases line <;> rfl
  | case3 line line' lines ih =>
    have hblocks : blocks (line :: [] :: line' :: lines) = blocks [line] ++ blocks (line' :: lines) :=
      blocks_append_cons [line] (line' :: lines)
    rw [hblocks, ← ih]
    cases line <;> rfl
  | case4 line line' lines hnot ih =>
    obtain ⟨s, sections, hsplit⟩ := exists_splitBlankLines_cons line' lines
    rw [hsplit] at ih ⊢
    rw [List.modifyHead_cons]
    by_cases hline : line = []
    · subst hline
      rw [blocks_cons_nil, ← ih]
      rfl
    by_cases hline' : line' = []
    · -- an empty line at the end
      cases lines with
      | nil =>
        cases hsplit
        subst hline'
        have hblocks : blocks [line, []] = [[line]] :=
          (blocks_append_nil [line]).trans
            (blocks_of_full (List.cons_ne_nil _ _) (by simpa using Ne.symm hline))
        rw [hblocks]
        simp [full, hline]
      | cons line'' lines => exact (hnot line'' lines hline' rfl).elim
    · rw [blocks_cons_cons hline hline', ← ih]
      simp [full, hline, hline']

/-- A text of lines without empty ones at its end has no section with one behind another line. -/
theorem isChain_of_mem_splitBlankLines {R : List Char → List Char → Prop}
    {lines : List (List Char)} (hlast : lines.getLast? ≠ some [])
    (hchain : lines.IsChain fun line line' => line' ≠ [] → R line line') {s : List (List Char)}
    (hs : s ∈ splitBlankLines lines) : s.IsChain fun line line' => line' ≠ [] ∧ R line line' := by
  fun_induction splitBlankLines lines generalizing s with
  | case1 =>
    rw [List.mem_singleton.1 hs]
    exact .nil
  | case2 line =>
    rw [List.mem_singleton.1 hs]
    exact .singleton line
  | case3 line line' lines ih =>
    rcases List.mem_cons.1 hs with rfl | hs
    · exact .singleton line
    · exact ih (by simpa using hlast) hchain.tail.tail hs
  | case4 line line' lines hnot ih =>
    obtain ⟨first, sections, hsplit⟩ := exists_splitBlankLines_cons line' lines
    have hlast' : (line' :: lines).getLast? ≠ some [] := by simpa using hlast
    rw [hsplit] at ih hs
    rcases List.mem_cons.1 hs with rfl | hs
    · have hline' : line' ≠ [] := by
        rintro rfl
        cases lines with
        | nil => exact hlast' rfl
        | cons line'' lines => exact hnot line'' lines rfl rfl
      refine List.isChain_cons_cons.2 ⟨⟨hline', (List.isChain_cons_cons.1 hchain).1 hline'⟩, ?_⟩
      exact ih hlast' hchain.tail List.mem_cons_self
    · exact ih hlast' hchain.tail (List.mem_cons_of_mem _ hs)

theorem mem_of_mem_splitBlankLines {lines s : List (List Char)} (hs : s ∈ splitBlankLines lines)
    {line : List Char} (hline : line ∈ s) : line ∈ lines := by
  fun_induction splitBlankLines lines generalizing s with
  | case1 => rwa [List.mem_singleton.1 hs] at hline
  | case2 => rwa [List.mem_singleton.1 hs] at hline
  | case3 first line' lines ih =>
    rcases List.mem_cons.1 hs with rfl | hs
    · rw [List.mem_singleton.1 hline]
      exact List.mem_cons_self
    · exact List.mem_cons_of_mem _ (List.mem_cons_of_mem _ (ih hs hline))
  | case4 first line' lines hnot ih =>
    obtain ⟨s', sections, hsplit⟩ := exists_splitBlankLines_cons line' lines
    rw [hsplit] at ih hs
    rcases List.mem_cons.1 hs with rfl | hs
    · rcases List.mem_cons.1 hline with rfl | hline
      · exact List.mem_cons_self
      · exact List.mem_cons_of_mem _ (ih List.mem_cons_self hline)
    · exact List.mem_cons_of_mem _ (ih (List.mem_cons_of_mem _ hs) hline)

/-- There are two blocks if and only if an empty line is between two full ones. -/
theorem one_lt_length_blocks_iff {lines : List (List Char)} :
    1 < (blocks lines).length ↔
      ∃ above below, lines = above ++ [] :: below ∧ full above ≠ [] ∧ full below ≠ [] := by
  have hne : ∀ lines, full lines ≠ [] ↔ 0 < (blocks lines).length := by
    intro lines
    rw [← flatten_blocks, List.length_pos_iff, not_iff_not]
    refine ⟨fun hnil => ?_, fun hnil => by rw [hnil]; rfl⟩
    rw [List.eq_nil_iff_forall_not_mem]
    intro run hrun
    have hrun' : run = [] := List.flatten_eq_nil_iff.1 hnil run hrun
    exact absurd hrun' (by simpa using (List.mem_filter.1 hrun).2)
  constructor
  · induction lines with
    | nil => exact fun hlength => absurd hlength (by decide)
    | cons line lines ih =>
      intro hlength
      by_cases hline : line = []
      · subst hline
        rw [blocks_cons_nil] at hlength
        obtain ⟨above, below, heq, habove, hbelow⟩ := ih hlength
        exact ⟨[] :: above, below, by rw [heq]; rfl, habove, hbelow⟩
      by_cases hmem : [] ∈ lines
      · -- the first block ends at the first empty line
        obtain ⟨above, below, heq, hnot⟩ := List.eq_append_cons_of_mem hmem
        have hblocks : blocks (line :: lines) = blocks (line :: above) ++ blocks below := by
          rw [heq]
          exact blocks_append_cons (line :: above) below
        have hfirst : blocks (line :: above) = [line :: above] := by
          refine blocks_of_full (List.cons_ne_nil _ _) ?_
          rw [List.mem_cons, not_or]
          exact ⟨Ne.symm hline, hnot⟩
        rw [hblocks, hfirst, List.length_append, List.length_singleton] at hlength
        refine ⟨line :: above, below, by rw [heq]; rfl, ?_, (hne below).2 (by omega)⟩
        rw [hne, hfirst]
        exact Nat.one_pos
      · rw [blocks_of_full (List.cons_ne_nil _ _)] at hlength
        · exact absurd hlength (by simp)
        · rw [List.mem_cons, not_or]
          exact ⟨Ne.symm hline, hmem⟩
  · rintro ⟨above, below, rfl, habove, hbelow⟩
    rw [blocks_append_cons, List.length_append]
    have h1 := (hne above).1 habove
    have h2 := (hne below).1 hbelow
    omega

/-! ## Joining -/

theorem joinLines_append {lines lines' : List (List Char)} (h : lines ≠ []) (h' : lines' ≠ []) :
    joinLines (lines ++ lines') = joinLines lines ++ '\n' :: joinLines lines' := by
  induction lines with
  | nil => exact absurd rfl h
  | cons line lines ih =>
    cases lines with
    | nil =>
      obtain ⟨first, rest, rfl⟩ := List.exists_cons_of_ne_nil h'
      rw [List.singleton_append, joinLines_cons_cons]
      simp [joinLines]
    | cons line' lines =>
      rw [List.cons_append, List.cons_append, joinLines_cons_cons, joinLines_cons_cons,
        ← List.cons_append, ih (List.cons_ne_nil _ _)]
      simp

theorem head?_joinLines {line : List Char} (h : line ≠ []) (lines : List (List Char)) :
    (joinLines (line :: lines)).head? = line.head? := by
  obtain ⟨c, rest, rfl⟩ := List.exists_cons_of_ne_nil h
  cases lines with
  | nil => simp [joinLines]
  | cons line' lines => rw [joinLines_cons_cons]; rfl

theorem getLast?_joinLines_concat {line : List Char} (h : line ≠ []) (lines : List (List Char)) :
    (joinLines (lines ++ [line])).getLast? = line.getLast? := by
  have hjoin : joinLines [line] = line := by simp [joinLines]
  cases lines with
  | nil => rw [List.nil_append, hjoin]
  | cons line' lines =>
    rw [joinLines_append (List.cons_ne_nil _ _) (List.cons_ne_nil _ _), hjoin]
    obtain ⟨c, rest, rfl⟩ := List.exists_cons_of_ne_nil h
    rw [List.getLast?_append, List.getLast?_cons_cons,
      List.getLast?_eq_some_getLast (List.cons_ne_nil c rest)]
    rfl

/-- Sections that are joined are lines with an empty one in between. -/
theorem joinBlank_map_joinLines {sections : List (List (List Char))} (h : ∀ s ∈ sections, s ≠ []) :
    joinBlank (sections.map joinLines) = joinLines ([[]].intercalate sections) := by
  induction sections with
  | nil => rfl
  | cons s sections ih =>
    obtain ⟨hs, hsections⟩ := List.forall_mem_cons.1 h
    cases sections with
    | nil => simp [joinBlank]
    | cons s' sections =>
      have hrest : [[]].intercalate (s' :: sections) ≠ [] := by
        obtain ⟨line, lines, rfl⟩ := List.exists_cons_of_ne_nil (hsections s' List.mem_cons_self)
        cases sections <;> simp
      obtain ⟨line, lines, hlines⟩ := List.exists_cons_of_ne_nil hrest
      rw [List.map_cons, List.map_cons, joinBlank_cons_cons, ← List.map_cons, ih hsections,
        List.intercalate_cons_cons, List.append_assoc, joinLines_append hs (by simp), hlines,
        List.singleton_append, joinLines_cons_cons]
      rfl

theorem mem_intercalate {sections : List (List (List Char))} {line : List Char}
    (h : line ∈ [[]].intercalate sections) : line = [] ∨ ∃ s ∈ sections, line ∈ s := by
  induction sections with
  | nil => cases h
  | cons s sections ih =>
    cases sections with
    | nil =>
      rw [List.intercalate_singleton] at h
      exact .inr ⟨s, List.mem_cons_self, h⟩
    | cons s' sections =>
      rw [List.intercalate_cons_cons, List.append_assoc] at h
      rcases List.mem_append.1 h with h | h
      · exact .inr ⟨s, List.mem_cons_self, h⟩
      rcases List.mem_cons.1 h with h | h
      · exact .inl h
      · obtain hnil | ⟨t, ht, hline⟩ := ih h
        · exact .inl hnil
        · exact .inr ⟨t, List.mem_cons_of_mem _ ht, hline⟩

theorem blocks_intercalate (sections : List (List (List Char))) :
    blocks ([[]].intercalate sections) = sections.flatMap blocks := by
  induction sections with
  | nil => rfl
  | cons s sections ih =>
    cases sections with
    | nil => simp
    | cons s' sections =>
      rw [List.intercalate_cons_cons, List.append_assoc, List.singleton_append, blocks_append_cons,
        ih]
      rfl

/-- A chain over the lines does not see the empty ones in between. -/
theorem isChain_intercalate {R : List Char → List Char → Prop} (hleft : ∀ line, R [] line)
    (hright : ∀ line, R line []) {sections : List (List (List Char))}
    (h : ∀ s ∈ sections, s.IsChain R) : ([[]].intercalate sections).IsChain R := by
  induction sections with
  | nil => exact .nil
  | cons s sections ih =>
    obtain ⟨hs, hsections⟩ := List.forall_mem_cons.1 h
    cases sections with
    | nil => rwa [List.intercalate_singleton]
    | cons s' sections =>
      rw [List.intercalate_cons_cons, List.append_assoc, List.singleton_append]
      refine List.isChain_append.2 ⟨hs, List.isChain_cons.2 ⟨fun _ _ => hleft _, ih hsections⟩,
        fun line _ line' hline' => ?_⟩
      cases hline'
      exact hright line

/-! ## Splitting -/

theorem splitBlank_cons {c : Char} {text : List Char} (h : c ≠ '\n' ∨ text.head? ≠ some '\n') :
    splitBlank (c :: text) = (splitBlank text).modifyHead (c :: ·) := by
  have hcons : splitBlank (c :: text) = consHead c (splitBlank text) := by
    cases text with
    | nil => simp [splitBlank]
    | cons d text =>
      rw [splitBlank]
      rintro rest rfl hrest
      cases hrest
      exact h.elim (absurd rfl) (absurd rfl)
  obtain ⟨s, sections, hsplit⟩ := List.exists_cons_of_ne_nil (splitBlank_ne_nil text)
  rw [hcons, hsplit]
  rfl

/-- What has no newline is in front of the first section. -/
theorem splitBlank_append {line : List Char} (h : '\n' ∉ line) (text : List Char) :
    splitBlank (line ++ text) = (splitBlank text).modifyHead (line ++ ·) := by
  induction line with
  | nil => rw [List.nil_append]; cases splitBlank text <;> rfl
  | cons c line ih =>
    rw [List.mem_cons, not_or] at h
    rw [List.cons_append, splitBlank_cons (.inl (Ne.symm h.1)), ih h.2, List.modifyHead_modifyHead]
    rfl

/-- Splitting a joined text splits its lines. -/
theorem splitBlank_joinLines {lines : List (List Char)} (h : ∀ line ∈ lines, '\n' ∉ line) :
    splitBlank (joinLines lines) = (splitBlankLines lines).map joinLines := by
  fun_induction splitBlankLines lines with
  | case1 => rfl
  | case2 line =>
    have hsplit := splitBlank_append (h line List.mem_cons_self) []
    simpa [joinLines, splitBlank] using hsplit
  | case3 line line' lines ih =>
    obtain ⟨hline, hlines⟩ := List.forall_mem_cons.1 h
    rw [joinLines_cons_cons, joinLines_cons_cons, List.nil_append, splitBlank_append hline,
      splitBlank, List.map_cons, ih (List.forall_mem_cons.1 hlines).2]
    simp [joinLines]
  | case4 line line' lines hnot ih =>
    obtain ⟨hline, hlines⟩ := List.forall_mem_cons.1 h
    have hhead : (joinLines (line' :: lines)).head? ≠ some '\n' := by
      cases line' with
      | nil =>
        cases lines with
        | nil => simp [joinLines]
        | cons line'' lines => exact (hnot line'' lines rfl rfl).elim
      | cons d line' =>
        have hd : d ≠ '\n' := fun heq =>
          (List.forall_mem_cons.1 hlines).1 (by rw [heq]; exact List.mem_cons_self)
        rw [head?_joinLines (List.cons_ne_nil d line')]
        simpa using hd
    obtain ⟨s, sections, hsplit⟩ := exists_splitBlankLines_cons line' lines
    rw [joinLines_cons_cons, splitBlank_append hline, splitBlank_cons (.inr hhead), ih hlines, hsplit]
    simp [joinLines_cons_cons]

theorem splitlines_append_newline {line : List Char} (h : ∀ c ∈ line, ¬isBoundary c = true) :
    splitlines (line ++ ['\n']) = [line] := by
  induction line with
  | nil => rw [List.nil_append, splitlines_cons_of_boundary isBoundary_newline]; rfl
  | cons c line ih =>
    obtain ⟨hc, hline⟩ := List.forall_mem_cons.1 h
    rw [List.cons_append, splitlines_cons_of_not_boundary hc, ih hline]
    rfl

/-- The lines of a joined text that does not end with an empty one. -/
theorem splitlines_joinLines {lines : List (List Char)}
    (h : ∀ line ∈ lines, ∀ c ∈ line, ¬isBoundary c = true) (hlast : lines.getLast? ≠ some []) :
    splitlines (joinLines lines) = lines := by
  induction lines with
  | nil => rfl
  | cons line lines ih =>
    obtain ⟨hline, hlines⟩ := List.forall_mem_cons.1 h
    cases lines with
    | nil =>
      have hne : line ≠ [] := by simpa using hlast
      simpa [joinLines] using splitlines_of_inline hne hline
    | cons line' lines =>
      rw [joinLines_cons_cons, splitlines_append_boundary isBoundary_newline,
        splitlines_append_newline hline, ih hlines (by simpa using hlast)]
      rfl

theorem splitlines_cons_congr {s t : List Char} (h : splitlines s = splitlines t) (c : Char) :
    splitlines (c :: s) = splitlines (c :: t) := by
  rw [splitlines, splitlines, h]

/-- A newline at the end changes the lines of no section. -/
theorem map_splitlines_splitBlank {text : List Char} (hne : text ≠ [])
    (hlast : ∀ c ∈ text.getLast?, ¬isBoundary c = true) :
    (splitBlank (text ++ ['\n'])).map splitlines = (splitBlank text).map splitlines := by
  fun_induction splitBlank text with
  | case1 text ih =>
    cases text with
    | nil => exact absurd isBoundary_newline (hlast '\n' rfl)
    | cons c text =>
      rw [List.cons_append, List.cons_append, splitBlank, List.map_cons, List.map_cons,
        ih (List.cons_ne_nil _ _) (by simpa using hlast)]
  | case2 c text hnot ih =>
    cases text with
    | nil =>
      have hinline : ∀ d ∈ [c], ¬isBoundary d = true := by simpa using hlast
      have hc : c ≠ '\n' := fun heq => hlast c rfl (heq ▸ isBoundary_newline)
      have hsplit : splitBlank ['\n'] = [['\n']] := rfl
      rw [List.singleton_append, splitBlank_cons (.inl hc), hsplit]
      exact congrArg (fun lines => [lines]) ((splitlines_append_newline hinline).trans
        (splitlines_of_inline (List.cons_ne_nil c []) hinline).symm)
    | cons d text =>
      have hhead : c ≠ '\n' ∨ (d :: text ++ ['\n']).head? ≠ some '\n' := by
        by_contra hboth
        obtain ⟨hc, hd⟩ := not_or.1 hboth
        have hd' : d = '\n' := by simpa using hd
        exact hnot text (not_not.1 hc) (by rw [hd'])
      have ih := ih (List.cons_ne_nil _ _) (by simpa using hlast)
      obtain ⟨s, sections, hs⟩ := List.exists_cons_of_ne_nil (splitBlank_ne_nil (d :: text))
      obtain ⟨t, sections', ht⟩ := List.exists_cons_of_ne_nil
        (splitBlank_ne_nil (d :: text ++ ['\n']))
      rw [hs, ht, List.map_cons, List.map_cons, List.cons_eq_cons] at ih
      rw [List.cons_append, splitBlank_cons hhead, hs, ht]
      exact congrArg₂ List.cons (splitlines_cons_congr ih.1 c) ih.2
  | case3 => exact absurd rfl hne

/-! ## Stripping -/

theorem dropWhile_of_head {text : List Char} (h : ∀ c ∈ text.head?, ¬isSpace c = true) :
    text.dropWhile isSpace = text := by
  cases text with
  | nil => rfl
  | cons c text => exact List.dropWhile_cons_of_neg (h c rfl)

theorem rdropWhile_of_last {text : List Char} (h : ∀ c ∈ text.getLast?, ¬isSpace c = true) :
    text.rdropWhile isSpace = text := by
  refine List.rdropWhile_eq_self_iff.2 fun hne => h _ ?_
  exact List.getLast?_eq_some_getLast hne

theorem IsLine.strip_eq {line : List Char} (h : IsLine line) : strip line = line := by
  rw [strip, dropWhile_of_head h.head, rdropWhile_of_last h.last]

theorem isSpace_of_isBoundary {c : Char} (h : isBoundary c = true) : isSpace c = true := by
  unfold isBoundary at h
  unfold isSpace
  simp only [decide_eq_true_eq] at h ⊢
  omega

theorem strip_strip (text : List Char) : strip (strip text) = strip text := by
  have hhead : ∀ c ∈ (strip text).head?, ¬isSpace c = true := by
    intro c hc
    obtain ⟨rest, hrest⟩ := List.rdropWhile_prefix isSpace (text.dropWhile isSpace)
    have hfirst : (text.dropWhile isSpace).head? = some c := by
      rw [← hrest, List.head?_append]
      exact Option.or_eq_some_iff.2 (.inl hc)
    have hnot := List.head?_dropWhile_not isSpace text
    rw [hfirst] at hnot
    simpa using hnot
  have hdrop : (strip text).dropWhile isSpace = strip text := dropWhile_of_head hhead
  rw [strip, hdrop]
  exact List.rdropWhile_idempotent isSpace _

section

variable {lines : List (List Char)} (h : ∀ line ∈ lines, line ≠ [] → IsLine line)

include h

theorem dropWhile_joinLines :
    (joinLines lines).dropWhile isSpace = joinLines (lines.dropWhile List.isEmpty) := by
  induction lines with
  | nil => rfl
  | cons line lines ih =>
    obtain ⟨hline, hlines⟩ := List.forall_mem_cons.1 h
    by_cases hne : line = []
    · subst hne
      rw [List.dropWhile_cons_of_pos rfl, ← ih hlines]
      cases lines with
      | nil => rfl
      | cons line' lines =>
        rw [joinLines_cons_cons]
        rfl
    · rw [List.dropWhile_cons_of_neg (by rwa [List.isEmpty_iff])]
      refine dropWhile_of_head ?_
      rw [head?_joinLines hne]
      exact (hline hne).head

theorem rdropWhile_joinLines :
    (joinLines lines).rdropWhile isSpace = joinLines (lines.rdropWhile List.isEmpty) := by
  induction lines using List.reverseRecOn with
  | nil => rfl
  | append_singleton lines line ih =>
    have hlines : ∀ line ∈ lines, line ≠ [] → IsLine line := fun line' hline' =>
      h line' (List.mem_append_left _ hline')
    by_cases hne : line = []
    · subst hne
      rw [List.rdropWhile_concat_pos _ _ _ rfl, ← ih hlines]
      cases lines with
      | nil => rfl
      | cons line' lines =>
        rw [joinLines_append (List.cons_ne_nil _ _) (List.cons_ne_nil _ _)]
        exact List.rdropWhile_concat_pos _ _ _ (by decide)
    · rw [List.rdropWhile_concat_neg _ _ _ (by rwa [List.isEmpty_iff])]
      refine rdropWhile_of_last ?_
      rw [getLast?_joinLines_concat hne]
      exact (h line (List.mem_append_right _ List.mem_cons_self) hne).last

theorem strip_joinLines : strip (joinLines lines) = joinLines (trim lines) := by
  unfold strip trim
  rw [dropWhile_joinLines h, rdropWhile_joinLines]
  exact fun line hline => h line ((List.dropWhile_sublist _).subset hline)

end

theorem trim_isInfix (lines : List (List Char)) : trim lines <:+: lines :=
  (List.rdropWhile_prefix _ _).isInfix.trans (List.dropWhile_suffix _).isInfix

theorem getLast?_trim (lines : List (List Char)) : (trim lines).getLast? ≠ some [] := by
  intro hlast
  have hne : trim lines ≠ [] := by
    intro hnil
    rw [hnil] at hlast
    cases hlast
  rw [List.getLast?_eq_some_getLast hne, Option.some_inj] at hlast
  have hnot := List.rdropWhile_last_not List.isEmpty (lines.dropWhile List.isEmpty) hne
  rw [show (List.rdropWhile _ _).getLast hne = [] from hlast] at hnot
  exact hnot rfl

theorem blocks_trim (lines : List (List Char)) : blocks (trim lines) = blocks lines := by
  have hright : ∀ lines, blocks (lines.rdropWhile List.isEmpty) = blocks lines := by
    intro lines
    induction lines using List.reverseRecOn with
    | nil => rfl
    | append_singleton lines line ih =>
      cases line with
      | nil => rw [List.rdropWhile_concat_pos _ _ _ rfl, ih, blocks_append_nil]
      | cons c line => rw [List.rdropWhile_concat_neg _ _ _ (by simp)]
  unfold trim
  rw [hright]
  induction lines with
  | nil => rfl
  | cons line lines ih =>
    cases line with
    | nil => rw [List.dropWhile_cons_of_pos rfl, ih, blocks_cons_nil]
    | cons c line => rw [List.dropWhile_cons_of_neg (by simp)]

end PyText
