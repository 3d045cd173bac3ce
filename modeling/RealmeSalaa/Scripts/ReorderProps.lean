import RealmeSalaa.Lib.PyLines
import RealmeSalaa.Lib.Sorting
import RealmeSalaa.Scripts.UpdateSha1sums

/-!
# Reordering the property files

The script sorts the lines of every section by their keys with a stable sort, and keeps blank lines:
their key is the smallest, so they go to the front of their section, and the next run splits the text
at other places. The lines of one key keep their order, and the text that is written is a fixed point,
as every run of full lines in it is sorted. The sections are kept too, but for lines that begin with
`=`. Their key is the empty one, as is that of a blank line, so a blank line below such a line stays
below it, and parts the section (`preserved_iff`).
-/

namespace RealmeSalaa.Scripts.ReorderProps

open PyText Sorting

/-! ## The script -/

def section_list (s : List Char) : List Line := (splitlines s).map strip

/-- `line.split('=')[0]` -/
def key (line : Line) : Line := beforeFirst '=' line

/-- The lines of a section in the new order. -/
def sorted_list (s : List Char) : List Line := sortByKey key (section_list s)

/-- The text that the script writes. -/
def reorder (text : List Char) : List Char :=
  strip (joinBlank ((splitBlank text).map fun s => joinLines (sorted_list s))) ++ ['\n']

/-! ## What is to be preserved -/

/-- The non-empty stripped lines of a file. -/
def fileLines (text : List Char) : List Line := full (section_list text)

/-- The non-empty stripped lines of each section that has some. -/
def sectionLines (text : List Char) : List (List Line) :=
  ((splitBlank text).map fileLines).filter (· ≠ [])

/-- What processing a file keeps. -/
structure Preserved (text : List Char) : Prop where
  sections : List.Forall₂ List.Perm (sectionLines text) (sectionLines (reorder text))
  order : ∀ k, (fileLines (reorder text)).filter (fun line => key line = k) =
    (fileLines text).filter fun line => key line = k
  fixed : reorder (reorder text) = reorder text

/-- A blank line is below a line with the empty key, and something is to come below it. -/
def Parts (lines : List Line) : Prop :=
  ∃ above below, lines = above ++ [] :: below ∧ (∃ line ∈ above, line ≠ [] ∧ key line = []) ∧
    ((∃ line ∈ below, line ≠ [] ∧ key line = []) ∨ ∃ line ∈ above ++ below, key line ≠ [])

/-! ## The lines of the new text -/

theorem key_nil_le (line : Line) : KeyLE key [] line := not_lt.1 (List.not_lt_nil (key line))

/-- Stripped lines, of which some may be empty. -/
theorem isLine_of_mem_sorted_list {s : List Char} {line : Line} (h : line ∈ sorted_list s)
    (hne : line ≠ []) : IsLine line := by
  obtain ⟨raw, hraw, rfl⟩ := List.mem_map.1 ((sortByKey_perm key _).mem_iff.1 h)
  exact isLine_strip hraw hne

/-- The lines of a section; a section without lines is joined as if it had an empty one. -/
def padded (lines : List Line) : List Line := if lines = [] then [[]] else lines

theorem padded_ne_nil (lines : List Line) : padded lines ≠ [] := by
  unfold padded
  split_ifs with h
  · exact List.cons_ne_nil _ _
  · exact h

theorem joinLines_padded (lines : List Line) : joinLines (padded lines) = joinLines lines := by
  unfold padded
  split_ifs with h
  · rw [h]; rfl
  · rfl

theorem blocks_padded (lines : List Line) : blocks (padded lines) = blocks lines := by
  unfold padded
  split_ifs with h
  · rw [h]; rfl
  · rfl

theorem mem_padded {lines : List Line} {line : Line} (h : line ∈ padded lines) (hne : line ≠ []) :
    line ∈ lines := by
  unfold padded at h
  split_ifs at h
  · exact absurd (List.mem_singleton.1 h) hne
  · exact h

/-- The lines of the new text, but for the newline at its end. -/
def newLines (text : List Char) : List Line :=
  trim ([[]].intercalate ((splitBlank text).map fun s => padded (sorted_list s)))

section

variable (text : List Char)

theorem isLine_of_mem_joined {line : Line}
    (h : line ∈ [[]].intercalate ((splitBlank text).map fun s => padded (sorted_list s)))
    (hne : line ≠ []) : IsLine line := by
  rcases mem_intercalate h with hnil | ⟨lines, hlines, hline⟩
  · exact absurd hnil hne
  · obtain ⟨s, -, rfl⟩ := List.mem_map.1 hlines
    exact isLine_of_mem_sorted_list (mem_padded hline hne) hne

theorem reorder_eq : reorder text = joinLines (newLines text) ++ ['\n'] := by
  unfold reorder newLines
  rw [← strip_joinLines fun line => isLine_of_mem_joined text, ← joinBlank_map_joinLines,
    List.map_map]
  · refine congrArg (fun sections => strip (joinBlank sections) ++ ['\n']) ?_
    exact List.map_congr_left fun s _ => (joinLines_padded _).symm
  · rintro lines hlines
    obtain ⟨s, -, rfl⟩ := List.mem_map.1 hlines
    exact padded_ne_nil _

/-- What is known of the lines of the new text. -/
structure Sorted (lines : List Line) : Prop where
  isLine : ∀ line ∈ lines, line ≠ [] → IsLine line
  chain : lines.IsChain fun line line' => line' ≠ [] → KeyLE key line line'
  last : lines.getLast? ≠ some []
  stripped : strip (joinLines lines) = joinLines lines

theorem sorted_newLines : Sorted (newLines text) := by
  refine ⟨fun line hline => ?_, ?_, getLast?_trim _, ?_⟩
  · exact isLine_of_mem_joined text ((trim_isInfix _).subset hline)
  · refine List.IsChain.infix ?_ (trim_isInfix _)
    refine isChain_intercalate (fun line _ => key_nil_le line) (fun line h => absurd rfl h) ?_
    intro lines hlines
    obtain ⟨s, -, rfl⟩ := List.mem_map.1 hlines
    unfold padded
    split_ifs
    · exact .singleton _
    · exact (pairwise_sortByKey key _).isChain.imp fun _ _ h _ => h
  · unfold newLines
    rw [← strip_joinLines fun line => isLine_of_mem_joined text, strip_strip]

theorem blocks_newLines :
    blocks (newLines text) = (splitBlank text).flatMap fun s => blocks (sorted_list s) := by
  unfold newLines
  rw [blocks_trim, blocks_intercalate, List.flatMap_map]
  exact List.flatMap_congr fun s _ => blocks_padded _

end

/-! ## The sections of the new text -/

/-- A section of the new text begins with at most one empty line, and has no other. -/
theorem eq_or_last_of_isChain {R : Line → Line → Prop} {s : List Line}
    (h : s.IsChain fun line line' => line' ≠ [] ∧ R line line') :
    s = [[]] ∨ s.getLast? ≠ some [] := by
  induction s with
  | nil => exact .inr (by simp)
  | cons line s ih =>
    cases s with
    | nil =>
      by_cases hline : line = []
      · exact .inl (by rw [hline])
      · exact .inr (by simpa using hline)
    | cons line' s =>
      obtain ⟨⟨hne, -⟩, htail⟩ := List.isChain_cons_cons.1 h
      rcases ih htail with heq | hlast
      · exact absurd (List.cons.inj heq).1 hne
      · exact .inr (by simpa using hlast)

section

variable {lines : List Line} (h : Sorted lines)

include h

theorem Sorted.section_eq {s : List Line} (hs : s ∈ splitBlankLines lines) :
    s = [[]] ∨ section_list (joinLines s) = s := by
  rcases eq_or_last_of_isChain (isChain_of_mem_splitBlankLines h.last h.chain hs) with hnil | hlast
  · exact .inl hnil
  have hline : ∀ line ∈ s, line ≠ [] → IsLine line := fun line hline =>
    h.isLine line (mem_of_mem_splitBlankLines hs hline)
  have hsplit : splitlines (joinLines s) = s := by
    refine splitlines_joinLines (fun line hmem => ?_) hlast
    by_cases hne : line = []
    · simp [hne]
    · exact (hline line hmem hne).inline
  refine .inr ?_
  rw [section_list, hsplit]
  refine (List.map_congr_left fun line hmem => ?_).trans (List.map_id s)
  by_cases hne : line = []
  · rw [hne]; rfl
  · exact (hline line hmem hne).strip_eq

/-- The sections of the new text are in order already. -/
theorem Sorted.sorted_list_eq {s : List Line} (hs : s ∈ splitBlankLines lines) :
    joinLines (sorted_list (joinLines s)) = joinLines s := by
  rcases h.section_eq hs with rfl | heq
  · rfl
  have hchain : s.IsChain (KeyLE key) :=
    (isChain_of_mem_splitBlankLines h.last h.chain hs).imp fun _ _ h => h.2
  rw [sorted_list, heq, sortByKey_of_pairwise key hchain.pairwise]

theorem Sorted.fileLines_eq {s : List Line} (hs : s ∈ splitBlankLines lines) :
    fileLines (joinLines s) = full s := by
  rcases h.section_eq hs with rfl | heq
  · rfl
  · rw [fileLines, heq]

theorem Sorted.splitBlank_eq :
    splitBlank (joinLines lines) = (splitBlankLines lines).map joinLines := by
  refine splitBlank_joinLines fun line hmem hnewline => ?_
  exact (h.isLine line hmem (List.ne_nil_of_mem hnewline)).inline _ hnewline isBoundary_newline

/-- What the script finds in the sections of the new text. -/
theorem Sorted.map_section_list (hne : lines ≠ []) :
    (splitBlank (joinLines lines ++ ['\n'])).map section_list =
      (splitBlankLines lines).map fun s => section_list (joinLines s) := by
  obtain ⟨line, hline⟩ := Option.ne_none_iff_exists'.1 (mt List.getLast?_eq_none_iff.1 hne)
  obtain ⟨before, hlines⟩ := List.getLast?_eq_some_iff.1 hline
  have hfull : line ≠ [] := by
    rintro rfl
    exact h.last hline
  have hlast : (joinLines lines).getLast? = line.getLast? := by
    rw [hlines, getLast?_joinLines_concat hfull]
  have hsplit : (splitBlank (joinLines lines ++ ['\n'])).map splitlines =
      (splitBlank (joinLines lines)).map splitlines := by
    refine map_splitlines_splitBlank (fun hnil => ?_) fun c hc hboundary => ?_
    · rw [hnil, eq_comm, List.getLast?_nil, List.getLast?_eq_none_iff] at hlast
      exact hfull hlast
    · rw [hlast] at hc
      exact (h.isLine line (List.mem_of_getLast? hline) hfull).last c hc
        (isSpace_of_isBoundary hboundary)
  have hsections := congrArg (List.map (List.map strip)) hsplit
  rw [h.splitBlank_eq, List.map_map, List.map_map, List.map_map] at hsections
  exact hsections

/-- The new text is not changed again. -/
theorem Sorted.fixed : reorder (joinLines lines ++ ['\n']) = joinLines lines ++ ['\n'] := by
  by_cases hne : lines = []
  · rw [hne]
    decide
  have hsections : (splitBlank (joinLines lines ++ ['\n'])).map (fun s => joinLines (sorted_list s)) =
      splitBlank (joinLines lines) := by
    have hmap := congrArg (List.map fun section_list => joinLines (sortByKey key section_list))
      (h.map_section_list hne)
    rw [List.map_map, List.map_map] at hmap
    refine hmap.trans ?_
    rw [h.splitBlank_eq]
    exact List.map_congr_left fun s hs => h.sorted_list_eq hs
  rw [reorder, hsections, joinBlank_splitBlank, h.stripped]

/-- The sections of the new text are its runs of full lines. -/
theorem Sorted.sectionLines_eq : sectionLines (joinLines lines ++ ['\n']) = blocks lines := by
  by_cases hne : lines = []
  · rw [hne]
    decide
  have hmap := congrArg (List.map full) (h.map_section_list hne)
  rw [List.map_map, List.map_map] at hmap
  have hsections : (splitBlank (joinLines lines ++ ['\n'])).map fileLines =
      (splitBlankLines lines).map full :=
    hmap.trans (List.map_congr_left fun s hs => h.fileLines_eq hs)
  rw [sectionLines, hsections, blocks_eq]

end

theorem sectionLines_reorder (text : List Char) :
    sectionLines (reorder text) = (splitBlank text).flatMap fun s => blocks (sorted_list s) := by
  rw [reorder_eq, (sorted_newLines text).sectionLines_eq, blocks_newLines]

/-! ## The order of the assignments -/

/-- The lines of a file are those of its sections. -/
theorem fileLines_eq_flatMap (text : List Char) :
    fileLines text = (splitBlank text).flatMap fileLines := by
  have hfull : ∀ text, fileLines text = full ((fullLines text).map strip) := by
    intro text
    unfold fileLines section_list fullLines
    induction splitlines text with
    | nil => rfl
    | cons line lines ih =>
      cases line with
      | nil => exact ih
      | cons c line =>
        rw [List.filter_cons_of_pos (by simp), List.map_cons, List.map_cons]
        unfold full at ih ⊢
        rw [List.filter_cons, List.filter_cons, ih]
  rw [hfull, fullLines_eq_flatMap, List.map_flatMap, full, List.filter_flatMap]
  exact List.flatMap_congr fun s _ => (hfull s).symm

theorem flatten_sectionLines (text : List Char) : (sectionLines text).flatten = fileLines text := by
  rw [fileLines_eq_flatMap, sectionLines, List.flatten_filter_ne_nil, List.flatMap_def]

/-- A key keeps the order of its lines. -/
theorem filter_fileLines_reorder (text : List Char) (k : Line) :
    (fileLines (reorder text)).filter (fun line => key line = k) =
      (fileLines text).filter fun line => key line = k := by
  have hsorted : fileLines (reorder text) =
      (splitBlank text).flatMap fun s => full (sorted_list s) := by
    rw [← flatten_sectionLines, sectionLines_reorder, List.flatten_eq_flatMap, List.flatMap_assoc]
    refine List.flatMap_congr fun s _ => ?_
    rw [← List.flatten_eq_flatMap, flatten_blocks]
  rw [hsorted, fileLines_eq_flatMap text, List.filter_flatMap, List.filter_flatMap]
  refine List.flatMap_congr fun s _ => ?_
  unfold fileLines full sorted_list
  rw [List.filter_filter, List.filter_filter]
  refine filter_sortByKey key (fun line line' hline hline' => ?_) (section_list s)
  simp only [Bool.and_eq_true, decide_eq_true_eq] at hline hline'
  rw [hline.1, hline'.1]

/-! ## The sections -/

/-- The lines with the empty key come first, in the order they had. -/
theorem sorted_list_eq (s : List Char) :
    sorted_list s = (section_list s).filter (fun line => key line = []) ++
      (sorted_list s).filter fun line => !decide (key line = []) := by
  have hfilter : (sorted_list s).filter (fun line => key line = []) =
      (section_list s).filter fun line => key line = [] := by
    refine filter_sortByKey key (fun line line' hline hline' => ?_) (section_list s)
    rw [of_decide_eq_true hline, of_decide_eq_true hline']
  rw [← hfilter]
  refine eq_filter_append_filter (pairwise_sortByKey key _).isChain
    fun line _ line' _ hline hline' hle => ?_
  have hle' : key line ≤ key line' := hle
  rw [of_decide_eq_true hline'] at hle'
  exact of_decide_eq_false hline (le_antisymm hle' (key_nil_le line))

/-- A section is parted if and only if the new order makes more than one block of it. -/
theorem one_lt_length_blocks_sorted_list (s : List Char) :
    1 < (blocks (sorted_list s)).length ↔ Parts (section_list s) := by
  have hnot : [] ∉ (sorted_list s).filter fun line => !decide (key line = []) := fun hmem => by
    simpa [key, beforeFirst] using (List.mem_filter.1 hmem).2
  have hmem : ∀ line, line ∈ sorted_list s ↔ line ∈ section_list s := fun line =>
    (sortByKey_perm key (section_list s)).mem_iff
  rw [one_lt_length_blocks_iff, sorted_list_eq]
  constructor
  · rintro ⟨above, below, heq, habove, hbelow⟩
    rcases List.append_eq_append_iff.1 heq with ⟨rest, -, hrest⟩ | ⟨rest, hfilter, hrest⟩
    · exact absurd (hrest ▸ List.mem_append_right rest List.mem_cons_self) hnot
    cases rest with
    | nil =>
      rw [List.nil_append] at hrest
      exact absurd (hrest ▸ List.mem_cons_self) hnot
    | cons blank rest =>
      -- the empty line is one of those with the empty key, and so is what is above it
      obtain ⟨rfl, rfl⟩ := List.cons.inj hrest
      obtain ⟨lines, lines', hlines, habove', hbelow'⟩ := List.filter_eq_append_iff.1 hfilter
      obtain ⟨skipped, after, rfl, -, -, rfl⟩ := List.filter_eq_cons_iff.1 hbelow'
      refine ⟨lines ++ skipped, after, by rw [hlines, List.append_assoc], ?_, ?_⟩
      · obtain ⟨line, hline, hne⟩ := full_ne_nil_iff.1 habove
        rw [← habove'] at hline
        obtain ⟨hline, hkey⟩ := List.mem_filter.1 hline
        exact ⟨line, List.mem_append_left _ hline, hne, of_decide_eq_true hkey⟩
      · obtain ⟨line, hline, hne⟩ := full_ne_nil_iff.1 hbelow
        rcases List.mem_append.1 hline with hline | hline
        · obtain ⟨hline, hkey⟩ := List.mem_filter.1 hline
          exact .inl ⟨line, hline, hne, of_decide_eq_true hkey⟩
        · obtain ⟨hline, hkey⟩ := List.mem_filter.1 hline
          rw [hmem, hlines] at hline
          refine .inr ⟨line, ?_, by simpa using hkey⟩
          simp only [List.mem_append, List.mem_cons, hne, false_or] at hline ⊢
          tauto
  · rintro ⟨above, below, heq, ⟨line, hline, hne, hkey⟩, hbelow⟩
    refine ⟨above.filter fun line => key line = [], (below.filter fun line => key line = []) ++
      (sorted_list s).filter fun line => !decide (key line = []), ?_, ?_, ?_⟩
    · rw [heq, List.filter_append, List.filter_cons_of_pos (by decide), List.append_assoc]
      rfl
    · exact full_ne_nil_iff.2 ⟨line, List.mem_filter.2 ⟨hline, decide_eq_true hkey⟩, hne⟩
    · rcases hbelow with ⟨other, hother, hne, hkey⟩ | ⟨other, hother, hkey⟩
      · exact full_ne_nil_iff.2 ⟨other, List.mem_append_left _
          (List.mem_filter.2 ⟨hother, decide_eq_true hkey⟩), hne⟩
      · refine full_ne_nil_iff.2 ⟨other, List.mem_append_right _ (List.mem_filter.2 ⟨?_, ?_⟩), ?_⟩
        · rw [hmem, heq]
          rcases List.mem_append.1 hother with hother | hother
          · exact List.mem_append_left _ hother
          · exact List.mem_append_right _ (List.mem_cons_of_mem _ hother)
        · simpa using hkey
        · rintro rfl
          exact hkey rfl

theorem perm_full_sorted_list (s : List Char) : (full (sorted_list s)).Perm (fileLines s) :=
  (sortByKey_perm key (section_list s)).filter _

theorem length_filter_singleton_le (lines : List Line) :
    ([lines].filter (· ≠ [])).length ≤ 1 := List.length_filter_le _ _

/-- A section that has full lines has a block of them in the new order. -/
theorem length_le_length_blocks (s : List Char) :
    ([fileLines s].filter (· ≠ [])).length ≤ (blocks (sorted_list s)).length := by
  cases hblocks : blocks (sorted_list s) with
  | nil =>
    have hnil : full (sorted_list s) = [] := by rw [← flatten_blocks, hblocks]; rfl
    have hlines : fileLines s = [] := (hnil ▸ (perm_full_sorted_list s).symm).eq_nil
    rw [hlines]
    rfl
  | cons run runs =>
    have hle := length_filter_singleton_le (fileLines s)
    rw [List.length_cons]
    omega

/-- A section that is not parted is one block again, or none. -/
theorem forall₂_blocks {s : List Char} (h : ¬Parts (section_list s)) :
    List.Forall₂ List.Perm ([fileLines s].filter (· ≠ [])) (blocks (sorted_list s)) := by
  rw [← one_lt_length_blocks_sorted_list, not_lt] at h
  have hle := length_le_length_blocks s
  cases hblocks : blocks (sorted_list s) with
  | nil =>
    rw [hblocks, List.length_nil, Nat.le_zero, List.length_eq_zero_iff] at hle
    rw [hle]
    exact .nil
  | cons run runs =>
    rw [hblocks, List.length_cons] at h
    have hruns : runs = [] := List.length_eq_zero_iff.1 (by omega)
    have hperm : (fileLines s).Perm run := by
      have hflatten := flatten_blocks (sorted_list s)
      rw [hblocks, hruns, List.flatten_singleton] at hflatten
      rw [hflatten]
      exact (perm_full_sorted_list s).symm
    have hrun : run ≠ [] := by
      have hmem : run ∈ blocks (sorted_list s) := by rw [hblocks]; exact List.mem_cons_self
      exact of_decide_eq_true (List.mem_filter.1 hmem).2
    have hne : fileLines s ≠ [] := fun hnil => hrun (hnil ▸ hperm).nil_eq.symm
    have hkept : [fileLines s].filter (· ≠ []) = [fileLines s] :=
      List.filter_eq_self.2 fun lines hlines => decide_eq_true (List.mem_singleton.1 hlines ▸ hne)
    rw [hkept, hruns]
    exact .cons hperm .nil

theorem sectionLines_eq_flatMap (text : List Char) :
    sectionLines text = (splitBlank text).flatMap fun s => [fileLines s].filter (· ≠ []) := by
  unfold sectionLines
  rw [List.map_eq_flatMap, List.filter_flatMap]

theorem forall₂_flatMap {α β γ : Type} {R : β → γ → Prop} {f : α → List β} {g : α → List γ}
    {l : List α} (h : ∀ a ∈ l, List.Forall₂ R (f a) (g a)) :
    List.Forall₂ R (l.flatMap f) (l.flatMap g) := by
  induction l with
  | nil => exact .nil
  | cons a l ih =>
    obtain ⟨ha, hl⟩ := List.forall_mem_cons.1 h
    exact List.rel_append ha (ih hl)

/-- **Reordering a property file.** Every text keeps its sections, the order of the lines of each
key, and is a fixed point after one run, if and only if no section is parted. -/
theorem preserved_iff (text : List Char) :
    Preserved text ↔ ∀ s ∈ splitBlank text, ¬Parts (section_list s) := by
  constructor
  · rintro ⟨hsections, -, -⟩ s hs hparts
    have hlength := hsections.length_eq
    rw [sectionLines_eq_flatMap, sectionLines_reorder, List.length_flatMap,
      List.length_flatMap] at hlength
    have hlt : ([fileLines s].filter (· ≠ [])).length < (blocks (sorted_list s)).length :=
      (length_filter_singleton_le _).trans_lt ((one_lt_length_blocks_sorted_list s).2 hparts)
    exact (List.sum_lt_sum _ _ (fun s _ => length_le_length_blocks s) ⟨s, hs, hlt⟩).ne hlength
  · intro h
    refine ⟨?_, filter_fileLines_reorder text, ?_⟩
    · rw [sectionLines_eq_flatMap, sectionLines_reorder]
      exact forall₂_flatMap fun s hs => forall₂_blocks (h s hs)
    · rw [reorder_eq text]
      exact (sorted_newLines text).fixed

/-- A blank line below a line that begins with `=`: the section is two afterwards. -/
theorem section_parted :
    sectionLines "=x\n \na".toList = [["=x".toList, "a".toList]] ∧
      reorder "=x\n \na".toList = "=x\n\na\n".toList ∧
      sectionLines (reorder "=x\n \na".toList) = [["=x".toList], ["a".toList]] ∧
      ¬Preserved "=x\n \na".toList := by
  have hbefore : sectionLines "=x\n \na".toList = [["=x".toList, "a".toList]] := by decide
  have hafter : sectionLines (reorder "=x\n \na".toList) = [["=x".toList], ["a".toList]] := by
    decide
  refine ⟨hbefore, by decide, hafter, fun h => ?_⟩
  have hlength := h.sections.length_eq
  rw [hbefore, hafter] at hlength
  cases hlength

end RealmeSalaa.Scripts.ReorderProps
