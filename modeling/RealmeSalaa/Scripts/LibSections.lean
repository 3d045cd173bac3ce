import RealmeSalaa.Lib.PySections
import RealmeSalaa.Scripts.ReorderLibs

/-!
# The sections of the blob list

Reordering drops blank lines, and no section has one that parts it afterwards: the text that is
written splits into the sections that were sorted, less those without lines at both ends. So it has
the sections of the old text with their lines permuted, in the old order or sorted. Where the sort
leaves alone what has no descent, as the one of Python does, the text is a fixed point, for either
answer (`reordered`).
-/

namespace RealmeSalaa.Scripts

open PyText

/-- The sections of a file that have lines, as the script reads them. -/
def sections (text : List Char) : List (List Line) :=
  ((splitBlank text).map section_list).filter (· ≠ [])

/-- A sort that does not touch lines of which no two neighbours are the wrong way round. -/
def ListSort.Keeps {cmp : Line → Line → ℤ} (S : ListSort cmp) : Prop :=
  ∀ lines, (lines.IsChain fun a b => ¬cmp b a < 0) → S.sort lines = lines

variable (S : ListSort strcoll_extract_utils)

/-- The sections in the new order, from their lines. -/
def ordered_sections (sort_sections : Bool) (lists : List (List Line)) : List (List Line) :=
  if sort_sections then
    (lists.map S.sort).mergeSort fun s t => decide (joinLines s ≤ joinLines t)
  else lists.map S.sort

/-- What the script makes of the sections of a text. -/
structure Reordered (sort_sections : Bool) (text : List Char) : Prop where
  lines : ∃ ordered, List.Forall₂ List.Perm (sections text) ordered ∧
    ordered.Perm (sections (reorder S sort_sections text)) ∧
    (sort_sections = false → ordered = sections (reorder S sort_sections text))
  chain : ∀ s ∈ sections (reorder S sort_sections text),
    s.IsChain fun a b => ¬strcoll_extract_utils b a < 0
  sorted : sort_sections = true →
    (sections (reorder S sort_sections text)).Pairwise fun s t => joinLines s ≤ joinLines t
  fixed : reorder S sort_sections (reorder S sort_sections text) = reorder S sort_sections text

variable {S} {sort_sections : Bool} {lists : List (List Line)} {text : List Char}

theorem sort_nil : S.sort [] = [] := (S.perm []).eq_nil

/-! ## The sections in the new order -/

theorem ordered_sections_perm :
    (ordered_sections S sort_sections lists).Perm (lists.map S.sort) := by
  unfold ordered_sections
  split_ifs
  · exact List.mergeSort_perm _ _
  · exact .refl _

theorem exists_of_mem_ordered_sections {s : List Line}
    (hs : s ∈ ordered_sections S sort_sections lists) : ∃ t ∈ lists, s = S.sort t := by
  obtain ⟨t, ht, heq⟩ := List.mem_map.1 (ordered_sections_perm.mem_iff.1 hs)
  exact ⟨t, ht, heq.symm⟩

theorem isChain_of_mem_ordered_sections {s : List Line}
    (hs : s ∈ ordered_sections S sort_sections lists) :
    s.IsChain fun a b => ¬strcoll_extract_utils b a < 0 := by
  obtain ⟨t, -, rfl⟩ := exists_of_mem_ordered_sections hs
  exact S.chain t

theorem pairwise_ordered_sections :
    (ordered_sections S true lists).Pairwise fun s t => joinLines s ≤ joinLines t := by
  have htrans : ∀ a b c : List Line, decide (joinLines a ≤ joinLines b) = true →
      decide (joinLines b ≤ joinLines c) = true → decide (joinLines a ≤ joinLines c) = true := by
    intro a b c hab hbc
    exact decide_eq_true ((of_decide_eq_true hab).trans (of_decide_eq_true hbc))
  have htotal : ∀ a b : List Line, (decide (joinLines a ≤ joinLines b) ||
      decide (joinLines b ≤ joinLines a)) = true := by
    intro a b
    rw [Bool.or_eq_true, decide_eq_true_iff, decide_eq_true_iff]
    exact le_total _ _
  have h := List.pairwise_mergeSort htrans htotal (lists.map S.sort)
  exact h.imp of_decide_eq_true

/-- The script takes a text for the lines of its sections. -/
theorem reorder_eq_ordered : reorder S sort_sections text =
    strip (joinBlank ((ordered_sections S sort_sections
      ((splitBlank text).map section_list)).map joinLines)) ++ ['\n'] := by
  have hmap : (splitBlank text).map (fun s => joinLines (sortedSection S s)) =
      (((splitBlank text).map section_list).map S.sort).map joinLines := by
    rw [List.map_map, List.map_map]
    rfl
  unfold reorder ordered_sections
  cases sort_sections
  · simp only [Bool.false_eq_true, if_false, hmap]
  · simp only [if_true, hmap]
    rw [List.map_mergeSort]
    exact fun _ _ _ _ => rfl

/-- Sections in the new order stay as they are. -/
theorem ordered_sections_of_sorted (hkeeps : S.Keeps)
    (hchain : ∀ s ∈ lists, s.IsChain fun a b => ¬strcoll_extract_utils b a < 0)
    (hsorted : sort_sections = true → lists.Pairwise fun s t => joinLines s ≤ joinLines t) :
    ordered_sections S sort_sections lists = lists := by
  have hmap : lists.map S.sort = lists :=
    (List.map_congr_left fun s hs => hkeeps s (hchain s hs)).trans (List.map_id lists)
  unfold ordered_sections
  rw [hmap]
  split_ifs with hsort
  · exact List.mergeSort_of_pairwise ((hsorted hsort).imp decide_eq_true)
  · rfl

/-! ## The sections of the new text -/

theorem isLine_of_mem_ordered_sections {s : List Line}
    (hs : s ∈ ordered_sections S sort_sections ((splitBlank text).map section_list)) :
    ∀ line ∈ s, IsLine line := by
  obtain ⟨t, ht, rfl⟩ := exists_of_mem_ordered_sections hs
  obtain ⟨raw, -, rfl⟩ := List.mem_map.1 ht
  exact fun line hline => isLine_of_mem_section_list ((S.perm _).mem_iff.1 hline)

/-- The sections that are left when the new text is stripped. -/
def kept_sections (S : ListSort strcoll_extract_utils) (sort_sections : Bool) (text : List Char) :
    List (List Line) :=
  trimSections (ordered_sections S sort_sections ((splitBlank text).map section_list))

theorem isLine_of_mem_kept_sections {s : List Line} (hs : s ∈ kept_sections S sort_sections text) :
    ∀ line ∈ s, IsLine line :=
  isLine_of_mem_ordered_sections ((trimSections_isInfix _).subset hs)

/-- The text that is written is joined from the sections that are left. -/
theorem reorder_eq_kept : reorder S sort_sections text =
    joinLines ([[]].intercalate ((kept_sections S sort_sections text).map spaced)) ++ ['\n'] := by
  rw [reorder_eq_ordered, strip_joinBlank fun s hs => isLine_of_mem_ordered_sections hs]
  rfl

/-- The next run finds the sections that are left. -/
theorem section_list_reorder (hne : kept_sections S sort_sections text ≠ []) :
    (splitBlank (reorder S sort_sections text)).map section_list =
      kept_sections S sort_sections text := by
  have hlines := map_splitlines_intercalate
    (fun s hs => isLine_of_mem_ordered_sections (S := S) hs) hne
  rw [← reorder_eq_ordered] at hlines
  have hstrip := congrArg (List.map fun lines => (lines.map strip).filter (· ≠ [])) hlines
  rw [List.map_map] at hstrip
  refine hstrip.trans ((List.map_congr_left fun s hs => ?_).trans (List.map_id _))
  have hline := isLine_of_mem_kept_sections hs
  have hmap : s.map strip = s :=
    (List.map_congr_left fun line hmem => (hline line hmem).strip_eq).trans (List.map_id s)
  rw [hmap]
  exact List.filter_eq_self.2 fun line hmem => decide_eq_true (hline line hmem).ne_nil

/-- If none is left, the text is one empty line. -/
theorem reorder_of_kept_eq_nil (h : kept_sections S sort_sections text = []) :
    reorder S sort_sections text = ['\n'] := by
  rw [reorder_eq_kept, h]
  rfl

theorem sections_reorder : sections (reorder S sort_sections text) =
    (ordered_sections S sort_sections ((splitBlank text).map section_list)).filter (· ≠ []) := by
  rw [← filter_trimSections]
  show _ = (kept_sections S sort_sections text).filter (· ≠ [])
  by_cases hne : kept_sections S sort_sections text = []
  · rw [reorder_of_kept_eq_nil hne, hne]
    decide
  · rw [sections, section_list_reorder hne]

/-- The new text is not changed again. -/
theorem reorder_reorder (hkeeps : S.Keeps) (sort_sections : Bool) (text : List Char) :
    reorder S sort_sections (reorder S sort_sections text) = reorder S sort_sections text := by
  by_cases hne : kept_sections S sort_sections text = []
  · rw [reorder_of_kept_eq_nil hne, reorder_eq_ordered]
    have hlists : (splitBlank ['\n']).map section_list = [[]] := by decide
    rw [hlists, ordered_sections_of_sorted hkeeps]
    · rfl
    · simp
    · exact fun _ => List.pairwise_singleton _ _
  have hchain : ∀ s ∈ kept_sections S sort_sections text,
      s.IsChain fun a b => ¬strcoll_extract_utils b a < 0 := fun s hs =>
    isChain_of_mem_ordered_sections ((trimSections_isInfix _).subset hs)
  have hsorted : sort_sections = true → (kept_sections S sort_sections text).Pairwise
      fun s t => joinLines s ≤ joinLines t := by
    rintro rfl
    exact pairwise_ordered_sections.sublist (trimSections_isInfix _).sublist
  rw [reorder_eq_ordered, section_list_reorder hne,
    ordered_sections_of_sorted hkeeps hchain hsorted, reorder_eq_kept]
  refine congrArg (· ++ ['\n']) ?_
  rw [joinBlank_spaced, kept_sections,
    ← strip_joinBlank fun s hs => isLine_of_mem_ordered_sections hs, strip_strip]

/-! ## The lines of the sections -/

/-- Sorting the lines of each section permutes them. -/
theorem forall₂_map_sort (S : ListSort strcoll_extract_utils) (lists : List (List Line)) :
    List.Forall₂ List.Perm (lists.filter (· ≠ [])) ((lists.map S.sort).filter (· ≠ [])) := by
  induction lists with
  | nil => exact .nil
  | cons s lists ih =>
    by_cases hs : s = []
    · rw [List.map_cons, hs, sort_nil, List.filter_cons_of_neg (by simp),
        List.filter_cons_of_neg (by simp)]
      exact ih
    · have hsort : S.sort s ≠ [] := fun hnil => hs (hnil ▸ (S.perm s)).nil_eq.symm
      rw [List.map_cons, List.filter_cons_of_pos (by simpa using hs),
        List.filter_cons_of_pos (by simpa using hsort)]
      exact .cons (S.perm s).symm ih

/-- **Reordering the blob list.** Whatever the text and the answer, the script permutes the lines of
each section and, if asked to, the sections; it leaves no descent, and a second run changes
nothing. -/
theorem reordered (hkeeps : S.Keeps) (sort_sections : Bool) (text : List Char) :
    Reordered S sort_sections text := by
  refine ⟨⟨_, forall₂_map_sort S _, ?_, ?_⟩, fun s hs => ?_, ?_, reorder_reorder hkeeps _ _⟩
  · rw [sections_reorder]
    exact (ordered_sections_perm.symm).filter _
  · rintro rfl
    rw [sections_reorder]
    rfl
  · rw [sections_reorder] at hs
    exact isChain_of_mem_ordered_sections (List.mem_of_mem_filter hs)
  · rintro rfl
    rw [sections_reorder]
    exact pairwise_ordered_sections.filter _

/-- Insertion leaves alone what is in order. -/
theorem keeps_insertion : insertion.Keeps := by
  intro lines hchain
  induction lines with
  | nil => rfl
  | cons line lines ih =>
    have hsort : insertion.sort (line :: lines) = (insertion.sort lines).orderedInsert
        (fun a b => ¬strcoll_extract_utils b a < 0) line := rfl
    rw [hsort, ih hchain.tail]
    cases lines with
    | nil => rfl
    | cons line' lines =>
      rw [List.orderedInsert_cons, if_pos (List.isChain_cons_cons.1 hchain).1]

/-- Three sections, of which the one in the middle has only a blank line. -/
def gappedText : List Char := "# Power\nb.so\na.so\n\n \n\n# Audio\nc.so\n".toList

theorem reordered_sample : Reordered insertion true gappedText ∧
    Reordered insertion false gappedText ∧
    reorder insertion false gappedText = "# Power\na.so\nb.so\n\n\n\n# Audio\nc.so\n".toList :=
  ⟨reordered keeps_insertion true gappedText, reordered keeps_insertion false gappedText, by decide⟩

end RealmeSalaa.Scripts
