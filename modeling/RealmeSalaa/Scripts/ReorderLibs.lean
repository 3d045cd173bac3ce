import RealmeSalaa.Lib.Sorting
import RealmeSalaa.Scripts.UpdateSha1sums

/-!
# Reordering the blob list

The script sorts the lines of every section, the comment lines among them, and `update` then reads
the list again. Where every comment of a section sorts before its entries, all entries end up under
the comment the comment that sorts last (`pinned_sortedSection`); before, each was under the one above it. So
the same entries are pinned if and only if, line by line, as many are under a comment that says
` - from` as are in a section whose last comment does (`pinned_reorder_iff`).

The comparison is not transitive, so what `list.sort` makes of it is known only as far as
neighbours go: `ListSort`. That is enough to find the last comment in the text itself where one of
the comments is past all others (`lastSaysFrom_eq`).
-/

namespace RealmeSalaa.Scripts

open PyText Sorting

/-! ## The script -/

/-- `strcoll` in the C locale: code points. -/
def strcoll (string1 string2 : Line) : ℤ :=
  if string1 < string2 then -1 else if string1 = string2 then 0 else 1

/-- `string.rsplit("/", 1)[0] + "/"` -/
def directory (string : Line) : Line := beforeLast '/' string ++ ['/']

def strcoll_extract_utils (string1 string2 : Line) : ℤ :=
  if string1 = [] ∨ string2 = [] then strcoll string1 string2
  else
    let string1 := removeprefixChar '-' string1
    let string2 := removeprefixChar '-' string2
    if '/' ∉ string1 ∧ '/' ∉ string2 then strcoll string1 string2
    else
      let string1_dir := directory string1
      let string2_dir := directory string2
      if string1_dir = string2_dir then strcoll string1 string2
      else if string2_dir <+: string1_dir then -1
      else if string1_dir <+: string2_dir then 1
      else strcoll string1 string2

/-- A `list.sort` by a comparison: it keeps the lines, and leaves no two neighbours of which the
second is less than the first. -/
structure ListSort (cmp : Line → Line → ℤ) where
  sort : List Line → List Line
  perm : ∀ lines, (sort lines).Perm lines
  chain : ∀ lines, (sort lines).IsChain fun a b => ¬cmp b a < 0

/-- The lines of a section, stripped, without the blank ones. -/
def section_list (s : List Char) : List Line :=
  ((splitlines s).map strip).filter (· ≠ [])

variable (S : ListSort strcoll_extract_utils)

/-- A section in the new order. -/
def sortedSection (s : List Char) : List Line := S.sort (section_list s)

/-- The text that the script writes, `sort_sections` being the answer to its question. -/
def reorder (sort_sections : Bool) (text : List Char) : List Char :=
  let ordered_sections := (splitBlank text).map fun s => joinLines (sortedSection S s)
  let ordered_sections :=
    if sort_sections then ordered_sections.mergeSort (fun s t => decide (s ≤ t))
    else ordered_sections
  strip (joinBlank ordered_sections) ++ ['\n']

/-! ## A sort

Inserting the lines one by one is a `list.sort`. Neighbours are in order as soon as the comparison
never finds each of two lines less than the other. -/

theorem strcoll_neg_iff {string1 string2 : Line} :
    strcoll string1 string2 < 0 ↔ string1 < string2 := by
  unfold strcoll
  by_cases hlt : string1 < string2
  · simp [hlt]
  · by_cases heq : string1 = string2 <;> simp [hlt, heq]

theorem strcoll_swap (string1 string2 : Line) :
    strcoll string2 string1 = -strcoll string1 string2 := by
  unfold strcoll
  rcases lt_trichotomy string1 string2 with hlt | rfl | hlt
  · rw [if_pos hlt, if_neg (lt_asymm hlt), if_neg hlt.ne']; rfl
  · rw [if_neg (lt_irrefl string1), if_pos rfl]; rfl
  · rw [if_pos hlt, if_neg (lt_asymm hlt), if_neg hlt.ne']

theorem strcoll_extract_utils_swap (string1 string2 : Line) :
    strcoll_extract_utils string2 string1 = -strcoll_extract_utils string1 string2 := by
  unfold strcoll_extract_utils
  by_cases hempty : string1 = [] ∨ string2 = []
  · rw [if_pos hempty, if_pos hempty.symm]
    exact strcoll_swap _ _
  rw [if_neg hempty, if_neg (mt Or.symm hempty)]
  generalize removeprefixChar '-' string1 = a
  generalize removeprefixChar '-' string2 = b
  by_cases hslash : '/' ∉ a ∧ '/' ∉ b
  · simp only [if_pos hslash, if_pos hslash.symm]
    exact strcoll_swap _ _
  simp only [if_neg hslash, if_neg (mt And.symm hslash)]
  by_cases hdir : directory a = directory b
  · rw [if_pos hdir, if_pos hdir.symm]
    exact strcoll_swap _ _
  rw [if_neg hdir, if_neg (Ne.symm hdir)]
  by_cases hba : directory b <+: directory a
  · -- the directory of `a` is below that of `b`, and not the other way round
    have hab : ¬directory a <+: directory b := fun hab =>
      hdir (hab.eq_of_length (le_antisymm hab.length_le hba.length_le))
    rw [if_neg hab, if_pos hba, if_pos hba]
    rfl
  · rw [if_neg hba, if_neg hba]
    by_cases hab : directory a <+: directory b
    · rw [if_pos hab, if_pos hab]
    · rw [if_neg hab, if_neg hab]
      exact strcoll_swap _ _

/-- Insertion sort by the comparison of the script. -/
def insertion : ListSort strcoll_extract_utils where
  sort := List.insertionSort fun a b => ¬strcoll_extract_utils b a < 0
  perm := List.perm_insertionSort _
  chain lines := by
    induction lines with
    | nil => exact .nil
    | cons line lines ih =>
      refine isChain_orderedInsert (fun a b h => ?_) line ih
      have hswap := strcoll_extract_utils_swap a b
      omega

/-! ## Comments sort before entries -/

theorem directory_of_mem {string : Line} (hslash : '/' ∈ string) :
    directory string = string.rdropWhile (· ≠ '/') := by
  have hne : string.rdropWhile (· ≠ '/') ≠ [] := fun h => by
    simpa using List.rdropWhile_eq_nil_iff.1 h '/' hslash
  have hlast : (string.rdropWhile (· ≠ '/')).getLast hne = '/' := by
    simpa using List.rdropWhile_last_not (fun d : Char => decide (d ≠ '/')) string hne
  unfold directory beforeLast
  rw [if_pos hslash]
  have h := List.dropLast_append_getLast hne
  rwa [hlast] at h

theorem directory_of_not_mem {string : Line} (hslash : '/' ∉ string) :
    directory string = string ++ ['/'] := by
  unfold directory beforeLast
  rw [if_neg hslash]

theorem directory_ne_nil (string : Line) : directory string ≠ [] := by
  unfold directory
  exact List.append_ne_nil_of_right_ne_nil _ (List.cons_ne_nil _ _)

theorem directory_isPrefix {string : Line} (hslash : '/' ∈ string) : directory string <+: string := by
  rw [directory_of_mem hslash]
  exact List.rdropWhile_prefix _ _

/-- The directory of a line starts as the line does. -/
theorem exists_directory_cons (c : Char) (string : Line) :
    ∃ rest, directory (c :: string) = c :: rest := by
  by_cases hslash : '/' ∈ c :: string
  · obtain ⟨d, rest, hrest⟩ := List.exists_cons_of_ne_nil (directory_ne_nil (c :: string))
    have hbegins := directory_isPrefix hslash
    rw [hrest] at hbegins
    exact ⟨rest, by rw [hrest, (List.cons_prefix_cons.1 hbegins).1]⟩
  · exact ⟨string ++ ['/'], directory_of_not_mem hslash⟩

theorem strcoll_cons_lt {c d : Char} (h : c < d) (string1 string2 : Line) :
    strcoll (c :: string1) (d :: string2) < 0 := by
  unfold strcoll
  rw [if_pos (List.cons_lt_cons_iff.2 (.inl h))]
  decide

/-- An entry, less one hyphen, with a first character past `#` sorts after every comment. -/
theorem comment_lt_entry {comment entry : Line} (hcomment : isComment comment = true)
    (hentry : ∃ c ∈ (removeprefixChar '-' entry).head?, '#' < c) :
    strcoll_extract_utils comment entry < 0 := by
  obtain ⟨c, hc, hlt⟩ := hentry
  obtain ⟨path, hpath⟩ : ∃ path, removeprefixChar '-' entry = c :: path :=
    List.head?_eq_some_iff.1 hc
  obtain ⟨text, rfl⟩ := exists_of_isComment hcomment
  have hne : ¬('#' :: text = [] ∨ entry = []) := by
    rintro (h | rfl)
    · cases h
    · cases hpath
  have hkept : removeprefixChar '-' ('#' :: text) = '#' :: text := by
    rw [removeprefixChar, if_neg (by decide)]
  obtain ⟨rest, hrest⟩ := exists_directory_cons '#' text
  obtain ⟨rest', hrest'⟩ := exists_directory_cons c path
  have hdiff : '#' ≠ c := ne_of_lt hlt
  unfold strcoll_extract_utils
  simp only [hne, if_false, hkept, hpath, hrest, hrest', List.cons_prefix_cons, List.cons.injEq,
    hdiff, hdiff.symm, false_and]
  split_ifs <;> exact strcoll_cons_lt hlt _ _

/-! ## A sorted section -/

/-- The entries of a section. -/
def entries (s : List Char) : List Line := (section_list s).filter fun line => !isComment line

/-- In a section, every comment sorts before every entry. -/
def CommentsFirst (s : List Char) : Prop :=
  ∀ comment ∈ section_list s, ∀ entry ∈ section_list s, isComment comment = true →
    isComment entry = false → strcoll_extract_utils comment entry < 0

/-- A section without lines, or one that begins with its header. -/
def HasHeader (s : List Char) : Prop := ∀ line ∈ (fullLines s).head?, isComment line = true

/-- The comment that is sorted last in a section says ` - from`. -/
def lastSaysFrom (s : List Char) : Bool :=
  (((sortedSection S s).filter isComment).getLast?.map saysFrom).getD false

/-- The comments of a section. -/
def comments (s : List Char) : List Line := (section_list s).filter isComment

/-- Every other comment of the section is less than this one. -/
def IsGreatest (s : List Char) (comment : Line) : Prop :=
  comment ∈ comments s ∧
    ∀ other ∈ comments s, other ≠ comment → strcoll_extract_utils other comment < 0

instance (s : List Char) (comment : Line) : Decidable (IsGreatest s comment) := by
  unfold IsGreatest; infer_instance

/-- The section has a greatest comment, if it has comments. -/
def HasGreatest (s : List Char) : Prop := comments s ≠ [] → ∃ comment, IsGreatest s comment

/-- The greatest comment of the section says ` - from`. -/
def greatestSaysFrom (s : List Char) : Bool :=
  (comments s).any fun comment => saysFrom comment && IsGreatest s comment

section

variable {S} {s : List Char}

theorem mem_section_list {line : Line} :
    line ∈ section_list s ↔ (∃ raw ∈ splitlines s, strip raw = line) ∧ line ≠ [] := by
  simp [section_list]

theorem isLine_of_mem_section_list {line : Line} (h : line ∈ section_list s) : IsLine line := by
  obtain ⟨⟨raw, hraw, rfl⟩, hne⟩ := mem_section_list.1 h
  exact isLine_strip hraw hne

theorem mem_sortedSection {line : Line} : line ∈ sortedSection S s ↔ line ∈ section_list s :=
  (S.perm _).mem_iff

/-- The header is a comment of the section. -/
theorem exists_comment (h : HasHeader s) (hne : section_list s ≠ []) :
    ∃ comment ∈ section_list s, isComment comment = true := by
  obtain ⟨line, hline⟩ := List.exists_mem_of_ne_nil _ hne
  obtain ⟨⟨raw, hraw, rfl⟩, hfull⟩ := mem_section_list.1 hline
  have hrawne : raw ≠ [] := by
    rintro rfl
    exact hfull rfl
  have hfullne : fullLines s ≠ [] :=
    List.ne_nil_of_mem (List.mem_filter.2 ⟨hraw, by simpa using hrawne⟩)
  obtain ⟨header, rest, hheader⟩ := List.exists_cons_of_ne_nil hfullne
  obtain ⟨text, rfl⟩ := exists_of_isComment (h header (by rw [hheader]; rfl))
  have hin : '#' :: text ∈ fullLines s := by
    rw [hheader]
    exact List.mem_cons_self
  obtain ⟨stripped, hstripped⟩ := exists_strip_cons (c := '#') (by decide) text
  refine ⟨strip ('#' :: text), mem_section_list.2 ⟨?_, ?_⟩, ?_⟩
  · exact ⟨_, (List.mem_filter.1 hin).1, rfl⟩
  · rw [hstripped]
    exact List.cons_ne_nil _ _
  · rw [hstripped]
    rfl

theorem sortedSection_eq (h : CommentsFirst s) :
    sortedSection S s = (sortedSection S s).filter isComment ++
      (sortedSection S s).filter fun line => !isComment line :=
  eq_filter_append_filter (S.chain _) fun entry hentry comment hcomment hno hyes hnot =>
    hnot (h comment (mem_sortedSection.1 hcomment) entry (mem_sortedSection.1 hentry) hyes hno)

/-- The greatest comment is sorted last. -/
theorem getLast?_sortedSection (hfirst : CommentsFirst s) {comment : Line}
    (h : IsGreatest s comment) :
    ((sortedSection S s).filter isComment).getLast? = some comment := by
  have hperm : ((sortedSection S s).filter isComment).Perm (comments s) := (S.perm _).filter _
  have hchain : ((sortedSection S s).filter isComment).IsChain fun a b =>
      ¬strcoll_extract_utils b a < 0 := by
    have hsorted : (sortedSection S s).IsChain fun a b => ¬strcoll_extract_utils b a < 0 :=
      S.chain (section_list s)
    rw [sortedSection_eq hfirst] at hsorted
    exact (List.isChain_append.1 hsorted).1
  refine getLast?_of_greatest hchain (hperm.mem_iff.2 h.1) fun other hother hne => ?_
  exact not_not.2 (h.2 other (hperm.mem_iff.1 hother) hne)

/-- Where a section has a greatest comment, the sort does not matter. -/
theorem lastSaysFrom_eq (hfirst : CommentsFirst s) (h : HasGreatest s) :
    lastSaysFrom S s = greatestSaysFrom s := by
  by_cases hnone : comments s = []
  · have hsorted : (sortedSection S s).filter isComment = [] :=
      List.perm_nil.1 (hnone ▸ (S.perm (section_list s)).filter isComment)
    rw [lastSaysFrom, hsorted, greatestSaysFrom, hnone]
    rfl
  · obtain ⟨comment, hgreatest⟩ := h hnone
    rw [lastSaysFrom, getLast?_sortedSection hfirst hgreatest, Option.map_some, Option.getD_some,
      Bool.eq_iff_iff, greatestSaysFrom, List.any_eq_true]
    constructor
    · exact fun hfrom => ⟨comment, hgreatest.1, by simp [hfrom, hgreatest]⟩
    · rintro ⟨other, -, hother⟩
      obtain ⟨hfrom, hisGreatest⟩ : saysFrom other = true ∧ IsGreatest s other := by
        simpa using hother
      have hsame := getLast?_sortedSection (S := S) hfirst hisGreatest
      rw [getLast?_sortedSection hfirst hgreatest, Option.some_inj] at hsame
      exact hsame ▸ hfrom

theorem block_sortedSection (hheader : HasHeader s) (h : CommentsFirst s) :
    Block (sortedSection S s) := by
  refine ⟨fun line hline => (isLine_of_mem_section_list (mem_sortedSection.1 hline)).ne_nil,
    fun line hline => ?_⟩
  have hne : section_list s ≠ [] :=
    List.ne_nil_of_mem (mem_sortedSection.1 (List.mem_of_mem_head? hline))
  obtain ⟨comment, hmem, hcomment⟩ := exists_comment hheader hne
  have hcomments : comment ∈ (sortedSection S s).filter isComment :=
    List.mem_filter.2 ⟨mem_sortedSection.2 hmem, hcomment⟩
  obtain ⟨first, rest, hfirst⟩ := List.exists_cons_of_ne_nil (List.ne_nil_of_mem hcomments)
  have hfirstComment : isComment first = true :=
    (List.mem_filter.1 (by rw [hfirst]; exact List.mem_cons_self :
      first ∈ (sortedSection S s).filter isComment)).2
  rw [sortedSection_eq h, hfirst] at hline
  cases hline
  exact hfirstComment

/-- In the new order the entries of a section are pinned together. -/
theorem pinned_sortedSection (hheader : HasHeader s) (h : CommentsFirst s) :
    (pinned none (sortedSection S s)).Perm (if lastSaysFrom S s then entries s else []) := by
  have hpinned : pinned none (sortedSection S s) =
      if lastSaysFrom S s then (sortedSection S s).filter (fun line => !isComment line)
      else [] := by
    rw [← (block_sortedSection hheader h).pinned_eq (some false), sortedSection_eq h]
    refine (pinned_comments_append (fun line hline => (List.mem_filter.1 hline).2)
      (fun line hline => ?_) false).trans ?_
    · obtain ⟨hmem, hentry⟩ := List.mem_filter.1 hline
      exact ⟨(isLine_of_mem_section_list (mem_sortedSection.1 hmem)).ne_nil, by simpa using hentry⟩
    · rw [← sortedSection_eq h]
      rfl
  rw [hpinned]
  split_ifs
  · exact (S.perm _).filter _
  · exact .nil

theorem block_fullLines (hheader : HasHeader s) : Block (fullLines s) :=
  ⟨fun line hline => by simpa using (List.mem_filter.1 hline).2, hheader⟩

end

/-! ## The two runs of `update` -/

/-- The entries of a section that are under a comment that says ` - from`, stripped. -/
def entriesUnderFrom (s : List Char) : List Line := (pinned none (splitlines s)).map strip

theorem pinned_splitlines (text : List Char) :
    pinned none (splitlines text) = pinned none (fullLines text) :=
  (pinned_filter_ne_nil none (splitlines text)).symm

section

variable {S} {text : List Char} (hheaders : ∀ s ∈ splitBlank text, HasHeader s)

include hheaders

theorem pinned_before : (pinned none (splitlines text)).map strip =
    (splitBlank text).flatMap entriesUnderFrom := by
  rw [pinned_splitlines, fullLines_eq_flatMap,
    pinned_flatMap _ _ fun s hs => block_fullLines (hheaders s hs), List.map_flatMap]
  refine List.flatMap_congr fun s _ => ?_
  rw [entriesUnderFrom, pinned_splitlines]

theorem pinned_after (hfirst : ∀ s ∈ splitBlank text, CommentsFirst s) (sort_sections : Bool) :
    (pinned none (splitlines (reorder S sort_sections text))).Perm
      ((splitBlank text).flatMap fun s => if lastSaysFrom S s then entries s else []) := by
  obtain ⟨ordered, hordered, hreorder⟩ : ∃ ordered : List (List Char),
      ordered.Perm ((splitBlank text).map fun s => joinLines (sortedSection S s)) ∧
        reorder S sort_sections text = strip (joinBlank ordered) ++ ['\n'] := by
    cases sort_sections
    · exact ⟨_, .refl _, rfl⟩
    · exact ⟨_, List.mergeSort_perm _ _, rfl⟩
  have hlines : ∀ s, fullLines (joinLines (sortedSection S s)) = sortedSection S s := fun s =>
    fullLines_joinLines fun line hline => isLine_of_mem_section_list (mem_sortedSection.1 hline)
  have hsection : ∀ t ∈ ordered, ∃ s ∈ splitBlank text, fullLines t = sortedSection S s := by
    intro t ht
    obtain ⟨s, hs, rfl⟩ := List.mem_map.1 (hordered.mem_iff.1 ht)
    exact ⟨s, hs, hlines s⟩
  have hfull : fullLines (reorder S sort_sections text) = ordered.flatMap fullLines := by
    rw [hreorder, fullLines_append_boundary isBoundary_newline, fullLines_strip,
      fullLines_joinBlank]
    rw [fullLines_joinBlank]
    intro line hline
    obtain ⟨t, ht, hline⟩ := List.mem_flatMap.1 hline
    obtain ⟨s, -, hs⟩ := hsection t ht
    rw [hs] at hline
    exact isLine_of_mem_section_list (mem_sortedSection.1 hline)
  have hblock : ∀ t ∈ ordered, Block (fullLines t) := by
    intro t ht
    obtain ⟨s, hs, heq⟩ := hsection t ht
    rw [heq]
    exact block_sortedSection (hheaders s hs) (hfirst s hs)
  rw [pinned_splitlines, hfull, pinned_flatMap _ _ hblock]
  refine (hordered.flatMap_right _).trans ?_
  rw [List.flatMap_map]
  refine List.Perm.flatMap_left _ fun s hs => ?_
  rw [hlines]
  exact pinned_sortedSection (hheaders s hs) (hfirst s hs)

end

/-- The same entries are pinned before and after the lines are reordered. -/
def PinsKept (sort_sections : Bool) (text : List Char) : Prop :=
  ((pinned none (splitlines text)).map strip).Perm
    (pinned none (splitlines (reorder S sort_sections text)))

/-- Every line is as often an entry under a comment that says ` - from` as it is an entry of a
section that is pinned together. -/
def Balanced (together : List Char → Bool) (text : List Char) : Prop :=
  ∀ line, ((splitBlank text).map fun s => (entriesUnderFrom s).count line).sum =
    ((splitBlank text).map fun s => if together s then (entries s).count line else 0).sum

theorem Balanced.congr {together together' : List Char → Bool} {text : List Char}
    (h : ∀ s ∈ splitBlank text, together s = together' s) :
    Balanced together text ↔ Balanced together' text := by
  refine forall_congr' fun line => ?_
  have hright : ((splitBlank text).map fun s => if together s then (entries s).count line else 0) =
      (splitBlank text).map fun s => if together' s then (entries s).count line else 0 :=
    List.map_congr_left fun s hs => by rw [h s hs]
  rw [hright]

variable {S}

theorem pinsKept_iff {text : List Char} (hheaders : ∀ s ∈ splitBlank text, HasHeader s)
    (hfirst : ∀ s ∈ splitBlank text, CommentsFirst s) (sort_sections : Bool) :
    PinsKept S sort_sections text ↔ Balanced (lastSaysFrom S) text := by
  have hcount : ∀ line, ((splitBlank text).flatMap fun s =>
      if lastSaysFrom S s then entries s else []).count line =
        ((splitBlank text).map fun s =>
          if lastSaysFrom S s then (entries s).count line else 0).sum := by
    intro line
    rw [List.count_flatMap]
    refine congrArg List.sum (List.map_congr_left fun s _ => ?_)
    show List.count line (if lastSaysFrom S s then entries s else []) = _
    split_ifs
    · rfl
    · exact List.count_nil
  unfold PinsKept Balanced
  rw [pinned_before hheaders, (pinned_after hheaders hfirst sort_sections).congr_right,
    List.perm_iff_count]
  refine forall_congr' fun line => ?_
  rw [hcount, List.count_flatMap]
  rfl

/-- **Reordering.** Where the comments of every section sort before its entries, the same entries
are pinned, for either answer, if and only if the text is balanced: with the comments that the sort
puts last, which are the greatest ones where the sections have a greatest comment. -/
theorem pinned_reorder_iff {text : List Char} (hheaders : ∀ s ∈ splitBlank text, HasHeader s)
    (hfirst : ∀ s ∈ splitBlank text, CommentsFirst s) (sort_sections : Bool) :
    (PinsKept S sort_sections text ↔ Balanced (lastSaysFrom S) text) ∧
    ((∀ s ∈ splitBlank text, HasGreatest s) →
      (PinsKept S sort_sections text ↔ Balanced greatestSaysFrom text)) := by
  have hiff := pinsKept_iff (S := S) hheaders hfirst sort_sections
  refine ⟨hiff, fun hgreatest => hiff.trans ?_⟩
  exact Balanced.congr fun s hs => lastSaysFrom_eq (hfirst s hs) (hgreatest s hs)

/-- A section from another device with a commented-out entry between its entries. -/
def mixedText : List Char :=
  "# ORMS - from rosemary\nodm/lib/libormshalclient.so\n#vendor/lib/liboppo.so\n".toList

/-- Two sections, one of which is from another device. -/
def plainText : List Char :=
  "# ORMS - from rosemary\nodm/lib/libormshalclient.so\n\n# Power\nvendor/lib/libpower.so\n".toList

theorem pinned_reorder_iff_sample : PinsKept insertion true plainText := by
  set first := "# ORMS - from rosemary\nodm/lib/libormshalclient.so".toList
  set second := "# Power\nvendor/lib/libpower.so\n".toList
  have hsplit : splitBlank plainText = [first, second] := by decide
  have hgreatest : ∀ s ∈ splitBlank plainText, HasGreatest s := by
    rw [hsplit]
    refine List.forall_mem_cons.2 ⟨fun _ => ⟨"# ORMS - from rosemary".toList, by decide⟩,
      List.forall_mem_singleton.2 fun _ => ⟨"# Power".toList, by decide⟩⟩
  have hheaders : ∀ s ∈ splitBlank plainText, HasHeader s := by
    unfold HasHeader
    decide
  have hfirst : ∀ s ∈ splitBlank plainText, CommentsFirst s := by
    unfold CommentsFirst
    decide
  have hfrom : entriesUnderFrom first = entries first := by decide
  have hown : entriesUnderFrom second = [] := by decide
  have hlast : greatestSaysFrom first = true := by decide
  have hlast' : greatestSaysFrom second = false := by decide
  refine ((pinned_reorder_iff (S := insertion) hheaders hfirst true).2 hgreatest).2 fun line => ?_
  rw [hsplit]
  simp only [List.map_cons, List.map_nil, List.sum_cons, List.sum_nil, hfrom, hown, hlast, hlast']
  rfl

/-- The commented-out entry moves up to the header, and unpins the entry below it. -/
theorem commented_entry_unpins :
    pinned none (splitlines mixedText) = ["odm/lib/libormshalclient.so".toList] ∧
      splitlines (reorder insertion false mixedText) =
        ["# ORMS - from rosemary".toList, "#vendor/lib/liboppo.so".toList,
          "odm/lib/libormshalclient.so".toList] ∧
      pinned none (splitlines (reorder insertion false mixedText)) = [] := by
  decide

end RealmeSalaa.Scripts
