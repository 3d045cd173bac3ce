import Mathlib

/-!
# Texts of a script

Strings as lists of characters, with the operations that a line-oriented script uses: lines,
sections between blank lines, and stripping. A text that was read in text mode has no carriage
return before a newline.

`fullLines` are the lines that are not empty. Joining and splitting are known by them
(`fullLines_append_newline`, `fullLines_joinBlank`), and so is stripping a text whose full lines
are stripped (`fullLines_strip`).
-/

namespace PyText

/-! ## Operations -/

/-- `str.isspace` -/
def isSpace (c : Char) : Bool :=
  let n := c.toNat
  (9 ≤ n ∧ n ≤ 13) ∨ (28 ≤ n ∧ n ≤ 32) ∨ n = 0x85 ∨ n = 0xa0 ∨ n = 0x1680 ∨
    (0x2000 ≤ n ∧ n ≤ 0x200a) ∨ n = 0x2028 ∨ n = 0x2029 ∨ n = 0x202f ∨ n = 0x205f ∨ n = 0x3000

/-- The characters at which `str.splitlines` ends a line. -/
def isBoundary (c : Char) : Bool :=
  let n := c.toNat
  (10 ≤ n ∧ n ≤ 13) ∨ (28 ≤ n ∧ n ≤ 30) ∨ n = 0x85 ∨ n = 0x2028 ∨ n = 0x2029

/-- A character in front of the first line. -/
def consHead (c : Char) : List (List Char) → List (List Char)
  | [] => [[c]]
  | line :: lines => (c :: line) :: lines

/-- `str.splitlines` -/
def splitlines : List Char → List (List Char)
  | [] => []
  | c :: text => if isBoundary c then [] :: splitlines text else consHead c (splitlines text)

/-- `str.split("\n\n")` -/
def splitBlank : List Char → List (List Char)
  | '\n' :: '\n' :: text => [] :: splitBlank text
  | c :: text => consHead c (splitBlank text)
  | [] => [[]]

/-- `"\n".join` -/
def joinLines (lines : List (List Char)) : List Char := ['\n'].intercalate lines

/-- `"\n\n".join` -/
def joinBlank (sections : List (List Char)) : List Char := ['\n', '\n'].intercalate sections

/-- `str.strip` -/
def strip (text : List Char) : List Char := (text.dropWhile isSpace).rdropWhile isSpace

/-- `str.removeprefix`, of one character. -/
def removeprefixChar (c : Char) : List Char → List Char
  | [] => []
  | d :: text => if d = c then text else d :: text

/-- `str.split(c)[0]` -/
def beforeFirst (c : Char) (text : List Char) : List Char := text.takeWhile (· ≠ c)

/-- `str.split(c)[-1]` -/
def afterLast (c : Char) (text : List Char) : List Char := text.rtakeWhile (· ≠ c)

/-- `str.rsplit(c, 1)[0]` -/
def beforeLast (c : Char) (text : List Char) : List Char :=
  if c ∈ text then (text.rdropWhile (· ≠ c)).dropLast else text

/-! ## Full lines -/

/-- The lines that are not empty. -/
def fullLines (text : List Char) : List (List Char) := (splitlines text).filter (· ≠ [])

theorem isBoundary_newline : isBoundary '\n' = true := by decide

theorem consHead_append (c : Char) {lines : List (List Char)} (h : lines ≠ [])
    (lines' : List (List Char)) : consHead c (lines ++ lines') = consHead c lines ++ lines' := by
  cases lines with
  | nil => exact absurd rfl h
  | cons line lines => rfl

theorem consHead_ne_nil (c : Char) (lines : List (List Char)) : consHead c lines ≠ [] := by
  cases lines <;> exact List.cons_ne_nil _ _

theorem splitlines_cons_of_boundary {c : Char} (h : isBoundary c = true) (text : List Char) :
    splitlines (c :: text) = [] :: splitlines text := if_pos h

theorem splitlines_cons_of_not_boundary {c : Char} (h : ¬isBoundary c = true) (text : List Char) :
    splitlines (c :: text) = consHead c (splitlines text) := if_neg h

/-- A boundary ends the lines of what is before it. -/
theorem splitlines_append_boundary {c : Char} (hc : isBoundary c = true) (s t : List Char) :
    splitlines (s ++ c :: t) = splitlines (s ++ [c]) ++ splitlines t := by
  induction s with
  | nil => simp [splitlines, hc]
  | cons d s ih =>
    rw [List.cons_append, List.cons_append]
    by_cases hd : isBoundary d = true
    · rw [splitlines_cons_of_boundary hd, splitlines_cons_of_boundary hd, ih, List.cons_append]
    · have hne : splitlines (s ++ [c]) ≠ [] := by
        cases s with
        | nil => simp [splitlines, hc]
        | cons e s =>
          rw [List.cons_append, splitlines]
          split_ifs
          · exact List.cons_ne_nil _ _
          · exact consHead_ne_nil _ _
      rw [splitlines_cons_of_not_boundary hd, splitlines_cons_of_not_boundary hd, ih,
        consHead_append d hne]

/-- A boundary at the end adds an empty line or none. -/
theorem splitlines_append_singleton {c : Char} (hc : isBoundary c = true) (s : List Char) :
    splitlines (s ++ [c]) = splitlines s ∨ splitlines (s ++ [c]) = splitlines s ++ [[]] := by
  induction s with
  | nil => exact .inr (by simp [splitlines, hc])
  | cons d s ih =>
    rw [List.cons_append]
    by_cases hd : isBoundary d = true
    · rw [splitlines_cons_of_boundary hd, splitlines_cons_of_boundary hd]
      rcases ih with ih | ih
      · exact .inl (by rw [ih])
      · exact .inr (by rw [ih, List.cons_append])
    · rw [splitlines_cons_of_not_boundary hd, splitlines_cons_of_not_boundary hd]
      rcases ih with ih | ih
      · exact .inl (by rw [ih])
      · rw [ih]
        cases hlines : splitlines s with
        | nil => exact .inl rfl
        | cons line lines => exact .inr rfl

theorem fullLines_append_boundary {c : Char} (hc : isBoundary c = true) (s : List Char) :
    fullLines (s ++ [c]) = fullLines s := by
  unfold fullLines
  rcases splitlines_append_singleton hc s with h | h
  · rw [h]
  · rw [h, List.filter_append]
    simp

theorem fullLines_append_newline (s t : List Char) :
    fullLines (s ++ '\n' :: t) = fullLines s ++ fullLines t := by
  have hs : fullLines (s ++ ['\n']) = fullLines s := fullLines_append_boundary isBoundary_newline s
  rw [← hs]
  unfold fullLines
  rw [splitlines_append_boundary isBoundary_newline, List.filter_append]

theorem fullLines_cons_boundary {c : Char} (hc : isBoundary c = true) (text : List Char) :
    fullLines (c :: text) = fullLines text := by
  unfold fullLines
  rw [splitlines_cons_of_boundary hc]
  simp

/-! ## Joining and splitting -/

theorem joinLines_cons_cons (line line' : List Char) (lines : List (List Char)) :
    joinLines (line :: line' :: lines) = line ++ '\n' :: joinLines (line' :: lines) := by
  simp [joinLines, List.intercalate_cons_cons]

theorem joinBlank_cons_cons (s s' : List Char) (sections : List (List Char)) :
    joinBlank (s :: s' :: sections) = s ++ '\n' :: '\n' :: joinBlank (s' :: sections) := by
  simp [joinBlank, List.intercalate_cons_cons]

/-- The full lines of a text are those of its sections. -/
theorem fullLines_joinBlank (sections : List (List Char)) :
    fullLines (joinBlank sections) = sections.flatMap fullLines := by
  induction sections with
  | nil => rfl
  | cons s sections ih =>
    cases sections with
    | nil => simp [joinBlank]
    | cons s' sections =>
      rw [joinBlank_cons_cons, fullLines_append_newline,
        fullLines_cons_boundary isBoundary_newline, ih]
      rfl

theorem joinBlank_consHead (c : Char) {sections : List (List Char)} (h : sections ≠ []) :
    joinBlank (consHead c sections) = c :: joinBlank sections := by
  cases sections with
  | nil => exact absurd rfl h
  | cons s sections =>
    cases sections with
    | nil => simp [consHead, joinBlank]
    | cons s' sections => rw [consHead, joinBlank_cons_cons, joinBlank_cons_cons, List.cons_append]

theorem splitBlank_ne_nil (text : List Char) : splitBlank text ≠ [] := by
  fun_cases splitBlank text
  · exact List.cons_ne_nil _ _
  · exact consHead_ne_nil _ _
  · exact List.cons_ne_nil _ _

theorem joinBlank_splitBlank (text : List Char) : joinBlank (splitBlank text) = text := by
  fun_induction splitBlank text with
  | case1 text ih =>
    obtain ⟨s, sections, hsplit⟩ := List.exists_cons_of_ne_nil (splitBlank_ne_nil text)
    rw [hsplit] at ih ⊢
    rw [joinBlank_cons_cons, ih, List.nil_append]
  | case2 c text hnot ih => rw [joinBlank_consHead c (splitBlank_ne_nil text), ih]
  | case3 => rfl

/-- The full lines of a text, section by section. -/
theorem fullLines_eq_flatMap (text : List Char) :
    fullLines text = (splitBlank text).flatMap fullLines := by
  rw [← fullLines_joinBlank, joinBlank_splitBlank]

/-! ## Lines -/

/-- A line that is not empty, of one line only, with no space at its ends. -/
structure IsLine (line : List Char) : Prop where
  ne_nil : line ≠ []
  inline : ∀ c ∈ line, ¬isBoundary c = true
  head : ∀ c ∈ line.head?, ¬isSpace c = true
  last : ∀ c ∈ line.getLast?, ¬isSpace c = true

theorem splitlines_of_inline {line : List Char} (hne : line ≠ [])
    (h : ∀ c ∈ line, ¬isBoundary c = true) : splitlines line = [line] := by
  induction line with
  | nil => exact absurd rfl hne
  | cons c line ih =>
    obtain ⟨hc, hline⟩ := List.forall_mem_cons.1 h
    rw [splitlines_cons_of_not_boundary hc]
    cases line with
    | nil => rfl
    | cons d line => rw [ih (List.cons_ne_nil _ _) hline, consHead]

theorem IsLine.fullLines {line : List Char} (h : IsLine line) : fullLines line = [line] := by
  unfold PyText.fullLines
  rw [splitlines_of_inline h.ne_nil h.inline]
  simp [h.ne_nil]

theorem fullLines_joinLines {lines : List (List Char)} (h : ∀ line ∈ lines, IsLine line) :
    fullLines (joinLines lines) = lines := by
  induction lines with
  | nil => rfl
  | cons line lines ih =>
    obtain ⟨hline, hlines⟩ := List.forall_mem_cons.1 h
    cases lines with
    | nil =>
      have hjoin : joinLines [line] = line := by simp [joinLines]
      rw [hjoin, hline.fullLines]
    | cons line' lines =>
      rw [joinLines_cons_cons, fullLines_append_newline, hline.fullLines, ih hlines]
      rfl

theorem inline_of_mem_splitlines {text line : List Char} (h : line ∈ splitlines text) :
    ∀ c ∈ line, ¬isBoundary c = true := by
  induction text generalizing line with
  | nil => cases h
  | cons c text ih =>
    by_cases hc : isBoundary c = true
    · rw [splitlines_cons_of_boundary hc] at h
      rcases List.mem_cons.1 h with rfl | h
      · simp
      · exact ih h
    · rw [splitlines_cons_of_not_boundary hc] at h
      cases hlines : splitlines text with
      | nil =>
        rw [hlines] at h
        rw [List.mem_singleton.1 h]
        exact List.forall_mem_singleton.2 hc
      | cons first lines =>
        rw [hlines] at h ih
        rcases List.mem_cons.1 h with rfl | h
        · exact List.forall_mem_cons.2 ⟨hc, ih List.mem_cons_self⟩
        · exact ih (List.mem_cons_of_mem _ h)

/-- A line that is stripped and not blank. -/
theorem isLine_strip {text line : List Char} (h : line ∈ splitlines text) (hne : strip line ≠ []) :
    IsLine (strip line) := by
  obtain ⟨rest, hrest⟩ : strip line <+: line.dropWhile isSpace := List.rdropWhile_prefix _ _
  refine ⟨hne, fun c hc => ?_, fun c hc => ?_, fun c hc => ?_⟩
  · have hmem : c ∈ line.dropWhile isSpace := by
      rw [← hrest]
      exact List.mem_append_left _ hc
    exact inline_of_mem_splitlines h c ((List.dropWhile_sublist isSpace).subset hmem)
  · have hhead := List.head?_dropWhile_not isSpace line
    have hc' : (line.dropWhile isSpace).head? = some c := by
      rw [← hrest, List.head?_append, hc]
      rfl
    rw [hc'] at hhead
    simpa using hhead
  · rw [Option.mem_def, List.getLast?_eq_some_getLast hne, Option.some_inj] at hc
    rw [← hc]
    exact List.rdropWhile_last_not _ _ hne

/-! ## Stripping a text -/

theorem fullLines_dropWhile {text : List Char}
    (h : ∀ line ∈ fullLines text, ∀ c ∈ line.head?, ¬isSpace c = true) :
    fullLines (text.dropWhile isSpace) = fullLines text := by
  induction text with
  | nil => rfl
  | cons c text ih =>
    rw [List.dropWhile_cons]
    split_ifs with hspace
    · by_cases hc : isBoundary c = true
      · rw [fullLines_cons_boundary hc] at h ⊢
        exact ih h
      · -- a space that ends no line is the head of a full line
        obtain ⟨line, lines, hlines⟩ := List.exists_cons_of_ne_nil
          (consHead_ne_nil c (splitlines text))
        have hhead : line.head? = some c := by
          cases hrest : splitlines text with
          | nil =>
            rw [hrest] at hlines
            rw [← (List.cons.inj hlines).1]
            rfl
          | cons first rest =>
            rw [hrest] at hlines
            rw [← (List.cons.inj hlines).1]
            rfl
        have hmem : line ∈ fullLines (c :: text) := by
          unfold fullLines
          rw [splitlines_cons_of_not_boundary hc, hlines]
          refine List.mem_filter.2 ⟨List.mem_cons_self, ?_⟩
          cases line with
          | nil => cases hhead
          | cons d line => simp
        exact absurd hspace (h line hmem c hhead)
    · rfl

/-- A character that ends no line is the last of a full line. -/
theorem exists_last_of_append {c : Char} (hc : ¬isBoundary c = true) (text : List Char) :
    ∃ line ∈ splitlines (text ++ [c]), line.getLast? = some c := by
  induction text with
  | nil => exact ⟨[c], by simp [splitlines, hc, consHead], rfl⟩
  | cons d text ih =>
    obtain ⟨line, hline, hlast⟩ := ih
    rw [List.cons_append]
    by_cases hd : isBoundary d = true
    · rw [splitlines_cons_of_boundary hd]
      exact ⟨line, List.mem_cons_of_mem _ hline, hlast⟩
    · rw [splitlines_cons_of_not_boundary hd]
      cases hlines : splitlines (text ++ [c]) with
      | nil =>
        rw [hlines] at hline
        cases hline
      | cons first rest =>
        rw [hlines] at hline
        rcases List.mem_cons.1 hline with rfl | hline
        · refine ⟨d :: line, List.mem_cons_self, ?_⟩
          rw [List.getLast?_cons, hlast]
          rfl
        · exact ⟨line, List.mem_cons_of_mem _ hline, hlast⟩

theorem fullLines_rdropWhile {text : List Char}
    (h : ∀ line ∈ fullLines text, ∀ c ∈ line.getLast?, ¬isSpace c = true) :
    fullLines (text.rdropWhile isSpace) = fullLines text := by
  induction text using List.reverseRecOn with
  | nil => rfl
  | append_singleton text c ih =>
    rw [List.rdropWhile_concat]
    split_ifs with hspace
    · by_cases hc : isBoundary c = true
      · rw [fullLines_append_boundary hc] at h ⊢
        exact ih h
      · obtain ⟨line, hline, hlast⟩ := exists_last_of_append hc text
        refine absurd hspace (h line (List.mem_filter.2 ⟨hline, ?_⟩) c hlast)
        cases line with
        | nil => cases hlast
        | cons d line => simp
    · rfl

/-- Stripping keeps a first character that is no space. -/
theorem exists_strip_cons {c : Char} (hc : ¬isSpace c = true) (text : List Char) :
    ∃ rest, strip (c :: text) = c :: rest := by
  have hstrip : strip (c :: text) = (c :: text).rdropWhile isSpace := by
    rw [strip, List.dropWhile_cons_of_neg hc]
  have hne : (c :: text).rdropWhile isSpace ≠ [] := fun h =>
    hc (List.rdropWhile_eq_nil_iff.1 h c List.mem_cons_self)
  obtain ⟨d, rest, hrest⟩ := List.exists_cons_of_ne_nil hne
  obtain ⟨tail, htail⟩ := List.rdropWhile_prefix isSpace (c :: text)
  rw [hrest, List.cons_append] at htail
  exact ⟨rest, by rw [hstrip, hrest, (List.cons.inj htail).1]⟩

/-- Stripping a text whose full lines are stripped. -/
theorem fullLines_strip {text : List Char} (h : ∀ line ∈ fullLines text, IsLine line) :
    fullLines (strip text) = fullLines text := by
  have hdrop : fullLines (text.dropWhile isSpace) = fullLines text :=
    fullLines_dropWhile fun line hline => (h line hline).head
  unfold strip
  rw [fullLines_rdropWhile, hdrop]
  rw [hdrop]
  exact fun line hline => (h line hline).last

end PyText
