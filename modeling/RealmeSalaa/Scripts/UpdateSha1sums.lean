import RealmeSalaa.Lib.PyText

/-!
# Pinning the blob list

`update` goes over the lines of the list. A line that starts with `#` decides, until the next one,
whether the entries are pinned: it is read as a header, and says ` - from` for blobs of another
device. An entry that is pinned gets the SHA1 of its blob.

`pinned` lists the entries that `update` computes a SHA1 for, and `update_eq_ok` says that an
`update` that goes through changes exactly those.
-/

namespace RealmeSalaa.Scripts

open PyText

abbrev Line := List Char

/-- The exceptions of the script. -/
inductive PyError
  | UnboundLocalError
  | IndexError
  | FileNotFoundError
deriving DecidableEq

/-! ## The script -/

/-- `' - from' in line` -/
def saysFrom (line : Line) : Bool := [' ', '-', ' ', 'f', 'r', 'o', 'm'] <:+: line

/-- The path of the blob of an entry. Its first character is looked at without a check. -/
def filePath (line : Line) : Except PyError Line :=
  match afterLast ':' (beforeFirst ';' line) with
  | [] => .error .IndexError
  | c :: path => .ok (if c = '-' then path else c :: path)

/-- An entry with the hash of its blob. `blob` is the hash of the file under `vendorPath`, if there
is one. -/
def pin (blob : Line → Option Line) (line : Line) : Except PyError Line := do
  let line := beforeFirst '|' line
  let path ← filePath line
  match blob path with
  | some hash => .ok (line ++ '|' :: hash)
  | none => .error .FileNotFoundError

/-- `line[0] == '#'`, for a line that is not empty. -/
def isComment (line : Line) : Bool := line.head? = some '#'

theorem exists_of_isComment {line : Line} (h : isComment line = true) :
    ∃ text, line = '#' :: text :=
  List.head?_eq_some_iff.1 (by simpa [isComment] using h)

theorem ne_nil_of_isComment {line : Line} (h : isComment line = true) : line ≠ [] := by
  rintro rfl
  cases h

/-- `update`. The local `needSHA1` has no value before the first `#` line. -/
def update (blob : Line → Option Line) : Option Bool → List Line → Except PyError (List Line)
  | _, [] => .ok []
  | needSHA1, line :: lines =>
    if line = [] then return line :: (← update blob needSHA1 lines)
    -- an entry that is commented out is a header too
    else if isComment line then return line :: (← update blob (some (saysFrom line)) lines)
    else
      match needSHA1 with
      | none => .error .UnboundLocalError
      | some true => do
        let hashed ← pin blob line
        return hashed :: (← update blob needSHA1 lines)
      | some false => return line :: (← update blob needSHA1 lines)

/-! ## The entries that are pinned -/

/-- The lines with whether `update` computes a SHA1 for them, if no blob is missing. -/
def marks : Option Bool → List Line → List (Line × Bool)
  | _, [] => []
  | needSHA1, line :: lines =>
    if line = [] then (line, false) :: marks needSHA1 lines
    else if isComment line then (line, false) :: marks (some (saysFrom line)) lines
    else
      match needSHA1 with
      | none => []
      | some needed => (line, needed) :: marks needSHA1 lines

/-- The entries that `update` computes a SHA1 for. -/
def pinned (needSHA1 : Option Bool) (lines : List Line) : List Line :=
  ((marks needSHA1 lines).filter (·.2)).map (·.1)

theorem bind_eq_ok {α β : Type} {x : Except PyError α} {f : α → Except PyError β} {b : β} :
    (x >>= f) = .ok b ↔ ∃ a, x = .ok a ∧ f a = .ok b := by
  cases x with
  | error e => exact ⟨nofun, nofun⟩
  | ok a => exact ⟨fun h => ⟨a, rfl, h⟩, fun ⟨_, h, hf⟩ => Except.ok.inj h ▸ hf⟩

/-- A pinned line is the line up to its first `|`, with a hash. -/
theorem pin_eq_ok {blob : Line → Option Line} {line hashed : Line}
    (h : pin blob line = .ok hashed) :
    ∃ path hash, filePath (beforeFirst '|' line) = .ok path ∧ blob path = some hash ∧
      hashed = beforeFirst '|' line ++ '|' :: hash := by
  obtain ⟨path, hpath, h⟩ := bind_eq_ok.1 h
  cases hblob : blob path with
  | none =>
    rw [hblob] at h
    cases h
  | some hash =>
    rw [hblob] at h
    cases h
    exact ⟨path, hash, hpath, hblob, rfl⟩

/-- What `update` does with a line: the line that it leaves, and `needSHA1` after it. -/
inductive Handles (blob : Line → Option Line) : Option Bool → Line → Line → Option Bool → Prop
  | empty {needSHA1 : Option Bool} : Handles blob needSHA1 [] [] needSHA1
  | comment {needSHA1 : Option Bool} {line : Line} (hcomment : isComment line = true) :
    Handles blob needSHA1 line line (some (saysFrom line))
  | left {line : Line} (hne : line ≠ []) (hcomment : isComment line = false) :
    Handles blob (some false) line line (some false)
  | pinned {line hashed : Line} (hne : line ≠ []) (hcomment : isComment line = false)
    (hpin : pin blob line = .ok hashed) : Handles blob (some true) line hashed (some true)

/-- An `update` goes through if it can handle the first line and then the others. -/
theorem update_cons_eq_ok_iff {blob : Line → Option Line} {needSHA1 : Option Bool} {line : Line}
    {lines out : List Line} : update blob needSHA1 (line :: lines) = .ok out ↔
      ∃ first next rest, Handles blob needSHA1 line first next ∧
        update blob next lines = .ok rest ∧ out = first :: rest := by
  have hleft : ∀ next, (do return line :: (← update blob next lines) : Except PyError (List Line)) =
      .ok out ↔ ∃ rest, update blob next lines = .ok rest ∧ out = line :: rest := fun next =>
    bind_eq_ok.trans (exists_congr fun rest => and_congr_right fun _ =>
      ⟨fun h => (Except.ok.inj h).symm, fun h => congrArg Except.ok h.symm⟩)
  constructor
  · intro h
    unfold update at h
    split_ifs at h with hempty hcomment
    · obtain ⟨rest, hrest, hout⟩ := (hleft _).1 h
      subst hempty
      exact ⟨_, _, rest, .empty, hrest, hout⟩
    · obtain ⟨rest, hrest, hout⟩ := (hleft _).1 h
      exact ⟨_, _, rest, .comment hcomment, hrest, hout⟩
    · have hentry : isComment line = false := by simpa using hcomment
      cases needSHA1 with
      | none => cases h
      | some needed =>
        cases needed with
        | false =>
          obtain ⟨rest, hrest, hout⟩ := (hleft _).1 h
          exact ⟨_, _, rest, .left hempty hentry, hrest, hout⟩
        | true =>
          obtain ⟨hashed, hpin, h⟩ := bind_eq_ok.1 h
          obtain ⟨rest, hrest, hout⟩ := bind_eq_ok.1 h
          exact ⟨hashed, _, rest, .pinned hempty hentry hpin, hrest, (Except.ok.inj hout).symm⟩
  · rintro ⟨first, next, rest, hline, hrest, hout⟩
    unfold update
    cases hline with
    | empty => exact (if_pos rfl).trans ((hleft _).2 ⟨rest, hrest, hout⟩)
    | comment hcomment =>
      rw [if_neg (ne_nil_of_isComment hcomment), if_pos hcomment]
      exact (hleft _).2 ⟨rest, hrest, hout⟩
    | left hne hcomment =>
      rw [if_neg hne, if_neg (by simpa using hcomment)]
      exact (hleft _).2 ⟨rest, hrest, hout⟩
    | pinned hne hcomment hpin =>
      rw [if_neg hne, if_neg (by simpa using hcomment)]
      exact bind_eq_ok.2 ⟨first, hpin, bind_eq_ok.2 ⟨rest, hrest, congrArg Except.ok hout.symm⟩⟩

/-- What `update` leaves for a marked line. -/
def Pins (blob : Line → Option Line) (mark : Line × Bool) (line : Line) : Prop :=
  if mark.2 then pin blob mark.1 = .ok line else line = mark.1

/-- The mark of a line that `update` can handle. -/
theorem Handles.marks_eq {blob : Line → Option Line} {needSHA1 next : Option Bool}
    {line first : Line} (h : Handles blob needSHA1 line first next) (lines : List Line) :
    ∃ needed, marks needSHA1 (line :: lines) = (line, needed) :: marks next lines ∧
      Pins blob (line, needed) first := by
  cases h with
  | empty => exact ⟨false, if_pos rfl, rfl⟩
  | comment hcomment =>
    exact ⟨false, (if_neg (ne_nil_of_isComment hcomment)).trans (if_pos hcomment), rfl⟩
  | left hne hcomment =>
    exact ⟨false, (if_neg hne).trans (if_neg (by simpa using hcomment)), rfl⟩
  | pinned hne hcomment hpin =>
    exact ⟨true, (if_neg hne).trans (if_neg (by simpa using hcomment)), hpin⟩

/-- An `update` that goes through pins the marked lines and leaves the others. -/
theorem update_eq_ok {blob : Line → Option Line} {needSHA1 : Option Bool} {lines out : List Line}
    (h : update blob needSHA1 lines = .ok out) :
    List.Forall₂ (Pins blob) (marks needSHA1 lines) out ∧
      (marks needSHA1 lines).map (·.1) = lines := by
  induction lines generalizing needSHA1 out with
  | nil =>
    cases h
    exact ⟨.nil, rfl⟩
  | cons line lines ih =>
    obtain ⟨first, next, rest, hline, hrest, rfl⟩ := update_cons_eq_ok_iff.1 h
    obtain ⟨needed, hmarks, hpins⟩ := hline.marks_eq lines
    obtain ⟨hpinsRest, hlines⟩ := ih hrest
    rw [hmarks]
    exact ⟨.cons hpins hpinsRest, congrArg (line :: ·) hlines⟩

/-! ## Blocks of lines -/

section

variable (needSHA1 : Option Bool) {line : Line} (lines : List Line)

theorem pinned_cons_nil : pinned needSHA1 ([] :: lines) = pinned needSHA1 lines := by
  simp [pinned, marks]

theorem pinned_cons_comment (h : isComment line = true) :
    pinned needSHA1 (line :: lines) = pinned (some (saysFrom line)) lines := by
  simp [pinned, marks, h, ne_nil_of_isComment h]

theorem pinned_cons_entry (hne : line ≠ []) (h : isComment line = false) (needed : Bool) :
    pinned (some needed) (line :: lines) =
      (if needed then [line] else []) ++ pinned (some needed) lines := by
  cases needed <;> simp [pinned, marks, h, hne]

/-- Empty lines do not matter. -/
theorem pinned_filter_ne_nil :
    pinned needSHA1 (lines.filter (· ≠ [])) = pinned needSHA1 lines := by
  induction lines generalizing needSHA1 with
  | nil => rfl
  | cons line lines ih =>
    by_cases hne : line = []
    · subst hne
      rw [List.filter_cons_of_neg (by simp), pinned_cons_nil, ih]
    · rw [List.filter_cons_of_pos (by simpa using hne)]
      cases hcomment : isComment line with
      | true => rw [pinned_cons_comment _ _ hcomment, pinned_cons_comment _ _ hcomment, ih]
      | false =>
        cases needSHA1 with
        | none => simp [pinned, marks, hne, hcomment]
        | some needed =>
          rw [pinned_cons_entry _ hne hcomment, pinned_cons_entry _ hne hcomment, ih]

end

/-- Full lines of which the first is a comment. -/
structure Block (lines : List Line) : Prop where
  full : ∀ line ∈ lines, line ≠ []
  header : ∀ line ∈ lines.head?, isComment line = true

/-- What was needed before a block does not matter to it. -/
theorem Block.pinned_eq {lines : List Line} (h : Block lines) (needSHA1 : Option Bool) :
    pinned needSHA1 lines = pinned none lines := by
  cases lines with
  | nil => rfl
  | cons line lines =>
    have hcomment := h.header line rfl
    rw [pinned_cons_comment _ _ hcomment, pinned_cons_comment _ _ hcomment]

theorem pinned_append_block {lines block : List Line} (hfull : ∀ line ∈ lines, line ≠ [])
    (h : Block block) (needed : Bool) :
    pinned (some needed) (lines ++ block) = pinned (some needed) lines ++ pinned none block := by
  induction lines generalizing needed with
  | nil => exact h.pinned_eq _
  | cons line lines ih =>
    obtain ⟨hline, hlines⟩ := List.forall_mem_cons.1 hfull
    rw [List.cons_append]
    cases hcomment : isComment line with
    | true => rw [pinned_cons_comment _ _ hcomment, pinned_cons_comment _ _ hcomment, ih hlines]
    | false =>
      rw [pinned_cons_entry _ hline hcomment, pinned_cons_entry _ hline hcomment, ih hlines,
        List.append_assoc]

theorem Block.append {lines block : List Line} (hlines : Block lines) (h : Block block) :
    Block (lines ++ block) := by
  refine ⟨fun line hline => ?_, fun line hline => ?_⟩
  · rcases List.mem_append.1 hline with hline | hline
    · exact hlines.full line hline
    · exact h.full line hline
  · cases lines with
    | nil => exact h.header line hline
    | cons first lines => exact hlines.header line hline

theorem Block.pinned_append {lines block : List Line} (hlines : Block lines) (h : Block block) :
    pinned none (lines ++ block) = pinned none lines ++ pinned none block := by
  cases lines with
  | nil => rfl
  | cons line lines =>
    have hcomment := hlines.header line rfl
    rw [List.cons_append, pinned_cons_comment _ _ hcomment, pinned_cons_comment _ _ hcomment]
    exact pinned_append_block (fun line hline => hlines.full line (List.mem_cons_of_mem _ hline)) h _

/-- Blocks are pinned one by one. -/
theorem pinned_flatMap {α : Type} (f : α → List Line) (as : List α) (h : ∀ a ∈ as, Block (f a)) :
    pinned none (as.flatMap f) = as.flatMap fun a => pinned none (f a) := by
  have hblock : ∀ as : List α, (∀ a ∈ as, Block (f a)) → Block (as.flatMap f) := by
    intro as
    induction as with
    | nil => exact fun _ => ⟨by simp, by simp⟩
    | cons a as ih =>
      intro h
      obtain ⟨ha, has⟩ := List.forall_mem_cons.1 h
      exact ha.append (ih has)
  induction as with
  | nil => rfl
  | cons a as ih =>
    obtain ⟨ha, has⟩ := List.forall_mem_cons.1 h
    rw [List.flatMap_cons, List.flatMap_cons, ha.pinned_append (hblock as has), ih has]

theorem pinned_entries {entries : List Line}
    (h : ∀ line ∈ entries, line ≠ [] ∧ isComment line = false) (needed : Bool) :
    pinned (some needed) entries = if needed then entries else [] := by
  induction entries with
  | nil => cases needed <;> rfl
  | cons line entries ih =>
    obtain ⟨⟨hne, hcomment⟩, hentries⟩ := List.forall_mem_cons.1 h
    rw [pinned_cons_entry _ hne hcomment, ih hentries]
    cases needed <;> rfl

/-- Entries after all comments are pinned as the last comment says. -/
theorem pinned_comments_append {comments entries : List Line}
    (hcomments : ∀ line ∈ comments, isComment line = true)
    (hentries : ∀ line ∈ entries, line ≠ [] ∧ isComment line = false) (needed : Bool) :
    pinned (some needed) (comments ++ entries) =
      if (comments.getLast?.map saysFrom).getD needed then entries else [] := by
  induction comments generalizing needed with
  | nil => exact pinned_entries hentries needed
  | cons line comments ih =>
    obtain ⟨hline, hcomments⟩ := List.forall_mem_cons.1 hcomments
    rw [List.cons_append, pinned_cons_comment _ _ hline, ih hcomments, List.getLast?_cons]
    cases comments.getLast? <;> rfl

end RealmeSalaa.Scripts
