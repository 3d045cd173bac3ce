import RealmeSalaa.Scripts.UpdateSha1sums

/-!
# The sections of the blob list

Sections of the list are separated by empty lines, and the first line of a section is its header if
it is a comment. The entries of a section whose header says ` - from` are to be pinned. `update`
looks at no section: it pins an entry if the comment that is nearest above it in the file says
` - from` (`Handles.needed_eq`), and raises if there is none. So it does what it should exactly where
the nearest comment above each entry says what the header of its section does (`update_iff`).
-/

namespace RealmeSalaa.Scripts

open PyText

/-! ## Sections -/

def isEntry (line : Line) : Bool := line ≠ [] ∧ isComment line = false

/-- The section that goes on after the lines `before` has a header that says ` - from`. -/
def isFrom (before : List Line) : Bool :=
  ((before.rtakeWhile (· ≠ [])).head?.filter isComment).any saysFrom

/-- The lines after `before` with whether they are to be pinned. -/
def toPin (before : List Line) : List Line → List (Line × Bool)
  | [] => []
  | line :: lines => (line, isEntry line && isFrom before) :: toPin (before ++ [line]) lines

theorem isEntry_iff {line : Line} : isEntry line = true ↔ line ≠ [] ∧ isComment line = false := by
  simp [isEntry]

/-- A `hexdigest()` of `sha1`. -/
def IsSha1 (hash : Line) : Prop := hash.length = 40 ∧ ∀ c ∈ hash, c ∈ "0123456789abcdef".toList

/-- The blobs have hashes, and every file is there that the entries to be pinned need. -/
structure HasBlobs (blob : Line → Option Line) (lines : List Line) : Prop where
  isSha1 : ∀ path hash, blob path = some hash → IsSha1 hash
  needed : ∀ line, (line, true) ∈ toPin [] lines →
    ∃ path hash, filePath (beforeFirst '|' line) = .ok path ∧ blob path = some hash

/-- The comment that is nearest above the line after `before`. -/
def nearestComment (before : List Line) : Option Line := (before.filter isComment).getLast?

/-- Every entry after `before` has a comment above it, of which the nearest says ` - from` exactly if
the header of the section does. -/
def Governed (before lines : List Line) : Prop :=
  ∀ above line below, lines = above ++ line :: below → isEntry line = true →
    ∃ comment, nearestComment (before ++ above) = some comment ∧
      saysFrom comment = isFrom (before ++ above)

theorem governed_cons_iff {before lines : List Line} {line : Line} :
    Governed before (line :: lines) ↔
      (isEntry line = true → ∃ comment, nearestComment before = some comment ∧
        saysFrom comment = isFrom before) ∧ Governed (before ++ [line]) lines := by
  constructor
  · intro h
    refine ⟨fun hentry => ?_, fun above line' below heq hentry => ?_⟩
    · simpa using h [] line lines rfl hentry
    · simpa using h (line :: above) line' below (by rw [heq, List.cons_append]) hentry
  · rintro ⟨hfirst, hrest⟩ above line' below heq hentry
    cases above with
    | nil =>
      obtain ⟨rfl, -⟩ := List.cons.inj heq
      simpa using hfirst hentry
    | cons first above =>
      obtain ⟨rfl, hlines⟩ := List.cons.inj heq
      simpa using hrest above line' below hlines hentry

/-! ## The comment that is in force -/

/-- `needSHA1` is what the nearest comment above says. -/
theorem Handles.needed_eq {blob : Line → Option Line} {next : Option Bool} {before : List Line}
    {line first : Line} (h : Handles blob ((nearestComment before).map saysFrom) line first next) :
    next = (nearestComment (before ++ [line])).map saysFrom := by
  have hkept : isComment line = false →
      nearestComment (before ++ [line]) = nearestComment before := by
    intro hcomment
    unfold nearestComment
    rw [List.filter_append, List.filter_singleton]
    simp [hcomment]
  generalize hneeded : (nearestComment before).map saysFrom = needed at h
  cases h with
  | empty => rw [hkept rfl, hneeded]
  | comment hcomment =>
    unfold nearestComment
    rw [List.filter_append, List.filter_singleton]
    simp [hcomment]
  | left hne hcomment => rw [hkept hcomment, hneeded]
  | pinned hne hcomment hpin => rw [hkept hcomment, hneeded]

/-! ## Pinning what is to be pinned -/

theorem pin_of_blob {blob : Line → Option Line} {line path hash : Line}
    (hpath : filePath (beforeFirst '|' line) = .ok path) (hblob : blob path = some hash) :
    pin blob line = .ok (beforeFirst '|' line ++ '|' :: hash) :=
  bind_eq_ok.2 ⟨path, hpath, by rw [hblob]⟩

/-- A line whose nearest comment is right is handled as it should be. -/
theorem exists_handles {blob : Line → Option Line} {before : List Line} {line : Line}
    (hgoverned : isEntry line = true → ∃ comment, nearestComment before = some comment ∧
      saysFrom comment = isFrom before)
    (hblob : isEntry line = true → isFrom before = true → ∃ hashed, pin blob line = .ok hashed) :
    ∃ first next, Handles blob ((nearestComment before).map saysFrom) line first next ∧
      Pins blob (line, isEntry line && isFrom before) first := by
  by_cases hentry : isEntry line = true
  · obtain ⟨comment, hnearest, hsays⟩ := hgoverned hentry
    obtain ⟨hne, hcomment⟩ := isEntry_iff.1 hentry
    rw [hnearest, Option.map_some, hsays, hentry, Bool.true_and]
    cases hfrom : isFrom before with
    | true =>
      obtain ⟨hashed, hpin⟩ := hblob hentry hfrom
      exact ⟨hashed, _, .pinned hne hcomment hpin, hpin⟩
    | false => exact ⟨line, _, .left hne hcomment, rfl⟩
  · rw [Bool.not_eq_true] at hentry
    rw [hentry, Bool.false_and]
    by_cases hempty : line = []
    · subst hempty
      exact ⟨[], _, .empty, rfl⟩
    · have hcomment : isComment line = true := by
        by_contra hnot
        have hyes : isEntry line = true := isEntry_iff.2 ⟨hempty, by simpa using hnot⟩
        exact absurd (hentry.symm.trans hyes) Bool.false_ne_true
      exact ⟨line, _, .comment hcomment, rfl⟩

theorem update_of_governed {blob : Line → Option Line} {before lines : List Line}
    (h : Governed before lines)
    (hblobs : ∀ line, (line, true) ∈ toPin before lines → ∃ hashed, pin blob line = .ok hashed) :
    ∃ out, update blob ((nearestComment before).map saysFrom) lines = .ok out ∧
      List.Forall₂ (Pins blob) (toPin before lines) out := by
  induction lines generalizing before with
  | nil => exact ⟨[], rfl, .nil⟩
  | cons line lines ih =>
    obtain ⟨hfirst, hrest⟩ := governed_cons_iff.1 h
    obtain ⟨first, next, hline, hpins⟩ := exists_handles hfirst fun hentry hfrom =>
      hblobs line (by simp [toPin, hentry, hfrom])
    obtain ⟨rest, hupdate, hpinsRest⟩ := ih hrest fun line' hline' =>
      hblobs line' (List.mem_cons_of_mem _ hline')
    rw [← hline.needed_eq] at hupdate
    exact ⟨first :: rest, update_cons_eq_ok_iff.2 ⟨first, next, rest, hline, hupdate, rfl⟩,
      .cons hpins hpinsRest⟩

/-! ## What must hold for it -/

/-- An entry that is pinned if and only if it is to be has the right comment above it. -/
theorem Handles.governed {blob : Line → Option Line} {before : List Line} {line first : Line}
    {next : Option Bool}
    (h : Handles blob ((nearestComment before).map saysFrom) line first next)
    (hfresh : ∀ hashed, pin blob line = .ok hashed → hashed ≠ line)
    (hpins : Pins blob (line, isEntry line && isFrom before) first) (hentry : isEntry line = true) :
    ∃ comment, nearestComment before = some comment ∧ saysFrom comment = isFrom before := by
  obtain ⟨hne, hcomment⟩ := isEntry_iff.1 hentry
  rw [hentry, Bool.true_and] at hpins
  generalize hneeded : (nearestComment before).map saysFrom = needed at h
  cases h with
  | empty => exact absurd rfl hne
  | comment hyes => exact absurd (hcomment.symm.trans hyes) Bool.false_ne_true
  | left =>
    obtain ⟨comment, hnearest, hsays⟩ := Option.map_eq_some_iff.1 hneeded
    refine ⟨comment, hnearest, hsays.trans ?_⟩
    cases hfrom : isFrom before with
    | false => rfl
    | true =>
      rw [hfrom] at hpins
      exact absurd rfl (hfresh line hpins)
  | pinned _ _ hpin =>
    obtain ⟨comment, hnearest, hsays⟩ := Option.map_eq_some_iff.1 hneeded
    refine ⟨comment, hnearest, hsays.trans ?_⟩
    cases hfrom : isFrom before with
    | true => rfl
    | false =>
      rw [hfrom] at hpins
      exact absurd hpins (hfresh first hpin)

/-- After an `update` that pins what it should, an entry that its hash changes has the right comment
above it. -/
theorem governed_of_update {blob : Line → Option Line} {before lines out : List Line}
    (h : update blob ((nearestComment before).map saysFrom) lines = .ok out)
    (hpins : List.Forall₂ (Pins blob) (toPin before lines) out) {above below : List Line}
    {line : Line} (heq : lines = above ++ line :: below) (hentry : isEntry line = true)
    (hfresh : ∀ hashed, pin blob line = .ok hashed → hashed ≠ line) :
    ∃ comment, nearestComment (before ++ above) = some comment ∧
      saysFrom comment = isFrom (before ++ above) := by
  induction above generalizing before lines out with
  | nil =>
    subst heq
    obtain ⟨first, next, rest, hline, -, rfl⟩ := update_cons_eq_ok_iff.1 h
    rw [List.append_nil]
    exact hline.governed hfresh (List.forall₂_cons.1 hpins).1 hentry
  | cons head above ih =>
    subst heq
    obtain ⟨first, next, rest, hline, hupdate, rfl⟩ := update_cons_eq_ok_iff.1 h
    rw [hline.needed_eq] at hupdate
    rw [List.append_cons]
    exact ih hupdate (List.forall₂_cons.1 hpins).2 rfl

/-- Blobs that all have one hash. -/
def sameBlobs (c : Char) (_path : Line) : Option Line := some (List.replicate 40 c)

theorem isSha1_sameBlobs {c : Char} (hc : c ∈ "0123456789abcdef".toList) :
    ∀ path hash, sameBlobs c path = some hash → IsSha1 hash := by
  rintro path hash hblob
  obtain rfl := Option.some.inj hblob
  exact ⟨List.length_replicate, fun d hd => (List.eq_of_mem_replicate hd).symm ▸ hc⟩

/-- One of two hashes differs from what a line already has. -/
theorem exists_fresh (line : Line) : ∃ c ∈ "0123456789abcdef".toList,
    ∀ hashed, pin (sameBlobs c) line = .ok hashed → hashed ≠ line := by
  by_contra hnone
  push Not at hnone
  have hends : ∀ c ∈ "0123456789abcdef".toList,
      line = beforeFirst '|' line ++ '|' :: List.replicate 40 c := by
    intro c hc
    obtain ⟨hashed, hpin, rfl⟩ := hnone c hc
    obtain ⟨path, hash, -, hblob, heq⟩ := pin_eq_ok hpin
    rwa [← Option.some.inj hblob] at heq
  have hsame := (hends '0' (by decide)).symm.trans (hends '1' (by decide))
  exact absurd (List.append_cancel_left hsame) (by decide)

/-- **The sections.** For every list for which some set of blobs has every needed file: for each
such set `update` goes through and gives a hash to exactly the entries of the sections whose header
says ` - from`, if and only if the nearest comment above each entry says what that header does. -/
theorem update_iff {lines : List Line} (hblobs : ∃ blob, HasBlobs blob lines) :
    (∀ blob, HasBlobs blob lines → ∃ out, update blob none lines = .ok out ∧
      List.Forall₂ (Pins blob) (toPin [] lines) out) ↔ Governed [] lines := by
  constructor
  · intro h above line below heq hentry
    obtain ⟨blob, hblob⟩ := hblobs
    obtain ⟨c, hc, hfresh⟩ := exists_fresh line
    have hsame : HasBlobs (sameBlobs c) lines := by
      refine ⟨isSha1_sameBlobs hc, fun line hline => ?_⟩
      obtain ⟨path, hash, hpath, -⟩ := hblob.needed line hline
      exact ⟨path, _, hpath, rfl⟩
    obtain ⟨out, hupdate, hpins⟩ := h _ hsame
    exact governed_of_update hupdate hpins heq hentry hfresh
  · intro h blob hblob
    refine update_of_governed h fun line hline => ?_
    obtain ⟨path, hash, hpath, hhash⟩ := hblob.needed line hline
    exact ⟨_, pin_of_blob hpath hhash⟩

/-- A section from another device, and one of this device. -/
theorem update_iff_sample :
    let lines := ["# A - from b".toList, "lib/a.so".toList, [], "# C".toList, "lib/c.so".toList]
    (∀ blob, HasBlobs blob lines → ∃ out, update blob none lines = .ok out ∧
      List.Forall₂ (Pins blob) (toPin [] lines) out) ↔ Governed [] lines := by
  intro lines
  refine update_iff ⟨sameBlobs 'a', isSha1_sameBlobs (by decide), fun line hline => ?_⟩
  have hmarks : toPin [] lines = [("# A - from b".toList, false), ("lib/a.so".toList, true),
      ([], false), ("# C".toList, false), ("lib/c.so".toList, false)] := by decide
  rw [hmarks] at hline
  have heq : line = "lib/a.so".toList := by simpa using hline
  rw [heq]
  exact ⟨_, _, rfl, rfl⟩

/-- Below a commented-out entry nothing is pinned. Without a header the first section raises, and
another one is treated as the section above it. -/
theorem update_not_by_sections :
    let blob := sameBlobs 'a'
    let lines := ["# A - from b".toList, "#lib/a.so".toList, "lib/c.so".toList]
    HasBlobs blob lines ∧
    (¬∃ out, update blob none lines = .ok out ∧
      List.Forall₂ (Pins blob) (toPin [] lines) out) ∧
    update blob none ["lib/a.so".toList] = .error .UnboundLocalError ∧
    update blob none ["# A - from b".toList, "lib/a.so".toList, [], "lib/c.so".toList] =
      .ok ["# A - from b".toList, "lib/a.so|".toList ++ List.replicate 40 'a', [],
        "lib/c.so|".toList ++ List.replicate 40 'a'] := by
  intro blob lines
  have hmarks : toPin [] lines = [("# A - from b".toList, false), ("#lib/a.so".toList, false),
      ("lib/c.so".toList, true)] := by decide
  refine ⟨⟨isSha1_sameBlobs (by decide), fun line hline => ?_⟩, ?_, rfl, rfl⟩
  · rw [hmarks] at hline
    have heq : line = "lib/c.so".toList := by simpa using hline
    rw [heq]
    exact ⟨_, _, rfl, rfl⟩
  · rintro ⟨out, hupdate, hpins⟩
    have hout : update blob none lines = .ok lines := rfl
    cases hupdate.symm.trans hout
    rw [hmarks] at hpins
    obtain ⟨-, hpins⟩ := List.forall₂_cons.1 hpins
    obtain ⟨-, hpins⟩ := List.forall₂_cons.1 hpins
    cases (List.forall₂_cons.1 hpins).1

end RealmeSalaa.Scripts
