import RealmeSalaa.Scripts.UpdateSha1sums

/-!
# Unpinning the blob list

`cleanup` drops the hash of every entry that has one, whether its blob is pinned or not. It undoes
`update` but for the hashes that `update` found: an entry that is pinned is cut at its first `|`
before it gets the hash (`pin_eq_ok`), which is what `cleanup` does to it too. So the two passes
recognise a line that `update` wrote as they recognised the line before.
-/

namespace RealmeSalaa.Scripts

open PyText

/-! ## The script -/

/-- What `cleanup` leaves for a line. -/
def unpin (line : Line) : Line :=
  if line = [] ∨ isComment line ∨ '|' ∉ line then line else beforeFirst '|' line

/-- `cleanup` -/
def cleanup (lines : List Line) : List Line := lines.map unpin

/-- The content of the list after a run of the script, and the exception that ends the run. `clean`
is the option `-c`. -/
def updateSha1sums (blob : Line → Option Line) (clean : Bool) (stored : List Char) :
    List Char × Option PyError :=
  let lines := splitlines stored
  if clean then (joinLines (cleanup lines) ++ ['\n'], none)
  else
    match update blob none lines with
    | .ok lines => (joinLines lines ++ ['\n'], none)
    | .error e => (stored, some e)

/-! ## Lines that are cut -/

theorem not_mem_beforeFirst (c : Char) (line : Line) : c ∉ beforeFirst c line := by
  intro h
  simpa using List.mem_takeWhile_imp h

theorem beforeFirst_of_not_mem {c : Char} {line : Line} (h : c ∉ line) :
    beforeFirst c line = line := by
  refine List.takeWhile_eq_self_iff.2 fun d hd => ?_
  have hne : d ≠ c := fun heq => h (heq ▸ hd)
  simpa using hne

theorem beforeFirst_append_cons (c : Char) (line rest : Line) :
    beforeFirst c (beforeFirst c line ++ c :: rest) = beforeFirst c line := by
  have hall : ∀ d ∈ beforeFirst c line, decide (d ≠ c) = true := by
    intro d hd
    exact List.mem_takeWhile_imp (p := fun d => decide (d ≠ c)) hd
  unfold beforeFirst at hall ⊢
  rw [List.takeWhile_append_of_pos hall, List.takeWhile_cons_of_neg (by simp), List.append_nil]

/-- Cutting keeps the first character, if anything is left. -/
theorem head?_beforeFirst {c : Char} {line : Line} (h : beforeFirst c line ≠ []) :
    (beforeFirst c line).head? = line.head? := by
  cases line with
  | nil => rfl
  | cons d line =>
    unfold beforeFirst at h ⊢
    rw [List.takeWhile_cons] at h ⊢
    split_ifs at h ⊢
    · rfl
    · exact absurd rfl h

theorem unpin_of_entry {line : Line} (hne : line ≠ []) (hcomment : isComment line = false) :
    unpin line = beforeFirst '|' line := by
  unfold unpin
  by_cases hbar : '|' ∈ line
  · rw [if_neg (by simp [hne, hcomment, hbar])]
  · rw [if_pos (.inr (.inr hbar)), beforeFirst_of_not_mem hbar]

theorem unpin_of_left {line : Line} (h : line = [] ∨ isComment line = true) : unpin line = line :=
  if_pos (by tauto)

theorem not_mem_unpin {line : Line} (hne : line ≠ []) (hcomment : isComment line = false) :
    '|' ∉ unpin line := by
  rw [unpin_of_entry hne hcomment]
  exact not_mem_beforeFirst '|' line

theorem unpin_unpin (line : Line) : unpin (unpin line) = unpin line := by
  by_cases hleft : line = [] ∨ isComment line = true
  · rw [unpin_of_left hleft, unpin_of_left hleft]
  · obtain ⟨hne, hcomment⟩ := not_or.1 hleft
    have hbar := not_mem_unpin hne (by simpa using hcomment)
    exact if_pos (.inr (.inr hbar))

theorem cleanup_cleanup (lines : List Line) : cleanup (cleanup lines) = cleanup lines := by
  unfold cleanup
  rw [List.map_map]
  exact List.map_congr_left fun line _ => unpin_unpin line

/-! ## Lines that are pinned -/

theorem beforeFirst_ne_nil_of_pin {blob : Line → Option Line} {line hashed : Line}
    (h : pin blob line = .ok hashed) : beforeFirst '|' line ≠ [] := by
  obtain ⟨path, hash, hpath, -, -⟩ := pin_eq_ok h
  intro hnil
  rw [hnil] at hpath
  cases hpath

/-- A line that was pinned looks as before to `update`, and is pinned to the same. -/
theorem pin_pin {blob : Line → Option Line} {line hashed : Line} (h : pin blob line = .ok hashed) :
    hashed ≠ [] ∧ isComment hashed = isComment line ∧ pin blob hashed = .ok hashed := by
  have hne := beforeFirst_ne_nil_of_pin h
  obtain ⟨path, hash, hpath, hblob, rfl⟩ := pin_eq_ok h
  refine ⟨by simp, ?_, ?_⟩
  · unfold isComment
    rw [List.head?_append_of_ne_nil _ hne, head?_beforeFirst hne]
  · unfold pin
    rw [beforeFirst_append_cons]
    exact bind_eq_ok.2 ⟨path, hpath, by rw [hblob]⟩

theorem unpin_of_pin {blob : Line → Option Line} {line hashed : Line} (hcomment : isComment line = false)
    (hne : line ≠ []) (h : pin blob line = .ok hashed) : unpin hashed = unpin line := by
  obtain ⟨hhashed, hsame, -⟩ := pin_pin h
  rw [unpin_of_entry hhashed (hsame.trans hcomment), unpin_of_entry hne hcomment]
  obtain ⟨path, hash, -, -, rfl⟩ := pin_eq_ok h
  exact beforeFirst_append_cons '|' line hash

/-! ## The two passes -/

section

variable {blob : Line → Option Line} {lines out : List Line}

theorem entry_of_mem_marks {needSHA1 : Option Bool} {line : Line}
    (h : (line, true) ∈ marks needSHA1 lines) : line ≠ [] ∧ isComment line = false := by
  induction lines generalizing needSHA1 with
  | nil => cases h
  | cons first lines ih =>
    unfold marks at h
    split_ifs at h with hempty hcomment
    · rcases List.mem_cons.1 h with heq | h
      · cases heq
      · exact ih h
    · rcases List.mem_cons.1 h with heq | h
      · cases heq
      · exact ih h
    · cases needSHA1 with
      | none => cases h
      | some needed =>
        rcases List.mem_cons.1 h with heq | h
        · cases heq
          exact ⟨hempty, by simpa using hcomment⟩
        · exact ih h

/-- A line that `update` wrote is handled as the line before. -/
theorem Handles.again {needSHA1 next : Option Bool} {line first : Line}
    (h : Handles blob needSHA1 line first next) : Handles blob needSHA1 first first next := by
  cases h with
  | empty => exact .empty
  | comment hcomment => exact .comment hcomment
  | left hne hcomment => exact .left hne hcomment
  | pinned hne hcomment hpin =>
    obtain ⟨hhashed, hsame, hagain⟩ := pin_pin hpin
    exact .pinned hhashed (hsame.trans hcomment) hagain

theorem Handles.unpin_eq {needSHA1 next : Option Bool} {line first : Line}
    (h : Handles blob needSHA1 line first next) : unpin first = unpin line := by
  cases h with
  | empty => rfl
  | comment hcomment => rfl
  | left hne hcomment => rfl
  | pinned hne hcomment hpin => exact unpin_of_pin hcomment hne hpin

/-- Another `update` changes nothing, and `cleanup` does to its lines what it does to the lines
before. -/
theorem update_and_cleanup_of_update {needSHA1 : Option Bool}
    (h : update blob needSHA1 lines = .ok out) :
    update blob needSHA1 out = .ok out ∧ cleanup out = cleanup lines := by
  induction lines generalizing needSHA1 out with
  | nil =>
    cases h
    exact ⟨rfl, rfl⟩
  | cons line lines ih =>
    obtain ⟨first, next, rest, hline, hrest, rfl⟩ := update_cons_eq_ok_iff.1 h
    obtain ⟨hagain, hcleanup⟩ := ih hrest
    refine ⟨update_cons_eq_ok_iff.2 ⟨first, next, rest, hline.again, hagain, rfl⟩, ?_⟩
    show unpin first :: cleanup rest = unpin line :: cleanup lines
    rw [hline.unpin_eq, hcleanup]

/-- A line that `update` computes no SHA1 for. -/
def IsLeft (lines : List Line) (i : ℕ) (line : Line) : Prop :=
  line = [] ∨ isComment line = true ∨ (marks none lines)[i]? = some (line, false)

theorem getElem?_of_update (h : update blob none lines = .ok out) {i : ℕ} {line : Line}
    (hline : lines[i]? = some line) (hleft : IsLeft lines i line) : out[i]? = some line := by
  obtain ⟨hpins, hlines⟩ := update_eq_ok h
  have hmark : ∃ needed, (marks none lines)[i]? = some (line, needed) := by
    rw [← hlines, List.getElem?_map] at hline
    obtain ⟨⟨line', needed⟩, hmark, rfl⟩ := Option.map_eq_some_iff.1 hline
    exact ⟨needed, hmark⟩
  obtain ⟨needed, hmark⟩ := hmark
  have hnot : needed = false := by
    by_contra htrue
    rw [Bool.not_eq_false] at htrue
    subst htrue
    obtain ⟨hne, hcomment⟩ := entry_of_mem_marks (List.mem_of_getElem? hmark)
    rcases hleft with hempty | hyes | hfalse
    · exact hne hempty
    · exact absurd (hcomment.symm.trans hyes) Bool.false_ne_true
    · cases hmark.symm.trans hfalse
  subst hnot
  obtain ⟨hi, hget⟩ := List.getElem?_eq_some_iff.1 hmark
  have hout : i < out.length := hpins.length_eq ▸ hi
  have hpin := hpins.get hi hout
  rw [List.get_eq_getElem, hget] at hpin
  rw [List.getElem?_eq_getElem hout]
  exact congrArg some hpin

end

/-- **Pinning and unpinning.** An `update` that goes through changes the lines it pins only, and
those only in what `cleanup` drops and another `update` writes again. One that raises leaves the
file as it was. -/
theorem update_round_trip (blob : Line → Option Line) :
    (∀ lines out, update blob none lines = .ok out →
      cleanup out = cleanup lines ∧ update blob none out = .ok out ∧ out.length = lines.length ∧
        ∀ i line, lines[i]? = some line → IsLeft lines i line → out[i]? = some line) ∧
    (∀ lines, cleanup (cleanup lines) = cleanup lines) ∧
    ∀ stored e, update blob none (splitlines stored) = .error e →
      updateSha1sums blob false stored = (stored, some e) := by
  refine ⟨fun lines out h => ?_, cleanup_cleanup, fun stored e h => ?_⟩
  · obtain ⟨hagain, hcleanup⟩ := update_and_cleanup_of_update h
    obtain ⟨hpins, hlines⟩ := update_eq_ok h
    have hlength : out.length = lines.length :=
      calc out.length = (marks none lines).length := hpins.length_eq.symm
        _ = ((marks none lines).map (·.1)).length := (List.length_map _).symm
        _ = lines.length := by rw [hlines]
    exact ⟨hcleanup, hagain, hlength, fun i line => getElem?_of_update h⟩
  · unfold updateSha1sums
    dsimp only
    rw [h]
    rfl

/-- An entry with a module name and an old hash, and one whose blob is missing. -/
theorem update_round_trip_sample :
    let blob : Line → Option Line := fun path =>
      if path = "lib/a.so".toList then some (List.replicate 40 'a') else none
    let lines := ["# A - from b".toList, "-lib/a.so;A|0:1".toList, [], "# C".toList, "c|1".toList]
    let stored := "# A - from b\nlib/b.so".toList
    (∃ out, update blob none lines = .ok out ∧ cleanup out = cleanup lines ∧
      update blob none out = .ok out ∧ out[4]? = some "c|1".toList) ∧
    updateSha1sums blob false stored = (stored, some .FileNotFoundError) := by
  intro blob lines stored
  obtain ⟨hround, -, hraise⟩ := update_round_trip blob
  have hupdate : update blob none lines = .ok ["# A - from b".toList,
      "-lib/a.so;A|".toList ++ List.replicate 40 'a', [], "# C".toList, "c|1".toList] := rfl
  obtain ⟨hcleanup, hagain, -, hleft⟩ := hround lines _ hupdate
  refine ⟨⟨_, hupdate, hcleanup, hagain, hleft 4 _ rfl (.inr (.inr rfl))⟩, ?_⟩
  exact hraise stored .FileNotFoundError rfl

end RealmeSalaa.Scripts
