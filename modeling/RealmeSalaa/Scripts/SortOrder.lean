import RealmeSalaa.Lib.FirstDifference
import RealmeSalaa.Scripts.ReorderLibs

/-!
# The order of the blob list

The comparison puts a subdirectory before its directory and is otherwise the order of the strings.
By directories alone this would be a linear order, that of `key`. But the script takes a name without
a slash for a directory of itself, with a slash that the name does not have. So a name that goes on
from `lib` with a character before the slash, as `lib-ext/a.so`, comes after `lib` as a string and
before it by its directory: the pair is swapped (`Swap`). What is below the directory `lib` is
between the two, and makes a cycle with them (`torn_iff_conflict`). There is no other cycle, and a
section without one is sorted to the same lines from every order (`canonical_iff`).
-/

namespace RealmeSalaa.Scripts

open FirstDifference PyText Sorting

/-! ## Names -/

/-- The comparison of two names, the lines less one hyphen. -/
def compareNames (name1 name2 : Line) : ℤ :=
  if directory name1 = directory name2 then strcoll name1 name2
  else if directory name2 <+: directory name1 then -1
  else if directory name1 <+: directory name2 then 1
  else strcoll name1 name2

variable {x y z : Line}

/-- Of two names without a slash none is the directory of the other. -/
theorem not_directory_isPrefix (hx : '/' ∉ x) (hy : '/' ∉ y) (hdir : directory x ≠ directory y) :
    ¬directory y <+: directory x := by
  rw [directory_of_not_mem hx, directory_of_not_mem hy] at hdir ⊢
  intro hbegins
  rcases List.prefix_concat_iff.1 hbegins with heq | hbegins
  · exact hdir heq.symm
  · exact hx (hbegins.subset (List.mem_append_right y List.mem_cons_self))

theorem strcoll_extract_utils_eq {string1 string2 : Line} (h1 : string1 ≠ []) (h2 : string2 ≠ []) :
    strcoll_extract_utils string1 string2 =
      compareNames (removeprefixChar '-' string1) (removeprefixChar '-' string2) := by
  unfold strcoll_extract_utils compareNames
  rw [if_neg (not_or.2 ⟨h1, h2⟩)]
  generalize removeprefixChar '-' string1 = x
  generalize removeprefixChar '-' string2 = y
  by_cases hslash : '/' ∉ x ∧ '/' ∉ y
  · rw [if_pos hslash]
    split_ifs with hdir hyx hxy
    · rfl
    · exact absurd hyx (not_directory_isPrefix hslash.1 hslash.2 hdir)
    · exact absurd hxy (not_directory_isPrefix hslash.2 hslash.1 (Ne.symm hdir))
    · rfl
  · rw [if_neg hslash]

/-- A hyphen in front makes a line of a name. -/
theorem compareNames_eq (x y : Line) :
    compareNames x y = strcoll_extract_utils ('-' :: x) ('-' :: y) :=
  (strcoll_extract_utils_eq (List.cons_ne_nil '-' x) (List.cons_ne_nil '-' y)).symm

theorem compareNames_swap (x y : Line) : compareNames y x = -compareNames x y := by
  rw [compareNames_eq, compareNames_eq, strcoll_extract_utils_swap]

theorem strcoll_eq_zero (h : strcoll x y = 0) : x = y := by
  unfold strcoll at h
  split_ifs at h with hlt heq
  · exact heq
  · cases h

theorem compareNames_eq_zero (h : compareNames x y = 0) : x = y := by
  unfold compareNames at h
  split_ifs at h
  · exact strcoll_eq_zero h
  · cases h
  · exact strcoll_eq_zero h

/-! ## Directories and prefixes -/

/-- What a directory starts with, the name starts with, but for the slash that is not there. -/
theorem prefix_or_of_prefix_directory {p : Line} {c : Char} (h : p ++ [c] <+: directory x) :
    p ++ [c] <+: x ∨ '/' ∉ x ∧ p = x ∧ c = '/' := by
  by_cases hslash : '/' ∈ x
  · exact .inl (h.trans (directory_isPrefix hslash))
  · rw [directory_of_not_mem hslash] at h
    rcases List.prefix_concat_iff.1 h with heq | hbegins
    · obtain ⟨hp, hc⟩ := List.append_inj' heq rfl
      exact .inr ⟨hslash, hp, (List.cons.inj hc).1⟩
    · exact .inl hbegins

/-- What a name starts with before its first slash, its directory starts with. -/
theorem prefix_directory {p : Line} (hp : '/' ∉ p) (h : p <+: x) : p <+: directory x := by
  by_cases hslash : '/' ∈ x
  · rcases List.prefix_or_prefix_of_prefix h (directory_isPrefix hslash) with hdir | hdir
    · exact hdir
    · have hmem : '/' ∈ directory x := by
        unfold directory
        exact List.mem_append_right _ List.mem_cons_self
      exact absurd (hdir.subset hmem) hp
  · rw [directory_of_not_mem hslash]
    exact h.trans (List.prefix_append x ['/'])

/-! ## The swapped pairs -/

/-- The order of the directories, subdirectories first, and then of the names. -/
def key (name : Line) : List (WithTop Char) ×ₗ Line := toLex (closed (directory name), name)

/-- `u` goes on from the bare name `s` with a character before the slash. -/
def Swap (s u : Line) : Prop := '/' ∉ s ∧ ∃ c, c < '/' ∧ s ++ [c] <+: u

theorem key_lt_of_closed (h : closed (directory x) < closed (directory y)) : key x < key y :=
  Prod.Lex.toLex_lt_toLex.2 (.inl h)

theorem key_lt_iff_of_directory (h : directory x = directory y) : key x < key y ↔ x < y := by
  unfold key
  rw [Prod.Lex.toLex_lt_toLex, h]
  simp

theorem Swap.differsAt (h : Swap x y) :
    ∃ c, c < '/' ∧ DiffersAt x c '/' (directory y) (directory x) := by
  obtain ⟨hslash, c, hlt, hbegins⟩ := h
  refine ⟨c, hlt, prefix_directory ?_ hbegins, ?_, hlt.ne⟩
  · rw [List.mem_append, List.mem_singleton]
    exact not_or.2 ⟨hslash, hlt.ne'⟩
  · rw [directory_of_not_mem hslash]

theorem Swap.key_lt (h : Swap x y) : key y < key x := by
  obtain ⟨c, hlt, hdiffers⟩ := h.differsAt
  exact key_lt_of_closed (hdiffers.closed_lt_iff.2 hlt)

theorem Swap.trans (h : Swap x y) (h' : Swap y z) : Swap x z := by
  obtain ⟨hslash, c, hlt, hbegins⟩ := h
  obtain ⟨-, d, -, hbegins'⟩ := h'
  exact ⟨hslash, c, hlt, hbegins.trans ((List.prefix_append y [d]).trans hbegins')⟩

/-- Names in one directory, or in one below the other's, are not swapped. -/
theorem not_swap_of_isPrefix (h : directory x <+: directory y ∨ directory y <+: directory x) :
    ¬Swap x y := by
  intro hswap
  obtain ⟨c, -, hdiffers⟩ := hswap.differsAt
  rcases h with h | h
  · exact hdiffers.symm.not_isPrefix h
  · exact hdiffers.not_isPrefix h

section DiffersAt

variable {p : Line} {a b : Char} (h : DiffersAt p a b (directory x) (directory y))

include h

theorem key_lt_iff_of_differsAt : key x < key y ↔ a < b := by
  refine ⟨fun hlt => ?_, fun hab => key_lt_of_closed (h.closed_lt_iff.2 hab)⟩
  by_contra hab
  have hba : b < a := lt_of_le_of_ne (not_lt.1 hab) h.ne.symm
  exact lt_asymm hlt (key_lt_of_closed (h.symm.closed_lt_iff.2 hba))

/-- Directories that differ inside the name do not make it a bare name that is gone on from. -/
theorem not_swap_of_differsAt (hx : p ++ [a] <+: x) : ¬Swap x y := by
  intro hswap
  obtain ⟨c, -, hdiffers⟩ := hswap.differsAt
  obtain ⟨rfl, -, -⟩ := h.symm.unique hdiffers
  have hle := hx.length_le
  rw [List.length_append, List.length_singleton] at hle
  omega

end DiffersAt

/-- The comparison is the order of the keys, but for the swapped pairs. -/
theorem compareNames_neg_iff : compareNames x y < 0 ↔ Before key Swap x y := by
  unfold compareNames
  by_cases hdir : directory x = directory y
  · have hbegins : directory x <+: directory y := by rw [hdir]
    have hxy : ¬Swap x y := not_swap_of_isPrefix (.inl hbegins)
    have hyx : ¬Swap y x := not_swap_of_isPrefix (.inr hbegins)
    rw [if_pos hdir, strcoll_neg_iff, Before, key_lt_iff_of_directory hdir]
    exact ⟨fun h => .inr ⟨h, hyx⟩, fun h => (h.resolve_left hxy).1⟩
  rw [if_neg hdir]
  by_cases hyx : directory y <+: directory x
  · rw [if_pos hyx]
    refine iff_of_true (by decide) (.inr ⟨?_, not_swap_of_isPrefix (.inl hyx)⟩)
    exact key_lt_of_closed (closed_lt_of_isPrefix hyx (Ne.symm hdir))
  rw [if_neg hyx]
  by_cases hxy : directory x <+: directory y
  · rw [if_pos hxy]
    have hkey : key y < key x := key_lt_of_closed (closed_lt_of_isPrefix hxy hdir)
    refine iff_of_false (by decide) ?_
    rintro (hswap | ⟨hlt, -⟩)
    · exact not_swap_of_isPrefix (.inl hxy) hswap
    · exact lt_asymm hkey hlt
  rw [if_neg hxy, strcoll_neg_iff]
  obtain ⟨p, a, b, hdiffers⟩ := exists_differsAt hxy hyx
  rcases prefix_or_of_prefix_directory hdiffers.left with hx | ⟨hslash, rfl, rfl⟩
  · have hnxy : ¬Swap x y := not_swap_of_differsAt hdiffers hx
    rcases prefix_or_of_prefix_directory hdiffers.right with hy | ⟨hslash, rfl, rfl⟩
    · -- the names differ where the directories do
      have hnyx : ¬Swap y x := not_swap_of_differsAt hdiffers.symm hy
      have hnames : DiffersAt p a b x y := ⟨hx, hy, hdiffers.ne⟩
      rw [hnames.lt_iff, Before, key_lt_iff_of_differsAt hdiffers]
      exact ⟨fun h => .inr ⟨h, hnyx⟩, fun h => (h.resolve_left hnxy).1⟩
    · -- `x` goes on from the bare name `p`
      refine iff_of_false (fun hlt => ?_) ?_
      · obtain ⟨rest, rfl⟩ := hx
        rw [List.append_assoc] at hlt
        exact List.le_append_left hlt
      · rintro (hswap | ⟨hlt, hnot⟩)
        · exact hnxy hswap
        · exact hnot ⟨hslash, a, (key_lt_iff_of_differsAt hdiffers).1 hlt, hx⟩
  · -- `y` goes on from the bare name `p`
    have hy : p ++ [b] <+: y := by
      rcases prefix_or_of_prefix_directory hdiffers.right with hy | ⟨-, -, rfl⟩
      · exact hy
      · exact absurd rfl hdiffers.ne
    refine iff_of_true ?_ ?_
    · obtain ⟨rest, rfl⟩ := hy
      have hlt : p ++ [] < p ++ b :: rest := List.append_left_lt (List.nil_lt_cons b rest)
      rwa [List.append_nil, List.append_cons] at hlt
    · rcases lt_or_gt_of_ne hdiffers.ne with hlt | hgt
      · refine .inr ⟨(key_lt_iff_of_differsAt hdiffers).2 hlt, ?_⟩
        exact not_swap_of_differsAt hdiffers.symm hy
      · exact .inl ⟨hslash, b, hgt, hy⟩

/-! ## Cycles -/

/-- `s` has no slash, `u` goes on from it with a character before the slash, and `v` is in a
directory below `s`. -/
def Conflict (s u v : Line) : Prop :=
  Swap s u ∧ s ++ ['/'] <+: directory v ∧ directory v ≠ s ++ ['/']

theorem Conflict.torn {s u v : Line} (h : Conflict s u v) : Torn key Swap s u v := by
  obtain ⟨hswap, hbelow, hne⟩ := h
  have hdirectory : directory s = s ++ ['/'] := directory_of_not_mem hswap.1
  have hdiffers : ∃ c, c < '/' ∧ DiffersAt s c '/' (directory u) (directory v) := by
    obtain ⟨c, hlt, hdiffers⟩ := hswap.differsAt
    exact ⟨c, hlt, hdiffers.left, hbelow, hdiffers.ne⟩
  obtain ⟨c, hlt, hdiffers⟩ := hdiffers
  have hv : s ++ ['/'] <+: v := by
    rcases prefix_or_of_prefix_directory hbelow with hv | ⟨hslash, rfl, -⟩
    · exact hv
    · exact absurd (directory_of_not_mem hslash) hne
  refine ⟨hswap, key_lt_of_closed (hdiffers.closed_lt_iff.2 hlt), ?_, ?_, ?_⟩
  · rw [← hdirectory] at hbelow hne
    exact key_lt_of_closed (closed_lt_of_isPrefix hbelow hne.symm)
  · exact not_swap_of_differsAt hdiffers.symm hv
  · rw [← hdirectory] at hbelow
    exact not_swap_of_isPrefix (.inl hbelow)

theorem Torn.conflict {s u v : Line} (h : Torn key Swap s u v) : Conflict s u v := by
  obtain ⟨hswap, hleft, hright, -, hnot⟩ := h
  refine ⟨hswap, ?_⟩
  have hdirectory : directory s = s ++ ['/'] := directory_of_not_mem hswap.1
  obtain ⟨c, hlt, hdiffers⟩ := hswap.differsAt
  have hclosed : ∀ {x y : Line}, key x < key y → closed (directory x) ≤ closed (directory y) := by
    intro x y h
    rcases Prod.Lex.toLex_lt_toLex.1 h with h | ⟨h, -⟩
    · exact h.le
    · exact h.le
  -- `v` goes on from `s` with `/`, as otherwise it would be swapped with `s` too
  obtain ⟨d, hd, -, hle⟩ := exists_between hdiffers.left hdiffers.right (hclosed hleft)
    (hclosed hright)
  have hslash : d = '/' := by
    refine hle.eq_of_not_lt fun hdlt => ?_
    rcases prefix_or_of_prefix_directory hd with hv | ⟨-, -, rfl⟩
    · exact hnot ⟨hswap.1, d, hdlt, hv⟩
    · exact lt_irrefl _ hdlt
  rw [hslash] at hd
  refine ⟨hd, fun heq => ?_⟩
  -- what is in the directory `s` itself comes after it
  rw [key_lt_iff_of_directory (heq.trans hdirectory.symm)] at hright
  rcases prefix_or_of_prefix_directory hd with hv | ⟨-, rfl, -⟩
  · obtain ⟨rest, rfl⟩ := hv
    rw [List.append_assoc] at hright
    exact List.le_append_left hright
  · exact lt_irrefl _ hright

theorem torn_iff_conflict {s u v : Line} : Torn key Swap s u v ↔ Conflict s u v :=
  ⟨Torn.conflict, Conflict.torn⟩

theorem cycle_iff : compareNames x y < 0 ∧ compareNames y z < 0 ∧ compareNames z x < 0 ↔
    Conflict x y z ∨ Conflict y z x ∨ Conflict z x y := by
  simp only [compareNames_neg_iff, ← torn_iff_conflict]
  exact @before_cycle_iff _ _ _ key Swap x y z (fun _ _ => Swap.key_lt) fun _ _ _ => Swap.trans

/-- Where the comparison is not transitive, it has a cycle. -/
theorem not_trans_iff :
    ¬(compareNames x y ≤ 0 → compareNames y z ≤ 0 → compareNames x z ≤ 0) ↔
      compareNames x y < 0 ∧ compareNames y z < 0 ∧ compareNames z x < 0 := by
  have hswap : compareNames z x = -compareNames x z := compareNames_swap x z
  push Not
  rw [hswap]
  constructor
  · rintro ⟨hxy, hyz, hxz⟩
    refine ⟨lt_of_le_of_ne hxy fun h => ?_, lt_of_le_of_ne hyz fun h => ?_, by omega⟩
    · rw [compareNames_eq_zero h] at hxz
      omega
    · rw [← compareNames_eq_zero h] at hxz
      omega
  · rintro ⟨hxy, hyz, hzx⟩
    exact ⟨hxy.le, hyz.le, by omega⟩

/-! ## Sorting -/

variable (S : ListSort strcoll_extract_utils)

/-- The comparison orders the lines, and every order of them is sorted to the same list, but for
leading hyphens. -/
structure Canonical (lines : List Line) : Prop where
  sign : ∀ a ∈ lines, ∀ b ∈ lines,
    (strcoll_extract_utils a b).sign = -(strcoll_extract_utils b a).sign
  trans : ∀ a ∈ lines, ∀ b ∈ lines, ∀ c ∈ lines, strcoll_extract_utils a b ≤ 0 →
    strcoll_extract_utils b c ≤ 0 → strcoll_extract_utils a c ≤ 0
  sort : ∀ l m, l.Perm lines → m.Perm lines →
    (S.sort l).map (removeprefixChar '-') = (S.sort m).map (removeprefixChar '-')

/-- No three lines make a cycle. -/
def NoConflict (lines : List Line) : Prop :=
  ∀ s ∈ lines, ∀ u ∈ lines, ∀ v ∈ lines,
    ¬Conflict (removeprefixChar '-' s) (removeprefixChar '-' u) (removeprefixChar '-' v)

variable {S} {lines : List Line}

theorem NoConflict.trans (h : NoConflict lines) (hne : ∀ line ∈ lines, line ≠ []) {a b c : Line}
    (ha : a ∈ lines) (hb : b ∈ lines) (hc : c ∈ lines) (hab : strcoll_extract_utils a b ≤ 0)
    (hbc : strcoll_extract_utils b c ≤ 0) : strcoll_extract_utils a c ≤ 0 := by
  rw [strcoll_extract_utils_eq (hne a ha) (hne b hb)] at hab
  rw [strcoll_extract_utils_eq (hne b hb) (hne c hc)] at hbc
  rw [strcoll_extract_utils_eq (hne a ha) (hne c hc)]
  by_contra hac
  have hcycle := not_trans_iff.1 fun htrans => hac (htrans hab hbc)
  rcases cycle_iff.1 hcycle with hconflict | hconflict | hconflict
  · exact h a ha b hb c hc hconflict
  · exact h b hb c hc a ha hconflict
  · exact h c hc a ha b hb hconflict

theorem NoConflict.sort (h : NoConflict lines) (hne : ∀ line ∈ lines, line ≠ []) {l m : List Line}
    (hl : l.Perm lines) (hm : m.Perm lines) :
    (S.sort l).map (removeprefixChar '-') = (S.sort m).map (removeprefixChar '-') := by
  have hmem : ∀ {l : List Line}, l.Perm lines → ∀ a ∈ S.sort l, a ∈ lines := fun hl a ha =>
    hl.mem_iff.1 ((S.perm _).mem_iff.1 ha)
  have hchain : ∀ {l : List Line}, l.Perm lines → (S.sort l).IsChain fun a b =>
      compareNames (removeprefixChar '-' a) (removeprefixChar '-' b) ≤ 0 := by
    intro l hl
    refine (S.chain l).imp_of_mem_imp fun a b ha hb hnot => ?_
    rw [← strcoll_extract_utils_eq (hne a (hmem hl a ha)) (hne b (hmem hl b hb))]
    have hswap := strcoll_extract_utils_swap a b
    omega
  refine map_eq_of_perm (R := fun x y => compareNames x y ≤ 0) ?_ (fun x y hxy hyx => ?_)
    (((S.perm l).trans hl).trans ((S.perm m).trans hm).symm) (hchain hl) (hchain hm)
  · intro a ha b hb c hc
    have ha' := hmem hl a ha
    have hb' := hmem hl b hb
    have hc' := hmem hl c hc
    rw [← strcoll_extract_utils_eq (hne a ha') (hne b hb'),
      ← strcoll_extract_utils_eq (hne b hb') (hne c hc'),
      ← strcoll_extract_utils_eq (hne a ha') (hne c hc')]
    exact h.trans hne ha' hb' hc'
  · have hswap := compareNames_swap x y
    exact compareNames_eq_zero (by omega)

/-- **The order of the lines.** Whatever sort the script uses, the comparison orders the lines of a
section, and sorts every order of them to one list, if and only if no three of them are a bare name,
a name that goes on from it with a character before the slash, and a name in a directory below. -/
theorem canonical_iff (hne : ∀ line ∈ lines, line ≠ []) : Canonical S lines ↔ NoConflict lines := by
  constructor
  · intro h s hs u hu v hv hconflict
    refine not_trans_iff.2 (cycle_iff.2 (.inl hconflict)) fun hsu huv => ?_
    rw [← strcoll_extract_utils_eq (hne s hs) (hne u hu)] at hsu
    rw [← strcoll_extract_utils_eq (hne u hu) (hne v hv)] at huv
    rw [← strcoll_extract_utils_eq (hne s hs) (hne v hv)]
    exact h.trans s hs u hu v hv hsu huv
  · intro h
    refine ⟨fun a _ b _ => ?_, fun a ha b hb c hc => h.trans hne ha hb hc, fun l m => h.sort hne⟩
    rw [strcoll_extract_utils_swap b a, Int.sign_neg]

/-! ## The greatest comment -/

/-- A section whose comments make no cycle has a greatest comment. -/
theorem hasGreatest_of_noConflict {s : List Char} (h : NoConflict (comments s)) :
    HasGreatest s := by
  intro hnil
  have hcomment : ∀ line ∈ comments s, isComment line = true := fun line hline =>
    (List.mem_filter.1 hline).2
  have hne : ∀ line ∈ comments s, line ≠ [] := by
    rintro line hline rfl
    cases hcomment [] hline
  obtain ⟨greatest, hmem, hle⟩ := exists_greatest (R := fun x y => strcoll_extract_utils x y ≤ 0)
    (fun x _ y _ => by have hswap := strcoll_extract_utils_swap x y; omega)
    (fun x hx y hy z hz => h.trans hne hx hy hz) hnil
  refine ⟨greatest, hmem, fun other hother hdiff => lt_of_le_of_ne (hle other hother) fun hzero => ?_⟩
  rw [strcoll_extract_utils_eq (hne other hother) (hne greatest hmem)] at hzero
  obtain ⟨text, rfl⟩ := exists_of_isComment (hcomment other hother)
  obtain ⟨text', rfl⟩ := exists_of_isComment (hcomment greatest hmem)
  -- a comment has no hyphen in front
  exact hdiff (compareNames_eq_zero hzero)

/-- Names that all have a slash. -/
theorem canonical_iff_sample : Canonical insertion
    ["lib-ext/a.so".toList, "-lib/hw/b.so".toList, "lib/c.so".toList] := by
  refine (canonical_iff (by decide)).2 fun s hs u _ v _ hconflict => ?_
  have hslash : ∀ s ∈ ["lib-ext/a.so".toList, "-lib/hw/b.so".toList, "lib/c.so".toList],
      '/' ∈ removeprefixChar '-' s := by decide
  exact hconflict.1.1 (hslash s hs)

/-- Three lines that make a cycle, and two orders of them that are sorted to different lists. -/
theorem sort_depends_on_order :
    let lines := ["lib".toList, "lib-ext/a.so".toList, "lib/hw/b.so".toList]
    let other := ["lib-ext/a.so".toList, "lib/hw/b.so".toList, "lib".toList]
    strcoll_extract_utils "lib".toList "lib-ext/a.so".toList < 0 ∧
      strcoll_extract_utils "lib-ext/a.so".toList "lib/hw/b.so".toList < 0 ∧
      strcoll_extract_utils "lib/hw/b.so".toList "lib".toList < 0 ∧
      other.Perm lines ∧ ¬Canonical insertion lines ∧
      (insertion.sort lines).map (removeprefixChar '-') ≠
        (insertion.sort other).map (removeprefixChar '-') := by
  intro lines other
  have hperm : other.Perm lines := by decide
  have hne : (insertion.sort lines).map (removeprefixChar '-') ≠
      (insertion.sort other).map (removeprefixChar '-') := by decide
  exact ⟨by decide, by decide, by decide, hperm, fun h => hne (h.sort _ _ (.refl _) hperm), hne⟩

end RealmeSalaa.Scripts
