import Mathlib

/-!
# Sorted lists

Of a list that was sorted by a comparison one may know no more than that neighbours are in order.
Where the comparison is transitive on the members of the list, the whole list is in order
(`pairwise_of_isChain`), and the order of the input does not matter (`map_eq_of_perm`); without that,
what is past all others still comes last (`getLast?_of_greatest`). `Before` is a
linear order with some pairs the other way round; `before_cycle_iff` tells where it is not
transitive. A stable sort by a key leaves what has one key as it is (`filter_sortByKey`).
-/

namespace Sorting

variable {α β κ : Type*}

/-! ## Neighbours in order -/

section Chain

variable {R : α → α → Prop} {l : List α}

theorem isChain_orderedInsert [DecidableRel R] (htotal : ∀ a b, ¬R a b → R b a) (a : α)
    (h : l.IsChain R) : (l.orderedInsert R a).IsChain R := by
  induction l with
  | nil => exact .singleton a
  | cons b l ih =>
    rw [List.orderedInsert_cons]
    split_ifs with hab
    · exact List.isChain_cons_cons.2 ⟨hab, h⟩
    · refine List.isChain_cons.2 ⟨fun c hc => ?_, ih h.tail⟩
      cases l with
      | nil =>
        cases hc
        exact htotal a b hab
      | cons d l =>
        rw [List.orderedInsert_cons] at hc
        split_ifs at hc
        · cases hc
          exact htotal a b hab
        · cases hc
          exact (List.isChain_cons_cons.1 h).1

/-- No inversion between neighbours, and none of the others before one of `p`: those of `p` come
first. -/
theorem eq_filter_append_filter {p : α → Bool} (hchain : l.IsChain R)
    (h : ∀ a ∈ l, ∀ b ∈ l, p a = false → p b = true → ¬R a b) :
    l = l.filter p ++ l.filter (fun a => !p a) := by
  induction l with
  | nil => rfl
  | cons a l ih =>
    have hl := ih hchain.tail fun a ha b hb =>
      h a (List.mem_cons_of_mem _ ha) b (List.mem_cons_of_mem _ hb)
    cases ha : p a with
    | true =>
      rw [List.filter_cons_of_pos ha, List.filter_cons_of_neg (by simp [ha]), List.cons_append, ← hl]
    | false =>
      rw [List.filter_cons_of_neg (by simp [ha]), List.filter_cons_of_pos (by simp [ha])]
      cases hfirst : l.filter p with
      | nil =>
        rw [hfirst, List.nil_append] at hl
        rw [List.nil_append, ← hl]
      | cons b rest =>
        -- the next one is of `p`
        rw [hfirst, List.cons_append] at hl
        have hb : b ∈ l.filter p := by simp [hfirst]
        obtain ⟨hmem, hp⟩ := List.mem_filter.1 hb
        rw [hl] at hchain
        exact absurd (List.isChain_cons_cons.1 hchain).1
          (h a List.mem_cons_self b (List.mem_cons_of_mem _ hmem) ha hp)

/-- What no other may come after comes last. -/
theorem getLast?_of_greatest {a : α} (hchain : l.IsChain R) (ha : a ∈ l)
    (h : ∀ b ∈ l, b ≠ a → ¬R a b) : l.getLast? = some a := by
  induction l with
  | nil => cases ha
  | cons b l ih =>
    cases l with
    | nil =>
      rw [List.mem_singleton.1 ha]
      rfl
    | cons c l =>
      obtain ⟨hbc, hrest⟩ := List.isChain_cons_cons.1 hchain
      have hin : a ∈ c :: l := by
        rcases List.mem_cons.1 ha with rfl | hin
        · -- only `a` itself follows it
          by_contra hnot
          have hne : c ≠ a := fun heq => hnot (heq ▸ List.mem_cons_self)
          exact h c (List.mem_cons_of_mem _ List.mem_cons_self) hne hbc
        · exact hin
      rw [List.getLast?_cons_cons]
      exact ih hrest hin fun d hd => h d (List.mem_cons_of_mem _ hd)

/-- Where the relation orders the list, it has a greatest element. -/
theorem exists_greatest (htotal : ∀ a ∈ l, ∀ b ∈ l, R a b ∨ R b a)
    (htrans : ∀ a ∈ l, ∀ b ∈ l, ∀ c ∈ l, R a b → R b c → R a c) (hne : l ≠ []) :
    ∃ a ∈ l, ∀ b ∈ l, R b a := by
  induction l with
  | nil => exact absurd rfl hne
  | cons a l ih =>
    have hself : R a a := (htotal a List.mem_cons_self a List.mem_cons_self).elim id id
    by_cases hnil : l = []
    · subst hnil
      exact ⟨a, List.mem_cons_self, List.forall_mem_singleton.2 hself⟩
    obtain ⟨b, hb, hgreatest⟩ := ih
      (fun c hc d hd => htotal c (List.mem_cons_of_mem _ hc) d (List.mem_cons_of_mem _ hd))
      (fun c hc d hd e he => htrans c (List.mem_cons_of_mem _ hc) d (List.mem_cons_of_mem _ hd) e
        (List.mem_cons_of_mem _ he)) hnil
    have hb' : b ∈ a :: l := List.mem_cons_of_mem _ hb
    rcases htotal a List.mem_cons_self b hb' with hab | hba
    · exact ⟨b, hb', List.forall_mem_cons.2 ⟨hab, hgreatest⟩⟩
    · refine ⟨a, List.mem_cons_self, List.forall_mem_cons.2 ⟨hself, fun c hc => ?_⟩⟩
      exact htrans c (List.mem_cons_of_mem _ hc) b hb' a List.mem_cons_self (hgreatest c hc) hba

/-- Where the relation is transitive on the list, not only neighbours are in order. -/
theorem pairwise_of_isChain
    (htrans : ∀ a ∈ l, ∀ b ∈ l, ∀ c ∈ l, R a b → R b c → R a c) (h : l.IsChain R) :
    l.Pairwise R := by
  induction l with
  | nil => exact .nil
  | cons a l ih =>
    have hl : l.Pairwise R := ih (fun b hb c hc d hd => htrans b (List.mem_cons_of_mem _ hb) c
      (List.mem_cons_of_mem _ hc) d (List.mem_cons_of_mem _ hd)) h.tail
    refine List.pairwise_cons.2 ⟨fun b hb => ?_, hl⟩
    cases l with
    | nil => cases hb
    | cons c l =>
      have hac : R a c := (List.isChain_cons_cons.1 h).1
      rcases List.mem_cons.1 hb with rfl | hmem
      · exact hac
      · exact htrans a List.mem_cons_self c (List.mem_cons_of_mem _ List.mem_cons_self) b
          (List.mem_cons_of_mem _ hb) hac (List.rel_of_pairwise_cons hl hmem)

end Chain

/-- Two orders of the same elements, both with neighbours in order, are the same as far as the
relation sees. -/
theorem map_eq_of_perm {f : α → β} {R : β → β → Prop} {l m : List α}
    (htrans : ∀ a ∈ l, ∀ b ∈ l, ∀ c ∈ l, R (f a) (f b) → R (f b) (f c) → R (f a) (f c))
    (hanti : ∀ x y, R x y → R y x → x = y) (hperm : l.Perm m)
    (hl : l.IsChain fun a b => R (f a) (f b)) (hm : m.IsChain fun a b => R (f a) (f b)) :
    l.map f = m.map f := by
  have htrans' : ∀ a ∈ m, ∀ b ∈ m, ∀ c ∈ m, R (f a) (f b) → R (f b) (f c) → R (f a) (f c) :=
    fun a ha b hb c hc => htrans a (hperm.mem_iff.2 ha) b (hperm.mem_iff.2 hb) c
      (hperm.mem_iff.2 hc)
  exact List.Perm.eq_of_pairwise (fun x y _ _ => hanti x y)
    (List.pairwise_map.2 (pairwise_of_isChain htrans hl))
    (List.pairwise_map.2 (pairwise_of_isChain htrans' hm)) (hperm.map f)

/-! ## An order with swapped pairs -/

section Swapped

variable [LinearOrder κ] {key : α → κ} {Swapped : α → α → Prop} {a b c : α}

/-- The order of the keys, but for the swapped pairs. -/
def Before (key : α → κ) (Swapped : α → α → Prop) (a b : α) : Prop :=
  Swapped a b ∨ key a < key b ∧ ¬Swapped b a

/-- `c` is between a swapped pair, and swapped with neither of it. -/
structure Torn (key : α → κ) (Swapped : α → α → Prop) (a b c : α) : Prop where
  swapped : Swapped a b
  left : key b < key c
  right : key c < key a
  not_left : ¬Swapped c b
  not_right : ¬Swapped a c

theorem Torn.cycle (h : Torn key Swapped a b c) :
    Before key Swapped a b ∧ Before key Swapped b c ∧ Before key Swapped c a :=
  ⟨.inl h.swapped, .inr ⟨h.left, h.not_left⟩, .inr ⟨h.right, h.not_right⟩⟩

section

variable (hkey : ∀ a b, Swapped a b → key b < key a)
  (htrans : ∀ a b c, Swapped a b → Swapped b c → Swapped a c)

include hkey

theorem not_swapped_of_before (h : Before key Swapped a b) : ¬Swapped b a := by
  rcases h with hswapped | ⟨-, hnot⟩
  · exact fun h' => lt_asymm (hkey a b hswapped) (hkey b a h')
  · exact hnot

include htrans

/-- A swapped pair of a cycle is torn by the third one. -/
theorem torn_of_cycle (h : Swapped a b) (hbc : Before key Swapped b c)
    (hca : Before key Swapped c a) : Torn key Swapped a b c := by
  have hcb : ¬Swapped c b := not_swapped_of_before hkey hbc
  have hac : ¬Swapped a c := not_swapped_of_before hkey hca
  rcases hbc with hbc | ⟨hleft, -⟩
  · exact absurd (htrans a b c h hbc) hac
  rcases hca with hca | ⟨hright, -⟩
  · exact absurd (htrans c a b hca h) hcb
  exact ⟨h, hleft, hright, hcb, hac⟩

/-- The only cycles of three are those around a torn pair. -/
theorem before_cycle_iff :
    Before key Swapped a b ∧ Before key Swapped b c ∧ Before key Swapped c a ↔
      Torn key Swapped a b c ∨ Torn key Swapped b c a ∨ Torn key Swapped c a b := by
  constructor
  · rintro ⟨hab, hbc, hca⟩
    by_cases h : Swapped a b
    · exact .inl (torn_of_cycle hkey htrans h hbc hca)
    by_cases h' : Swapped b c
    · exact .inr (.inl (torn_of_cycle hkey htrans h' hca hab))
    by_cases h'' : Swapped c a
    · exact .inr (.inr (torn_of_cycle hkey htrans h'' hab hbc))
    · exact absurd (((hab.resolve_left h).1.trans (hbc.resolve_left h').1).trans
        (hca.resolve_left h'').1) (lt_irrefl _)
  · rintro (h | h | h)
    · exact h.cycle
    · exact ⟨h.cycle.2.2, h.cycle.1, h.cycle.2.1⟩
    · exact ⟨h.cycle.2.1, h.cycle.2.2, h.cycle.1⟩

end

end Swapped

/-! ## Stable sorts -/

section Stable

variable [LinearOrder κ] (key : α → κ)

/-- The order by a key, in which others may be equal. -/
def KeyLE (a b : α) : Prop := key a ≤ key b

instance : DecidableRel (KeyLE key) := fun a b => inferInstanceAs (Decidable (key a ≤ key b))

instance : IsTrans α (KeyLE key) := ⟨fun _ _ _ => le_trans⟩

instance : Std.Total (KeyLE key) := ⟨fun _ _ => le_total _ _⟩

/-- A stable sort by a key. -/
def sortByKey (l : List α) : List α := l.insertionSort (KeyLE key)

theorem sortByKey_perm (l : List α) : (sortByKey key l).Perm l := List.perm_insertionSort _ l

theorem pairwise_sortByKey (l : List α) : (sortByKey key l).Pairwise (KeyLE key) :=
  List.pairwise_insertionSort _ l

theorem sortByKey_of_pairwise {l : List α} (h : l.Pairwise (KeyLE key)) : sortByKey key l = l :=
  h.insertionSort_eq

/-- What has one key stays as it is. -/
theorem filter_sortByKey {p : α → Bool} (hp : ∀ a b, p a = true → p b = true → key a ≤ key b)
    (l : List α) : (sortByKey key l).filter p = l.filter p := by
  have hpairwise : (l.filter p).Pairwise (KeyLE key) :=
    List.pairwise_of_forall_mem_list fun a ha b hb =>
      hp a b (List.mem_filter.1 ha).2 (List.mem_filter.1 hb).2
  have hsublist : (l.filter p).Sublist (sortByKey key l) :=
    List.sublist_insertionSort hpairwise List.filter_sublist
  have hfilter : (l.filter p).Sublist ((sortByKey key l).filter p) := by
    have h := hsublist.filter p
    rwa [List.filter_eq_self.2 fun a ha => (List.mem_filter.1 ha).2] at h
  exact (hfilter.eq_of_length ((sortByKey_perm key l).filter p).length_eq.symm).symm

end Stable

end Sorting
