import Mathlib

/-!
# Step tables

A table of rows in the order of their keys, looked up by the first key that is not below the value.
What holds of the row found can be said without the lookup: a property that later rows have with
earlier ones is asked of every row at or past the value (`lookup_upper_iff`), and one that earlier
rows have with later ones is asked of the row after each key below the value
(`lookup_lower_iff`).

A loop that overwrites its answer at every match finds the last one (`foldl_keepLast`).
-/

namespace StepTable

variable {ρ α : Type*} [LinearOrder α] (key : ρ → α)

/-- The first row whose key is not below `y`. -/
def lookup (rows : List ρ) (y : α) : Option ρ := rows.find? fun r => y ≤ key r

variable {key} {a r : ρ} {rows : List ρ} {y : α} {P : ρ → Prop}

theorem lookup_cons_of_le (h : y ≤ key a) : lookup key (a :: rows) y = some a :=
  List.find?_cons_of_pos (by simpa using h)

theorem lookup_cons_of_lt (h : key a < y) : lookup key (a :: rows) y = lookup key rows y :=
  List.find?_cons_of_neg (by simpa using h)

theorem mem_of_lookup (h : lookup key rows y = some r) : r ∈ rows := List.mem_of_find?_eq_some h

theorem exists_lookup (h : ∃ r ∈ rows, y ≤ key r) : ∃ r, lookup key rows y = some r := by
  obtain ⟨r, hr, hy⟩ := h
  exact Option.isSome_iff_exists.1 (List.find?_isSome.2 ⟨r, hr, by simpa using hy⟩)

/-- Past the value there is no condition on the next row. -/
theorem isChain_of_le (h : ∀ r ∈ rows, y ≤ key r) :
    rows.IsChain fun r r' => key r < y → P r' :=
  (List.pairwise_of_forall_mem_list fun r hr _ _ hlt =>
    absurd (h r hr) (not_le_of_gt hlt)).isChain

theorem lookup_upper_iff (hP : rows.Pairwise fun r r' => P r → P r')
    (h : lookup key rows y = some r) : P r ↔ ∀ q ∈ rows, y ≤ key q → P q := by
  induction rows with
  | nil => cases h
  | cons a rows ih =>
    obtain ⟨hhead, htail⟩ := List.pairwise_cons.1 hP
    rcases le_or_gt y (key a) with hle | hlt
    · rw [lookup_cons_of_le hle, Option.some_inj] at h
      subst h
      refine ⟨fun hp q hq _ => ?_, fun hall => hall _ List.mem_cons_self hle⟩
      rcases List.mem_cons.1 hq with rfl | hq
      · exact hp
      · exact hhead q hq hp
    · rw [lookup_cons_of_lt hlt] at h
      rw [ih htail h, List.forall_mem_cons]
      exact ⟨fun hall => ⟨fun hle => absurd hle (not_le_of_gt hlt), hall⟩, And.right⟩

theorem lookup_lower_iff (hkeys : (a :: rows).Pairwise fun r r' => key r ≤ key r')
    (hP : rows.Pairwise fun r r' => P r' → P r) (ha : key a < y)
    (h : lookup key rows y = some r) :
    P r ↔ (a :: rows).IsChain fun r r' => key r < y → P r' := by
  -- `a` is the last row whose key was below the value
  induction rows generalizing a with
  | nil => cases h
  | cons b rows ih =>
    obtain ⟨-, hkeys⟩ := List.pairwise_cons.1 hkeys
    obtain ⟨hhead, htail⟩ := List.pairwise_cons.1 hP
    rw [List.isChain_cons_cons]
    rcases le_or_gt y (key b) with hle | hlt
    · rw [lookup_cons_of_le hle, Option.some_inj] at h
      subst h
      have hpast : ∀ r ∈ b :: rows, y ≤ key r :=
        List.forall_mem_cons.2 ⟨hle, fun r hr => hle.trans (List.rel_of_pairwise_cons hkeys hr)⟩
      exact ⟨fun hp => ⟨fun _ => hp, isChain_of_le hpast⟩, fun hchain => hchain.1 ha⟩
    · rw [lookup_cons_of_lt hlt] at h
      rw [ih hkeys htail hlt h]
      refine ⟨fun hchain => ⟨fun _ => hhead r (mem_of_lookup h) ?_, hchain⟩, And.right⟩
      exact (ih hkeys htail hlt h).2 hchain

/-! ## The last match -/

theorem foldl_keepLast {ι β : Type*} [LinearOrder ι] {p : ι → Prop} [DecidablePred p] (g : ι → β)
    {l : List ι} (hl : l.Pairwise (· < ·)) (b : β) :
    (∀ i ∈ l, ¬p i) ∧ l.foldl (fun b i => if p i then g i else b) b = b ∨
    ∃ i ∈ l, p i ∧ (∀ j ∈ l, i < j → ¬p j) ∧
      l.foldl (fun b i => if p i then g i else b) b = g i := by
  induction l generalizing b with
  | nil => exact .inl ⟨by simp, rfl⟩
  | cons a l ih =>
    obtain ⟨hhead, htail⟩ := List.pairwise_cons.1 hl
    rw [List.foldl_cons]
    rcases ih htail (if p a then g a else b) with ⟨hnone, heq⟩ | ⟨i, hi, hp, hlast, heq⟩
    · rw [heq]
      by_cases ha : p a
      · refine .inr ⟨a, List.mem_cons_self, ha, fun j hj hlt => ?_, if_pos ha⟩
        rcases List.mem_cons.1 hj with rfl | hj
        · exact absurd hlt (lt_irrefl _)
        · exact hnone j hj
      · exact .inl ⟨List.forall_mem_cons.2 ⟨ha, hnone⟩, if_neg ha⟩
    · refine .inr ⟨i, List.mem_cons_of_mem a hi, hp, fun j hj hlt => ?_, heq⟩
      rcases List.mem_cons.1 hj with rfl | hj
      · exact absurd hlt (hhead i hi).not_gt
      · exact hlast j hj hlt

end StepTable
