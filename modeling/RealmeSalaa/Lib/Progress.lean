import RealmeSalaa.Lib.GuardedSystem

/-!
# Counted runs

How often the actions of one kind are taken on the way from one state to another. A rank that these
actions lower and no other action raises bounds their number (`Counts.add_rank_le`); if they lower
it by exactly one and the others keep it, it is their number (`Counts.add_rank_eq`). Together with
an action of the kind that can be taken wherever the rank is not zero, this is termination.
-/

namespace GuardedSystem

variable {σ α : Type*} {M : GuardedSystem σ α} {R : σ → α → Prop} {K : α → Prop} {s₀ s : σ} {n : ℕ}

/-- `s` is reached from `s₀` by actions that meet `R`, of which `n` are of the kind `K`. -/
inductive Counts (M : GuardedSystem σ α) (R : σ → α → Prop) (K : α → Prop) (s₀ : σ) : ℕ → σ → Prop
  | refl : Counts M R K s₀ 0 s₀
  | own {n : ℕ} {s : σ} {a : α} :
    Counts M R K s₀ n s → M.guard s a → R s a → K a → Counts M R K s₀ (n + 1) (M.next s a)
  | other {n : ℕ} {s : σ} {a : α} :
    Counts M R K s₀ n s → M.guard s a → R s a → ¬K a → Counts M R K s₀ n (M.next s a)

theorem Counts.reach (h : M.Counts R K s₀ n s) : M.Reach R s₀ s := by
  induction h with
  | refl => exact .refl
  | own _ hg hr _ ih => exact .step ih hg hr
  | other _ hg hr _ ih => exact .step ih hg hr

theorem Counts.trans {m : ℕ} {s' : σ} (h₁ : M.Counts R K s₀ n s) (h₂ : M.Counts R K s m s') :
    M.Counts R K s₀ (n + m) s' := by
  induction h₂ with
  | refl => exact h₁
  | own _ hg hr hk ih => exact .own ih hg hr hk
  | other _ hg hr hk ih => exact .other ih hg hr hk

/-- A concrete run, counted. -/
theorem counts_exec (K : α → Prop) [DecidablePred K] (as : List α) (h : M.Legal R s as) :
    M.Counts R K s (as.countP fun a => K a) (M.exec s as) := by
  induction as generalizing s with
  | nil => exact .refl
  | cons a as ih =>
    obtain ⟨hg, hr, hrest⟩ := h
    by_cases hk : K a
    · have hcount : (a :: as).countP (fun a => K a) = 0 + 1 + as.countP (fun a => K a) := by
        simp [hk, Nat.add_comm]
      rw [hcount]
      exact Counts.trans (.own .refl hg hr hk) (ih hrest)
    · have hcount : (a :: as).countP (fun a => K a) = 0 + as.countP (fun a => K a) := by
        simp [hk]
      rw [hcount]
      exact Counts.trans (.other .refl hg hr hk) (ih hrest)

section Rank

variable {I : σ → Prop} {rank : σ → ℕ} (h₀ : I s₀)
  (hI : ∀ s a, I s → M.guard s a → R s a → I (M.next s a))

include h₀ hI

/-- A rank that the kind lowers and nothing raises bounds how often the kind is taken. -/
theorem Counts.add_rank_le
    (hown : ∀ s a, I s → M.guard s a → R s a → K a → rank (M.next s a) < rank s)
    (hother : ∀ s a, I s → M.guard s a → R s a → ¬K a → rank (M.next s a) ≤ rank s)
    (h : M.Counts R K s₀ n s) : I s ∧ n + rank s ≤ rank s₀ := by
  induction h with
  | refl => exact ⟨h₀, by omega⟩
  | own _ hg hr hk ih =>
    have hlt := hown _ _ ih.1 hg hr hk
    exact ⟨hI _ _ ih.1 hg hr, by omega⟩
  | other _ hg hr hk ih =>
    have hle := hother _ _ ih.1 hg hr hk
    exact ⟨hI _ _ ih.1 hg hr, by omega⟩

/-- A rank that the kind lowers by one and nothing else changes counts the kind. -/
theorem Counts.add_rank_eq
    (hown : ∀ s a, I s → M.guard s a → R s a → K a → rank (M.next s a) + 1 = rank s)
    (hother : ∀ s a, I s → M.guard s a → R s a → ¬K a → rank (M.next s a) = rank s)
    (h : M.Counts R K s₀ n s) : I s ∧ n + rank s = rank s₀ := by
  induction h with
  | refl => exact ⟨h₀, by omega⟩
  | own _ hg hr hk ih =>
    have heq := hown _ _ ih.1 hg hr hk
    exact ⟨hI _ _ ih.1 hg hr, by omega⟩
  | other _ hg hr hk ih =>
    have heq := hother _ _ ih.1 hg hr hk
    exact ⟨hI _ _ ih.1 hg hr, by omega⟩

end Rank

end GuardedSystem
