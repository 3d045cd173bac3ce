import Mathlib.Logic.Basic
import Mathlib.Data.List.Basic

/-!
# Guarded transition systems

A system over states `σ` and actions `α`. An action may be taken where its guard holds, and then
has one next state: what the environment chooses is data of the action. `Reach M P s₀ s` says
that `s` is reached from `s₀` by actions that, besides their guards, meet the run condition `P`;
a statement about every run takes `P` to be true, one about some runs names its `P`.

`Reach.invariant` is the induction rule, `Reach.simulate` the forward simulation rule, and
`reach_exec` turns a concrete list of actions into a run.
-/

/-- A transition system whose actions have a guard and one next state. -/
structure GuardedSystem (σ α : Type*) where
  guard : σ → α → Prop
  next : σ → α → σ

namespace GuardedSystem

variable {σ α τ β : Type*} {M : GuardedSystem σ α} {P : σ → α → Prop} {s₀ s : σ}

/-! ## Runs -/

/-- The states reached from `s₀` by actions that meet `P`. -/
inductive Reach (M : GuardedSystem σ α) (P : σ → α → Prop) (s₀ : σ) : σ → Prop
  | refl : Reach M P s₀ s₀
  | step {s : σ} {a : α} : Reach M P s₀ s → M.guard s a → P s a → Reach M P s₀ (M.next s a)

theorem Reach.trans {s₁ : σ} (h₁ : M.Reach P s₀ s₁) (h₂ : M.Reach P s₁ s) : M.Reach P s₀ s := by
  induction h₂ with
  | refl => exact h₁
  | step _ hg hp ih => exact .step ih hg hp

/-- What holds initially and is kept by every allowed step holds in every reached state. -/
theorem Reach.invariant {I : σ → Prop} (h₀ : I s₀)
    (hstep : ∀ s a, I s → M.guard s a → P s a → I (M.next s a)) (h : M.Reach P s₀ s) : I s := by
  induction h with
  | refl => exact h₀
  | step _ hg hp ih => exact hstep _ _ ih hg hp

/-- A map under which each allowed step, taken where `I` holds, is a run of `A`, carries runs
to runs. -/
theorem Reach.simulate {A : GuardedSystem τ β} {R : τ → β → Prop} (f : σ → τ) {I : σ → Prop}
    (hI : ∀ s, M.Reach P s₀ s → I s)
    (hstep : ∀ s a, I s → M.guard s a → P s a → A.Reach R (f s) (f (M.next s a)))
    (h : M.Reach P s₀ s) : A.Reach R (f s₀) (f s) := by
  induction h with
  | refl => exact .refl
  | step h hg hp ih => exact ih.trans (hstep _ _ (hI _ h) hg hp)

/-! ## Records of runs -/

/-- The system together with a record that every action adds to. -/
def record {η : Type*} (M : GuardedSystem σ α) (note : η → σ → α → η) :
    GuardedSystem (σ × η) α where
  guard s a := M.guard s.1 a
  next s a := (M.next s.1 a, note s.2 s.1 a)

instance record.decidableGuard {η : Type*} (M : GuardedSystem σ α) (note : η → σ → α → η)
    [∀ s a, Decidable (M.guard s a)] (s : σ × η) (a : α) : Decidable ((M.record note).guard s a) :=
  inferInstanceAs (Decidable (M.guard s.1 a))

/-! ## Concrete runs -/

/-- The state after a list of actions. -/
def exec (M : GuardedSystem σ α) (s : σ) (as : List α) : σ := as.foldl M.next s

/-- Every action of the list is allowed where it is taken. -/
def Legal (M : GuardedSystem σ α) (P : σ → α → Prop) : σ → List α → Prop
  | _, [] => True
  | s, a :: as => M.guard s a ∧ P s a ∧ M.Legal P (M.next s a) as

instance Legal.decidable (M : GuardedSystem σ α) (P : σ → α → Prop)
    [∀ s a, Decidable (M.guard s a)] [∀ s a, Decidable (P s a)] :
    ∀ (s : σ) (as : List α), Decidable (M.Legal P s as)
  | _, [] => inferInstanceAs (Decidable True)
  | s, a :: as =>
    have := Legal.decidable M P (M.next s a) as
    inferInstanceAs (Decidable (M.guard s a ∧ P s a ∧ M.Legal P (M.next s a) as))

theorem reach_exec {as : List α} (h : M.Legal P s as) : M.Reach P s (M.exec s as) := by
  induction as generalizing s with
  | nil => exact .refl
  | cons a as ih =>
    obtain ⟨hg, hp, hrest⟩ := h
    exact Reach.trans (.step .refl hg hp) (ih hrest)

end GuardedSystem
