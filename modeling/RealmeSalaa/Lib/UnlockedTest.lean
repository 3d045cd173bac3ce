import RealmeSalaa.Lib.GuardedSystem
import Mathlib.Data.Finset.Insert
import Mathlib.Data.Finset.Filter

/-!
# Tests outside the mutex

Some actions begin with the test of a flag, and take a mutex only for what follows. As one step they
test and act at once. In `UnlockedTest.system` a thread may also make its test as a step of its own;
other threads may take steps before the rest of its action, and clear the flag, and the rest then
runs as if it were still set (`UnlockedTest.rest`).

While the flag is set the rest is the action itself (`rest_eq_next`). So every run of the system is
one with separate tests (`reach_of_reach`), and what the actions of the system keep holds in all of
these as soon as a rest with the flag cleared keeps it too (`invariant`).
-/

namespace GuardedSystem

variable {σ α ι : Type*}

/-- Thread `i` makes its test ahead of its action, or an action is taken. -/
inductive TestingAction (ι α : Type*)
  | test (i : ι)
  | act (a : α)

/-- `passed` are the threads past their test, and not yet past their action. -/
structure TestingState (σ ι : Type*) where
  state : σ
  passed : Finset ι

/-- A flag that threads test before they take a mutex. -/
structure UnlockedTest (M : GuardedSystem σ α) (ι : Type*) where
  flag : σ → Bool
  setFlag : Bool → σ → σ
  isOf : ι → α → Bool
  /-- the action begins with the test -/
  begins : α → Bool
  /-- the rest of the action tests the flag once more -/
  again : α → Bool
  /-- the thread comes to its test -/
  atTest : σ → ι → Bool
  /-- past its test, the thread holds a mutex that the step waits for -/
  blocks : σ → ι → TestingAction ι α → Bool
  setFlag_flag : ∀ s, setFlag (flag s) s = s
  flag_next : ∀ s i a, isOf i a = true → flag (M.next s a) = flag s

namespace UnlockedTest

section Steps

variable {M : GuardedSystem σ α} (U : UnlockedTest M ι) (x : TestingState σ ι) (a : α)

/-- The test of the action was made before. -/
def Late : Prop := ∃ i ∈ x.passed, U.isOf i a = true

instance : Decidable (U.Late x a) :=
  inferInstanceAs (Decidable (∃ i ∈ x.passed, U.isOf i a = true))

/-- The state as the action finds it: past its test, the flag counts as set. -/
def seen : σ := if U.Late x a then U.setFlag true x.state else x.state

/-- What is left of the action after its test. -/
def rest (s : σ) : σ :=
  if U.again a then M.next s a else U.setFlag (U.flag s) (M.next (U.setFlag true s) a)

def guard : TestingAction ι α → Prop
  | .test i => U.atTest x.state i ∧ U.flag x.state ∧ i ∉ x.passed ∧
      ∀ j ∈ x.passed, U.blocks x.state j (.test i) = false
  | .act a => M.guard (U.seen x a) a ∧ ∀ j ∈ x.passed,
      if U.isOf j a then U.begins a = true else U.blocks (U.seen x a) j (.act a) = false

def next (U : UnlockedTest M ι) [DecidableEq ι] (x : TestingState σ ι) :
    TestingAction ι α → TestingState σ ι
  | .test i => ⟨x.state, insert i x.passed⟩
  | .act a =>
    ⟨if U.Late x a then U.rest a x.state else M.next x.state a,
      x.passed.filter fun i => U.isOf i a = false⟩

end Steps

variable {M : GuardedSystem σ α} {U : UnlockedTest M ι} {x x₀ : TestingState σ ι} {a : α}

/-! ## A test made before, and the flag still set -/

theorem seen_of_not_late (h : ¬U.Late x a) : U.seen x a = x.state := if_neg h

theorem seen_of_late (h : U.Late x a) : U.seen x a = U.setFlag true x.state := if_pos h

theorem setFlag_true {s : σ} (h : U.flag s = true) : U.setFlag true s = s := by
  rw [← h]
  exact U.setFlag_flag s

theorem rest_eq_next {s : σ} {i : ι} (hof : U.isOf i a = true) (h : U.flag s = true) :
    U.rest a s = M.next s a := by
  unfold rest
  split
  · rfl
  · rw [setFlag_true h, ← U.flag_next s i a hof, U.setFlag_flag]

/-- A thread past its test takes the action that begins with it. -/
theorem begins_of_late (h : U.Late x a) (hg : U.guard x (.act a)) : U.begins a = true := by
  obtain ⟨i, hi, hof⟩ := h
  have hbegins := hg.2 i hi
  rwa [if_pos hof] at hbegins

/-! ## Runs -/

variable [DecidableEq ι] {Q : TestingState σ ι → TestingAction ι α → Prop}

/-- The system with separate tests. -/
def system (U : UnlockedTest M ι) : GuardedSystem (TestingState σ ι) (TestingAction ι α) :=
  ⟨fun x => U.guard x, fun x => U.next x⟩

instance [∀ s a, Decidable (M.guard s a)] :
    (b : TestingAction ι α) → Decidable (U.system.guard x b)
  | .test _ => inferInstanceAs (Decidable (_ ∧ _ ∧ _ ∧ ∀ j ∈ x.passed, _))
  | .act a => inferInstanceAs (Decidable (_ ∧ ∀ j ∈ x.passed,
      if U.isOf j a then U.begins a = true else U.blocks (U.seen x a) j (.act a) = false))

theorem state_next_of_not_late (h : ¬U.Late x a) :
    (U.system.next x (.act a)).state = M.next x.state a := if_neg h

theorem state_next_of_late (h : U.Late x a) :
    (U.system.next x (.act a)).state = U.rest a x.state := if_pos h

/-- What the actions of the system keep, and the rest of an action whose test was made before the
flag was cleared. -/
theorem invariant {I : σ → Prop} (h₀ : I x₀.state)
    (hstep : ∀ (x : TestingState σ ι) a, I x.state → U.seen x a = x.state →
      M.guard x.state a → Q x (.act a) → I (M.next x.state a))
    (hrest : ∀ (x : TestingState σ ι) a, I x.state → U.flag x.state = false → U.Late x a →
      U.begins a = true → M.guard (U.setFlag true x.state) a → Q x (.act a) →
      I (U.rest a x.state))
    (h : U.system.Reach Q x₀ x) : I x.state := by
  refine h.invariant (I := fun x => I x.state) h₀ fun x b hx hg hq => ?_
  cases b with
  | test i => exact hx
  | act a =>
    have hguard : M.guard (U.seen x a) a := hg.1
    by_cases hlate : U.Late x a
    · rw [state_next_of_late hlate]
      cases hflag : U.flag x.state with
      | true =>
        have hseen : U.seen x a = x.state := (seen_of_late hlate).trans (setFlag_true hflag)
        obtain ⟨i, -, hof⟩ := hlate
        rw [rest_eq_next hof hflag]
        exact hstep x a hx hseen (hseen ▸ hguard) hq
      | false =>
        rw [seen_of_late hlate] at hguard
        exact hrest x a hx hflag hlate (begins_of_late hlate hg) hguard hq
    · have hseen : U.seen x a = x.state := seen_of_not_late hlate
      rw [state_next_of_not_late hlate]
      exact hstep x a hx hseen (hseen ▸ hguard) hq

/-- A run of the system is one in which each test comes with its action. -/
theorem reach_of_reach {R : σ → α → Prop} {s₀ s : σ} (hq : ∀ s a, R s a → Q ⟨s, ∅⟩ (.act a))
    (h : M.Reach R s₀ s) : U.system.Reach Q ⟨s₀, ∅⟩ ⟨s, ∅⟩ := by
  induction h with
  | refl => exact .refl
  | @step s a _ hg hr ih =>
    have hlate : ¬U.Late ⟨s, ∅⟩ a := fun ⟨_, hmem, _⟩ => absurd hmem (Finset.notMem_empty _)
    have hguard : U.system.guard ⟨s, ∅⟩ (.act a) :=
      ⟨by rwa [seen_of_not_late hlate], fun j hj => absurd hj (Finset.notMem_empty j)⟩
    have hnext : U.system.next ⟨s, ∅⟩ (.act a) = ⟨M.next s a, ∅⟩ := by
      show TestingState.mk (if U.Late ⟨s, ∅⟩ a then U.rest a s else M.next s a) _ = _
      rw [if_neg hlate, Finset.filter_empty]
    rw [← hnext]
    exact .step ih hguard (hq s a hr)

end UnlockedTest

end GuardedSystem
