import Mathlib.Data.List.Basic

/-!
# Waiting on a condition variable

A thread of the shape

    lock; while (run) { cv.wait(lock, work || !run); if (run) body; }

by the point of its loop. `work` changes under the mutex only; `run` is stored and the condition
variable notified without it. The thread reads both, and between reading and going to sleep it holds
the mutex. So whoever gives it work finds it asleep, and wakes it, or will be seen
(`Consistent`). Whoever only stores `run` and notifies may find it in between (`Point.parking`), and
then it sleeps on: `isAsleep_notify` says that this is the only such point.
-/

namespace ConditionVariable

/-- The points of the loop, outside its body. -/
inductive Point
  /-- before the first lock -/
  | starting
  /-- before the test of the loop -/
  | loopTest
  /-- in the wait, before the predicate is evaluated -/
  | predicate
  /-- the predicate was false, and the thread is not asleep yet -/
  | parking
  | parked
  /-- woken, before the mutex is taken again -/
  | woken
  /-- the predicate was true, before the second test of `run` -/
  | tested
  deriving DecidableEq, Repr

namespace Point

def holdsMutex : Point → Bool
  | .loopTest | .predicate | .parking | .tested => true
  | _ => false

/-- The thread does not look at the predicate again before it is woken. -/
def isAsleep : Point → Bool
  | .parking | .parked => true
  | _ => false

/-- What a notification does: it wakes a thread that is parked already. -/
def notify : Point → Point
  | .parked => .woken
  | p => p

/-- The next point; `ready` is the value of the predicate. -/
def next (ready : Bool) : Point → Point
  | .starting => .loopTest
  | .loopTest => .predicate
  | .predicate => if ready then .tested else .parking
  | .parking => .parked
  | .parked => .parked
  | .woken => .predicate
  | .tested => .loopTest

/-- The thread goes on to the next point on its own, and neither into the body of the loop nor out
of it. -/
def waits (run : Bool) : Point → Bool
  | .parked => false
  | .loopTest => run
  | .tested => !run
  | _ => true

/-- How many points are left before the test of the loop ends it, for a thread that is not asleep
while `run` is false. -/
def rank : Point → ℕ
  | .starting => 1
  | .loopTest => 0
  | .predicate => 2
  | .woken => 3
  | .tested => 1
  | .parking | .parked => 0

/-- How many points are left before the body of the loop or sleep, while `run` is true. -/
def left : Point → ℕ
  | .starting => 4
  | .loopTest => 3
  | .predicate => 2
  | .woken => 3
  | .tested => 1
  | .parking => 1
  | .parked => 0

/-- While `run` is true each point is one less to go. -/
theorem left_next (ready : Bool) {p : Point} (hwaits : p.waits true = true) :
    (p.next ready).left + 1 = p.left := by
  cases p <;> cases ready <;> simp_all [next, left, waits]

/-- While `run` is true the thread goes on, sleeps, or is about to execute the body. -/
theorem waits_or (p : Point) : p.waits true = true ∨ p = .parked ∨ p = .tested := by
  cases p <;> simp [waits]

theorem rank_le (p : Point) : p.rank ≤ 3 := by
  cases p <;> simp [rank]

/-- A thread that holds the mutex is not parked. -/
theorem notify_eq_self_of_held {p : Point} (h : p.holdsMutex = true) : p.notify = p := by
  cases p <;> simp_all [notify, holdsMutex]

/-- With the mutex, the way to the end of the loop is not much longer than that to the body. -/
theorem rank_le_left {p : Point} (h : p.holdsMutex = true) : p.rank + 1 ≤ p.left + 3 := by
  cases p <;> simp_all [rank, left, holdsMutex]

/-- A notification is lost just on a thread that is about to go to sleep. -/
theorem isAsleep_notify (p : Point) : p.notify.isAsleep = true ↔ p = .parking := by
  cases p <;> simp [notify, isAsleep]

theorem isAsleep_notify_of_free {p : Point} (h : p.holdsMutex = false) :
    p.notify.isAsleep = false := by
  cases p <;> simp_all [notify, isAsleep, holdsMutex]

theorem notify_ne_tested {p : Point} (h : p.holdsMutex = false) : p.notify ≠ .tested := by
  cases p <;> simp_all [notify, holdsMutex]

theorem notify_eq_self {p : Point} (h : p.isAsleep = false) : p.notify = p := by
  cases p <;> simp_all [notify, isAsleep]

/-- With the predicate true a thread that is awake stays awake. -/
theorem isAsleep_next {p : Point} (h : p.isAsleep = false) : (p.next true).isAsleep = false := by
  cases p <;> simp_all [next, isAsleep]

/-- Asleep, a thread stays asleep. -/
theorem isAsleep_next_of_asleep (ready : Bool) {p : Point} (h : p.isAsleep = true) :
    (p.next ready).isAsleep = true := by
  cases p <;> simp_all [next, isAsleep]

/-- A thread that is awake comes closer to the end of the loop. -/
theorem rank_next {p : Point} (h : p.isAsleep = false) (hwaits : p.waits false = true) :
    (p.next true).rank < p.rank := by
  cases p <;> simp_all [next, rank, isAsleep, waits]

/-- Awake, it goes on, unless the test of the loop ends it. -/
theorem waits_of_awake {p : Point} (h : p.isAsleep = false) :
    p.waits false = true ∨ p = .loopTest := by
  cases p <;> simp_all [waits, isAsleep]

end Point

/-- What a thread knows at a point: asleep, there is no work for it; past the predicate, there is
work unless the loop is to end. -/
structure Consistent (work run : Bool) (p : Point) : Prop where
  asleep : p.isAsleep = true → work = false
  tested : p = .tested → work = true ∨ run = false

namespace Consistent

variable {work run work' run' : Bool} {p : Point}

theorem starting : Consistent work run .starting :=
  ⟨fun h => absurd h Bool.false_ne_true, fun h => by cases h⟩

theorem loopTest : Consistent work run .loopTest :=
  ⟨fun h => absurd h Bool.false_ne_true, fun h => by cases h⟩

/-- The thread goes on. -/
theorem next (h : Consistent work run p) : Consistent work run (p.next (work || !run)) := by
  obtain ⟨hasleep, -⟩ := h
  cases p <;> cases work <;> cases run <;>
    exact ⟨by simp_all [Point.next, Point.isAsleep], by simp [Point.next]⟩

/-- Woken for no reason, it looks again. -/
theorem woken : Consistent work run .woken :=
  ⟨fun h => absurd h Bool.false_ne_true, fun h => by cases h⟩

/-- A notification under the mutex is not lost. -/
theorem notify (h : p.holdsMutex = false) : Consistent work run p.notify :=
  ⟨fun hasleep => absurd (hasleep.symm.trans (Point.isAsleep_notify_of_free h)) Bool.noConfusion,
    fun htested => absurd htested (Point.notify_ne_tested h)⟩

/-- A notification without the mutex does no harm. -/
theorem notify_any (h : Consistent work run p) : Consistent work run p.notify := by
  by_cases hp : p = .parked
  · rw [hp]
    exact woken
  · have hsame : p.notify = p := by cases p <;> simp_all [Point.notify]
    rwa [hsame]

/-- Under the mutex, work may be taken away. -/
theorem less (h : Consistent work run p) (hfree : p.holdsMutex = false)
    (hwork : work' = true → work = true) : Consistent work' run' p := by
  refine ⟨fun hasleep => ?_, fun htested => ?_⟩
  · have hnone := h.asleep hasleep
    cases work' with
    | false => rfl
    | true => exact absurd ((hwork rfl).symm.trans hnone) Bool.noConfusion
  · rw [htested] at hfree
    cases hfree

/-- `run` may be cleared at any time. -/
theorem stop (h : Consistent work run p) : Consistent work false p := ⟨h.asleep, fun _ => .inr rfl⟩

end Consistent

end ConditionVariable
