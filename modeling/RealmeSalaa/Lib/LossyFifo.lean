import Mathlib.Data.List.Perm.Basic
import Mathlib.Data.List.Perm.Lattice
import RealmeSalaa.Lib.GuardedSystem

/-!
# A first-in first-out channel that may lose items

Items are posted in batches. Of a batch, a first part may pass straight to the receiver, but only
while nothing waits; a second part joins the waiting items; the rest is refused. The longest
waiting items are then delivered, or given up, a few at a time. The lists record everything that
ever happened to an item.

`Accounted` is what such a channel promises: what was delivered, followed by what waits, is in
the order of posting, and every posted item is delivered, waiting, given up or refused, once.
-/

/-- The history of a channel. -/
@[ext] structure LossyFifo (α : Type*) where
  posted : List α
  delivered : List α
  waiting : List α
  failed : List α
  refused : List α

namespace LossyFifo

open scoped List

variable {α : Type*}

/-- The channel before anything was posted. -/
def empty : LossyFifo α := ⟨[], [], [], [], []⟩

/-- What can happen to a channel. -/
inductive Op (α : Type*)
  /-- a batch is posted: `passed` goes straight through, `kept` waits, `refused` is lost -/
  | post (passed kept refused : List α)
  /-- the first `n` waiting items are delivered -/
  | deliver (n : ℕ)
  /-- the first `n` waiting items are given up -/
  | drop (n : ℕ)

/-- Only a channel in which nothing waits lets items pass. -/
def guard (c : LossyFifo α) : Op α → Prop
  | .post passed _ _ => passed ≠ [] → c.waiting = []
  | .deliver _ => True
  | .drop _ => True

def next (c : LossyFifo α) : Op α → LossyFifo α
  | .post passed kept refused =>
    { c with
      posted := c.posted ++ (passed ++ kept ++ refused)
      delivered := c.delivered ++ passed
      waiting := c.waiting ++ kept
      refused := c.refused ++ refused }
  | .deliver n =>
    { c with delivered := c.delivered ++ c.waiting.take n, waiting := c.waiting.drop n }
  | .drop n =>
    { c with failed := c.failed ++ c.waiting.take n, waiting := c.waiting.drop n }

/-- The channel as a transition system. -/
def system (α : Type*) : GuardedSystem (LossyFifo α) (Op α) := ⟨guard, next⟩

/-- An allowed operation is a run of one step. -/
theorem reach_next {c : LossyFifo α} {op : Op α} (h : c.guard op) :
    (system α).Reach (fun _ _ => True) c (c.next op) :=
  .step .refl h trivial

/-- Order is kept, and every posted item is accounted for once. -/
structure Accounted (c : LossyFifo α) : Prop where
  inOrder : c.delivered ++ c.waiting <+ c.posted
  perm : c.posted ~ c.delivered ++ c.waiting ++ c.failed ++ c.refused

theorem accounted_empty : (empty : LossyFifo α).Accounted :=
  ⟨List.Sublist.refl _, List.Perm.refl _⟩

/-- Appending a passed part and a kept part keeps the order: the passed part is empty unless
nothing waits. -/
theorem delivered_append_waiting {c : LossyFifo α} {passed : List α} (kept : List α)
    (h : passed ≠ [] → c.waiting = []) :
    c.delivered ++ passed ++ (c.waiting ++ kept) = c.delivered ++ c.waiting ++ (passed ++ kept) := by
  by_cases hp : passed = []
  · simp [hp]
  · simp [h hp]

theorem accounted_post {c : LossyFifo α} (hc : c.Accounted) {passed kept refused : List α}
    (h : passed ≠ [] → c.waiting = []) : (c.next (.post passed kept refused)).Accounted where
  inOrder := by
    show c.delivered ++ passed ++ (c.waiting ++ kept) <+ c.posted ++ (passed ++ kept ++ refused)
    rw [delivered_append_waiting kept h]
    exact hc.inOrder.append (List.sublist_append_left _ _)
  perm := by
    show c.posted ++ (passed ++ kept ++ refused) ~
      c.delivered ++ passed ++ (c.waiting ++ kept) ++ c.failed ++ (c.refused ++ refused)
    rw [delivered_append_waiting kept h]
    refine (hc.perm.append_right _).trans ?_
    simp only [List.append_assoc]
    refine ((?_ : List.Perm _ _).append_left _).append_left _
    -- `failed ++ refused` moves across the accepted part of the batch
    calc c.failed ++ (c.refused ++ (passed ++ (kept ++ refused)))
        = (c.failed ++ c.refused) ++ (passed ++ kept) ++ refused := by simp
      _ ~ (passed ++ kept) ++ (c.failed ++ c.refused) ++ refused :=
          List.perm_append_comm.append_right _
      _ = passed ++ (kept ++ (c.failed ++ (c.refused ++ refused))) := by simp

theorem accounted_deliver {c : LossyFifo α} (hc : c.Accounted) (n : ℕ) :
    (c.next (.deliver n)).Accounted := by
  have hsplit : c.delivered ++ c.waiting.take n ++ c.waiting.drop n = c.delivered ++ c.waiting := by
    rw [List.append_assoc, List.take_append_drop]
  constructor
  · show c.delivered ++ c.waiting.take n ++ c.waiting.drop n <+ c.posted
    rw [hsplit]; exact hc.inOrder
  · show c.posted ~ c.delivered ++ c.waiting.take n ++ c.waiting.drop n ++ c.failed ++ c.refused
    rw [hsplit]; exact hc.perm

theorem accounted_drop {c : LossyFifo α} (hc : c.Accounted) (n : ℕ) :
    (c.next (.drop n)).Accounted where
  inOrder := ((List.drop_sublist n _).append_left _).trans hc.inOrder
  perm := by
    show c.posted ~ c.delivered ++ c.waiting.drop n ++ (c.failed ++ c.waiting.take n) ++ c.refused
    refine hc.perm.trans (List.Perm.append_right _ ?_)
    simp only [List.append_assoc]
    refine List.Perm.append_left _ ?_
    calc c.waiting ++ c.failed
        = c.waiting.take n ++ (c.waiting.drop n ++ c.failed) := by
          rw [← List.append_assoc, List.take_append_drop]
      _ ~ (c.waiting.drop n ++ c.failed) ++ c.waiting.take n := List.perm_append_comm
      _ = c.waiting.drop n ++ (c.failed ++ c.waiting.take n) := by rw [List.append_assoc]

/-- Every channel that starts empty keeps its promise. -/
theorem accounted_of_reach {P : LossyFifo α → Op α → Prop} {c : LossyFifo α}
    (h : (system α).Reach P empty c) : c.Accounted := by
  refine h.invariant accounted_empty fun c op hc hg _ => ?_
  cases op with
  | post passed kept refused => exact accounted_post hc hg
  | deliver n => exact accounted_deliver hc n
  | drop n => exact accounted_drop hc n

end LossyFifo
