import Mathlib.Logic.Function.Basic
import Mathlib.Data.List.Basic

/-!
# Conditional writes

A write to a store changes a key that is there, and adds one that is not there only if it may. After
a list of writes, a key that none of them names is as before (`writeAll_of_unwritten`); a key that
some name, all with one value, has that value or is not there (`writeAll_of_written`). In general it
has the value of the last one, if it was there or one of them may add it (`writeAll_apply`); so
writes to the same keys make earlier ones undone (`writeAll_writeAll`).
-/

/-- A write of a value to a key. -/
structure Override (κ ν : Type*) where
  key : κ
  value : ν
  add : Bool

namespace Override

variable {κ ν : Type*} [DecidableEq κ]

def write (w : Override κ ν) (store : κ → Option ν) : κ → Option ν :=
  if (store w.key).isSome ∨ w.add then Function.update store w.key (some w.value) else store

def writeAll (ws : List (Override κ ν)) (store : κ → Option ν) : κ → Option ν :=
  ws.foldl (fun store w => w.write store) store

theorem write_of_ne {w : Override κ ν} {k : κ} (h : w.key ≠ k) (store : κ → Option ν) :
    w.write store k = store k := by
  unfold write
  split_ifs
  · exact Function.update_of_ne h.symm _ _
  · rfl

theorem eq_of_write_self {w : Override κ ν} {store : κ → Option ν} {x : ν}
    (h : w.write store w.key = some x) : x = w.value := by
  unfold write at h
  split_ifs at h with hwritten
  · rw [Function.update_self] at h
    exact (Option.some.inj h).symm
  · exact absurd (.inl (h ▸ rfl)) hwritten

theorem writeAll_cons (w : Override κ ν) (ws : List (Override κ ν)) (store : κ → Option ν) :
    writeAll (w :: ws) store = writeAll ws (w.write store) := rfl

theorem writeAll_append (ws ws' : List (Override κ ν)) (store : κ → Option ν) :
    writeAll (ws ++ ws') store = writeAll ws' (writeAll ws store) := List.foldl_append

theorem writeAll_flatMap {α : Type*} (f : α → List (Override κ ν)) (as : List α)
    (store : κ → Option ν) :
    writeAll (as.flatMap f) store = as.foldl (fun store a => writeAll (f a) store) store := by
  induction as generalizing store with
  | nil => rfl
  | cons a as ih => rw [List.flatMap_cons, writeAll_append, ih, List.foldl_cons]

theorem writeAll_of_unwritten {ws : List (Override κ ν)} {k : κ} (h : ∀ w ∈ ws, w.key ≠ k)
    (store : κ → Option ν) : writeAll ws store k = store k := by
  induction ws generalizing store with
  | nil => rfl
  | cons w ws ih =>
    rw [writeAll_cons, ih fun w hw => h w (List.mem_cons_of_mem _ hw)]
    exact write_of_ne (h w List.mem_cons_self) store

/-- A key that has the value, if any, keeps it under writes of that value. -/
theorem writeAll_of_value {ws : List (Override κ ν)} {k : κ} {v : ν}
    (h : ∀ w ∈ ws, w.key = k → w.value = v) {store : κ → Option ν}
    (hstore : ∀ x, store k = some x → x = v) : ∀ x, writeAll ws store k = some x → x = v := by
  induction ws generalizing store with
  | nil => exact hstore
  | cons w ws ih =>
    rw [writeAll_cons]
    apply ih fun w hw => h w (List.mem_cons_of_mem _ hw)
    intro x hx
    by_cases hkey : w.key = k
    · rw [← hkey] at hx
      exact (eq_of_write_self hx).trans (h w List.mem_cons_self hkey)
    · rw [write_of_ne hkey] at hx
      exact hstore x hx

/-- A key that is written, with one value only, has that value or is not there. -/
theorem writeAll_of_written {ws : List (Override κ ν)} {k : κ} {v : ν}
    (h : ∀ w ∈ ws, w.key = k → w.value = v) (hwritten : ∃ w ∈ ws, w.key = k)
    (store : κ → Option ν) : ∀ x, writeAll ws store k = some x → x = v := by
  obtain ⟨w, hw, hkey⟩ := hwritten
  obtain ⟨before, after, rfl⟩ := List.append_of_mem hw
  rw [writeAll_append, writeAll_cons]
  apply writeAll_of_value fun w' hw' => h w' (by simp [hw'])
  intro x hx
  rw [← hkey] at hx
  exact (eq_of_write_self hx).trans (h w hw hkey)

/-! ## The last write -/

/-- The value of the last write to the key. -/
def lastValue : List (Override κ ν) → κ → Option ν
  | [], _ => none
  | w :: ws, k => (lastValue ws k).or (if w.key = k then some w.value else none)

/-- Some write may add the key. -/
def adds (ws : List (Override κ ν)) (k : κ) : Bool := ws.any fun w => decide (w.key = k) && w.add

theorem lastValue_append (ws ws' : List (Override κ ν)) (k : κ) :
    lastValue (ws ++ ws') k = (lastValue ws' k).or (lastValue ws k) := by
  induction ws with
  | nil => simp [lastValue]
  | cons w ws ih => rw [List.cons_append, lastValue, lastValue, ih, Option.or_assoc]

theorem adds_append (ws ws' : List (Override κ ν)) (k : κ) :
    adds (ws ++ ws') k = (adds ws k || adds ws' k) := List.any_append

theorem isSome_lastValue_iff {ws : List (Override κ ν)} {k : κ} :
    (lastValue ws k).isSome = true ↔ ∃ w ∈ ws, w.key = k := by
  induction ws with
  | nil => simp [lastValue]
  | cons w ws ih =>
    rw [lastValue, Option.isSome_or, Bool.or_eq_true, ih, List.exists_mem_cons_iff, or_comm]
    exact or_congr_left (by split_ifs with h <;> simp [h])

theorem isSome_lastValue_of_adds {ws : List (Override κ ν)} {k : κ} (h : adds ws k = true) :
    (lastValue ws k).isSome = true := by
  obtain ⟨w, hw, hadd⟩ := List.any_eq_true.1 h
  rw [Bool.and_eq_true, decide_eq_true_iff] at hadd
  exact isSome_lastValue_iff.2 ⟨w, hw, hadd.1⟩

/-- A key that was there, or that some write may add, has the value of the last write to it. -/
theorem writeAll_apply (ws : List (Override κ ν)) (store : κ → Option ν) (k : κ) :
    writeAll ws store k =
      if ((store k).isSome || adds ws k) = true then (lastValue ws k).or (store k) else none := by
  induction ws generalizing store with
  | nil =>
    show store k = _
    cases store k <;> rfl
  | cons w ws ih =>
    rw [writeAll_cons, ih, lastValue]
    by_cases hkey : w.key = k
    · subst hkey
      have hadds : adds (w :: ws) w.key = (w.add || adds ws w.key) := by simp [adds]
      rw [hadds, if_pos rfl]
      unfold write
      cases hstore : store w.key with
      | some x => simp
      | none =>
        cases hadd : w.add with
        | true => simp
        | false =>
          -- the write does nothing, and a later one adds the key or nothing does
          cases hlater : adds ws w.key with
          | false => simp [hstore]
          | true =>
            obtain ⟨y, hy⟩ := Option.isSome_iff_exists.1 (isSome_lastValue_of_adds hlater)
            simp [hstore, hy]
    · have hadds : adds (w :: ws) k = adds ws k := by simp [adds, hkey]
      rw [hadds, if_neg hkey, write_of_ne hkey, Option.or_none]

/-- Writes that name, and may add, what earlier ones do leave nothing of these. -/
theorem writeAll_writeAll {ws ws' : List (Override κ ν)}
    (hkeys : ∀ k, (lastValue ws k).isSome = true → (lastValue ws' k).isSome = true)
    (hadds : ∀ k, adds ws k = true → adds ws' k = true) (store : κ → Option ν) :
    writeAll ws' (writeAll ws store) = writeAll ws' store := by
  funext k
  rw [writeAll_apply ws', writeAll_apply ws, writeAll_apply ws']
  cases hlast : lastValue ws' k with
  | some x =>
    cases hadd : adds ws k with
    | true => simp [hadds k hadd, isSome_lastValue_of_adds hadd]
    | false => cases store k <;> simp
  | none =>
    have hnone : lastValue ws k = none := by
      have hk := mt (hkeys k)
      rw [hlast] at hk
      simpa using hk
    cases hadd : adds ws k with
    | true => exact absurd (isSome_lastValue_of_adds hadd) (by simp [hnone])
    | false => cases store k <;> simp [hnone]

end Override
