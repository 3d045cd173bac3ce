import Mathlib.Data.Set.Basic
import Mathlib.Data.List.Basic

/-!
# Replaying notices of membership

A set is followed from afar by notices: some members were added, some were removed. `replay`
applies notices in the order they arrive, and `Sound` says that no notice removes a member the
follower was not told of.

Two notices commute unless one adds what the other removes, so a notice may overtake those that it
does not contradict (`replay_overtake`, `sound_overtake`).
-/

/-- Members were added, or removed. -/
inductive Notice (κ : Type*)
  | added (members : List κ)
  | removed (members : List κ)

namespace Notice

variable {κ : Type*} {s t : Set κ} {m n : Notice κ} {pre post : List (Notice κ)} {x : κ}

def apply (s : Set κ) : Notice κ → Set κ
  | added members => {x | x ∈ s ∨ x ∈ members}
  | removed members => {x | x ∈ s ∧ x ∉ members}

/-- The set after the notices. -/
def replay (s : Set κ) (ns : List (Notice κ)) : Set κ := ns.foldl apply s

/-- The notice removes nothing that is not there. -/
def SoundAt (s : Set κ) : Notice κ → Prop
  | added _ => True
  | removed members => ∀ x ∈ members, x ∈ s

/-- Every notice is sound where it arrives. -/
def Sound (s : Set κ) : List (Notice κ) → Prop
  | [] => True
  | n :: ns => n.SoundAt s ∧ Sound (apply s n) ns

/-- Neither notice adds what the other removes. -/
def Agree : Notice κ → Notice κ → Prop
  | added l, removed l' => ∀ x ∈ l', x ∉ l
  | removed l, added l' => ∀ x ∈ l', x ∉ l
  | _, _ => True

instance [DecidableEq κ] : (m n : Notice κ) → Decidable (m.Agree n)
  | added _, removed _ | removed _, added _ => inferInstanceAs (Decidable (∀ x ∈ _, x ∉ _))
  | added _, added _ | removed _, removed _ => isTrue trivial

/-! ## One notice -/

@[simp] theorem mem_apply_added {l : List κ} : x ∈ apply s (added l) ↔ x ∈ s ∨ x ∈ l := Iff.rfl

@[simp] theorem mem_apply_removed {l : List κ} : x ∈ apply s (removed l) ↔ x ∈ s ∧ x ∉ l := Iff.rfl

/-- Where two sets agree, they agree after a notice. -/
theorem mem_apply_congr (h : x ∈ s ↔ x ∈ t) : x ∈ apply s n ↔ x ∈ apply t n := by
  cases n with
  | added l => rw [mem_apply_added, mem_apply_added, h]
  | removed l => rw [mem_apply_removed, mem_apply_removed, h]

theorem soundAt_congr (h : ∀ x, x ∈ s ↔ x ∈ t) : n.SoundAt s ↔ n.SoundAt t := by
  cases n with
  | added l => exact Iff.rfl
  | removed l => exact forall₂_congr fun x _ => h x

theorem apply_comm (h : m.Agree n) : apply (apply s m) n = apply (apply s n) m := by
  ext x
  cases m with
  | added l =>
    cases n with
    | added l' => exact or_right_comm
    | removed l' =>
      constructor
      · rintro ⟨hx | hx, hnot⟩
        · exact .inl ⟨hx, hnot⟩
        · exact .inr hx
      · rintro (⟨hx, hnot⟩ | hx)
        · exact ⟨.inl hx, hnot⟩
        · exact ⟨.inr hx, fun hremoved => h x hremoved hx⟩
  | removed l =>
    cases n with
    | added l' =>
      constructor
      · rintro (⟨hx, hnot⟩ | hx)
        · exact ⟨.inl hx, hnot⟩
        · exact ⟨.inr hx, h x hx⟩
      · rintro ⟨hx | hx, hnot⟩
        · exact .inl ⟨hx, hnot⟩
        · exact .inr hx
    | removed l' => exact and_right_comm

/-- What is sound in this order is sound in the other. -/
theorem soundAt_swap (h : m.Agree n) (hm : m.SoundAt s) (hn : n.SoundAt (apply s m)) :
    n.SoundAt s ∧ m.SoundAt (apply s n) := by
  cases m with
  | added l =>
    cases n with
    | added l' => exact ⟨trivial, trivial⟩
    | removed l' => exact ⟨fun x hx => (hn x hx).resolve_right (h x hx), trivial⟩
  | removed l =>
    cases n with
    | added l' => exact ⟨trivial, fun x hx => .inl (hm x hx)⟩
    | removed l' => exact ⟨fun x hx => (hn x hx).1, fun x hx => ⟨hm x hx, fun hx' => (hn x hx').2 hx⟩⟩

/-! ## Sequences of notices -/

theorem replay_append (xs ys : List (Notice κ)) :
    replay s (xs ++ ys) = replay (replay s xs) ys :=
  List.foldl_append

theorem sound_append {xs ys : List (Notice κ)} :
    Sound s (xs ++ ys) ↔ Sound s xs ∧ Sound (replay s xs) ys := by
  induction xs generalizing s with
  | nil => exact ⟨fun h => ⟨trivial, h⟩, fun h => h.2⟩
  | cons n xs ih =>
    show _ ∧ Sound _ (xs ++ ys) ↔ (_ ∧ Sound _ xs) ∧ Sound (replay (apply s n) xs) ys
    rw [ih, and_assoc]

/-- A notice may overtake notices that it agrees with. -/
theorem replay_overtake (h : ∀ m ∈ pre, m.Agree n) :
    replay s (pre ++ n :: post) = replay s (n :: pre ++ post) := by
  induction pre generalizing s with
  | nil => rfl
  | cons m pre ih =>
    have hm : m.Agree n := h m List.mem_cons_self
    calc replay s (m :: pre ++ n :: post)
        = replay (apply s m) (n :: pre ++ post) := ih fun k hk => h k (List.mem_cons_of_mem _ hk)
      _ = replay (apply (apply s m) n) (pre ++ post) := rfl
      _ = replay (apply (apply s n) m) (pre ++ post) := by rw [apply_comm hm]

/-- Overtaking notices that it agrees with keeps the sequence sound. -/
theorem sound_overtake (h : ∀ m ∈ pre, m.Agree n) (hs : Sound s (pre ++ n :: post)) :
    Sound s (n :: pre ++ post) := by
  induction pre generalizing s with
  | nil => exact hs
  | cons m pre ih =>
    have hm : m.Agree n := h m List.mem_cons_self
    obtain ⟨hms, hrest⟩ := hs
    obtain ⟨hns, hrest⟩ := ih (fun k hk => h k (List.mem_cons_of_mem _ hk)) hrest
    obtain ⟨hns', hms'⟩ := soundAt_swap hm hms hns
    refine ⟨hns', hms', ?_⟩
    rw [← apply_comm hm]
    exact hrest

end Notice
