import Mathlib

/-!
# Lists by their first difference

Two lists of which neither is a prefix of the other differ at a first place, and the lexicographic
order is decided there (`DiffersAt.lt_iff`). `closed` is the order in which a list comes after
everything it is a prefix of, as a directory after its subdirectories: it differs from the
lexicographic one only there. A list between two others goes on after their common part with
something between what they go on with (`exists_between`).
-/

namespace FirstDifference

variable {α : Type*}

/-! ## The first difference -/

/-- `p` is the common part of `l` and `m`, which go on with `a` and with `b`. -/
structure DiffersAt (p : List α) (a b : α) (l m : List α) : Prop where
  left : p ++ [a] <+: l
  right : p ++ [b] <+: m
  ne : a ≠ b

theorem DiffersAt.symm {p : List α} {a b : α} {l m : List α} (h : DiffersAt p a b l m) :
    DiffersAt p b a m l := ⟨h.right, h.left, h.ne.symm⟩

theorem exists_differsAt {l m : List α} (hlm : ¬l <+: m) (hml : ¬m <+: l) :
    ∃ p a b, DiffersAt p a b l m := by
  induction l generalizing m with
  | nil => exact absurd List.nil_prefix hlm
  | cons c l ih =>
    cases m with
    | nil => exact absurd List.nil_prefix hml
    | cons d m =>
      by_cases hcd : c = d
      · subst hcd
        rw [List.prefix_cons_inj] at hlm hml
        obtain ⟨p, a, b, h⟩ := ih hlm hml
        exact ⟨c :: p, a, b, (List.prefix_cons_inj c).2 h.left, (List.prefix_cons_inj c).2 h.right,
          h.ne⟩
      · exact ⟨[], c, d, List.prefix_append [c] l, List.prefix_append [d] m, hcd⟩

/-- There is one first difference. -/
theorem DiffersAt.unique {p q : List α} {a b c d : α} {l m : List α} (h : DiffersAt p a b l m)
    (h' : DiffersAt q c d l m) : p = q ∧ a = c ∧ b = d := by
  induction p generalizing q l m with
  | nil =>
    obtain ⟨l', rfl⟩ := h.left
    obtain ⟨m', rfl⟩ := h.right
    cases q with
    | nil =>
      exact ⟨rfl, ((List.cons_prefix_cons.1 h'.left).1).symm,
        ((List.cons_prefix_cons.1 h'.right).1).symm⟩
    | cons e q =>
      exact absurd ((List.cons_prefix_cons.1 h'.left).1.symm.trans
        (List.cons_prefix_cons.1 h'.right).1) h.ne
  | cons e p ih =>
    obtain ⟨l', rfl⟩ := h.left
    obtain ⟨m', rfl⟩ := h.right
    cases q with
    | nil =>
      exact absurd ((List.cons_prefix_cons.1 h'.left).1.trans
        (List.cons_prefix_cons.1 h'.right).1.symm) h'.ne
    | cons e' q =>
      obtain ⟨rfl, hleft⟩ := List.cons_prefix_cons.1 h'.left
      obtain ⟨-, hright⟩ := List.cons_prefix_cons.1 h'.right
      obtain ⟨rfl, hends⟩ := ih ⟨List.prefix_append _ l', List.prefix_append _ m', h.ne⟩
        ⟨hleft, hright, h'.ne⟩
      exact ⟨rfl, hends⟩

theorem DiffersAt.not_isPrefix {p : List α} {a b : α} {l m : List α} (h : DiffersAt p a b l m) :
    ¬l <+: m := by
  intro hlm
  rcases List.prefix_or_prefix_of_prefix (h.left.trans hlm) h.right with hab | hba
  · exact h.ne (by simpa using hab.eq_of_length (by simp))
  · exact h.ne (by simpa using (hba.eq_of_length (by simp)).symm)

/-! ## Extensions first -/

/-- The list, closed by an element past all others. -/
def closed (l : List α) : List (WithTop α) := l.map (↑) ++ [⊤]

theorem closed_cons (a : α) (l : List α) : closed (a :: l) = ↑a :: closed l := rfl

theorem closed_append (p l : List α) : closed (p ++ l) = p.map (↑) ++ closed l := by
  unfold closed
  rw [List.map_append, List.append_assoc]

theorem DiffersAt.closed {p : List α} {a b : α} {l m : List α} (h : DiffersAt p a b l m) :
    DiffersAt (p.map (↑)) (a : WithTop α) ↑b (closed l) (closed m) := by
  obtain ⟨l', hl⟩ := h.left
  obtain ⟨m', hm⟩ := h.right
  refine ⟨⟨FirstDifference.closed l', ?_⟩, ⟨FirstDifference.closed m', ?_⟩,
    WithTop.coe_injective.ne h.ne⟩
  · rw [← hl, closed_append, List.map_append]; rfl
  · rw [← hm, closed_append, List.map_append]; rfl

/-! ## Orders -/

section Order

variable [LinearOrder α] {p l m n : List α} {a b : α}

theorem lt_of_isPrefix (hl : p ++ [a] <+: l) (hm : p ++ [b] <+: m) (h : a < b) : l < m := by
  obtain ⟨l', rfl⟩ := hl
  obtain ⟨m', rfl⟩ := hm
  rw [List.append_assoc, List.append_assoc]
  exact List.append_left_lt (List.cons_lt_cons_iff.2 (.inl h))

theorem DiffersAt.lt_iff (h : DiffersAt p a b l m) : l < m ↔ a < b := by
  refine ⟨fun hlm => ?_, lt_of_isPrefix h.left h.right⟩
  by_contra hab
  exact lt_asymm hlm (lt_of_isPrefix h.right h.left (lt_of_le_of_ne (not_lt.1 hab) h.ne.symm))

/-- What a list is a proper prefix of comes before it. -/
theorem closed_lt_of_isPrefix (h : l <+: m) (hne : l ≠ m) : closed m < closed l := by
  obtain ⟨m', rfl⟩ := h
  cases m' with
  | nil => exact absurd (List.append_nil l).symm hne
  | cons c m' =>
    have hnil : closed l = l.map (↑) ++ [⊤] := rfl
    rw [closed_append, closed_cons, hnil]
    exact List.append_left_lt (List.cons_lt_cons_iff.2 (.inl (WithTop.coe_lt_top c)))

theorem DiffersAt.closed_lt_iff (h : DiffersAt p a b l m) :
    FirstDifference.closed l < FirstDifference.closed m ↔ a < b :=
  h.closed.lt_iff.trans WithTop.coe_lt_coe

theorem cons_le_cons_iff {l m : List α} : a :: l ≤ b :: m ↔ a < b ∨ a = b ∧ l ≤ m := by
  rw [le_iff_lt_or_eq, List.cons_lt_cons_iff, List.cons_eq_cons, le_iff_lt_or_eq]
  tauto

/-- A list between two others goes on with something between what they go on with. -/
theorem exists_between (hl : p ++ [a] <+: l) (hm : p ++ [b] <+: m) (hln : closed l ≤ closed n)
    (hnm : closed n ≤ closed m) : ∃ c, p ++ [c] <+: n ∧ a ≤ c ∧ c ≤ b := by
  induction p generalizing l m n with
  | nil =>
    obtain ⟨l', rfl⟩ := hl
    obtain ⟨m', rfl⟩ := hm
    cases n with
    | nil =>
      have hlt : closed ([b] ++ m') < closed [] :=
        closed_lt_of_isPrefix List.nil_prefix (List.cons_ne_nil b m').symm
      exact absurd hnm (not_le.2 hlt)
    | cons c n =>
      refine ⟨c, List.prefix_append [c] n, ?_, ?_⟩
      · rcases cons_le_cons_iff.1 hln with hac | ⟨hac, -⟩
        · exact (WithTop.coe_lt_coe.1 hac).le
        · exact (WithTop.coe_injective hac).le
      · rcases cons_le_cons_iff.1 hnm with hcb | ⟨hcb, -⟩
        · exact (WithTop.coe_lt_coe.1 hcb).le
        · exact (WithTop.coe_injective hcb).le
  | cons d p ih =>
    obtain ⟨l', rfl⟩ := hl
    obtain ⟨m', rfl⟩ := hm
    cases n with
    | nil =>
      have hlt : closed (d :: p ++ [b] ++ m') < closed [] :=
        closed_lt_of_isPrefix List.nil_prefix (List.cons_ne_nil d _).symm
      exact absurd hnm (not_le.2 hlt)
    | cons c n =>
      -- both start with `d`, and so does what is between them
      rcases cons_le_cons_iff.1 hln with hdc | ⟨hdc, hln⟩
      · rcases cons_le_cons_iff.1 hnm with hcd | ⟨hcd, -⟩
        · exact absurd hdc (lt_asymm hcd)
        · exact absurd hcd hdc.ne'
      · rcases cons_le_cons_iff.1 hnm with hcd | ⟨-, hnm⟩
        · exact absurd hdc hcd.ne'
        · obtain ⟨x, hx, hends⟩ := ih (List.prefix_append _ l') (List.prefix_append _ m') hln hnm
          rw [WithTop.coe_injective hdc]
          exact ⟨x, (List.prefix_cons_inj c).2 hx, hends⟩

end Order

end FirstDifference
