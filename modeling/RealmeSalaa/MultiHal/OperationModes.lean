import RealmeSalaa.MultiHal.Types

/-!
# Operation modes

`setOperationMode` switches the sub-HALs one after the other and stops at the first that refuses;
the ones before it are switched back. The two loops are about the same prefix of the list: after
the first one the sub-HALs below `subHalIndex` have been switched and the rest is untouched
(`switchSubHals_eq`), and the second one goes over exactly these (`resetSubHals_eq`).

The sub-HALs are libraries outside the repository. Here they are any states with a mode, and a
call with an answer.
-/

namespace RealmeSalaa.MultiHal

variable {H : Type}

/-! ## Sub-HALs -/

/-- What `ISensorsSubHal::setOperationMode` answers and makes of a sub-HAL, and the mode it is in. -/
structure ModeInterface (H : Type) where
  setOperationMode : H → OperationMode → Result × H
  mode : H → OperationMode

/-- A sub-HAL that answers `OK` is in the new mode and can go back to the one before, any other
keeps its mode. -/
structure ModeInterface.Reliable (M : ModeInterface H) : Prop where
  switched : ∀ h mode, (M.setOperationMode h mode).1 = .OK →
    M.mode (M.setOperationMode h mode).2 = mode
  kept : ∀ h mode, (M.setOperationMode h mode).1 ≠ .OK →
    M.mode (M.setOperationMode h mode).2 = M.mode h
  back : ∀ h mode, (M.setOperationMode h mode).1 = .OK →
    (M.setOperationMode (M.setOperationMode h mode).2 (M.mode h)).1 = .OK

/-- The proxy's mode, the sub-HALs, and the calls made to them with their indices. -/
structure OperationModes (H : Type) where
  mCurrentOperationMode : OperationMode
  subHals : List H
  calls : List (ℕ × OperationMode)

namespace OperationModes

variable (M : ModeInterface H)

/-! ## The two loops -/

/-- `mSubHalList[i]->setOperationMode(mode)` -/
def callSubHal (i : ℕ) (mode : OperationMode) (s : OperationModes H) : Result × OperationModes H :=
  match s.subHals[i]? with
  | some h =>
    let answer := M.setOperationMode h mode
    (answer.1, { s with subHals := s.subHals.set i answer.2, calls := s.calls ++ [(i, mode)] })
  | none => (.OK, s)

/-- The loop that switches, over the `n` sub-HALs from `subHalIndex` on: the latest result and the
index where the loop stops. -/
def switchSubHals (mode : OperationMode) :
    ℕ → ℕ → Result → OperationModes H → Result × ℕ × OperationModes H
  | 0, subHalIndex, result, s => (result, subHalIndex, s)
  | n + 1, subHalIndex, _, s =>
    let called := callSubHal M subHalIndex mode s
    if called.1 ≠ .OK then (called.1, subHalIndex, called.2)
    else switchSubHals mode n (subHalIndex + 1) called.1 called.2

/-- The loop that switches back, over the `n` sub-HALs from `i` on. -/
def resetSubHals (mode : OperationMode) : ℕ → ℕ → OperationModes H → OperationModes H
  | 0, _, s => s
  | n + 1, i, s => resetSubHals mode n (i + 1) (callSubHal M i mode s).2

def setOperationMode (mode : OperationMode) (s : OperationModes H) : Result × OperationModes H :=
  let switched := switchSubHals M mode s.subHals.length 0 .OK s
  if switched.1 ≠ .OK then
    (switched.1, resetSubHals M s.mCurrentOperationMode switched.2.1 0 switched.2.2)
  else (switched.1, { switched.2.2 with mCurrentOperationMode := mode })

/-! ## What the loops do -/

/-- The sub-HAL after a call, and its answer. -/
def after (mode : OperationMode) (h : H) : H := (M.setOperationMode h mode).2

def answer (mode : OperationMode) (h : H) : Result := (M.setOperationMode h mode).1

theorem callSubHal_append (mode : OperationMode) (current : OperationMode) (done rest : List H)
    (h : H) (calls : List (ℕ × OperationMode)) :
    callSubHal M done.length mode ⟨current, done ++ h :: rest, calls⟩ =
      (answer M mode h,
        ⟨current, done ++ after M mode h :: rest, calls ++ [(done.length, mode)]⟩) := by
  unfold callSubHal
  have hget : (done ++ h :: rest)[done.length]? = some h := by simp
  simp only [hget, List.set_append_right _ _ (le_refl _), Nat.sub_self, List.set_cons_zero]
  rfl

/-- The first loop stops at the first sub-HAL of `rest` that refuses, or after all of them. -/
theorem switchSubHals_eq (mode current : OperationMode) (rest done : List H)
    (calls : List (ℕ × OperationMode)) (result : Result) :
    (∃ agreed h left, rest = agreed ++ h :: left ∧ (∀ x ∈ agreed, answer M mode x = .OK) ∧
      answer M mode h ≠ .OK ∧
      switchSubHals M mode rest.length done.length result ⟨current, done ++ rest, calls⟩ =
        (answer M mode h, done.length + agreed.length,
          ⟨current, done ++ agreed.map (after M mode) ++ after M mode h :: left,
            calls ++ (List.range' done.length (agreed.length + 1)).map (·, mode)⟩)) ∨
    ((∀ x ∈ rest, answer M mode x = .OK) ∧
      switchSubHals M mode rest.length done.length result ⟨current, done ++ rest, calls⟩ =
        (if rest = [] then result else .OK, done.length + rest.length,
          ⟨current, done ++ rest.map (after M mode),
            calls ++ (List.range' done.length rest.length).map (·, mode)⟩)) := by
  induction rest generalizing done calls result with
  | nil => exact .inr ⟨by simp, by simp [switchSubHals]⟩
  | cons h rest ih =>
    rw [List.length_cons, switchSubHals, callSubHal_append]
    by_cases hok : answer M mode h = .OK
    · have hdone : done ++ after M mode h :: rest = (done ++ [after M mode h]) ++ rest := by simp
      have hlen : done.length + 1 = (done ++ [after M mode h]).length := by simp
      simp only [hok, ne_eq, not_true, if_false]
      rw [hdone, hlen]
      rcases ih (done ++ [after M mode h]) (calls ++ [(done.length, mode)]) .OK with
        ⟨agreed, x, left, rfl, hagreed, hx, heq⟩ | ⟨hagreed, heq⟩
      · refine .inl ⟨h :: agreed, x, left, rfl, ?_, hx, ?_⟩
        · exact List.forall_mem_cons.2 ⟨hok, hagreed⟩
        · rw [heq]
          simp [List.range'_succ, Nat.add_assoc, Nat.add_comm 1]
      · refine .inr ⟨List.forall_mem_cons.2 ⟨hok, hagreed⟩, ?_⟩
        rw [heq]
        simp [List.range'_succ, Nat.add_assoc, Nat.add_comm 1]
    · refine .inl ⟨[], h, rest, rfl, by simp, hok, ?_⟩
      simp [hok]

/-- The second loop calls every sub-HAL of `back`, and no other. -/
theorem resetSubHals_eq (mode current : OperationMode) (back done rest : List H)
    (calls : List (ℕ × OperationMode)) :
    resetSubHals M mode back.length done.length ⟨current, done ++ back ++ rest, calls⟩ =
      ⟨current, done ++ back.map (after M mode) ++ rest,
        calls ++ (List.range' done.length back.length).map (·, mode)⟩ := by
  induction back generalizing done calls with
  | nil => simp [resetSubHals]
  | cons h back ih =>
    have hdone : done ++ after M mode h :: (back ++ rest) =
        (done ++ [after M mode h]) ++ back ++ rest := by simp
    have hlen : done.length + 1 = (done ++ [after M mode h]).length := by simp
    rw [List.length_cons, resetSubHals, List.append_assoc, List.cons_append, callSubHal_append,
      hdone, hlen, ih]
    simp [List.range'_succ]

/-- Either the sub-HALs before the first that refuses were called twice and that one once, or
every sub-HAL agreed and was called once. -/
theorem setOperationMode_eq (mode current : OperationMode) (subHals : List H) :
    (∃ agreed h left, subHals = agreed ++ h :: left ∧ (∀ x ∈ agreed, answer M mode x = .OK) ∧
      answer M mode h ≠ .OK ∧
      setOperationMode M mode ⟨current, subHals, []⟩ =
        (answer M mode h,
          ⟨current, (agreed.map (after M mode)).map (after M current) ++ after M mode h :: left,
            (List.range' 0 (agreed.length + 1)).map (·, mode) ++
              (List.range' 0 agreed.length).map (·, current)⟩)) ∨
    ((∀ x ∈ subHals, answer M mode x = .OK) ∧
      setOperationMode M mode ⟨current, subHals, []⟩ =
        (.OK, ⟨mode, subHals.map (after M mode),
          (List.range' 0 subHals.length).map (·, mode)⟩)) := by
  rcases switchSubHals_eq M mode current subHals [] [] .OK with
    ⟨agreed, h, left, rfl, hagreed, hrefused, heq⟩ | ⟨hagreed, heq⟩
  · simp only [List.length_nil, List.nil_append, Nat.zero_add] at heq
    have hback := resetSubHals_eq M current current (agreed.map (after M mode)) []
      (after M mode h :: left) ((List.range' 0 (agreed.length + 1)).map (·, mode))
    simp only [List.length_nil, List.nil_append, List.length_map] at hback
    refine .inl ⟨agreed, h, left, rfl, hagreed, hrefused, ?_⟩
    unfold setOperationMode
    dsimp only
    rw [heq]
    dsimp only
    rw [if_pos hrefused, hback]
  · simp only [List.length_nil, List.nil_append, Nat.zero_add, ite_self] at heq
    refine .inr ⟨hagreed, ?_⟩
    unfold setOperationMode
    dsimp only
    rw [heq]
    rfl

/-! ## All or nothing -/

/-- The calls of both loops are to sub-HALs up to the one that refuses. -/
theorem le_of_mem_range' {i n : ℕ} {mode : OperationMode} {c : ℕ × OperationMode}
    (hc : c ∈ (List.range' 0 n).map (·, mode)) (hn : n ≤ i + 1) : c.1 ≤ i := by
  obtain ⟨k, hk, rfl⟩ := List.mem_map.1 hc
  have hlt := (List.mem_range'_1.1 hk).2
  show k ≤ i
  omega

/-- A sub-HAL that agreed to a mode is back in its own after the second call. -/
theorem mode_after_after (hM : M.Reliable) {mode current : OperationMode} {h : H}
    (hmode : M.mode h = current) (hagreed : answer M mode h = .OK) :
    M.mode (after M current (after M mode h)) = current := by
  have hback := hM.back h mode hagreed
  rw [hmode] at hback
  exact hM.switched _ current hback

/-- **Operation modes.** With all sub-HALs in the proxy's mode, an `OK` puts them and the proxy in
the new mode. Otherwise they and the proxy are in the old mode, the result is that of the first
sub-HAL that refuses, and no later one was called. -/
theorem setOperationMode_allOrNothing (hM : M.Reliable) {current mode : OperationMode}
    {subHals : List H} (hmode : ∀ h ∈ subHals, M.mode h = current) :
    let out := setOperationMode M mode ⟨current, subHals, []⟩
    out.2.subHals.length = subHals.length ∧
    (out.1 = .OK →
      (∀ h ∈ out.2.subHals, M.mode h = mode) ∧ out.2.mCurrentOperationMode = mode) ∧
    (out.1 ≠ .OK →
      (∀ h ∈ out.2.subHals, M.mode h = current) ∧ out.2.mCurrentOperationMode = current ∧
      ∃ i h, subHals[i]? = some h ∧ (∀ x ∈ subHals.take i, answer M mode x = .OK) ∧
        answer M mode h ≠ .OK ∧ out.1 = answer M mode h ∧ ∀ c ∈ out.2.calls, c.1 ≤ i) := by
  intro out
  rcases setOperationMode_eq M mode current subHals with
    ⟨agreed, h, left, rfl, hagreed, hrefused, hout⟩ | ⟨hagreed, hout⟩
  · rw [show out = _ from hout]
    refine ⟨by simp, fun hok => absurd hok hrefused, fun _ => ⟨fun x hx => ?_, rfl, ?_⟩⟩
    · rcases List.mem_append.1 hx with hx | hx
      · rw [List.map_map] at hx
        obtain ⟨y, hy, rfl⟩ := List.mem_map.1 hx
        exact mode_after_after M hM (hmode y (List.mem_append_left _ hy)) (hagreed y hy)
      · -- the sub-HAL that refused kept its mode, the rest was never called
        rcases List.mem_cons.1 hx with rfl | hx
        · rw [after, hM.kept h mode hrefused]
          exact hmode h (by simp)
        · exact hmode x (by simp [hx])
    · refine ⟨agreed.length, h, by simp, by simpa using hagreed, hrefused, rfl, fun c hc => ?_⟩
      rcases List.mem_append.1 hc with hc | hc
      · exact le_of_mem_range' hc (le_refl _)
      · exact le_of_mem_range' hc (Nat.le_succ _)
  · rw [show out = _ from hout]
    refine ⟨by simp, fun _ => ⟨fun x hx => ?_, rfl⟩, fun hne => absurd rfl hne⟩
    obtain ⟨y, hy, rfl⟩ := List.mem_map.1 hx
    exact hM.switched y mode (hagreed y hy)

/-- Sub-HALs that know their mode, and whether they refuse to leave it. -/
def sampleModes : ModeInterface (OperationMode × Bool) where
  setOperationMode h mode :=
    if h.2 ∧ mode ≠ h.1 then (.INVALID_OPERATION, h) else (.OK, (mode, h.2))
  mode h := h.1

theorem reliable_sampleModes : sampleModes.Reliable := by
  constructor <;> rintro ⟨old, stuck⟩ mode <;> cases old <;> cases stuck <;> cases mode <;>
    simp [sampleModes]

theorem setOperationMode_allOrNothing_sample :
    let subHals := [(OperationMode.NORMAL, false), (.NORMAL, true), (.NORMAL, false)]
    let out := setOperationMode sampleModes .DATA_INJECTION ⟨.NORMAL, subHals, []⟩
    out.1 = .INVALID_OPERATION ∧ (∀ h ∈ out.2.subHals, h.1 = .NORMAL) ∧
      out.2.calls.length = 3 := by
  intro subHals out
  obtain ⟨-, -, hrefused⟩ := setOperationMode_allOrNothing sampleModes reliable_sampleModes
    (fun h (hh : h ∈ subHals) => (by revert h; decide : sampleModes.mode h = .NORMAL))
  exact ⟨rfl, (hrefused (by decide)).1, rfl⟩

end OperationModes

end RealmeSalaa.MultiHal
