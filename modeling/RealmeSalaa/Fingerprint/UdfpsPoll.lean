import RealmeSalaa.Lib.Scanf
import RealmeSalaa.Lib.SinglePrecision

/-!
# The fingerprint sensor

`udfps_poll` waits until a line of `fp_state` says that a finger is down. The bytes that
`udfps_read_state` reads have no NUL after them, so `sscanf` goes on into whatever the stack holds
there, unless it stops before (`udfps_read_state_settled`). The event carries its coordinates as
floats, so that a number of more than 24 significant bits is rounded. An event comes from the bytes
of one read alone, and carries its numbers, if the poll meets only settled reads and the event is
not rounded, and only then (`udfps_poll_iff`).
-/

namespace RealmeSalaa.Fingerprint

open Scanf Scanner SinglePrecision

/-- The bytes of the stack from `buf` on: the buffer and what lies behind it. -/
abbrev Stack := { bytes : List UInt8 // 64 ≤ bytes.length }

/-- How the calls of `udfps_read_line` go. -/
inductive Reading
  | seekFailed
  | readFailed
  | copied (content : List UInt8)

/-- A return of `poll`. -/
inductive Wakeup
  /-- `EINTR` -/
  | interrupted
  | failed (errno : ℤ)
  | timedOut
  | ready (reading : Reading)

/-- What `udfps_poll` returns: a negative code, or 1 and an event; `x` and `y` are the values of the
floats `data[0]` and `data[1]`. -/
inductive Returned
  | error (rc : ℤ)
  | event (x y : ℤ)
  deriving DecidableEq

/-! ## Reading and polling -/

/-- The return value and the buffer. -/
def udfps_read_line (buf : List UInt8) (len : ℕ) : Reading → ℤ × List UInt8
  | .seekFailed => (-1, buf)
  | .readFailed => (-1, buf)
  | .copied content =>
    ((content.take len).length, content.take len ++ buf.drop (content.take len).length)

/-- `"%d,%d,%d"` -/
def fp_format : List Directive := commas 2

/-- The coordinates, and the state that is returned. -/
def udfps_read_state (buf : Stack) (reading : Reading) (pos : ℤ × ℤ) : (ℤ × ℤ) × ℤ :=
  let (rc, buf) := udfps_read_line buf.1 64 reading
  if rc > 0 then
    let numbers := sscanf fp_format buf
    ((numbers.getD 0 pos.1, numbers.getD 1 pos.2),
      if numbers.length = 3 then numbers.getD 2 0 else 0)
  else (pos, 0)

/-- One more wake-up before the return. -/
def later (r : Option (ℕ × Returned)) : Option (ℕ × Returned) := r.map fun r => (r.1 + 1, r.2)

/-- The loop of `udfps_poll`, with the stack as each wake-up finds it: the wake-up after which it
returns, and what. Without a result it still waits after the last wake-up. -/
def udfps_poll (stack : ℕ → Stack) (pos : ℤ × ℤ) : List Wakeup → Option (ℕ × Returned)
  | [] => none
  | .interrupted :: wakeups => later (udfps_poll (fun n => stack (n + 1)) pos wakeups)
  | .failed errno :: _ => some (0, .error (-errno))
  | .timedOut :: wakeups => later (udfps_poll (fun n => stack (n + 1)) pos wakeups)
  | .ready reading :: wakeups =>
    let (pos, fod_state) := udfps_read_state (stack 0) reading pos
    if fod_state = 0 then later (udfps_poll (fun n => stack (n + 1)) pos wakeups)
    else some (0, .event (ofInt pos.1) (ofInt pos.2))

/-! ## The bytes of a read -/

/-- The bytes that are copied. -/
def Reading.bytes : Reading → List UInt8
  | .seekFailed => []
  | .readFailed => []
  | .copied content => content.take 64

/-- The bytes are three numbers between commas, of which the third is not 0. -/
def SpellsEvent (bytes : List UInt8) (x y : ℤ) : Prop :=
  ∃ state, state ≠ 0 ∧ sscanf fp_format bytes = [x, y, state]

/-- Nothing was copied, or an event, or bytes within which the scan ends. -/
def Settled (bytes : List UInt8) : Prop :=
  bytes = [] ∨ (∃ x y, SpellsEvent bytes x y) ∨ EndsWithin fp_format bytes

/-- Every read is settled, up to a failure of `poll` or one that is an event, and the coordinates of
that event are values of floats. -/
def AllSettled : List Wakeup → Prop
  | [] => True
  | .interrupted :: wakeups => AllSettled wakeups
  | .failed _ :: _ => True
  | .timedOut :: wakeups => AllSettled wakeups
  | .ready reading :: wakeups =>
    Settled reading.bytes ∧
      (∀ x y, SpellsEvent reading.bytes x y → Representable x ∧ Representable y) ∧
      ((¬∃ x y, SpellsEvent reading.bytes x y) → AllSettled wakeups)

theorem SpellsEvent.unique {bytes : List UInt8} {x y x' y' : ℤ} (h : SpellsEvent bytes x y)
    (h' : SpellsEvent bytes x' y') : x = x' ∧ y = y' := by
  obtain ⟨state, -, heq⟩ := h
  obtain ⟨state', -, heq'⟩ := h'
  rw [heq] at heq'
  cases heq'
  exact ⟨rfl, rfl⟩

theorem SpellsEvent.ne_nil {bytes : List UInt8} {x y : ℤ} (h : SpellsEvent bytes x y) :
    bytes ≠ [] := by
  rintro rfl
  obtain ⟨state, -, hscan⟩ := h
  cases hscan

/-- Bytes after an event may lengthen its last number, which stays other than 0. -/
theorem SpellsEvent.append {bytes : List UInt8} {x y : ℤ} (h : SpellsEvent bytes x y)
    (more : List UInt8) : SpellsEvent (bytes ++ more) x y := by
  by_cases hends : EndsWithin fp_format bytes
  · rwa [SpellsEvent, sscanf_append hends]
  obtain ⟨state, hstate, hscan⟩ := h
  unfold sscanf at hscan
  obtain ⟨negative, n, hs⟩ := (among_run (n := 2) bytes).complete (congrArg List.length hscan)
  change (run step (initial fp_format) bytes).1 = _ at hs
  rw [hs] at hscan
  change _ ++ [value negative n] = [x, y] ++ [state] at hscan
  obtain ⟨hnumbers, hvalue⟩ := List.append_inj' hscan rfl
  have hn : n ≠ 0 := ne_zero_of_value (List.singleton_injective hvalue ▸ hstate)
  obtain ⟨m, hm, hlast⟩ := run_last hn [x, y] more
  refine ⟨value negative m, value_ne_zero hm, ?_⟩
  rw [sscanf, run_append_of_all hends, hs, hnumbers, hlast]
  rfl

/-- What follows settled bytes does not matter. -/
theorem spellsEvent_append_iff {bytes : List UInt8} (h : Settled bytes) (hne : bytes ≠ [])
    (more : List UInt8) (x y : ℤ) : SpellsEvent (bytes ++ more) x y ↔ SpellsEvent bytes x y := by
  refine ⟨fun hmore => ?_, fun hown => hown.append more⟩
  rcases h with hnil | ⟨x', y', hown⟩ | hends
  · exact absurd hnil hne
  · obtain ⟨rfl, rfl⟩ := hmore.unique (hown.append more)
    exact hown
  · rwa [SpellsEvent, sscanf_append hends] at hmore

/-- Bytes that are not settled can be followed by bytes that make an event of them. -/
theorem exists_event_of_not_settled {bytes : List UInt8} (h : ¬Settled bytes) :
    ∃ more x y, ∀ pad, SpellsEvent (bytes ++ (more ++ 0 :: pad)) x y := by
  have hends : ¬EndsWithin fp_format bytes := fun hends => h (.inr (.inr hends))
  obtain ⟨k, hformat, hcount⟩ := among_run (n := 2) bytes
  obtain ⟨more, numbers, negative, n, hlength, hn, hrun⟩ :=
    exists_completion (k := k) (run step (initial fp_format) bytes).1.field
      (run step (initial fp_format) bytes).1.numbers
  rw [← hformat] at hrun
  obtain ⟨x, y, rfl⟩ := List.length_eq_two.1 (hlength.trans hcount)
  refine ⟨more, x, y, fun pad => ⟨value negative n, value_ne_zero hn, ?_⟩⟩
  have hall : ¬Stops step (run step (initial fp_format) bytes).1 more := by
    intro hstops
    exact hstops (congrArg Prod.snd hrun)
  change run step (run step (initial fp_format) bytes).1 more = _ at hrun
  rw [sscanf, run_append_of_all hends, run_append_of_all hall, hrun, run_cons_none rfl]
  rfl

/-! ## One read -/

/-- The text that `sscanf` finds: the bytes of the read and what the stack holds behind them. -/
def scanned (buf : Stack) (bytes : List UInt8) : List UInt8 := bytes ++ buf.1.drop bytes.length

theorem udfps_read_state_nil (buf : Stack) {reading : Reading} (h : reading.bytes = [])
    (pos : ℤ × ℤ) : udfps_read_state buf reading pos = (pos, 0) := by
  cases reading with
  | seekFailed => rfl
  | readFailed => rfl
  | copied content =>
    have hlength : ¬((content.take 64).length : ℤ) > 0 := by
      rw [show content.take 64 = [] from h]
      exact lt_irrefl 0
    exact if_neg hlength

theorem udfps_read_state_cons (buf : Stack) {reading : Reading} (h : reading.bytes ≠ [])
    (pos : ℤ × ℤ) :
    let numbers := sscanf fp_format (scanned buf reading.bytes)
    udfps_read_state buf reading pos = ((numbers.getD 0 pos.1, numbers.getD 1 pos.2),
      if numbers.length = 3 then numbers.getD 2 0 else 0) := by
  cases reading with
  | seekFailed => exact absurd rfl h
  | readFailed => exact absurd rfl h
  | copied content =>
    have hlength : ((content.take 64).length : ℤ) > 0 := by
      have := List.length_pos_of_ne_nil h
      exact_mod_cast this
    exact if_pos hlength

/-- A read gives the coordinates of an event in the text, or the state 0. -/
theorem udfps_read_state_cases (buf : Stack) {reading : Reading} (h : reading.bytes ≠ [])
    (pos : ℤ × ℤ) :
    (∃ x y state, SpellsEvent (scanned buf reading.bytes) x y ∧ state ≠ 0 ∧
      udfps_read_state buf reading pos = ((x, y), state)) ∨
    (¬∃ x y, SpellsEvent (scanned buf reading.bytes) x y) ∧
      (udfps_read_state buf reading pos).2 = 0 := by
  have hread := udfps_read_state_cons buf h pos
  by_cases hevent : ∃ x y, SpellsEvent (scanned buf reading.bytes) x y
  · obtain ⟨x, y, state, hstate, hscan⟩ := hevent
    rw [hscan] at hread
    exact .inl ⟨x, y, state, ⟨state, hstate, hscan⟩, hstate, hread⟩
  · refine .inr ⟨hevent, ?_⟩
    rw [hread]
    by_cases hthree : (sscanf fp_format (scanned buf reading.bytes)).length = 3
    · obtain ⟨x, y, state, hscan⟩ := List.length_eq_three.1 hthree
      rw [hscan]
      by_contra hstate
      exact hevent ⟨x, y, state, hstate, hscan⟩
    · exact if_neg hthree

/-- A settled read gives the coordinates of its own event, or the state 0. -/
theorem udfps_read_state_settled (buf : Stack) {reading : Reading} (h : Settled reading.bytes)
    (pos : ℤ × ℤ) :
    (∃ x y state, SpellsEvent reading.bytes x y ∧ state ≠ 0 ∧
      udfps_read_state buf reading pos = ((x, y), state)) ∨
    (¬∃ x y, SpellsEvent reading.bytes x y) ∧ (udfps_read_state buf reading pos).2 = 0 := by
  by_cases hnil : reading.bytes = []
  · rw [udfps_read_state_nil buf hnil]
    exact .inr ⟨fun ⟨_, _, hown⟩ => hown.ne_nil hnil, rfl⟩
  · have hcases := udfps_read_state_cases buf hnil pos
    simp only [scanned, spellsEvent_append_iff h hnil] at hcases
    exact hcases

/-! ## The poll -/

theorem udfps_poll_ready_event {stack : ℕ → Stack} {reading : Reading} {pos : ℤ × ℤ} {x y state : ℤ}
    (h : udfps_read_state (stack 0) reading pos = ((x, y), state)) (hstate : state ≠ 0)
    (wakeups : List Wakeup) :
    udfps_poll stack pos (.ready reading :: wakeups) = some (0, .event (ofInt x) (ofInt y)) := by
  rw [udfps_poll, h]
  exact if_neg hstate

theorem udfps_poll_ready_later {stack : ℕ → Stack} {reading : Reading} {pos : ℤ × ℤ}
    (h : (udfps_read_state (stack 0) reading pos).2 = 0) (wakeups : List Wakeup) :
    udfps_poll stack pos (.ready reading :: wakeups) =
      later (udfps_poll (fun n => stack (n + 1)) (udfps_read_state (stack 0) reading pos).1
        wakeups) := by
  rw [udfps_poll]
  exact if_pos h

/-- A read with an event in the text that `sscanf` finds ends the poll with it. -/
theorem udfps_poll_event {stack : ℕ → Stack} {reading : Reading} (hne : reading.bytes ≠ [])
    {x y : ℤ} (h : SpellsEvent (scanned (stack 0) reading.bytes) x y) (pos : ℤ × ℤ)
    (wakeups : List Wakeup) :
    udfps_poll stack pos (.ready reading :: wakeups) = some (0, .event (ofInt x) (ofInt y)) := by
  rcases udfps_read_state_cases (stack 0) hne pos with
    ⟨x', y', state, hevent, hstate, hread⟩ | ⟨hnone, -⟩
  · obtain ⟨rfl, rfl⟩ := h.unique hevent
    exact udfps_poll_ready_event hread hstate wakeups
  · exact absurd ⟨x, y, h⟩ hnone

theorem eq_of_later_eq {r : Option (ℕ × Returned)} {n : ℕ} {out : Returned}
    (h : later r = some (n, out)) : ∃ k, n = k + 1 ∧ r = some (k, out) := by
  obtain ⟨⟨k, out'⟩, hr, heq⟩ := Option.map_eq_some_iff.1 h
  cases heq
  exact ⟨k, rfl, hr⟩

/-- If all reads are settled, neither the stack nor the coordinates at the start matter. -/
theorem udfps_poll_congr {wakeups : List Wakeup} (h : AllSettled wakeups) (stack stack' : ℕ → Stack)
    (pos pos' : ℤ × ℤ) : udfps_poll stack pos wakeups = udfps_poll stack' pos' wakeups := by
  induction wakeups generalizing stack stack' pos pos' with
  | nil => rfl
  | cons wakeup wakeups ih =>
    cases wakeup with
    | failed errno => rfl
    | interrupted | timedOut => exact congrArg later (ih h _ _ _ _)
    | ready reading =>
      obtain ⟨hsettled, -, hrest⟩ := h
      rcases udfps_read_state_settled (stack 0) hsettled pos with
        ⟨x, y, state, hown, hstate, hread⟩ | ⟨hnone, hread⟩
      · rcases udfps_read_state_settled (stack' 0) hsettled pos' with
          ⟨x', y', state', hown', hstate', hread'⟩ | ⟨hnone, -⟩
        · obtain ⟨rfl, rfl⟩ := hown.unique hown'
          rw [udfps_poll_ready_event hread hstate, udfps_poll_ready_event hread' hstate']
        · exact absurd ⟨x, y, hown⟩ hnone
      · rcases udfps_read_state_settled (stack' 0) hsettled pos' with
          ⟨x', y', -, hown', -, -⟩ | ⟨-, hread'⟩
        · exact absurd ⟨x', y', hown'⟩ hnone
        · rw [udfps_poll_ready_later hread, udfps_poll_ready_later hread']
          exact congrArg later (ih (hrest hnone) _ _ _ _)

/-- The event is spelled by the bytes of the read after which the poll returns. -/
def FromItsRead (wakeups : List Wakeup) (n : ℕ) (x y : ℤ) : Prop :=
  ∃ reading, wakeups[n]? = some (.ready reading) ∧ SpellsEvent reading.bytes x y

theorem FromItsRead.cons {wakeups : List Wakeup} {n : ℕ} {x y : ℤ} (h : FromItsRead wakeups n x y)
    (wakeup : Wakeup) : FromItsRead (wakeup :: wakeups) (n + 1) x y := h

theorem not_fromItsRead_zero {reading : Reading} {x y : ℤ} (h : ¬SpellsEvent reading.bytes x y)
    (wakeups : List Wakeup) : ¬FromItsRead (.ready reading :: wakeups) 0 x y := by
  rintro ⟨reading', hreading, hown⟩
  cases hreading
  exact h hown

theorem fromItsRead_of_event {wakeups : List Wakeup} (h : AllSettled wakeups) {stack : ℕ → Stack}
    {pos : ℤ × ℤ} {n : ℕ} {x y : ℤ}
    (hpoll : udfps_poll stack pos wakeups = some (n, .event x y)) : FromItsRead wakeups n x y := by
  induction wakeups generalizing stack pos n with
  | nil => cases hpoll
  | cons wakeup wakeups ih =>
    cases wakeup with
    | failed errno => cases hpoll
    | interrupted | timedOut =>
      obtain ⟨k, rfl, hlater⟩ := eq_of_later_eq hpoll
      exact (ih h hlater).cons _
    | ready reading =>
      obtain ⟨hsettled, hfloats, hrest⟩ := h
      rcases udfps_read_state_settled (stack 0) hsettled pos with
        ⟨x', y', state, hown, hstate, hread⟩ | ⟨hnone, hread⟩
      · obtain ⟨hx, hy⟩ := hfloats x' y' hown
        rw [udfps_poll_ready_event hread hstate, (ofInt_eq_self_iff x').2 hx,
          (ofInt_eq_self_iff y').2 hy] at hpoll
        cases hpoll
        exact ⟨reading, rfl, hown⟩
      · rw [udfps_poll_ready_later hread] at hpoll
        obtain ⟨k, rfl, hlater⟩ := eq_of_later_eq hpoll
        exact (ih (hrest hnone) hlater).cons _

/-- The stack at the first wake-up, and at those after it. -/
def stackCons (buf : Stack) (stack : ℕ → Stack) : ℕ → Stack
  | 0 => buf
  | n + 1 => stack n

/-- The buffer that follows the bytes of a read with `more`, a NUL and whatever. -/
def stackAfter (bytes more : List UInt8) : Stack :=
  ⟨List.replicate bytes.length 0 ++ (more ++ 0 :: List.replicate 64 0), by
    simp only [List.length_append, List.length_cons, List.length_replicate]
    omega⟩

theorem scanned_stackAfter (bytes more : List UInt8) :
    scanned (stackAfter bytes more) bytes = bytes ++ (more ++ 0 :: List.replicate 64 0) := by
  have hlength : (List.replicate bytes.length (0 : UInt8)).length = bytes.length :=
    List.length_replicate
  unfold scanned stackAfter
  rw [List.drop_append_of_le_length hlength.ge, List.drop_eq_nil_of_le hlength.le, List.nil_append]

/-- A read that is not settled, with the stack that completes it to an event. -/
theorem exists_event_of_unsettled_read {reading : Reading} (h : ¬Settled reading.bytes)
    (pos : ℤ × ℤ) (wakeups : List Wakeup) :
    ∃ stack n x y, udfps_poll stack pos (.ready reading :: wakeups) = some (n, .event x y) ∧
      ¬FromItsRead (.ready reading :: wakeups) n x y := by
  obtain ⟨more, x, y, hevent⟩ := exists_event_of_not_settled h
  have hscanned : SpellsEvent (scanned (stackAfter reading.bytes more) reading.bytes) x y := by
    rw [scanned_stackAfter]
    exact hevent _
  have hne : reading.bytes ≠ [] := fun hnil => h (.inl hnil)
  have hown : ¬SpellsEvent reading.bytes (ofInt x) (ofInt y) := fun hown =>
    h (.inr (.inl ⟨_, _, hown⟩))
  exact ⟨fun _ => stackAfter reading.bytes more, 0, ofInt x, ofInt y,
    udfps_poll_event hne hscanned pos wakeups, not_fromItsRead_zero hown wakeups⟩

/-- A read of an event with a coordinate that is rounded, with any stack. -/
theorem exists_event_of_rounded_read {reading : Reading} {x y : ℤ}
    (h : SpellsEvent reading.bytes x y) (hrounded : ¬(Representable x ∧ Representable y))
    (pos : ℤ × ℤ) (wakeups : List Wakeup) :
    ∃ stack n x y, udfps_poll stack pos (.ready reading :: wakeups) = some (n, .event x y) ∧
      ¬FromItsRead (.ready reading :: wakeups) n x y := by
  have hown : ¬SpellsEvent reading.bytes (ofInt x) (ofInt y) := fun hown => hrounded
    ⟨(ofInt_eq_self_iff x).1 (hown.unique h).1, (ofInt_eq_self_iff y).1 (hown.unique h).2⟩
  exact ⟨fun _ => stackAfter [] [], 0, ofInt x, ofInt y,
    udfps_poll_event h.ne_nil (h.append _) pos wakeups, not_fromItsRead_zero hown wakeups⟩

/-- A stack with which a poll that meets an unsettled or a rounded read returns an event that no
read spells. -/
theorem exists_event_of_not_allSettled {wakeups : List Wakeup} (h : ¬AllSettled wakeups)
    (pos : ℤ × ℤ) :
    ∃ stack n x y, udfps_poll stack pos wakeups = some (n, .event x y) ∧
      ¬FromItsRead wakeups n x y := by
  induction wakeups generalizing pos with
  | nil => exact absurd trivial h
  | cons wakeup wakeups ih =>
    cases wakeup with
    | failed errno => exact absurd trivial h
    | interrupted | timedOut =>
      obtain ⟨stack, n, x, y, hpoll, hnot⟩ := ih h pos
      exact ⟨stackCons (stackAfter [] []) stack, n + 1, x, y, congrArg later hpoll, hnot⟩
    | ready reading =>
      by_cases hsettled : Settled reading.bytes
      · by_cases hown : ∃ x y, SpellsEvent reading.bytes x y
        · obtain ⟨x, y, hown⟩ := hown
          refine exists_event_of_rounded_read hown (fun hfloats => h ⟨hsettled, ?_, ?_⟩) pos wakeups
          · intro x' y' hown'
            obtain ⟨rfl, rfl⟩ := hown'.unique hown
            exact hfloats
          · exact fun hnone => absurd ⟨x, y, hown⟩ hnone
        · -- the poll goes on
          have hrest : ¬AllSettled wakeups := fun hrest =>
            h ⟨hsettled, fun x y hown' => absurd ⟨x, y, hown'⟩ hown, fun _ => hrest⟩
          have hread : (udfps_read_state (stackAfter [] []) reading pos).2 = 0 := by
            rcases udfps_read_state_settled (stackAfter [] []) hsettled pos with
              ⟨x, y, -, hown', -, -⟩ | ⟨-, hread⟩
            · exact absurd ⟨x, y, hown'⟩ hown
            · exact hread
          obtain ⟨stack, n, x, y, hpoll, hnot⟩ :=
            ih hrest (udfps_read_state (stackAfter [] []) reading pos).1
          refine ⟨stackCons (stackAfter [] []) stack, n + 1, x, y, ?_, hnot⟩
          rw [udfps_poll_ready_later hread]
          exact congrArg later hpoll
      · exact exists_event_of_unsettled_read hsettled pos wakeups

/-- **The fingerprint events.** For every sequence of wake-ups, the poll returns after the same
wake-up with the same result whatever the stack holds, and an event has the coordinates that the
bytes of its read spell, if and only if each read that it comes to is settled and the coordinates of
an event among them are values of floats. -/
theorem udfps_poll_iff (wakeups : List Wakeup) :
    ((∀ stack stack' pos pos', udfps_poll stack pos wakeups = udfps_poll stack' pos' wakeups) ∧
      ∀ stack pos n x y, udfps_poll stack pos wakeups = some (n, .event x y) →
        FromItsRead wakeups n x y) ↔
    AllSettled wakeups := by
  constructor
  · rintro ⟨-, hevents⟩
    by_contra h
    obtain ⟨stack, n, x, y, hpoll, hnot⟩ := exists_event_of_not_allSettled h (0, 0)
    exact hnot (hevents stack (0, 0) n x y hpoll)
  · intro h
    exact ⟨udfps_poll_congr h, fun _ _ _ _ _ hpoll => fromItsRead_of_event h hpoll⟩

/-- The bytes `1,2,0`. -/
def unterminated : List Wakeup := [.ready (.copied ("1,2,0".toList.map Char.toUInt8))]

/-- These bytes before a NUL, and before the digit 5; and an odd number above `2 ^ 24`, which the
event does not carry. -/
theorem stale_or_rounded_read :
    (udfps_poll (fun _ => stackAfter [0, 0, 0, 0, 0] []) (0, 0) unterminated = none ∧
      udfps_poll (fun _ => stackAfter [0, 0, 0, 0, 0] ['5'.toUInt8]) (0, 0) unterminated =
        some (0, .event 1 2)) ∧
    udfps_poll (fun _ => stackAfter [] []) (0, 0)
      [.ready (.copied ("16777217,2,1\n".toList.map Char.toUInt8))] =
        some (0, .event 16777216 2) := by
  decide

end RealmeSalaa.Fingerprint
