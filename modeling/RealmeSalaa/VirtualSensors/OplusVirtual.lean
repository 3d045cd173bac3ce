import RealmeSalaa.Lib.Printf
import RealmeSalaa.Lib.SinglePrecision

/-!
# The virtual sensors

`oplus_virtual_sensors.cpp` drives the pick-up sensor of the kernel: commands are written to files of
sysfs as numbers between commas, events are read from a device as records of a fixed size.

* `virtual_sensors_activate`, `virtual_sensors_batch` and `virtual_sensors_flush` write the whole of
  an uninitialised buffer. Before its NUL it holds the whole text, and what is scanned from it is the
  arguments of the call, and nothing of what the stack held (`commands_read_back`).
* `virtual_sensors_poll` returns the first whole record, or the first failure of `poll`, unless the
  first `poll` times out: then it returns what the stack holds (`virtual_sensors_poll_iff`).
-/

namespace RealmeSalaa.VirtualSensors

open Scanf Printf

/-- `errno.h` -/
def EINVAL : ℤ := 22

/-! ## Commands -/

/-- How `write` ends: the number of bytes, or `errno`. -/
inductive Written
  | written (rc : ℕ)
  | failed (errno : ℕ+)
  deriving DecidableEq

/-- A local array, with what the stack holds there. -/
abbrev Buffer (size : ℕ) := { bytes : List UInt8 // bytes.length = size }

/-- Format the arguments into the buffer and write all of it. Without a context nothing is
written. -/
def command {size : ℕ} (ctx : Bool) (buf : Buffer size) (format : List Directive) (args : List ℤ)
    (write : Written) : ℤ × Option (List UInt8) :=
  if !ctx then (-EINVAL, none)
  else
    match write with
    | .failed errno => (-errno, some (snprintf buf.1 size format args))
    | .written _ => (0, some (snprintf buf.1 size format args))

/-- `"%d,%d"`, to `active_fd` -/
def virtual_sensors_activate (ctx : Bool) (buf : Buffer 64) (handle enabled : Int32)
    (write : Written) : ℤ × Option (List UInt8) :=
  command ctx buf (commas 1) [handle.toInt, enabled.toInt] write

/-- `"%d,%d,%lld,%lld"`, to `batch_fd` -/
def virtual_sensors_batch (ctx : Bool) (buf : Buffer 128) (handle flags : Int32)
    (period_ns max_ns : Int64) (write : Written) : ℤ × Option (List UInt8) :=
  command ctx buf (commas 3) [handle.toInt, flags.toInt, period_ns.toInt, max_ns.toInt] write

/-- `"%d"`, to `flush_fd` -/
def virtual_sensors_flush (ctx : Bool) (buf : Buffer 32) (handle : Int32) (write : Written) :
    ℤ × Option (List UInt8) :=
  command ctx buf (commas 0) [handle.toInt] write

/-- The command fails with the code of the write; what is written has the size of the array, is the
whole text up to its NUL, and is scanned as `args`. -/
def ReadsBack (size : ℕ) (format : List Directive) (args : List ℤ) (write : Written)
    (r : ℤ × Option (List UInt8)) : Prop :=
  (∀ rc, write = .written rc → r.1 = 0) ∧ (∀ errno : ℕ+, write = .failed errno → r.1 = -errno) ∧
    ∃ bytes, r.2 = some bytes ∧ bytes.length = size ∧
      bytes.takeWhile (· ≠ 0) = sprintf format args ∧ sscanf format bytes = args

theorem readsBack_command {size k : ℕ} (hsize : 0 < size) (buf : Buffer size) {args : List ℤ}
    (hargs : args.length = k + 1) (hfits : (sprintf (commas k) args).length < size)
    (write : Written) :
    ReadsBack size (commas k) args write (command true buf (commas k) args write) := by
  have hlength := length_snprintf hsize buf.2 (commas k) args
  have htext := takeWhile_snprintf buf.1 hfits
  have hscan := sscanf_snprintf buf.1 hargs hfits
  cases write with
  | written rc =>
    exact ⟨fun _ _ => rfl, fun _ h => (nomatch h), _, rfl, hlength, htext, hscan⟩
  | failed errno =>
    refine ⟨fun _ h => (nomatch h), fun errno' h => ?_, _, rfl, hlength, htext, hscan⟩
    cases h
    rfl

theorem natAbs_lt_of_int32 (z : Int32) : z.toInt.natAbs < 10 ^ 10 := by
  have := z.toInt_lt
  have := z.le_toInt
  omega

theorem natAbs_lt_of_int64 (z : Int64) : z.toInt.natAbs < 10 ^ 19 := by
  have := z.toInt_lt
  have := z.le_toInt
  omega

/-- **The commands.** Each command writes exactly its array, which holds the whole text before its NUL,
and scanning it gives back the arguments of the call: no argument is too long for it, and nothing of
what the stack held before is scanned. The call returns 0, or `-errno` if the write fails. -/
theorem commands_read_back (activeBuf : Buffer 64) (batchBuf : Buffer 128) (flushBuf : Buffer 32)
    (handle enabled flags : Int32) (period_ns max_ns : Int64) (write : Written) :
    ReadsBack 64 (commas 1) [handle.toInt, enabled.toInt] write
        (virtual_sensors_activate true activeBuf handle enabled write) ∧
      ReadsBack 128 (commas 3) [handle.toInt, flags.toInt, period_ns.toInt, max_ns.toInt] write
        (virtual_sensors_batch true batchBuf handle flags period_ns max_ns write) ∧
      ReadsBack 32 (commas 0) [handle.toInt] write
        (virtual_sensors_flush true flushBuf handle write) := by
  have hint := natAbs_lt_of_int32
  have hwide : ∀ z : Int32, z.toInt.natAbs < 10 ^ 19 := fun z => (hint z).trans (by omega)
  have hlong := natAbs_lt_of_int64
  refine ⟨readsBack_command (by omega) _ rfl ?_ write, readsBack_command (by omega) _ rfl ?_ write,
    readsBack_command (by omega) _ rfl ?_ write⟩
  · have := length_sprintf_le 1 10 [handle.toInt, enabled.toInt] (by omega)
      (by simpa using ⟨hint handle, hint enabled⟩) rfl
    omega
  · have := length_sprintf_le 3 19 [handle.toInt, flags.toInt, period_ns.toInt, max_ns.toInt]
      (by omega) (by simpa using ⟨hwide handle, hwide flags, hlong period_ns, hlong max_ns⟩) rfl
    omega
  · have := length_sprintf_le 0 10 [handle.toInt] (by omega)
      (by simpa using hint handle) rfl
    omega

/-! ## Events -/

/-- The constants of the headers outside the repository. -/
structure SensorIds where
  ID_PICKUP_DETECT : Int32
  SENSOR_TYPE_PICK_UP_GESTURE : Int32

/-- `sensor_t`, the fields that events are made of. -/
structure Sensor where
  handle : Int32
  type : Int32
  deriving DecidableEq

def virtual_sensors (ids : SensorIds) : List Sensor :=
  [⟨ids.ID_PICKUP_DETECT, ids.SENSOR_TYPE_PICK_UP_GESTURE⟩]

/-- `oplus_sensor_event_t`, the fields that are read. -/
structure OplusEvent where
  handle : Int32
  word0 : Int32
  deriving DecidableEq

/-- `sensors_event_t`, the fields that are not constant; `data0` is the value of a float. -/
structure SensorsEvent where
  sensor : Int32
  type : Int32
  timestamp : ℤ
  data0 : ℤ
  deriving DecidableEq

/-- What `virtual_sensors_poll` returns: a negative code, or 1 and an event. -/
inductive Returned
  | error (rc : ℤ)
  | event (event : SensorsEvent)
  deriving DecidableEq

def virtual_sensors_convert_event (ids : SensorIds) (oplus_event : OplusEvent) (now : ℤ) :
    Returned :=
  if oplus_event.handle = ids.ID_PICKUP_DETECT then
    .event ⟨ids.ID_PICKUP_DETECT, ids.SENSOR_TYPE_PICK_UP_GESTURE, now,
      SinglePrecision.ofInt oplus_event.word0.toInt⟩
  else .error (-EINVAL)

/-- How a read of the device goes. A short one changes the beginning of the record. -/
inductive Reading
  | failed
  | short (event : OplusEvent)
  | record (event : OplusEvent)

/-- A return of `poll`. -/
inductive Wakeup
  /-- `EINTR` -/
  | interrupted
  | failed (errno : ℕ+)
  | timedOut
  | ready (reading : Reading)

/-- The return value, and the record afterwards. -/
def virtual_sensors_read_event (event : OplusEvent) : Reading → Bool × OplusEvent
  | .failed => (true, event)
  | .short event => (true, event)
  | .record event => (false, event)

/-- The loop of `virtual_sensors_poll` with that of `virtual_sensors_wait_event`, over the wake-ups
and their times: how many wake-ups it takes to return, and what. -/
def pollLoop (ids : SensorIds) (err : Bool) (event : OplusEvent) :
    List (Wakeup × ℤ) → Option (ℕ × Returned)
  | [] => none
  | (.interrupted, _) :: wakeups => later (pollLoop ids err event wakeups)
  | (.failed errno, _) :: _ => some (1, .error (-errno))
  | (.timedOut, now) :: wakeups =>
    if err then later (pollLoop ids err event wakeups)
    else some (1, virtual_sensors_convert_event ids event now)
  | (.ready reading, now) :: wakeups =>
    let (err, event) := virtual_sensors_read_event event reading
    if err then later (pollLoop ids err event wakeups)
    else some (1, virtual_sensors_convert_event ids event now)
where
  /-- One more wake-up before the return. -/
  later (r : Option (ℕ × Returned)) : Option (ℕ × Returned) := r.map fun r => (r.1 + 1, r.2)

/-- `event` is what the stack holds. -/
def virtual_sensors_poll (ids : SensorIds) (ctx : Bool) (event : OplusEvent)
    (wakeups : List (Wakeup × ℤ)) : Option (ℕ × Returned) :=
  if !ctx then some (0, .error (-EINVAL)) else pollLoop ids false event wakeups

/-- What a wake-up has the poll return: a failure, or a whole record. -/
def answer (ids : SensorIds) : Wakeup × ℤ → Option Returned
  | (.failed errno, _) => some (.error (-errno))
  | (.ready (.record event), now) => some (virtual_sensors_convert_event ids event now)
  | _ => none

/-- The first wake-up with an answer, and the answer. -/
def firstAnswer (ids : SensorIds) (wakeups : List (Wakeup × ℤ)) : Option (ℕ × Returned) :=
  (wakeups.findIdx? fun w => (answer ids w).isSome).bind fun n =>
    (wakeups[n]?.bind (answer ids)).map fun out => (n + 1, out)

/-- The first wake-up that is not an interruption is a timeout. -/
def TimesOutFirst : List (Wakeup × ℤ) → Prop
  | (.interrupted, _) :: wakeups => TimesOutFirst wakeups
  | (.timedOut, _) :: _ => True
  | _ => False

theorem firstAnswer_of_some {ids : SensorIds} {w : Wakeup × ℤ} {out : Returned}
    (h : answer ids w = some out) (wakeups : List (Wakeup × ℤ)) :
    firstAnswer ids (w :: wakeups) = some (1, out) := by
  simp [firstAnswer, List.findIdx?_cons, h]

theorem firstAnswer_of_none {ids : SensorIds} {w : Wakeup × ℤ} (h : answer ids w = none)
    (wakeups : List (Wakeup × ℤ)) :
    firstAnswer ids (w :: wakeups) = pollLoop.later (firstAnswer ids wakeups) := by
  simp only [firstAnswer, pollLoop.later, List.findIdx?_cons, h, Option.isSome_none,
    Bool.false_eq_true, if_false]
  cases wakeups.findIdx? fun w => (answer ids w).isSome with
  | none => rfl
  | some n => simp [Function.comp_def]

/-- Once a read has failed, the record is not used before it is read again. -/
theorem pollLoop_true (ids : SensorIds) (event : OplusEvent) (wakeups : List (Wakeup × ℤ)) :
    pollLoop ids true event wakeups = firstAnswer ids wakeups := by
  induction wakeups generalizing event with
  | nil => rfl
  | cons w wakeups ih =>
    obtain ⟨wakeup, now⟩ := w
    cases wakeup with
    | interrupted | timedOut =>
      rw [firstAnswer_of_none rfl, ← ih event]
      rfl
    | failed errno => exact (firstAnswer_of_some rfl wakeups).symm
    | ready reading =>
      cases reading with
      | failed =>
        rw [firstAnswer_of_none rfl, ← ih event]
        rfl
      | short event' =>
        rw [firstAnswer_of_none rfl, ← ih event']
        rfl
      | record event' => exact (firstAnswer_of_some rfl wakeups).symm

theorem firstAnswer_ne_zero {ids : SensorIds} {wakeups : List (Wakeup × ℤ)} {n : ℕ} {out : Returned}
    (h : firstAnswer ids wakeups = some (n, out)) : n ≠ 0 := by
  obtain ⟨k, -, hk⟩ := Option.bind_eq_some_iff.1 h
  obtain ⟨out', -, heq⟩ := Option.map_eq_some_iff.1 hk
  cases heq
  exact Nat.succ_ne_zero k

theorem pollLoop_false_iff (ids : SensorIds) (event : OplusEvent) (wakeups : List (Wakeup × ℤ)) :
    pollLoop ids false event wakeups = firstAnswer ids wakeups ↔ ¬TimesOutFirst wakeups := by
  induction wakeups with
  | nil => exact iff_of_true rfl id
  | cons w wakeups ih =>
    obtain ⟨wakeup, now⟩ := w
    cases wakeup with
    | interrupted =>
      rw [firstAnswer_of_none rfl]
      refine Iff.trans ⟨fun h => ?_, congrArg pollLoop.later⟩ ih
      have hinjective : Function.Injective fun r : ℕ × Returned => (r.1 + 1, r.2) := by
        rintro ⟨n, out⟩ ⟨n', out'⟩ heq
        simpa using heq
      exact Option.map_injective hinjective h
    | timedOut =>
      rw [firstAnswer_of_none rfl]
      refine iff_of_false (fun h => ?_) (not_not.2 trivial)
      obtain ⟨⟨n, out⟩, hfirst, heq⟩ := Option.map_eq_some_iff.1 h.symm
      have hn : n + 1 = 1 := congrArg Prod.fst heq
      exact firstAnswer_ne_zero hfirst (by omega)
    | failed errno => exact iff_of_true (firstAnswer_of_some rfl wakeups).symm id
    | ready reading =>
      refine iff_of_true ?_ id
      cases reading with
      | failed =>
        rw [firstAnswer_of_none rfl, ← pollLoop_true ids event]
        rfl
      | short event' =>
        rw [firstAnswer_of_none rfl, ← pollLoop_true ids event']
        rfl
      | record event' => exact (firstAnswer_of_some rfl wakeups).symm

/-- An event that is returned is of a sensor of the list. -/
theorem mem_virtual_sensors_of_convert {ids : SensorIds} {oplus_event : OplusEvent} {now : ℤ}
    {e : SensorsEvent} (h : virtual_sensors_convert_event ids oplus_event now = .event e) :
    ⟨e.sensor, e.type⟩ ∈ virtual_sensors ids := by
  unfold virtual_sensors_convert_event at h
  split at h
  · cases h
    exact List.mem_singleton_self _
  · cases h

theorem exists_of_later_eq {r : Option (ℕ × Returned)} {n : ℕ} {out : Returned}
    (h : pollLoop.later r = some (n, out)) : ∃ k, r = some (k, out) := by
  obtain ⟨⟨k, out'⟩, hr, heq⟩ := Option.map_eq_some_iff.1 h
  cases heq
  exact ⟨k, hr⟩

/-- So is one of a record that the stack held. -/
theorem mem_virtual_sensors_of_pollLoop {ids : SensorIds} {err : Bool} {event : OplusEvent}
    {wakeups : List (Wakeup × ℤ)} {n : ℕ} {e : SensorsEvent}
    (h : pollLoop ids err event wakeups = some (n, .event e)) :
    ⟨e.sensor, e.type⟩ ∈ virtual_sensors ids := by
  have hconvert : ∀ {event : OplusEvent} {now : ℤ} {n : ℕ},
      some (1, virtual_sensors_convert_event ids event now) = some (n, Returned.event e) →
      ⟨e.sensor, e.type⟩ ∈ virtual_sensors ids := fun h =>
    mem_virtual_sensors_of_convert (congrArg Prod.snd (Option.some.inj h))
  induction wakeups generalizing err event n with
  | nil => cases h
  | cons w wakeups ih =>
    have hlater : ∀ {err : Bool} {event : OplusEvent},
        pollLoop.later (pollLoop ids err event wakeups) = some (n, .event e) →
        ⟨e.sensor, e.type⟩ ∈ virtual_sensors ids := fun h => ih (exists_of_later_eq h).choose_spec
    obtain ⟨wakeup, now⟩ := w
    cases wakeup with
    | interrupted => exact hlater h
    | failed errno => cases h
    | timedOut =>
      cases err with
      | true => exact hlater h
      | false => exact hconvert h
    | ready reading =>
      cases reading with
      | failed => exact hlater h
      | short event' => exact hlater h
      | record event' => exact hconvert h

/-- **The poll.** For every sequence of wake-ups: the poll returns after the first failure of `poll`
or the first whole record, with its code or its event, whatever the stack holds, if and only if it
does not begin with a timeout; and an event it returns, then or not, is of a sensor of the list. -/
theorem virtual_sensors_poll_iff (ids : SensorIds) (wakeups : List (Wakeup × ℤ)) :
    ((∀ event, virtual_sensors_poll ids true event wakeups = firstAnswer ids wakeups) ↔
      ¬TimesOutFirst wakeups) ∧
    ∀ event n e, virtual_sensors_poll ids true event wakeups = some (n, .event e) →
      ⟨e.sensor, e.type⟩ ∈ virtual_sensors ids := by
  refine ⟨⟨fun h => ?_, fun h event => (pollLoop_false_iff ids event wakeups).2 h⟩, ?_⟩
  · exact (pollLoop_false_iff ids ⟨0, 0⟩ wakeups).1 (h ⟨0, 0⟩)
  · exact fun event n e => mem_virtual_sensors_of_pollLoop

end RealmeSalaa.VirtualSensors
