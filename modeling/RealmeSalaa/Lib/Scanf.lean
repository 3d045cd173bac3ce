import Mathlib

/-!
# Formatted input of decimal numbers

A scanner takes one item at a time and stops at the first that it cannot take. What follows the
stop does not matter (`run_append_of_stops`); a scanner that took everything goes on with what
follows (`run_append_of_all`).

`sscanf` is the scanner of a format of `%d` conversions and single bytes. It stops at a byte that
does not match, which NUL never does where a number is expected. Numbers are taken as the integers
that are spelled: C leaves those outside the range of an `int` undefined. `strtol` takes all of a text
exactly if the text is blanks, at most one sign and digits (`strtol_eq_iff`).
-/

namespace Scanner

variable {σ α : Type*} {step : σ → α → Option σ}

/-- The state where the scanner stops, and what is left from there. -/
def run (step : σ → α → Option σ) : σ → List α → σ × List α
  | s, [] => (s, [])
  | s, c :: text =>
    match step s c with
    | some s' => run step s' text
    | none => (s, c :: text)

@[simp] theorem run_nil (s : σ) : run step s [] = (s, []) := rfl

theorem run_cons_some {s s' : σ} {c : α} (h : step s c = some s') (text : List α) :
    run step s (c :: text) = run step s' text := by
  rw [run, h]

theorem run_cons_none {s : σ} {c : α} (h : step s c = none) (text : List α) :
    run step s (c :: text) = (s, c :: text) := by
  rw [run, h]

/-- The scanner stops at an item of the text. -/
def Stops (step : σ → α → Option σ) (s : σ) (text : List α) : Prop := (run step s text).2 ≠ []

instance (s : σ) (text : List α) : Decidable (Stops step s text) := by
  unfold Stops; infer_instance

/-- A scanner that took all of the text goes on with what follows. -/
theorem run_append_of_all {s : σ} {text : List α} (h : ¬Stops step s text) (more : List α) :
    run step s (text ++ more) = run step (run step s text).1 more := by
  induction text generalizing s with
  | nil => rfl
  | cons c text ih =>
    cases hc : step s c with
    | none =>
      rw [Stops, run_cons_none hc] at h
      exact absurd (List.cons_ne_nil c text) h
    | some s' =>
      rw [Stops, run_cons_some hc] at h
      rw [List.cons_append, run_cons_some hc, run_cons_some hc, ih h]

/-- What follows the item where the scanner stops is not read. -/
theorem run_append_of_stops {s : σ} {text : List α} (h : Stops step s text) (more : List α) :
    (run step s (text ++ more)).1 = (run step s text).1 := by
  induction text generalizing s with
  | nil => exact absurd rfl h
  | cons c text ih =>
    cases hc : step s c with
    | none => rw [List.cons_append, run_cons_none hc, run_cons_none hc]
    | some s' =>
      rw [Stops, run_cons_some hc] at h
      rw [List.cons_append, run_cons_some hc, run_cons_some hc, ih h]

/-- What every step keeps, the scanner keeps. -/
theorem run_invariant {I : σ → Prop} (hstep : ∀ s c s', I s → step s c = some s' → I s') {s : σ}
    (h : I s) (text : List α) : I (run step s text).1 := by
  induction text generalizing s with
  | nil => exact h
  | cons c text ih =>
    cases hc : step s c with
    | none => rwa [run_cons_none hc]
    | some s' =>
      rw [run_cons_some hc]
      exact ih (hstep s c s' h hc)

end Scanner

namespace Scanf

open Scanner

/-! ## Formats -/

/-- A directive of a format: `%d`, or a byte that is matched as it is. -/
inductive Directive
  | int
  | byte (c : UInt8)

/-- How much of a number is read. -/
inductive Field
  | blank
  | signed (negative : Bool)
  | digits (negative : Bool) (n : ℕ)

/-- What is still to be matched, and the numbers so far. -/
structure State where
  format : List Directive
  field : Field
  numbers : List ℤ

/-- `isspace` -/
def isSpace (c : UInt8) : Bool := c = 32 ∨ (9 ≤ c ∧ c ≤ 13)

def digit? (c : UInt8) : Option ℕ := if 48 ≤ c ∧ c ≤ 57 then some (c.toNat - 48) else none

def value (negative : Bool) (n : ℕ) : ℤ := if negative then -(n : ℤ) else n

theorem value_ne_zero {negative : Bool} {n : ℕ} (h : n ≠ 0) : value negative n ≠ 0 := by
  unfold value
  split_ifs <;> omega

theorem ne_zero_of_value {negative : Bool} {n : ℕ} (h : value negative n ≠ 0) : n ≠ 0 := by
  rintro rfl
  apply h
  unfold value
  split_ifs <;> rfl

/-- A byte at the start of a directive. Blanks are skipped before a number only. -/
def begin (numbers : List ℤ) : List Directive → UInt8 → Option State
  | [], _ => none
  | .byte d :: format, c => if c = d then some ⟨format, .blank, numbers⟩ else none
  | .int :: format, c =>
    if isSpace c then some ⟨.int :: format, .blank, numbers⟩
    else if c = '-'.toUInt8 then some ⟨.int :: format, .signed true, numbers⟩
    else if c = '+'.toUInt8 then some ⟨.int :: format, .signed false, numbers⟩
    else (digit? c).map fun d => ⟨.int :: format, .digits false d, numbers⟩

/-- A byte that is not a digit ends a number, and is matched with what follows it. -/
def step (s : State) (c : UInt8) : Option State :=
  match s.format, s.field with
  | .int :: _, .signed negative => (digit? c).map fun d => { s with field := .digits negative d }
  | .int :: format, .digits negative n =>
    match digit? c with
    | some d => some { s with field := .digits negative (10 * n + d) }
    | none => begin (s.numbers ++ [value negative n]) format c
  | format, _ => begin s.numbers format c

/-- The numbers that are converted when the text ends or stops to match. -/
def State.finish (s : State) : List ℤ :=
  match s.format, s.field with
  | .int :: _, .digits negative n => s.numbers ++ [value negative n]
  | _, _ => s.numbers

def initial (format : List Directive) : State := ⟨format, .blank, []⟩

/-- The numbers that `sscanf` converts. Its return value is how many. -/
def sscanf (format : List Directive) (text : List UInt8) : List ℤ :=
  (run step (initial format) text).1.finish

/-- A byte of the text ends the scan. -/
def EndsWithin (format : List Directive) (text : List UInt8) : Prop :=
  Stops step (initial format) text

instance (format : List Directive) (text : List UInt8) : Decidable (EndsWithin format text) := by
  unfold EndsWithin; infer_instance

/-- Bytes after the end of the scan are not read. -/
theorem sscanf_append {format : List Directive} {text : List UInt8}
    (h : EndsWithin format text) (more : List UInt8) :
    sscanf format (text ++ more) = sscanf format text := by
  unfold sscanf
  rw [run_append_of_stops h]

/-- `strtol` of base 10, for a `long` of 64 bits: the number, and the text from its end on. That is
all of the text if it does not start with a number. -/
def strtol (text : List UInt8) : ℤ × List UInt8 :=
  match run step (initial [.int]) text with
  | (⟨_, .digits negative n, _⟩, rest) => (max (-2 ^ 63) (min (2 ^ 63 - 1) (value negative n)), rest)
  | _ => (0, text)

/-! ## Numbers between commas -/

/-- The format of `n + 1` numbers between commas. -/
def commas : ℕ → List Directive
  | 0 => [.int]
  | n + 1 => .int :: .byte ','.toUInt8 :: commas n

theorem commas_eq_cons (n : ℕ) : ∃ format, commas n = .int :: format := by
  cases n <;> exact ⟨_, rfl⟩

/-- The state before or within one of the `n + 1` numbers. -/
def Among (n : ℕ) (s : State) : Prop := ∃ k, s.format = commas k ∧ s.numbers.length + k = n

theorem begin_commas {numbers : List ℤ} {k : ℕ} {c : UInt8} {s : State}
    (h : begin numbers (commas k) c = some s) : s.format = commas k ∧ s.numbers = numbers := by
  obtain ⟨format, hformat⟩ := commas_eq_cons k
  rw [hformat] at h ⊢
  simp only [begin] at h
  split_ifs at h
  · cases h; exact ⟨rfl, rfl⟩
  · cases h; exact ⟨rfl, rfl⟩
  · cases h; exact ⟨rfl, rfl⟩
  · obtain ⟨d, -, rfl⟩ := Option.map_eq_some_iff.1 h
    exact ⟨rfl, rfl⟩

/-- A digit stays in the number, a comma goes to the next one. -/
theorem among_step {n : ℕ} (s : State) (c : UInt8) (s' : State) (h : Among n s)
    (hs : step s c = some s') : Among n s' := by
  obtain ⟨format, field, numbers⟩ := s
  obtain ⟨k, rfl, hk⟩ := h
  obtain ⟨rest, hrest⟩ := commas_eq_cons k
  cases field with
  | blank =>
    simp only [step, hrest] at hs
    rw [← hrest] at hs
    obtain ⟨hformat, hnumbers⟩ := begin_commas hs
    exact ⟨k, hformat, by rw [hnumbers]; exact hk⟩
  | signed negative =>
    simp only [step, hrest] at hs
    obtain ⟨d, -, rfl⟩ := Option.map_eq_some_iff.1 hs
    exact ⟨k, hrest.symm ▸ rfl, hk⟩
  | digits negative m =>
    simp only [step, hrest] at hs
    cases hd : digit? c with
    | some d =>
      rw [hd] at hs
      cases hs
      exact ⟨k, hrest.symm ▸ rfl, hk⟩
    | none =>
      rw [hd] at hs
      cases k with
      | zero =>
        cases hrest
        cases hs
      | succ k =>
        cases hrest
        simp only [begin] at hs
        split_ifs at hs
        cases hs
        have hcount : numbers.length + (k + 1) = n := hk
        refine ⟨k, rfl, ?_⟩
        rw [List.length_append, List.length_singleton]
        omega

theorem among_run {n : ℕ} (text : List UInt8) :
    Among n (run step (initial (commas n)) text).1 := by
  have hinitial : Among n (initial (commas n)) := ⟨n, rfl, Nat.zero_add n⟩
  exact run_invariant among_step hinitial text

/-- Only within the last number can all of them be converted. -/
theorem Among.complete {n : ℕ} {s : State} (h : Among n s) (hlength : s.finish.length = n + 1) :
    ∃ negative m, s = ⟨[.int], .digits negative m, s.numbers⟩ := by
  obtain ⟨format, field, numbers⟩ := s
  obtain ⟨k, rfl, hk⟩ := h
  obtain ⟨rest, hrest⟩ := commas_eq_cons k
  have hcount : numbers.length + k = n := hk
  simp only [hrest, State.finish] at hlength
  cases field with
  | blank => dsimp only at hlength; omega
  | signed negative => dsimp only at hlength; omega
  | digits negative m =>
    rw [List.length_append, List.length_singleton] at hlength
    have hlast : k = 0 := by omega
    rw [hlast]
    exact ⟨negative, m, rfl⟩

/-- A digit other than 0 makes any number another than 0. -/
theorem step_one (field : Field) (format : List Directive) (numbers : List ℤ) :
    ∃ negative n, n ≠ 0 ∧ step ⟨.int :: format, field, numbers⟩ '1'.toUInt8 =
      some ⟨.int :: format, .digits negative n, numbers⟩ := by
  cases field with
  | blank => exact ⟨false, 1, one_ne_zero, rfl⟩
  | signed negative => exact ⟨negative, 1, one_ne_zero, rfl⟩
  | digits negative n => exact ⟨negative, 10 * n + 1, by omega, rfl⟩

/-- Wherever the scan is, bytes can follow that complete the numbers. -/
theorem exists_completion {k : ℕ} (field : Field) (numbers : List ℤ) :
    ∃ more numbers' negative n, numbers'.length = numbers.length + k ∧ n ≠ 0 ∧
      run step ⟨commas k, field, numbers⟩ more = (⟨[.int], .digits negative n, numbers'⟩, []) := by
  induction k generalizing field numbers with
  | zero =>
    obtain ⟨negative, n, hn, hone⟩ := step_one field [] numbers
    exact ⟨['1'.toUInt8], numbers, negative, n, rfl, hn, run_cons_some hone []⟩
  | succ k ih =>
    obtain ⟨negative, n, -, hone⟩ := step_one field (.byte ','.toUInt8 :: commas k) numbers
    obtain ⟨more, numbers', negative', n', hlength, hn', hrun⟩ :=
      ih .blank (numbers ++ [value negative n])
    refine ⟨'1'.toUInt8 :: ','.toUInt8 :: more, numbers', negative', n', ?_, hn', ?_⟩
    · rw [List.length_append, List.length_singleton] at hlength
      omega
    · rw [commas, run_cons_some hone, ← hrun]
      exact run_cons_some rfl more

/-- In the last number, further bytes keep it from being 0. -/
theorem run_last {negative : Bool} {n : ℕ} (hn : n ≠ 0) (numbers : List ℤ) (more : List UInt8) :
    ∃ m, m ≠ 0 ∧ (run step ⟨[.int], .digits negative n, numbers⟩ more).1 =
      ⟨[.int], .digits negative m, numbers⟩ := by
  refine run_invariant
    (I := fun s : State => ∃ m, m ≠ 0 ∧ s = ⟨[.int], .digits negative m, numbers⟩) ?_ ⟨n, hn, rfl⟩ more
  rintro _ c s' ⟨m, hm, rfl⟩ hs
  simp only [step] at hs
  cases hd : digit? c with
  | none => rw [hd] at hs; cases hs
  | some d =>
    rw [hd] at hs
    cases hs
    exact ⟨10 * m + d, by omega, rfl⟩

/-! ## A text that is one number -/

/-- The signs of a number. -/
def signs : Bool → List (List UInt8)
  | false => [[], ['+'.toUInt8]]
  | true => [['-'.toUInt8]]

/-- `digits` behind the digits of `n`, as a number. -/
def ofDigits (n : ℕ) (digits : List UInt8) : ℕ :=
  digits.foldl (fun n c => 10 * n + (c.toNat - 48)) n

def IsDigits (digits : List UInt8) : Prop := ∀ c ∈ digits, 48 ≤ c ∧ c ≤ 57

/-- The text is blanks, a sign and digits, which spell the number. -/
def Spells (text : List UInt8) (z : ℤ) : Prop :=
  ∃ blanks sign digits negative, text = blanks ++ (sign ++ digits) ∧ (∀ c ∈ blanks, isSpace c) ∧
    sign ∈ signs negative ∧ digits ≠ [] ∧ IsDigits digits ∧ z = value negative (ofDigits 0 digits)

theorem not_spells_nil (z : ℤ) : ¬Spells [] z := by
  rintro ⟨blanks, sign, digits, negative, htext, -, -, hdigits, -⟩
  exact hdigits (List.append_eq_nil_iff.1 (List.append_eq_nil_iff.1 htext.symm).2).2

/-- What the first byte of a number is. -/
theorem spells_cons_iff (c : UInt8) (text : List UInt8) (z : ℤ) :
    Spells (c :: text) z ↔ (isSpace c ∧ Spells text z) ∨
      (∃ negative, [c] ∈ signs negative ∧ text ≠ [] ∧ IsDigits text ∧
        z = value negative (ofDigits 0 text)) ∨
      IsDigits (c :: text) ∧ z = value false (ofDigits 0 (c :: text)) := by
  constructor
  · rintro ⟨blanks, sign, digits, negative, htext, hblanks, hsign, hne, hdigits, hz⟩
    cases blanks with
    | cons b blanks =>
      obtain ⟨rfl, rfl⟩ := List.cons.inj htext
      obtain ⟨hb, hblanks⟩ := List.forall_mem_cons.1 hblanks
      exact .inl ⟨hb, blanks, sign, digits, negative, rfl, hblanks, hsign, hne, hdigits, hz⟩
    | nil =>
      cases sign with
      | nil =>
        obtain rfl : negative = false := by cases negative <;> simp_all [signs]
        rw [List.nil_append, List.nil_append] at htext
        rw [htext]
        exact .inr (.inr ⟨hdigits, hz⟩)
      | cons b sign =>
        obtain ⟨rfl, rfl⟩ := List.cons.inj htext
        obtain rfl : sign = [] := by cases negative <;> simp_all [signs]
        exact .inr (.inl ⟨negative, hsign, hne, hdigits, hz⟩)
  · rintro (⟨hc, blanks, sign, digits, negative, rfl, hblanks, hrest⟩ |
      ⟨negative, hsign, hne, hdigits, hz⟩ | ⟨hdigits, hz⟩)
    · exact ⟨c :: blanks, sign, digits, negative, rfl, List.forall_mem_cons.2 ⟨hc, hblanks⟩, hrest⟩
    · exact ⟨[], [c], text, negative, rfl, by simp, hsign, hne, hdigits, hz⟩
    · exact ⟨[], [], c :: text, false, rfl, by simp, by simp [signs], by simp, hdigits, hz⟩

/-- From a field on, the text is taken to its end, and the number is then `z`. -/
def TakesAll (field : Field) (text : List UInt8) (z : ℤ) : Prop :=
  ∃ negative n, run step ⟨[.int], field, []⟩ text = (⟨[.int], .digits negative n, []⟩, []) ∧
    z = value negative n

theorem digit?_eq_some {c : UInt8} (h : 48 ≤ c ∧ c ≤ 57) : digit? c = some (c.toNat - 48) :=
  if_pos h

theorem digit?_eq_none {c : UInt8} (h : ¬(48 ≤ c ∧ c ≤ 57)) : digit? c = none := if_neg h

theorem takesAll_digits_iff (negative : Bool) (n : ℕ) (text : List UInt8) (z : ℤ) :
    TakesAll (.digits negative n) text z ↔ IsDigits text ∧ z = value negative (ofDigits n text) := by
  induction text generalizing n with
  | nil =>
    constructor
    · rintro ⟨negative', n', hrun, rfl⟩
      cases hrun
      exact ⟨by simp [IsDigits], rfl⟩
    · rintro ⟨-, rfl⟩
      exact ⟨negative, n, rfl, rfl⟩
  | cons c text ih =>
    by_cases hc : 48 ≤ c ∧ c ≤ 57
    · have hstep : step ⟨[.int], .digits negative n, []⟩ c =
          some ⟨[.int], .digits negative (10 * n + (c.toNat - 48)), []⟩ := by
        simp only [step, digit?_eq_some hc]
      unfold TakesAll
      rw [run_cons_some hstep]
      refine (ih _).trans (and_congr_left fun _ => ?_)
      exact ⟨fun h => List.forall_mem_cons.2 ⟨hc, h⟩, fun h => (List.forall_mem_cons.1 h).2⟩
    · have hstep : step ⟨[.int], .digits negative n, []⟩ c = none := by
        simp only [step, digit?_eq_none hc, begin]
      refine iff_of_false ?_ fun h => hc (h.1 c List.mem_cons_self)
      rintro ⟨negative', n', hrun, -⟩
      rw [run_cons_none hstep] at hrun
      cases hrun

theorem takesAll_signed_iff (negative : Bool) (text : List UInt8) (z : ℤ) :
    TakesAll (.signed negative) text z ↔
      text ≠ [] ∧ IsDigits text ∧ z = value negative (ofDigits 0 text) := by
  cases text with
  | nil =>
    refine iff_of_false ?_ fun h => h.1 rfl
    rintro ⟨negative', n, hrun, -⟩
    cases hrun
  | cons c text =>
    rw [and_iff_right (List.cons_ne_nil c text), ← takesAll_digits_iff negative 0]
    have hstep : step ⟨[.int], .signed negative, []⟩ c = step ⟨[.int], .digits negative 0, []⟩ c := by
      by_cases hc : 48 ≤ c ∧ c ≤ 57
      · simp [step, digit?_eq_some hc]
      · simp [step, digit?_eq_none hc, begin]
    unfold TakesAll
    cases hstep' : step ⟨[.int], .digits negative 0, []⟩ c with
    | some s => rw [run_cons_some (hstep.trans hstep'), run_cons_some hstep']
    | none =>
      rw [run_cons_none (hstep.trans hstep'), run_cons_none hstep']
      simp

/-- A sign is no blank and no digit, and is read as the one that it is. -/
theorem step_sign {c : UInt8} {negative : Bool} (h : [c] ∈ signs negative) :
    isSpace c = false ∧ ¬(48 ≤ c ∧ c ≤ 57) ∧
      (∀ negative', [c] ∈ signs negative' → negative' = negative) ∧
      step ⟨[.int], .blank, []⟩ c = some ⟨[.int], .signed negative, []⟩ := by
  cases negative with
  | false =>
    obtain rfl : c = '+'.toUInt8 := by simpa [signs] using h
    exact ⟨rfl, by decide, by decide, rfl⟩
  | true =>
    obtain rfl : c = '-'.toUInt8 := by simpa [signs] using h
    exact ⟨rfl, by decide, by decide, rfl⟩

theorem isSpace_eq_false {c : UInt8} (h : 48 ≤ c ∧ c ≤ 57) : isSpace c = false := by
  have hnot : ¬(c = 32 ∨ 9 ≤ c ∧ c ≤ 13) := by
    rintro (rfl | ⟨-, hle⟩)
    · exact absurd h.1 (by decide)
    · exact absurd (UInt8.le_trans h.1 hle) (by decide)
  simpa [isSpace] using hnot

theorem takesAll_cons_iff {field field' : Field} {c : UInt8}
    (h : step ⟨[.int], field, []⟩ c = some ⟨[.int], field', []⟩) (text : List UInt8) (z : ℤ) :
    TakesAll field (c :: text) z ↔ TakesAll field' text z := by
  unfold TakesAll
  rw [run_cons_some h]

/-- The scanner takes exactly the texts that spell a number. -/
theorem takesAll_blank_iff (text : List UInt8) (z : ℤ) :
    TakesAll .blank text z ↔ Spells text z := by
  induction text with
  | nil =>
    refine iff_of_false ?_ (not_spells_nil z)
    rintro ⟨negative, n, hrun, -⟩
    cases hrun
  | cons c text ih =>
    rw [spells_cons_iff]
    by_cases hsign : ∃ negative, [c] ∈ signs negative
    · obtain ⟨negative, hmem⟩ := hsign
      obtain ⟨hspace, hdigit, hunique, hstep⟩ := step_sign hmem
      rw [takesAll_cons_iff hstep, takesAll_signed_iff]
      constructor
      · exact fun h => .inr (.inl ⟨negative, hmem, h⟩)
      · rintro (⟨hspace', -⟩ | ⟨negative', hmem', h⟩ | ⟨hdigits, -⟩)
        · exact absurd hspace' (by simp [hspace])
        · exact hunique negative' hmem' ▸ h
        · exact absurd (hdigits c List.mem_cons_self) hdigit
    have hnone : ¬∃ negative, [c] ∈ signs negative ∧ text ≠ [] ∧ IsDigits text ∧
        z = value negative (ofDigits 0 text) := fun ⟨negative, hmem, _⟩ => hsign ⟨negative, hmem⟩
    have hminus : c ≠ '-'.toUInt8 := fun h => hsign ⟨true, by simp [signs, h]⟩
    have hplus : c ≠ '+'.toUInt8 := fun h => hsign ⟨false, by simp [signs, h]⟩
    rw [or_iff_right_of_imp (fun h => absurd h hnone)]
    by_cases hdigit : 48 ≤ c ∧ c ≤ 57
    · have hspace := isSpace_eq_false hdigit
      have hstep : step ⟨[.int], .blank, []⟩ c =
          some ⟨[.int], .digits false (10 * 0 + (c.toNat - 48)), []⟩ := by
        simp [step, begin, hspace, hminus, hplus, digit?_eq_some hdigit]
      rw [takesAll_cons_iff hstep, takesAll_digits_iff, hspace]
      simp [IsDigits, ofDigits, hdigit]
    · have hfirst : ¬IsDigits (c :: text) := fun h => hdigit (h c List.mem_cons_self)
      rw [or_iff_left (fun h => hfirst h.1)]
      by_cases hspace : isSpace c
      · have hstep : step ⟨[.int], .blank, []⟩ c = some ⟨[.int], .blank, []⟩ := if_pos hspace
        rw [takesAll_cons_iff hstep, ih, and_iff_right hspace]
      · have hstep : step ⟨[.int], .blank, []⟩ c = none := by
          simp [step, begin, hspace, hminus, hplus, digit?_eq_none hdigit]
        refine iff_of_false ?_ fun h => hspace h.1
        rintro ⟨negative, n, hrun, -⟩
        rw [run_cons_none hstep] at hrun
        cases hrun

/-- `strtol` takes something, and all of the text, exactly if the text spells a number. -/
theorem strtol_eq_iff (text : List UInt8) (z : ℤ) :
    (strtol text = (z, []) ∧ text ≠ []) ↔
      ∃ number, Spells text number ∧ z = max (-2 ^ 63) (min (2 ^ 63 - 1) number) := by
  constructor
  · rintro ⟨hstrtol, hne⟩
    obtain ⟨k, hformat, hlength⟩ := among_run (n := 0) text
    unfold strtol at hstrtol
    split at hstrtol
    · rename_i format negative n numbers rest hrun
      obtain ⟨rfl, rfl⟩ := Prod.mk.inj hstrtol
      have hrun' : run step (initial (commas 0)) text =
          (⟨format, .digits negative n, numbers⟩, []) := hrun
      rw [hrun'] at hformat hlength
      obtain ⟨hnumbers, rfl⟩ := Nat.add_eq_zero_iff.1 hlength
      obtain rfl : format = [.int] := hformat
      obtain rfl : numbers = [] := List.length_eq_zero_iff.1 hnumbers
      exact ⟨value negative n, (takesAll_blank_iff text _).1 ⟨negative, n, hrun, rfl⟩, rfl⟩
    · exact absurd (congrArg Prod.snd hstrtol) hne
  · rintro ⟨number, hspells, rfl⟩
    have hne : text ≠ [] := by
      rintro rfl
      exact not_spells_nil number hspells
    obtain ⟨negative, n, hrun, rfl⟩ := (takesAll_blank_iff text number).2 hspells
    have hrun' : run step (initial [.int]) text = (⟨[.int], .digits negative n, []⟩, []) := hrun
    refine ⟨?_, hne⟩
    unfold strtol
    rw [hrun']

end Scanf
