import RealmeSalaa.Lib.Scanf

/-!
# Formatted output of decimal numbers

`snprintf` for formats of `%d` conversions and single bytes, the counterpart of `Scanf.sscanf`. What
it writes for numbers between commas is the whole text before its NUL (`takeWhile_snprintf`) and is
read back by the same format, whatever the buffer holds behind (`sscanf_snprintf`), as long as the
text is shorter than the size; `length_sprintf_le` bounds the text by the ranges of the numbers.
-/

namespace Printf

open Scanner Scanf

/-! ## Numbers -/

/-- The decimal digits of a number, as bytes. -/
def decimal (n : ℕ) : List UInt8 := (Nat.toDigits 10 n).map Char.toUInt8

/-- `%d` -/
def printInt (z : ℤ) : List UInt8 :=
  if z < 0 then '-'.toUInt8 :: decimal z.natAbs else decimal z.natAbs

theorem digit_digitChar {d : ℕ} (h : d < 10) : digit? (Nat.digitChar d).toUInt8 = some d := by
  interval_cases d <;> rfl

/-- The last digit comes off the end. -/
theorem decimal_of_ge {n : ℕ} (h : 10 ≤ n) :
    decimal n = decimal (n / 10) ++ [(Nat.digitChar (n % 10)).toUInt8] := by
  unfold decimal
  rw [Nat.toDigits_of_base_le (by omega) h, List.map_append, List.map_singleton]

theorem decimal_of_lt {n : ℕ} (h : n < 10) : decimal n = [(Nat.digitChar n).toUInt8] := by
  unfold decimal
  rw [Nat.toDigits_of_lt_base h, List.map_singleton]

theorem length_decimal_le {n k : ℕ} (hk : 0 < k) (h : n < 10 ^ k) : (decimal n).length ≤ k := by
  unfold decimal
  rw [List.length_map]
  exact (Nat.length_toDigits_le_iff (by omega) hk).2 h

theorem length_printInt_le {z : ℤ} {k : ℕ} (hk : 0 < k) (h : z.natAbs < 10 ^ k) :
    (printInt z).length ≤ k + 1 := by
  have hdecimal := length_decimal_le hk h
  unfold printInt
  split
  · rw [List.length_cons]
    omega
  · omega

/-! ## Scanning what is printed -/

/-- Digits are taken into a number that has begun or is about to. -/
theorem run_decimal {s : State} {format : List Directive} {numbers : List ℤ} {negative : Bool}
    (hstart : ∀ c d, digit? c = some d →
      step s c = some ⟨.int :: format, .digits negative d, numbers⟩) (n : ℕ) :
    run step s (decimal n) = (⟨.int :: format, .digits negative n, numbers⟩, []) := by
  induction n using Nat.strongRecOn with
  | ind n ih =>
    by_cases h : n < 10
    · rw [decimal_of_lt h, run_cons_some (hstart _ n (digit_digitChar h)), run_nil]
    · have hrest := ih (n / 10) (by omega)
      have hall : ¬Stops step s (decimal (n / 10)) := by
        rw [Stops, hrest]
        exact fun hne => hne rfl
      have hdigit := digit_digitChar (Nat.mod_lt n (by omega : 0 < 10))
      have hlast : step ⟨.int :: format, .digits negative (n / 10), numbers⟩
          (Nat.digitChar (n % 10)).toUInt8 = some ⟨.int :: format, .digits negative n, numbers⟩ := by
        simp only [step, hdigit]
        congr 3
        omega
      rw [decimal_of_ge (by omega), run_append_of_all hall, hrest, run_cons_some hlast, run_nil]

theorem begin_digit {c : UInt8} {d : ℕ} (h : digit? c = some d) (format : List Directive)
    (numbers : List ℤ) :
    begin numbers (.int :: format) c = some ⟨.int :: format, .digits false d, numbers⟩ := by
  have hrange : 48 ≤ c ∧ c ≤ 57 := by
    by_contra hnot
    simp [digit?, hnot] at h
  have hlow : 48 ≤ c.toNat := UInt8.le_iff_toNat_le.1 hrange.1
  have hother : ∀ b : UInt8, b.toNat < 48 → c ≠ b := by
    rintro b hb rfl
    omega
  have hspace : isSpace c = false := by
    have hbig : ¬c ≤ 13 := fun hle => by
      have hle' := UInt8.le_iff_toNat_le.1 hle
      simp only [UInt8.reduceToNat] at hle'
      omega
    simp [isSpace, hother 32 (by decide), hbig]
  simp only [begin, hspace, Bool.false_eq_true, if_false, hother '-'.toUInt8 (by decide),
    hother '+'.toUInt8 (by decide), h, Option.map_some]

/-- A printed number is scanned as it is. -/
theorem run_printInt (format : List Directive) (numbers : List ℤ) (z : ℤ) :
    ∃ negative n, value negative n = z ∧
      run step ⟨.int :: format, .blank, numbers⟩ (printInt z) =
        (⟨.int :: format, .digits negative n, numbers⟩, []) := by
  unfold printInt
  split
  · refine ⟨true, z.natAbs, ?_, ?_⟩
    · simp only [value, if_pos]
      omega
    · have hsign : step ⟨.int :: format, .blank, numbers⟩ '-'.toUInt8 =
          some ⟨.int :: format, .signed true, numbers⟩ := rfl
      rw [run_cons_some hsign]
      refine run_decimal (fun c d hd => ?_) _
      simp only [step, hd, Option.map_some]
  · refine ⟨false, z.natAbs, ?_, run_decimal (fun c d hd => ?_) _⟩
    · simp only [value, Bool.false_eq_true, if_false]
      omega
    · exact begin_digit hd format numbers

/-! ## Formats -/

/-- The text that is formatted. -/
def sprintf : List Directive → List ℤ → List UInt8
  | [], _ => []
  | .byte c :: format, args => c :: sprintf format args
  | .int :: format, z :: args => printInt z ++ sprintf format args
  -- an argument is missing, which C leaves undefined
  | .int :: _, [] => []

/-- The buffer afterwards: the text, cut off at the size, a NUL, and what was there. -/
def snprintf (buf : List UInt8) (size : ℕ) (format : List Directive) (args : List ℤ) : List UInt8 :=
  let text := (sprintf format args).take (size - 1)
  text ++ 0 :: buf.drop (text.length + 1)

theorem length_snprintf {buf : List UInt8} {size : ℕ} (hsize : 0 < size) (hbuf : buf.length = size)
    (format : List Directive) (args : List ℤ) : (snprintf buf size format args).length = size := by
  simp only [snprintf, List.length_append, List.length_cons, List.length_drop, List.length_take]
  omega

/-- A printed number has no NUL. -/
theorem ne_zero_of_mem_printInt {z : ℤ} {c : UInt8} (h : c ∈ printInt z) : c ≠ 0 := by
  have hdigit : ∀ d < 10, (Nat.digitChar d).toUInt8 ≠ 0 := by decide
  have hdecimal : ∀ n, c ∈ decimal n → c ≠ 0 := by
    intro n
    induction n using Nat.strongRecOn with
    | ind n ih =>
      intro hmem
      by_cases hn : n < 10
      · rw [decimal_of_lt hn, List.mem_singleton] at hmem
        exact hmem ▸ hdigit n hn
      · rw [decimal_of_ge (by omega), List.mem_append, List.mem_singleton] at hmem
        rcases hmem with hmem | rfl
        · exact ih (n / 10) (by omega) hmem
        · exact hdigit _ (Nat.mod_lt n (by omega))
  unfold printInt at h
  split at h
  · rcases List.mem_cons.1 h with rfl | h
    · decide
    · exact hdecimal _ h
  · exact hdecimal _ h

theorem ne_zero_of_mem_sprintf (k : ℕ) {args : List ℤ} {c : UInt8}
    (h : c ∈ sprintf (commas k) args) : c ≠ 0 := by
  induction k generalizing args with
  | zero =>
    cases args with
    | nil => cases h
    | cons z args =>
      simp only [commas, sprintf, List.append_nil] at h
      exact ne_zero_of_mem_printInt h
  | succ k ih =>
    cases args with
    | nil => cases h
    | cons z args =>
      simp only [commas, sprintf, List.mem_append, List.mem_cons] at h
      rcases h with h | rfl | h
      · exact ne_zero_of_mem_printInt h
      · decide
      · exact ih h

/-- The text before the NUL is not cut off if it is shorter than the size. -/
theorem takeWhile_snprintf (buf : List UInt8) {size k : ℕ} {args : List ℤ}
    (hfits : (sprintf (commas k) args).length < size) :
    (snprintf buf size (commas k) args).takeWhile (· ≠ 0) = sprintf (commas k) args := by
  unfold snprintf
  rw [List.take_of_length_le (by omega), List.takeWhile_append_of_pos fun c hc =>
    decide_eq_true (ne_zero_of_mem_sprintf k hc)]
  simp

/-- A printed number, up to the byte after it. -/
theorem run_printInt_append (format : List Directive) (numbers : List ℤ) (z : ℤ)
    (more : List UInt8) :
    ∃ negative n, value negative n = z ∧
      run step ⟨.int :: format, .blank, numbers⟩ (printInt z ++ more) =
        run step ⟨.int :: format, .digits negative n, numbers⟩ more := by
  obtain ⟨negative, n, hvalue, hrun⟩ := run_printInt format numbers z
  have hall : ¬Stops step ⟨.int :: format, .blank, numbers⟩ (printInt z) := by
    rw [Stops, hrun]
    exact fun hne => hne rfl
  exact ⟨negative, n, hvalue, by rw [run_append_of_all hall, hrun]⟩

/-- Numbers between commas are scanned as they are printed, up to a NUL. -/
theorem run_sprintf (k : ℕ) (numbers args : List ℤ) (hargs : args.length = k + 1)
    (rest : List UInt8) :
    (run step ⟨commas k, .blank, numbers⟩ (sprintf (commas k) args ++ 0 :: rest)).1.finish =
      numbers ++ args := by
  induction k generalizing numbers args with
  | zero =>
    obtain ⟨z, rfl⟩ := List.length_eq_one_iff.1 hargs
    obtain ⟨negative, n, hvalue, hrun⟩ := run_printInt_append [] numbers z (0 :: rest)
    have htext : sprintf (commas 0) [z] ++ 0 :: rest = printInt z ++ 0 :: rest := by
      simp [commas, sprintf]
    rw [htext, commas, hrun, run_cons_none rfl, ← hvalue]
    rfl
  | succ k ih =>
    cases args with
    | nil => cases hargs
    | cons z args =>
      obtain ⟨negative, n, hvalue, hrun⟩ := run_printInt_append (.byte ','.toUInt8 :: commas k)
        numbers z (','.toUInt8 :: (sprintf (commas k) args ++ 0 :: rest))
      have htext : sprintf (commas (k + 1)) (z :: args) ++ 0 :: rest =
          printInt z ++ ','.toUInt8 :: (sprintf (commas k) args ++ 0 :: rest) := by
        simp [commas, sprintf]
      have hcomma : step ⟨.int :: .byte ','.toUInt8 :: commas k, .digits negative n, numbers⟩
          ','.toUInt8 = some ⟨commas k, .blank, numbers ++ [z]⟩ := by
        rw [← hvalue]
        rfl
      rw [htext, commas, hrun, run_cons_some hcomma, ih _ _ (Nat.succ_injective hargs),
        List.append_assoc]
      rfl

/-- A text of numbers between commas is no longer than its numbers and the commas. -/
theorem length_sprintf_le (k digits : ℕ) (args : List ℤ) (hdigits : 0 < digits)
    (hargs : ∀ z ∈ args, z.natAbs < 10 ^ digits) (hlength : args.length = k + 1) :
    (sprintf (commas k) args).length ≤ (digits + 2) * k + digits + 1 := by
  induction k generalizing args with
  | zero =>
    obtain ⟨z, rfl⟩ := List.length_eq_one_iff.1 hlength
    have hz := length_printInt_le hdigits (hargs z List.mem_cons_self)
    simp only [commas, sprintf, List.append_nil]
    omega
  | succ k ih =>
    cases args with
    | nil => cases hlength
    | cons z args =>
      have hz := length_printInt_le hdigits (hargs z List.mem_cons_self)
      have hrest := ih args (fun z hz => hargs z (List.mem_cons_of_mem _ hz))
        (Nat.succ_injective hlength)
      simp only [commas, sprintf, List.length_append, List.length_cons]
      rw [Nat.mul_succ]
      omega

/-- **The round trip.** Numbers between commas that fit into the buffer are read back from it,
whatever it held before. -/
theorem sscanf_snprintf (buf : List UInt8) {size k : ℕ} {args : List ℤ}
    (hargs : args.length = k + 1) (hfits : (sprintf (commas k) args).length < size) :
    sscanf (commas k) (snprintf buf size (commas k) args) = args := by
  unfold sscanf snprintf
  rw [List.take_of_length_le (by omega)]
  exact run_sprintf k [] args hargs _

end Printf
