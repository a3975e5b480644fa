import RenogyX10.Lib.Checked

set_option autoImplicit false

/- Unsigned decimal numbers as Zig's `std.fmt.parseInt` reads them: one sign, and
underscores between the digits. In bytes `+` is 43, `-` is 45, `_` is 95 and the
digits are 48 to 57. -/
namespace RenogyX10.ParseInt

inductive ParseIntError where
  | invalidCharacter
  | overflow
deriving DecidableEq

def charToDigit (c : UInt8) : Option Nat :=
  if 48 ≤ c ∧ c ≤ 57 then some (c.toNat - 48) else none

/-- One more digit, at the end of the accumulator. -/
def accumulate (bits : Nat) (negative : Bool) (acc digit : Nat) : Option Nat :=
  if acc ≠ 0 then
    (Checked.unsigned bits (acc * 10)).bind fun scaled =>
      if negative then (if digit ≤ scaled then some (scaled - digit) else none)
      else Checked.unsigned bits (scaled + digit)
  else if negative then (if digit = 0 then some 0 else none)
  else Checked.unsigned bits (acc + digit)

def parseDigits (bits : Nat) (negative : Bool) : Nat → List UInt8 → Except ParseIntError Nat
  | acc, [] => .ok acc
  | acc, c :: rest =>
      if c = 95 then parseDigits bits negative acc rest
      else match charToDigit c with
        | none => .error .invalidCharacter
        | some digit => match accumulate bits negative acc digit with
          | none => .error .overflow
          | some acc => parseDigits bits negative acc rest

def parseIntWithSign (bits : Nat) (negative : Bool) (buf : List UInt8) :
    Except ParseIntError Nat :=
  if buf = [] then .error .invalidCharacter
  else if buf.head? = some 95 ∨ buf.getLast? = some 95 then .error .invalidCharacter
  else parseDigits bits negative 0 buf

def parseInt (bits : Nat) : List UInt8 → Except ParseIntError Nat
  | [] => .error .invalidCharacter
  | c :: rest =>
      if c = 43 then parseIntWithSign bits false rest
      else if c = 45 then parseIntWithSign bits true rest
      else parseIntWithSign bits false (c :: rest)

/-- The value of digits, underscores apart, behind those read so far. -/
def decimal (acc : Nat) (buf : List UInt8) : Nat :=
  (buf.filter fun c => c ≠ 95).foldl (fun acc c => acc * 10 + (c.toNat - 48)) acc

/-- The number a text spells, without its sign. -/
def numberOf : List UInt8 → Nat
  | [] => 0
  | c :: rest => if c = 43 ∨ c = 45 then decimal 0 rest else decimal 0 (c :: rest)

variable {bits : Nat}

@[simp] theorem decimal_underscore (acc : Nat) (rest : List UInt8) :
    decimal acc (95 :: rest) = decimal acc rest := by
  simp [decimal]

theorem decimal_digit {c : UInt8} (acc : Nat) (rest : List UInt8) (isDigit : c ≠ 95) :
    decimal acc (c :: rest) = decimal (acc * 10 + (c.toNat - 48)) rest := by
  simp [decimal, isDigit]

theorem charToDigit_value {c : UInt8} {digit : Nat} (isDigit : charToDigit c = some digit) :
    digit = c.toNat - 48 := by
  unfold charToDigit at isDigit
  split at isDigit
  · exact (Option.some.inj isDigit).symm
  · cases isDigit

theorem accumulate_value {negative : Bool} {acc digit next : Nat}
    (fits : accumulate bits negative acc digit = some next) (zero : negative = true → acc = 0) :
    next = acc * 10 + digit ∧ (negative = true → next = 0) := by
  cases negative with
  | true =>
      obtain rfl := zero rfl
      by_cases isZero : digit = 0
      · subst isZero
        obtain rfl : 0 = next := by simpa [accumulate] using fits
        exact ⟨rfl, fun _ => rfl⟩
      · simp [accumulate, isZero] at fits
  | false =>
      refine ⟨?_, nofun⟩
      by_cases first : acc = 0
      · simp only [accumulate, first, ne_eq, not_true_eq_false, ↓reduceIte, Bool.false_eq_true,
          Checked.unsigned] at fits
        split at fits
        · cases fits
          omega
        · cases fits
      · simp only [accumulate, first, ne_eq, not_false_eq_true, ↓reduceIte, Bool.false_eq_true,
          Checked.unsigned, Option.bind_eq_some_iff, Option.ite_none_right_eq_some,
          Option.some.injEq] at fits
        obtain ⟨_, ⟨_, rfl⟩, _, rfl⟩ := fits
        rfl

theorem parseDigits_value {negative : Bool} {acc value : Nat} {buf : List UInt8}
    (parsed : parseDigits bits negative acc buf = .ok value) (zero : negative = true → acc = 0) :
    value = decimal acc buf := by
  induction buf generalizing acc with
  | nil =>
      cases parsed
      rfl
  | cons c rest ih =>
      rw [parseDigits] at parsed
      by_cases isUnderscore : c = 95
      · rw [if_pos isUnderscore] at parsed
        rw [isUnderscore, decimal_underscore]
        exact ih parsed zero
      · rw [if_neg isUnderscore] at parsed
        rw [decimal_digit acc rest isUnderscore]
        cases isDigit : charToDigit c with
        | none => simp [isDigit] at parsed
        | some digit =>
            cases fits : accumulate bits negative acc digit with
            | none => simp [isDigit, fits] at parsed
            | some next =>
                obtain ⟨grown, still⟩ := accumulate_value fits zero
                rw [← charToDigit_value isDigit, ← grown]
                simp only [isDigit, fits] at parsed
                exact ih parsed still

theorem unsigned_lt {value result : Nat} (fits : Checked.unsigned bits value = some result) :
    result < 2 ^ bits := by
  unfold Checked.unsigned at fits
  split at fits
  · cases fits
    assumption
  · cases fits

theorem accumulate_lt {negative : Bool} {acc digit next : Nat}
    (fits : accumulate bits negative acc digit = some next) : next < 2 ^ bits := by
  unfold accumulate at fits
  split at fits
  · obtain ⟨scaled, isScaled, fits⟩ := Option.bind_eq_some_iff.mp fits
    have small : scaled < 2 ^ bits := unsigned_lt isScaled
    split at fits
    · split at fits
      · cases fits
        omega
      · cases fits
    · exact unsigned_lt fits
  · split at fits
    · split at fits
      · cases fits
        exact Nat.two_pow_pos bits
      · cases fits
    · exact unsigned_lt fits

theorem parseDigits_lt {negative : Bool} {acc value : Nat} {buf : List UInt8}
    (parsed : parseDigits bits negative acc buf = .ok value) (small : acc < 2 ^ bits) :
    value < 2 ^ bits := by
  induction buf generalizing acc with
  | nil =>
      cases parsed
      exact small
  | cons c rest ih =>
      rw [parseDigits] at parsed
      split at parsed
      · exact ih parsed small
      · cases isDigit : charToDigit c with
        | none => simp [isDigit] at parsed
        | some digit =>
            cases fits : accumulate bits negative acc digit with
            | none => simp [isDigit, fits] at parsed
            | some next =>
                simp only [isDigit, fits] at parsed
                exact ih parsed (accumulate_lt fits)

theorem parseIntWithSign_value {negative : Bool} {value : Nat} {buf : List UInt8}
    (parsed : parseIntWithSign bits negative buf = .ok value) :
    value = decimal 0 buf ∧ value < 2 ^ bits := by
  unfold parseIntWithSign at parsed
  split at parsed
  · cases parsed
  · split at parsed
    · cases parsed
    · exact ⟨parseDigits_value parsed fun _ => rfl, parseDigits_lt parsed (Nat.two_pow_pos bits)⟩

/-- A text that is read is read as the number it spells, which fits. -/
theorem parseInt_value {value : Nat} {buf : List UInt8} (parsed : parseInt bits buf = .ok value) :
    value = numberOf buf ∧ value < 2 ^ bits := by
  cases buf with
  | nil => cases parsed
  | cons c rest =>
      rw [parseInt] at parsed
      rw [numberOf]
      by_cases plus : c = 43
      · rw [if_pos plus] at parsed
        rw [if_pos (Or.inl plus)]
        exact parseIntWithSign_value parsed
      · rw [if_neg plus] at parsed
        by_cases minus : c = 45
        · rw [if_pos minus] at parsed
          rw [if_pos (Or.inr minus)]
          exact parseIntWithSign_value parsed
        · rw [if_neg minus] at parsed
          rw [if_neg (not_or.mpr ⟨plus, minus⟩)]
          exact parseIntWithSign_value parsed

end RenogyX10.ParseInt
