import Mathlib.Tactic.Common

set_option autoImplicit false

/- Texts that end with a NUL, as C reads them: a pointer is the list of bytes from it
to the NUL, which is not part of the list. -/
namespace RenogyX10.CString

/-- The byte of a character constant. -/
abbrev ascii (c : Char) : UInt8 := UInt8.ofNat c.toNat

/-- `strspn`, for the bytes of a class. -/
def strspn (accept : UInt8 → Bool) (p : List UInt8) : Nat := (p.takeWhile accept).length

def isdigit (c : UInt8) : Bool := ascii '0' ≤ c && c ≤ ascii '9'

/-- `isalnum`, in the C locale -/
def isalnum (c : UInt8) : Bool :=
  isdigit c || (ascii 'A' ≤ c && c ≤ ascii 'Z') || (ascii 'a' ≤ c && c ≤ ascii 'z')

def strstr (needle : List UInt8) : List UInt8 → Option Nat
  | [] => if needle = [] then some 0 else none
  | c :: p => if needle.isPrefixOf (c :: p) then some 0 else (strstr needle p).map (· + 1)

/-- `isspace`, in the C locale -/
def isspace (c : UInt8) : Bool := c = ascii ' ' || (0x09 ≤ c && c ≤ 0x0d)

/-- The value of a digit; letters stand for the digits from ten on. -/
def digitValue (c : UInt8) : Option Nat :=
  if isdigit c then some (c.toNat - (ascii '0').toNat)
  else if ascii 'a' ≤ c ∧ c ≤ ascii 'z' then some (c.toNat - (ascii 'a').toNat + 10)
  else if ascii 'A' ≤ c ∧ c ≤ ascii 'Z' then some (c.toNat - (ascii 'A').toNat + 10)
  else none

def isDigitIn (base : Nat) (c : UInt8) : Bool := (digitValue c).any (· < base)

def ofDigits (base : Nat) (digits : List UInt8) : Nat :=
  digits.foldl (fun value c => base * value + (digitValue c).getD 0) 0

/-- What `strtoll` returns, where it stops, and whether `errno` is `ERANGE`. -/
structure Strtoll where
  value : Int
  endp : List UInt8
  erange : Bool := false
deriving DecidableEq

/-- A value that is out of range is the nearest one that is not. -/
def Strtoll.ofValue (value : Int) (endp : List UInt8) : Strtoll :=
  if value < Int64.minValue.toInt then
    { value := Int64.minValue.toInt, endp := endp, erange := true }
  else if Int64.maxValue.toInt < value then
    { value := Int64.maxValue.toInt, endp := endp, erange := true }
  else { value := value, endp := endp }

/-- `strtoll`. Without a digit nothing is converted, `endp` is `nptr` and `errno` is left
alone. -/
def strtoll (nptr : List UInt8) (base : Nat) : Strtoll :=
  let s := nptr.dropWhile isspace
  let negative := s[0]? = some (ascii '-')
  let s := if negative ∨ s[0]? = some (ascii '+') then s.drop 1 else s
  let zero := s[0]? = some (ascii '0')
  let hex := zero ∧ (base = 0 ∨ base = 16) ∧ (s[1]? = some (ascii 'x') ∨ s[1]? = some (ascii 'X'))
  let base := if base ≠ 0 then base else if hex then 16 else if zero then 8 else 10
  let start := if hex then s.drop 2 else s
  let digits := start.takeWhile (isDigitIn base)
  if digits = [] then { value := 0, endp := if hex then s.drop 1 else nptr }
  else
    .ofValue (if negative then -ofDigits base digits else ofDigits base digits)
      (start.drop digits.length)

theorem isDigitIn_ten (c : UInt8) : isDigitIn 10 c = isdigit c := by
  unfold isDigitIn digitValue
  split_ifs with digit lower upper
  · have last : c ≤ ascii '9' := by
      simp only [isdigit, Bool.and_eq_true, decide_eq_true_eq] at digit
      exact digit.2
    have small : c.toNat ≤ 57 := last
    rw [digit]
    simp only [Option.any_some, decide_eq_true_eq]
    show c.toNat - 48 < 10
    omega
  · simp [digit]
  · simp [digit]
  · simp [digit]

/-- Nothing is converted when a decimal number cannot begin with the first byte. -/
theorem strtoll_unread {c : UInt8} {p : List UInt8} (space : isspace c = false)
    (minus : c ≠ ascii '-') (plus : c ≠ ascii '+') (digit : isdigit c = false) :
    (strtoll (c :: p) 0).endp = c :: p := by
  have zero : c ≠ ascii '0' := by
    rintro rfl
    exact absurd digit (by decide)
  have numerals : c ≠ 45 ∧ c ≠ 43 ∧ c ≠ 48 := ⟨minus, plus, zero⟩
  have none : (c :: p).takeWhile (isDigitIn 10) = [] := by
    rw [List.takeWhile_cons_of_neg]
    rw [isDigitIn_ten, digit]
    exact Bool.false_ne_true
  simp [strtoll, space, numerals, none]

theorem strspn_cons {accept : UInt8 → Bool} {c : UInt8} {p : List UInt8} (accepted : accept c = true) :
    strspn accept (c :: p) = strspn accept p + 1 := by
  rw [strspn, List.takeWhile_cons_of_pos accepted, List.length_cons]
  rfl

theorem strspn_le (accept : UInt8 → Bool) (p : List UInt8) : strspn accept p ≤ p.length :=
  (List.takeWhile_prefix accept).length_le

theorem strspn_append {accept : UInt8 → Bool} {run rest : List UInt8}
    (accepted : ∀ c ∈ run, accept c = true) (ends : ∀ c ∈ rest.head?, accept c = false) :
    strspn accept (run ++ rest) = run.length := by
  induction run with
  | nil =>
      cases rest with
      | nil => rfl
      | cons c rest =>
          have stops : ¬ accept c = true := by
            rw [ends c rfl]
            exact Bool.false_ne_true
          rw [List.nil_append, strspn, List.takeWhile_cons_of_neg stops]
  | cons c run ih =>
      rw [List.cons_append, strspn_cons (accepted c List.mem_cons_self), List.length_cons, ih]
      exact fun other member => accepted other (List.mem_cons_of_mem c member)

end RenogyX10.CString
