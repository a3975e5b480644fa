import Mathlib.Data.List.TakeWhile
import RenogyX10.Toml.Values

set_option autoImplicit false

namespace RenogyX10.Toml

open CString

/-- A text of digits, with underscores between digits only, and these digits. -/
inductive Spelled : List UInt8 → List UInt8 → Prop
  | last {c : UInt8} (digit : isdigit c = true) : Spelled [c] [c]
  | digit {c : UInt8} {s ds : List UInt8} (digit : isdigit c = true) (rest : Spelled s ds) :
      Spelled (c :: s) (c :: ds)
  | underscore {c : UInt8} {s ds : List UInt8} (digit : isdigit c = true) (rest : Spelled s ds) :
      Spelled (c :: ascii '_' :: s) (c :: ds)

variable {s ds sign : List UInt8}

theorem isdigit_ne {c d : UInt8} (digit : isdigit c = true) (other : isdigit d = false) : c ≠ d := by
  rintro rfl
  rw [digit] at other
  cases other

namespace Spelled

theorem digits (spelled : Spelled s ds) : ∀ c ∈ ds, isdigit c = true := by
  induction spelled with
  | last digit =>
      intro c member
      rwa [List.mem_singleton.mp member]
  | digit digit _ ih | underscore digit _ ih =>
      intro c member
      cases List.mem_cons.mp member with
      | inl same => rwa [same]
      | inr rest => exact ih c rest

theorem head (spelled : Spelled s ds) :
    ∃ c t es, s = c :: t ∧ ds = c :: es ∧ isdigit c = true := by
  cases spelled with
  | last digit => exact ⟨_, _, _, rfl, rfl, digit⟩
  | digit digit _ => exact ⟨_, _, _, rfl, rfl, digit⟩
  | underscore digit _ => exact ⟨_, _, _, rfl, rfl, digit⟩

theorem strip (spelled : Spelled s ds) (room : Nat) :
    stripUnderscores room s = if ds.length < room then some ds else none := by
  have step : ∀ {c : UInt8} {t es : List UInt8} (room : Nat), isdigit c = true →
      (∀ room, stripUnderscores room t = if es.length < room then some es else none) →
        stripUnderscores room (c :: t) =
          if (c :: es).length < room then some (c :: es) else none := by
    intro c t es room digit rest
    cases room with
    | zero => rfl
    | succ room =>
        have other : c ≠ ascii '_' := isdigit_ne digit (by decide)
        rw [stripUnderscores, if_neg other, rest room]
        simp only [List.length_cons, Nat.add_lt_add_iff_right]
        split_ifs <;> rfl
  induction spelled generalizing room with
  | last digit =>
      apply step room digit
      intro room
      cases room <;> rfl
  | digit digit _ ih => exact step room digit ih
  | @underscore c t es digit rest ih =>
      apply step room digit
      intro room
      cases room with
      | zero => rfl
      | succ room =>
          obtain ⟨d, t', es', rfl, -, digit'⟩ := rest.head
          have between : ¬ (d :: t' = [] ∨ (d :: t')[0]? = some (ascii '_')) := by
            rintro (none | other)
            · cases none
            · exact isdigit_ne digit' (by decide) (Option.some.inj other)
          rw [stripUnderscores, if_pos rfl, if_neg between, ih]

end Spelled

theorem le_foldl_digits (base v : Nat) (ds : List UInt8) :
    v * base ^ ds.length ≤
      ds.foldl (fun value c => base * value + (digitValue c).getD 0) v := by
  induction ds generalizing v with
  | nil => simp
  | cons c ds ih =>
      refine Nat.le_trans ?_ (ih _)
      rw [List.length_cons, Nat.pow_succ, Nat.mul_comm _ base, ← Nat.mul_assoc, Nat.mul_comm v]
      exact Nat.mul_le_mul_right _ (Nat.le_add_right _ _)

/-- The number that the digits stand for behind a sign. -/
def signed (sign ds : List UInt8) : Int :=
  if sign = [ascii '-'] then -ofDigits 10 ds else ofDigits 10 ds

def IsSign (sign : List UInt8) : Prop := sign = [] ∨ sign = [ascii '+'] ∨ sign = [ascii '-']

def InInt64 (value : Int) : Prop := Int64.minValue.toInt ≤ value ∧ value ≤ Int64.maxValue.toInt

instance (value : Int) : Decidable (InInt64 value) := inferInstanceAs (Decidable (_ ∧ _))

theorem strtoll_decimal {c : UInt8} {es : List UInt8} (isSign : IsSign sign)
    (digits : ∀ d ∈ c :: es, isdigit d = true) (lead : c ≠ ascii '0') :
    strtoll (sign ++ c :: es) 0 = .ofValue (signed sign (c :: es)) [] := by
  have digit := digits c List.mem_cons_self
  have notSpace : isspace c = false := by
    simp only [isdigit, Bool.and_eq_true, decide_eq_true_eq] at digit
    have low : 48 ≤ c.toNat := digit.1
    simp only [isspace, Bool.or_eq_false_iff, Bool.and_eq_false_iff, decide_eq_false_iff_not]
    refine ⟨isdigit_ne (digits c List.mem_cons_self) rfl, .inr fun high => ?_⟩
    have high' : c.toNat ≤ 13 := high
    omega
  have minus : c ≠ 45 := isdigit_ne digit (by decide)
  have plus : c ≠ 43 := isdigit_ne digit (by decide)
  have zero : c ≠ 48 := lead
  have all : (c :: es).takeWhile (isDigitIn 10) = c :: es := by
    rw [List.takeWhile_eq_self_iff]
    intro d member
    rw [isDigitIn_ten]
    exact digits d member
  obtain rfl | rfl | rfl := isSign
  · simp [strtoll, notSpace, minus, plus, zero, all, signed]
  · simp [strtoll, isspace, zero, all, signed]
  · simp [strtoll, isspace, zero, all, signed]

theorem not_inInt64 {c : UInt8} {es : List UInt8} (digit : isdigit c = true)
    (lead : c ≠ ascii '0') (long : 98 ≤ es.length) : ¬ InInt64 (signed sign (c :: es)) := by
  have first : 1 ≤ 10 * 0 + (digitValue c).getD 0 := by
    simp only [isdigit, Bool.and_eq_true, decide_eq_true_eq] at digit
    have low : 48 ≤ c.toNat := digit.1
    have other : c.toNat ≠ 48 := fun same => lead (UInt8.toNat_inj.mp same)
    have value : digitValue c = some (c.toNat - 48) := if_pos (by simpa [isdigit] using digit)
    rw [value, Option.getD_some]
    omega
  have large : 10 ^ 98 ≤ ofDigits 10 (c :: es) := by
    calc 10 ^ 98
      _ ≤ 10 ^ es.length := Nat.pow_le_pow_right (by omega) long
      _ ≤ (10 * 0 + (digitValue c).getD 0) * 10 ^ es.length := Nat.le_mul_of_pos_left _ first
      _ ≤ ofDigits 10 (c :: es) := le_foldl_digits 10 _ es
  have least : Int64.minValue.toInt = -9223372036854775808 := rfl
  have most : Int64.maxValue.toInt = 9223372036854775807 := rfl
  unfold InInt64 signed
  rw [least, most]
  split_ifs <;> omega

/-- A decimal integer, of any length, is read exactly when it is in the range of its type. -/
theorem tomlRtoi_decimal (isSign : IsSign sign) (spelled : Spelled s ds)
    (lead : s = [ascii '0'] ∨ ds.head? ≠ some (ascii '0')) :
    tomlRtoi (sign ++ s) =
      if InInt64 (signed sign ds) then some (Int64.ofInt (signed sign ds)) else none := by
  obtain ⟨c, t, es, rfl, rfl, digit⟩ := spelled.head
  have taken : (if (sign ++ c :: t).head?.any Toml.isSign then (sign ++ c :: t).take 1 else []) =
      sign := by
    have plus : c ≠ 43 := isdigit_ne digit (by decide)
    have minus : c ≠ 45 := isdigit_ne digit (by decide)
    obtain rfl | rfl | rfl := isSign
    · simp [Toml.isSign, plus, minus]
    · rfl
    · rfl
  have underscore : c ≠ ascii '_' := isdigit_ne digit (by decide)
  unfold tomlRtoi
  dsimp only
  rw [taken, List.drop_left, List.getElem?_cons_zero,
    if_neg (fun same => underscore (Option.some.inj same))]
  cases lead with
  | inl zero =>
      obtain ⟨rfl, rfl⟩ := List.cons.inj zero
      have none : es = [] := by
        cases spelled with
        | last _ => rfl
        | digit _ rest =>
            obtain ⟨_, _, _, more, -, -⟩ := rest.head
            cases more
      rw [none, if_pos rfl]
      obtain rfl | rfl | rfl := isSign <;> rfl
  | inr lead =>
      have notZero : c ≠ ascii '0' := fun same => lead (congrArg some same)
      rw [if_neg (fun same => notZero (List.cons.inj same).1)]
      have decimal : radix (c :: t) = some (0, c :: t) :=
        if_pos fun same => notZero (Option.some.inj same)
      rw [decimal]
      dsimp only
      rw [spelled.strip]
      by_cases room : (c :: es).length < 100 - sign.length
      · rw [if_pos room]
        dsimp only
        rw [strtoll_decimal isSign spelled.digits notZero]
        unfold Strtoll.ofValue InInt64
        split_ifs <;> first | rfl | omega | simp_all
      · rw [if_neg room, if_neg (not_inInt64 digit notZero ?_)]
        have short : sign.length ≤ 1 := by
          obtain rfl | rfl | rfl := isSign <;> decide
        rw [List.length_cons] at room
        omega

/-- The integer that is read is the one that is spelled; only one that is out of range is
refused. -/
theorem decimal_read_in_range (isSign : IsSign sign) (spelled : Spelled s ds)
    (lead : s = [ascii '0'] ∨ ds.head? ≠ some (ascii '0')) :
    (InInt64 (signed sign ds) ∧
        ∃ i, tomlRtoi (sign ++ s) = some i ∧ i.toInt = signed sign ds) ∨
      (¬ InInt64 (signed sign ds) ∧ tomlRtoi (sign ++ s) = none) := by
  rw [tomlRtoi_decimal isSign spelled lead]
  by_cases range : InInt64 (signed sign ds)
  · left
    refine ⟨range, _, if_pos range, ?_⟩
    exact Int64.toInt_ofInt_of_le range.1 (Int.lt_add_one_of_le range.2)
  · exact .inr ⟨range, if_neg range⟩

/-- `-1_0` -/
theorem decimal_read_minus_ten : ∃ i, tomlRtoi (text "-1_0") = some i ∧ i.toInt = -10 :=
  (@decimal_read_in_range (text "1_0") (text "10") (text "-") (.inr (.inr rfl))
    (.underscore rfl (.last rfl)) (.inr (by decide))).elim And.right
    fun out => absurd (by decide) out.1

end RenogyX10.Toml
