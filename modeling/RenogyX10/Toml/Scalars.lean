import RenogyX10.Toml.Integers
import RenogyX10.Toml.Render

set_option autoImplicit false

namespace RenogyX10.Toml

open CString

def decimalDigits (value : Nat) : List UInt8 :=
  (Nat.toDigits 10 value).map fun digit => UInt8.ofNat digit.toNat

def signOf (value : Int) : List UInt8 := if value < 0 then [ascii '-'] else []

def signedDigits (value : Int) : List UInt8 := signOf value ++ decimalDigits value.natAbs

/-- A value as it is written; the calls of `toml.h` that are used here read no others. -/
def rawOf : Value → List UInt8
  | .string bytes => quote bytes
  | .bool value => if value then text "true" else text "false"
  | .int value => signedDigits value.toInt
  | .other => []

variable {rest : List UInt8} {lineno : Nat}

section Decimal

theorem digitByte_eq {n : Nat} (small : n < 10) :
    UInt8.ofNat (Nat.digitChar n).toNat = UInt8.ofNat (48 + n) := by
  have all : ∀ n, n < 10 → UInt8.ofNat (Nat.digitChar n).toNat = UInt8.ofNat (48 + n) := by decide
  exact all n small

theorem decimal_eq (n : Nat) :
    decimalDigits n = (if n < 10 then [] else decimalDigits (n / 10)) ++ [UInt8.ofNat (48 + n % 10)] := by
  unfold decimalDigits
  rw [Nat.toDigits_eq_if (by omega)]
  split_ifs with small
  · have same : n % 10 = n := Nat.mod_eq_of_lt small
    rw [same, ← digitByte_eq small]
    rfl
  · rw [List.map_append, ← digitByte_eq (Nat.mod_lt n (by omega))]
    rfl

theorem isdigit_digit {n : Nat} (small : n < 10) : isdigit (UInt8.ofNat (48 + n)) = true := by
  have all : ∀ n, n < 10 → isdigit (UInt8.ofNat (48 + n)) = true := by decide
  exact all n small

theorem digitValue_digit {n : Nat} (small : n < 10) :
    digitValue (UInt8.ofNat (48 + n)) = some n := by
  have all : ∀ n, n < 10 → digitValue (UInt8.ofNat (48 + n)) = some n := by decide
  exact all n small

theorem isdigit_decimal (n : Nat) : ∀ c ∈ decimalDigits n, isdigit c = true := by
  induction n using Nat.strong_induction_on with
  | _ n ih =>
      rw [decimal_eq]
      intro c member
      rw [List.mem_append, List.mem_singleton] at member
      obtain front | rfl := member
      · split_ifs at front with small
        · cases front
        · exact ih (n / 10) (by omega) c front
      · exact isdigit_digit (Nat.mod_lt n (by omega))

theorem ofDigits_decimal (n : Nat) : ofDigits 10 (decimalDigits n) = n := by
  induction n using Nat.strong_induction_on with
  | _ n ih =>
      have last := digitValue_digit (Nat.mod_lt n (show 0 < 10 by omega))
      rw [decimal_eq, ofDigits, List.foldl_append, List.foldl_cons, List.foldl_nil, last]
      split_ifs with small
      · simp [Nat.mod_eq_of_lt small]
      · have front : ofDigits 10 (decimalDigits (n / 10)) = n / 10 := ih (n / 10) (by omega)
        rw [ofDigits] at front
        rw [front, Option.getD_some]
        omega

theorem head_decimal {n : Nat} (positive : 0 < n) : (decimalDigits n).head? ≠ some (ascii '0') := by
  induction n using Nat.strong_induction_on with
  | _ n ih =>
      rw [decimal_eq]
      split_ifs with small
      · rw [Nat.mod_eq_of_lt small]
        have all : ∀ n, n < 10 → 0 < n → ([] ++ [UInt8.ofNat (48 + n)]).head? ≠ some (ascii '0') := by
          decide
        exact all n small positive
      · have front := ih (n / 10) (by omega) (by omega)
        rw [List.head?_append]
        cases first : (decimalDigits (n / 10)).head? with
        | some c =>
            rw [first] at front
            exact front
        | none =>
            rw [List.head?_eq_none_iff, decimal_eq] at first
            simp at first

theorem decimal_cons (n : Nat) : ∃ c p, decimalDigits n = c :: p ∧ isdigit c = true := by
  have digits := isdigit_decimal n
  cases eq : decimalDigits n with
  | nil =>
      rw [decimal_eq] at eq
      simp at eq
  | cons c p =>
      rw [eq] at digits
      exact ⟨c, p, rfl, digits c List.mem_cons_self⟩

theorem spelled_digits {c : UInt8} {p : List UInt8} (digits : ∀ d ∈ c :: p, isdigit d = true) :
    Spelled (c :: p) (c :: p) := by
  induction p generalizing c with
  | nil => exact .last (digits c List.mem_cons_self)
  | cons d p ih =>
      exact .digit (digits c List.mem_cons_self)
        (ih fun e member => digits e (List.mem_cons_of_mem c member))

theorem signed_decimal (value : Int) : signed (signOf value) (decimalDigits value.natAbs) = value := by
  rw [signed, ofDigits_decimal, signOf]
  by_cases negative : value < 0
  · rw [if_pos negative, if_pos rfl]
    omega
  · rw [if_neg negative, if_neg (List.cons_ne_nil _ _).symm]
    omega

theorem tomlRtoi_signedDigits {value : Int} (range : InInt64 value) :
    tomlRtoi (signedDigits value) = some (Int64.ofInt value) := by
  have isSign : IsSign (signOf value) := by
    unfold signOf
    split_ifs
    · exact .inr (.inr rfl)
    · exact .inl rfl
  have lead : decimalDigits value.natAbs = [ascii '0'] ∨
      (decimalDigits value.natAbs).head? ≠ some (ascii '0') := by
    cases Nat.eq_zero_or_pos value.natAbs with
    | inl zero =>
        rw [zero]
        exact .inl rfl
    | inr positive => exact .inr (head_decimal positive)
  obtain ⟨c, p, eq, -⟩ := decimal_cons value.natAbs
  have digits := isdigit_decimal value.natAbs
  rw [eq] at digits
  have spelled : Spelled (decimalDigits value.natAbs) (decimalDigits value.natAbs) := by
    rw [eq]
    exact spelled_digits digits
  rw [signedDigits, tomlRtoi_decimal isSign spelled lead, signed_decimal, if_pos range]

end Decimal

section Tokens

theorem scanDigits_take {n ret value : Nat} {p : List UInt8}
    (scanned : scanDigits n p ret = some value) :
    n ≤ p.length ∧ ∀ c ∈ p.take n, isdigit c = true := by
  induction n generalizing p ret with
  | zero => exact ⟨Nat.zero_le _, fun c member => by simp at member⟩
  | succ n ih =>
      cases p with
      | nil => cases scanned
      | cons c p =>
          rw [scanDigits] at scanned
          split_ifs at scanned with digit
          obtain ⟨long, digits⟩ := ih scanned
          refine ⟨Nat.succ_le_succ long, ?_⟩
          intro d member
          rw [List.take_succ_cons, List.mem_cons] at member
          obtain rfl | later := member
          · exact digit
          · exact digits d later

theorem separated_digits {n ret value : Nat} {ds : List UInt8} {separator : UInt8}
    (digits : ∀ c ∈ ds, isdigit c = true)
    (scanned : scanDigits n (ds ++ ascii '\n' :: rest) ret = some value)
    (other : isdigit separator = false) (notNewline : separator ≠ ascii '\n') :
    separated (ds ++ ascii '\n' :: rest) n separator = none := by
  obtain ⟨long, taken⟩ := scanDigits_take scanned
  apply if_neg
  intro found
  rcases Nat.lt_trichotomy n ds.length with inside | rfl | beyond
  · rw [List.getElem?_append_left inside] at found
    exact isdigit_ne (digits separator (List.mem_of_getElem? found)) other rfl
  · rw [List.getElem?_append_right (Nat.le_refl _), Nat.sub_self] at found
    exact notNewline (Option.some.inj found).symm
  · have newline : ascii '\n' ∈ (ds ++ ascii '\n' :: rest).take n := by
      rw [List.take_append]
      apply List.mem_append_right
      obtain ⟨k, rfl⟩ : ∃ k, n = ds.length + (k + 1) := ⟨n - ds.length - 1, by omega⟩
      rw [Nat.add_sub_cancel_left, List.take_succ_cons]
      exact List.mem_cons_self
    exact absurd (taken _ newline) (by decide)

theorem scanDate_digits {ds : List UInt8} (digits : ∀ c ∈ ds, isdigit c = true) :
    scanDate (ds ++ ascii '\n' :: rest) = none := by
  unfold scanDate
  cases scanned : scanDigits 4 (ds ++ ascii '\n' :: rest) 0 with
  | none => rfl
  | some year =>
      rw [separated_digits digits scanned (by decide) (by decide)]
      rfl

theorem scanTime_digits {ds : List UInt8} (digits : ∀ c ∈ ds, isdigit c = true) :
    scanTime (ds ++ ascii '\n' :: rest) = none := by
  unfold scanTime
  cases scanned : scanDigits 2 (ds ++ ascii '\n' :: rest) 0 with
  | none => rfl
  | some hour =>
      rw [separated_digits digits scanned (by decide) (by decide)]
      rfl

/-- What a value on a line may begin with. -/
structure Begins (c : UInt8) : Prop where
  mark : punctuation c = none
  comment : c ≠ ascii '#'
  blank : isBlank c = false

theorem isToken_of_scan {c : UInt8} {p : List UInt8} (begins : Begins c)
    (scan : ∀ lineno rest, scanString (c :: p ++ ascii '\n' :: rest) lineno false =
      .ok (setToken .string lineno (c :: p ++ ascii '\n' :: rest) (c :: p).length)) :
    IsToken (c :: p) where
  skip rest := by
    rw [List.cons_append, skipBlank, if_neg begins.comment, if_neg]
    rw [begins.blank]
    exact Bool.false_ne_true
  scan lineno rest := by
    rw [← scan lineno rest]
    unfold tokenAt
    rw [List.cons_append]
    dsimp only
    rw [if_neg (fun both => Bool.false_ne_true both.1), begins.mark]

theorem isToken_quote (bytes : List UInt8) : IsToken (quote bytes) :=
  isToken_of_scan ⟨rfl, by decide, rfl⟩ fun lineno rest =>
    scanString_quote bytes false fun same => nomatch same

theorem isToken_bool (value : Bool) : IsToken (rawOf (.bool value)) := by
  have literal : ∀ (c : UInt8) (p : List UInt8), Begins c → c ≠ ascii '\'' → c ≠ ascii '"' →
      isdigit c = false → (c :: p).all (isLiteral false) = true → IsToken (c :: p) := by
    intro c p begins single double digit all
    exact isToken_of_scan begins fun lineno rest =>
      scanString_literal single double (scanDate_none digit) (scanTime_none digit)
        (List.all_eq_true.mp all) rfl
  cases value with
  | true => exact literal _ _ ⟨rfl, by decide, rfl⟩ (by decide) (by decide) rfl (by decide)
  | false => exact literal _ _ ⟨rfl, by decide, rfl⟩ (by decide) (by decide) rfl (by decide)

theorem begins_digit {c : UInt8} (digit : isdigit c = true) : Begins c := by
  have other : ∀ d, isdigit d = false → c ≠ d := fun d => isdigit_ne digit
  refine ⟨?_, other _ rfl, ?_⟩
  · unfold punctuation
    rw [if_neg (other _ rfl), if_neg (other _ rfl), if_neg (other _ rfl), if_neg (other _ rfl),
      if_neg (other _ rfl), if_neg (other _ rfl), if_neg (other _ rfl)]
  · simp only [isBlank, Bool.or_eq_false_iff, decide_eq_false_iff_not]
    exact ⟨⟨other _ rfl, other _ rfl⟩, other _ rfl⟩

theorem isLiteral_digit {c : UInt8} (digit : isdigit c = true) : isLiteral false c = true := by
  simp [isLiteral, isalnum, digit]

theorem isToken_signedDigits (value : Int) : IsToken (signedDigits value) := by
  have digits := isdigit_decimal value.natAbs
  unfold signedDigits signOf
  by_cases negative : value < 0
  · rw [if_pos negative, List.singleton_append]
    refine isToken_of_scan ⟨rfl, by decide, rfl⟩ fun lineno rest =>
      scanString_literal (by decide) (by decide) (scanDate_none rfl) (scanTime_none rfl) ?_ rfl
    intro d member
    obtain rfl | later := List.mem_cons.mp member
    · rfl
    · exact isLiteral_digit (digits d later)
  · rw [if_neg negative, List.nil_append]
    obtain ⟨c, p, eq, digit⟩ := decimal_cons value.natAbs
    rw [eq] at digits ⊢
    exact isToken_of_scan (begins_digit digit) fun lineno rest =>
      scanString_literal (isdigit_ne digit (by decide)) (isdigit_ne digit (by decide))
        (scanDate_digits digits) (scanTime_digits digits)
        (fun d member => isLiteral_digit (digits d member)) rfl

end Tokens

section Values

/-- A value that can be written so that it is read as it was. -/
def IsScalar : Value → Prop
  | .string bytes => 0 ∉ bytes
  | .bool _ | .int _ => True
  | .other => False

theorem isToken_rawOf {value : Value} (scalar : IsScalar value) : IsToken (rawOf value) := by
  cases value with
  | string bytes => exact isToken_quote bytes
  | bool value => exact isToken_bool value
  | int value => exact isToken_signedDigits value.toInt
  | other => exact absurd scalar id

theorem zero_notMem_quoteByte (c : UInt8) : 0 ∉ quoteByte c := by
  unfold quoteByte
  split_ifs with special escapes
  · obtain rfl | rfl := special <;> decide
  · have nonzero : ∀ n, n < 16 → hexChar n ≠ 0 := by decide
    have high := nonzero (c.toNat / 16) (by have := c.toNat_lt; omega)
    have low := nonzero (c.toNat % 16) (by omega)
    simp [unicodeEscape, high.symm, low.symm]
  · rw [List.mem_singleton]
    rintro rfl
    exact escapes (.inl rfl)

theorem zero_notMem_rawOf (value : Value) : 0 ∉ rawOf value := by
  cases value with
  | string bytes =>
      intro member
      rw [rawOf, quote, List.mem_cons, List.mem_append, List.mem_singleton] at member
      obtain first | body | last := member
      · cases first
      · obtain ⟨c, -, inByte⟩ := List.mem_flatMap.mp body
        exact zero_notMem_quoteByte c inByte
      · cases last
  | bool value => cases value <;> decide
  | int value =>
      intro member
      rw [rawOf, signedDigits, List.mem_append] at member
      obtain sign | digits := member
      · unfold signOf at sign
        split_ifs at sign
        · exact absurd sign (by decide)
        · cases sign
      · exact absurd (isdigit_decimal _ 0 digits) (by decide)
  | other => exact List.not_mem_nil

theorem stringOf_none {c : UInt8} {p : List UInt8} (single : c ≠ ascii '\'')
    (double : c ≠ ascii '"') : stringOf (c :: p) = none := by
  unfold stringOf tomlRtos
  dsimp only
  rw [if_pos ⟨single, double⟩]

theorem inInt64_toInt (value : Int64) : InInt64 value.toInt :=
  ⟨value.minValue_le_toInt, value.toInt_le⟩

theorem valueOf_signedDigits (value : Int64) : valueOf (signedDigits value.toInt) = .int value := by
  have read := tomlRtoi_signedDigits (inInt64_toInt value)
  rw [Int64.ofInt_toInt] at read
  have head : ∃ c p, signedDigits value.toInt = c :: p ∧ (c = ascii '-' ∨ isdigit c = true) := by
    unfold signedDigits signOf
    split_ifs
    · exact ⟨_, _, rfl, .inl rfl⟩
    · obtain ⟨c, p, eq, digit⟩ := decimal_cons value.toInt.natAbs
      exact ⟨c, p, eq, .inr digit⟩
  obtain ⟨c, p, eq, first⟩ := head
  have other : ∀ d, isdigit d = false → d ≠ ascii '-' → c ≠ d := by
    rintro d no notMinus rfl
    obtain minus | digit := first
    · exact notMinus minus
    · rw [digit] at no
      cases no
  have noString : stringOf (signedDigits value.toInt) = none := by
    rw [eq]
    exact stringOf_none (other _ rfl (by decide)) (other _ rfl (by decide))
  have noBool : tomlRtob (signedDigits value.toInt) = none := by
    rw [eq]
    exact tomlRtob_none (other _ rfl (by decide)) (other _ rfl (by decide))
  rw [valueOf, noString, noBool, read]

theorem valueOf_rawOf {value : Value} (scalar : IsScalar value) : valueOf (rawOf value) = value := by
  cases value with
  | string bytes => rw [rawOf, valueOf, stringOf_quote, sliceTo_eq_iff.mpr scalar]
  | bool value => cases value <;> rfl
  | int value => exact valueOf_signedDigits value
  | other => exact absurd scalar id

end Values

section Documents

/-- A document of tables of values, as it is written. -/
def write (doc : List (Key × Table)) : List UInt8 :=
  render (doc.map fun e => (e.1, e.2.map fun line => (line.1, rawOf line.2)))

/-- A document that can be written with bare keys, and with strings that have no NUL. -/
structure IsWritable (doc : List (Key × Table)) : Prop where
  names : (doc.map Prod.fst).Nodup
  name : ∀ e ∈ doc, IsBare e.1
  keys : ∀ e ∈ doc, (e.2.map Prod.fst).Nodup
  key : ∀ e ∈ doc, ∀ line ∈ e.2, IsBare line.1
  scalar : ∀ e ∈ doc, ∀ line ∈ e.2, IsScalar line.2

theorem tableOf_kval {lines : Table} (scalar : ∀ line ∈ lines, IsScalar line.2) :
    tableOf { kval := lines.map fun line => (line.1, rawOf line.2) } = lines := by
  simp only [tableOf, List.map_nil, List.append_nil, List.map_map]
  conv_rhs => rw [← List.map_id lines]
  apply List.map_congr_left
  intro line member
  exact Prod.ext rfl (valueOf_rawOf (scalar line member))

theorem tableAt_nodesOf {doc : Sections} {i : Nat} {e : Key × List (Key × List UInt8)}
    (found : doc[i]? = some e) : tableAt (nodesOf doc) (i + 1) = { kval := e.2 } := by
  rw [tableAt, nodesOf, List.getElem?_cons_succ, List.getElem?_map, found]
  rfl

theorem documentOf_nodesOf (doc : Sections) :
    documentOf (nodesOf doc) = doc.map fun e => (e.1, some (tableOf { kval := e.2 })) := by
  apply List.ext_getElem?
  intro i
  have root : tableAt (nodesOf doc) 0 = { tab := (doc.map Prod.fst).zipIdx 1 } := rfl
  simp only [documentOf, root, List.map_nil, List.nil_append, List.getElem?_map,
    List.getElem?_zipIdx]
  cases found : doc[i]? with
  | none => rfl
  | some e =>
      simp only [Option.map_some]
      rw [Nat.add_comm 1 i, tableAt_nodesOf found]

theorem tomlParse_write (strtod : List UInt8 → Bool) {doc : List (Key × Table)}
    (writable : IsWritable doc) :
    ∃ t, tomlParse strtod (write doc) = .ok () t ∧
      documentOf t.nodes = doc.map fun e => (e.1, some e.2) := by
  have names : ((doc.map fun e => (e.1, e.2.map fun line => (line.1, rawOf line.2))).map
      Prod.fst).Nodup := by
    rw [List.map_map]
    exact writable.names
  have sections : ∀ e ∈ doc.map fun e => (e.1, e.2.map fun line => (line.1, rawOf line.2)),
      IsSection e := by
    intro e member
    obtain ⟨e, inDoc, rfl⟩ := List.mem_map.mp member
    refine ⟨writable.name e inDoc, ?_, ?_, ?_, ?_⟩
    · rw [List.map_map]
      exact writable.keys e inDoc
    · intro line inLines
      obtain ⟨line, inTable, rfl⟩ := List.mem_map.mp inLines
      exact writable.key e inDoc line inTable
    · intro line inLines
      obtain ⟨line, inTable, rfl⟩ := List.mem_map.mp inLines
      exact isToken_rawOf (writable.scalar e inDoc line inTable)
    · intro line inLines
      obtain ⟨line, inTable, rfl⟩ := List.mem_map.mp inLines
      exact zero_notMem_rawOf line.2
  obtain ⟨t, ran, nodes⟩ := tomlParse_render strtod names sections
  refine ⟨t, ran, ?_⟩
  rw [nodes, documentOf_nodesOf, List.map_map]
  apply List.map_congr_left
  intro e member
  exact Prod.ext rfl (congrArg some (tableOf_kval (writable.scalar e member)))

/-- A document is parsed from its text: the calls show its keys, tables and values, in order. -/
theorem document_read_back (strtod : List UInt8 → Bool) {doc : List (Key × Table)}
    (writable : IsWritable doc) :
    ∃ t, tomlParse strtod (write doc) = .ok () t ∧
      Shows t.nodes (doc.map fun e => (e.1, some e.2)) := by
  obtain ⟨t, ran, shown⟩ := tomlParse_write strtod writable
  have ends := tomlParse_ends strtod (write doc)
  rw [ran] at ends
  exact ⟨t, ran, shown ▸ ends.1.built.shows⟩

/-- `[main]` with a name. -/
theorem document_read_back_main :
    ∃ t, tomlParse (fun _ => false)
        (write [(text "main", [(text "tty", .string (text "/dev/ttyUSB0"))])]) = .ok () t ∧
      Shows t.nodes [(text "main", some [(text "tty", .string (text "/dev/ttyUSB0"))])] := by
  refine document_read_back _ ⟨by decide, ?_, ?_, ?_, ?_⟩ <;>
    simp only [List.mem_singleton, forall_eq]
  · exact ⟨List.all_eq_true.mp (by decide), _, rfl, rfl⟩
  · decide
  · exact ⟨List.all_eq_true.mp (by decide), _, rfl, rfl⟩
  · show 0 ∉ text "/dev/ttyUSB0"
    decide

end Documents

end RenogyX10.Toml
