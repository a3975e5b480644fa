import RenogyX10.Toml.Access

set_option autoImplicit false

namespace RenogyX10.Toml

open CString

def hexChar (n : Nat) : UInt8 := UInt8.ofNat (if n < 10 then 48 + n else 55 + n)

/-- `\u00XX` -/
def unicodeEscape (c : UInt8) : List UInt8 :=
  [ascii '\\', ascii 'u', ascii '0', ascii '0', hexChar (c.toNat / 16), hexChar (c.toNat % 16)]

/-- A byte of a string between d-quotes; three s-quotes may not stand there. -/
def quoteByte (c : UInt8) : List UInt8 :=
  if c = ascii '"' ∨ c = ascii '\\' then [ascii '\\', c]
  else if isControl c ∨ c = ascii '\'' then unicodeEscape c
  else [c]

def quoteBody (bytes : List UInt8) : List UInt8 := bytes.flatMap quoteByte

def quote (bytes : List UInt8) : List UInt8 := ascii '"' :: (quoteBody bytes ++ [ascii '"'])

variable {c : UInt8} {sp : List UInt8} {left fuel : Nat} {dst : Dst}

theorem hexDigit_hexChar : ∀ n, n < 16 → hexDigit (hexChar n) = some n := by decide

theorem isHexChar_hexChar : ∀ n, n < 16 → isHexChar (hexChar n) = true := by decide

theorem escaped_lt (isEscaped : isControl c = true ∨ c = ascii '\'') : c.toNat < 128 := by
  obtain control | rfl := isEscaped
  · simp only [isControl, Bool.or_eq_true, Bool.and_eq_true, decide_eq_true_eq] at control
    obtain (low | ⟨-, low⟩) | rfl := control
    · have : c.toNat ≤ 8 := low
      omega
    · have : c.toNat ≤ 31 := low
      omega
    · decide
  · decide

theorem tomlUcsToUtf8_ascii (small : c.toNat < 128) : tomlUcsToUtf8 c.toNat = some [c] := by
  unfold tomlUcsToUtf8
  dsimp only
  rw [if_neg (by omega), if_neg (by omega), if_neg (by omega), if_pos (by omega)]
  simp

/-- The loop has written one more byte. -/
def Wrote (c : UInt8) (dst next : Dst) : Prop :=
  next.bytes = dst.bytes ++ [c] ∧ next.bytes.length ≤ next.max

theorem put_wrote (c : UInt8) (fits : dst.bytes.length ≤ dst.max) :
    ∃ next, put [c] dst.grow = .ok () next ∧ Wrote c dst next := by
  have room := Dst.grow_room fits
  refine ⟨_, put_run ?_, ?_, ?_⟩
  · rw [List.length_singleton]
    omega
  · rw [Dst.grow_bytes]
  · show (dst.grow.bytes ++ [c]).length ≤ dst.grow.max
    rw [List.length_append, List.length_singleton]
    omega

theorem scanHex_succ {nhex n v : Nat} {last : UInt8} {left ucs : Nat}
    (digit : hexDigit c = some v) (dst : Dst) :
    scanHex nhex (n + 1) last (c :: sp) (left + 1) ucs dst =
      scanHex nhex n c sp left (ucs * 16 + v) dst := by
  conv_lhs => unfold scanHex
  rw [Proc.ite_run, if_neg (Nat.succ_ne_zero left)]
  dsimp only
  rw [digit]
  rfl

theorem scanHex_escape (c : UInt8) (sp : List UInt8) (left : Nat) (last : UInt8) (dst : Dst) :
    scanHex 4 4 last (ascii '0' :: ascii '0' :: hexChar (c.toNat / 16) ::
      hexChar (c.toNat % 16) :: sp) (left + 4) 0 dst = .ok c.toNat dst := by
  have high := hexDigit_hexChar (c.toNat / 16) (by have := c.toNat_lt; omega)
  have low := hexDigit_hexChar (c.toNat % 16) (by omega)
  have zero : hexDigit (ascii '0') = some 0 := rfl
  have value : (((0 * 16 + 0) * 16 + 0) * 16 + c.toNat / 16) * 16 + c.toNat % 16 = c.toNat := by
    omega
  rw [scanHex_succ zero, scanHex_succ zero, scanHex_succ high, scanHex_succ low, value]
  rfl

theorem checkChar_run {multiline : Bool} (plain : isControl c = false) :
    checkChar multiline c dst = .ok () dst := by
  simp [checkChar, plain]

theorem normBasicLoop_plain {next : Dst} (plain : c ≠ ascii '\\') (other : isControl c = false)
    (ran : put [c] dst.grow = .ok () next) :
    normBasicLoop false (fuel + 1) (c :: sp) (left + 1) dst = normBasicLoop false fuel sp left next := by
  conv_lhs => unfold normBasicLoop
  rw [Proc.modify_bind, Proc.ite_run, if_neg (Nat.succ_ne_zero left)]
  dsimp only
  rw [if_pos plain, Proc.bind_of_ok (checkChar_run other), Proc.bind_of_ok ran]
  rfl

theorem normBasicLoop_backslash (ch : UInt8) :
    normBasicLoop false (fuel + 1) (ascii '\\' :: ch :: sp) (left + 2) dst =
      ((if ch = ascii 'u' ∨ ch = ascii 'U' then do
          let nhex := if ch = ascii 'u' then 4 else 8
          let ucs ← scanHex nhex nhex ch sp left 0
          let bytes ← Proc.orFail .illegalUcs (tomlUcsToUtf8 ucs)
          put bytes
          normBasicLoop false fuel (sp.drop nhex) (left - nhex)
        else do
          let ch ← Proc.orFail (.illegalEscape ch) (escaped ch)
          put [ch]
          normBasicLoop false fuel sp left : Norm (List UInt8)) dst.grow) := by
  conv_lhs => unfold normBasicLoop
  rw [Proc.modify_bind, Proc.ite_run, if_neg (Nat.succ_ne_zero (left + 1))]
  dsimp only
  rw [if_neg (not_not.mpr rfl), Proc.ite_run, if_neg (by omega),
    if_neg (fun both => Bool.false_ne_true both.1)]
  rfl

theorem normBasicLoop_quoteByte (c : UInt8) (sp : List UInt8) (left fuel : Nat)
    (fits : dst.bytes.length ≤ dst.max) :
    ∃ next, Wrote c dst next ∧
      normBasicLoop false (fuel + 1) (quoteByte c ++ sp) (left + (quoteByte c).length) dst =
        normBasicLoop false fuel sp left next := by
  obtain ⟨next, ran, wrote⟩ := put_wrote c fits
  refine ⟨next, wrote, ?_⟩
  unfold quoteByte
  split_ifs with special escapes
  · have letter : escaped c = some c := by
      obtain rfl | rfl := special <;> rfl
    have notU : ¬ (c = ascii 'u' ∨ c = ascii 'U') := by
      obtain rfl | rfl := special <;> decide
    refine (normBasicLoop_backslash c).trans ?_
    rw [if_neg notU, letter, Proc.orFail_some, Proc.pure_bind_run, Proc.bind_of_ok ran]
    rfl
  · have digits := scanHex_escape c sp left (ascii 'u') dst.grow
    have small := tomlUcsToUtf8_ascii (escaped_lt escapes)
    refine (normBasicLoop_backslash (ascii 'u')).trans ?_
    rw [if_pos (Or.inl rfl), if_pos rfl]
    refine (Proc.bind_of_ok digits).trans ?_
    rw [small, Proc.orFail_some, Proc.pure_bind_run, Proc.bind_of_ok ran]
    rfl
  · have plain : c ≠ ascii '\\' := fun same => special (.inr same)
    have notControl : isControl c = false :=
      Bool.eq_false_iff.mpr fun control => escapes (.inl control)
    exact normBasicLoop_plain plain notControl ran

theorem quoteByte_length_pos (c : UInt8) : 0 < (quoteByte c).length := by
  unfold quoteByte
  split_ifs <;> exact Nat.succ_pos _

theorem quoteBody_length (bytes : List UInt8) : bytes.length ≤ (quoteBody bytes).length := by
  induction bytes with
  | nil => exact Nat.le_refl 0
  | cons c bytes ih =>
      have first := quoteByte_length_pos c
      have all : (quoteBody (c :: bytes)).length = (quoteByte c).length + (quoteBody bytes).length :=
        List.length_append
      rw [List.length_cons, all]
      omega

/-- The bytes come out as they went in. -/
theorem normBasicLoop_quoteBody (bytes sp : List UInt8) (fits : dst.bytes.length ≤ dst.max)
    (enough : bytes.length < fuel) :
    ∃ last, normBasicLoop false fuel (quoteBody bytes ++ sp) (quoteBody bytes).length dst =
      .ok (dst.bytes ++ bytes) last := by
  induction bytes generalizing fuel dst with
  | nil =>
      cases fuel with
      | zero => cases enough
      | succ fuel =>
          have room := Dst.grow_room fits
          refine ⟨{ dst.grow with bytes := dst.grow.bytes ++ [0] }, ?_⟩
          unfold normBasicLoop
          rw [Proc.modify_bind, Proc.ite_run, if_pos (show (quoteBody []).length = 0 from rfl),
            finish_run (by omega), Dst.grow_bytes, List.append_nil]
  | cons c bytes ih =>
      cases fuel with
      | zero => cases enough
      | succ fuel =>
          obtain ⟨next, wrote, ran⟩ := normBasicLoop_quoteByte c (quoteBody bytes ++ sp)
            (quoteBody bytes).length fuel fits
          obtain ⟨last, rest⟩ := ih wrote.2 (by simpa using enough)
          refine ⟨last, ?_⟩
          have body : quoteBody (c :: bytes) = quoteByte c ++ quoteBody bytes := rfl
          rw [body, List.append_assoc, List.length_append, Nat.add_comm (quoteByte c).length, ran, rest, wrote.1,
            List.append_assoc]
          rfl

theorem quoteByte_head (c : UInt8) : (quoteByte c).head? ≠ some (ascii '"') := by
  unfold quoteByte
  split_ifs with special escapes
  · exact fun same => nomatch same
  · exact fun same => nomatch same
  · exact fun same => special (.inl (Option.some.inj same))

theorem not_triple_quote (bytes : List UInt8) (quoteMark : UInt8) {rest : List UInt8}
    (ends : rest.head? ≠ some (ascii '"')) :
    ¬ (tripleOf quoteMark).isPrefixOf (quote bytes ++ rest) := by
  intro triple
  obtain ⟨tail, eq⟩ := List.isPrefixOf_iff_prefix.mp triple
  simp only [tripleOf, quote, List.cons_append, List.nil_append, List.cons.injEq] at eq
  obtain ⟨rfl, eq⟩ := eq
  cases bytes with
  | nil =>
      simp only [quoteBody, List.flatMap_nil, List.nil_append, List.cons_append, List.cons.injEq,
        true_and] at eq
      rw [← eq] at ends
      exact ends rfl
  | cons c bytes =>
      have body : quoteBody (c :: bytes) = quoteByte c ++ quoteBody bytes := rfl
      have head := congrArg List.head? eq
      have some := quoteByte_length_pos c
      rw [body, List.append_assoc, List.append_assoc] at head
      cases first : quoteByte c with
      | nil =>
          rw [first] at some
          cases some
      | cons d more =>
          rw [first] at head
          have differs := quoteByte_head c
          rw [first] at differs
          exact differs head.symm

theorem tomlRtos_basic {src : List UInt8} (opening : src.head? = some (ascii '"'))
    (single : ¬ (tripleOf (ascii '"')).isPrefixOf src) (two : 2 ≤ src.length)
    (closing : src.drop (src.length - 1) = [ascii '"']) :
    tomlRtos src = some (normBasicStr (src.drop 1) (src.length - 1 - 1) false) := by
  cases src with
  | nil => cases opening
  | cons qchar src =>
      cases opening
      have bad : ¬ ((ascii '"' :: src).length - 1 < 1 ∨
          (ascii '"' :: src).drop ((ascii '"' :: src).length - 1) ≠ [ascii '"']) := by
        rw [not_or]
        exact ⟨by omega, not_not.mpr closing⟩
      unfold tomlRtos
      dsimp only
      rw [if_neg (fun both => both.2 rfl), if_neg single, if_neg bad, if_neg (by decide)]

/-- `toml_rtos` reads a quoted string back, as far as it can be seen. -/
theorem stringOf_quote (bytes : List UInt8) : stringOf (quote bytes) = some (sliceTo bytes) := by
  have length : (quote bytes).length = (quoteBody bytes).length + 2 := by
    simp [quote]
  have single : ¬ (tripleOf (ascii '"')).isPrefixOf (quote bytes) := by
    have ends : ([] : List UInt8).head? ≠ some (ascii '"') := fun same => nomatch same
    have none := not_triple_quote bytes (ascii '"') ends
    rwa [List.append_nil] at none
  have closing : (quote bytes).drop ((quote bytes).length - 1) = [ascii '"'] := by
    rw [length]
    simp [quote]
  have enough : bytes.length < (quoteBody bytes).length + 1 :=
    Nat.lt_succ_of_le (quoteBody_length bytes)
  have fits : ({} : Dst).bytes.length ≤ ({} : Dst).max := Nat.le_refl 0
  obtain ⟨last, ran⟩ := normBasicLoop_quoteBody bytes [ascii '"'] fits enough
  have read : tomlRtos (quote bytes) = some (.ok bytes last) := by
    rw [tomlRtos_basic rfl single (by omega) closing, length]
    exact congrArg some ran
  rw [stringOf, read]

section Scan

variable {lineno : Nat}

theorem scanQuoted_plain (escape : c ≠ ascii '\\') (single : c ≠ ascii '\'')
    (newline : c ≠ ascii '\n') (double : c ≠ ascii '"') :
    scanQuoted lineno (c :: sp) 0 false = (scanQuoted lineno sp 0 false).map (· + 1) := by
  conv_lhs => unfold scanQuoted
  rw [if_neg Bool.false_ne_true, if_neg (not_not.mpr rfl), if_neg escape, if_neg single,
    if_neg newline, if_neg double]

theorem scanQuoted_hex {n : Nat} (hex : isHexChar c = true) :
    scanQuoted lineno (c :: sp) (n + 1) false = (scanQuoted lineno sp n false).map (· + 1) := by
  conv_lhs => unfold scanQuoted
  rw [if_neg Bool.false_ne_true, if_pos (Nat.succ_ne_zero n), if_pos hex]
  rfl

theorem scanQuoted_backslash :
    scanQuoted lineno (ascii '\\' :: sp) 0 false = (scanQuoted lineno sp 0 true).map (· + 1) := by
  conv_lhs => unfold scanQuoted
  rw [if_neg Bool.false_ne_true, if_neg (not_not.mpr rfl), if_pos rfl]

theorem map_map_succ (n m : Nat) (scanned : Except ParseError Nat) :
    (scanned.map (· + n)).map (· + m) = scanned.map (· + (n + m)) := by
  cases scanned with
  | error reason => rfl
  | ok k => exact congrArg Except.ok (Nat.add_assoc k n m)

theorem scanQuoted_quoteByte (c : UInt8) :
    scanQuoted lineno (quoteByte c ++ sp) 0 false =
      (scanQuoted lineno sp 0 false).map (· + (quoteByte c).length) := by
  unfold quoteByte
  split_ifs with special escapes
  · have letter : isEscape c = true := by
      obtain rfl | rfl := special <;> rfl
    rw [List.cons_append, scanQuoted_backslash]
    conv_lhs => unfold scanQuoted
    rw [List.cons_append, List.nil_append]
    dsimp only
    rw [if_pos rfl, if_pos letter, map_map_succ]
    rfl
  · have high := isHexChar_hexChar (c.toNat / 16) (by have := c.toNat_lt; omega)
    have low := isHexChar_hexChar (c.toNat % 16) (by omega)
    have unicode : ∀ rest, scanQuoted lineno (ascii 'u' :: rest) 0 true =
        (scanQuoted lineno rest 4 false).map (· + 1) := by
      intro rest
      rfl
    simp only [unicodeEscape, List.cons_append, List.nil_append]
    rw [scanQuoted_backslash, unicode, scanQuoted_hex rfl, scanQuoted_hex rfl, scanQuoted_hex high,
      scanQuoted_hex low]
    simp only [map_map_succ]
    rfl
  · rw [not_or] at special escapes
    have notNewline : c ≠ ascii '\n' := by
      rintro rfl
      exact escapes.1 rfl
    exact scanQuoted_plain special.2 escapes.2 notNewline special.1

theorem scanQuoted_quoteBody (bytes : List UInt8) :
    scanQuoted lineno (quoteBody bytes ++ ascii '"' :: sp) 0 false =
      .ok (quoteBody bytes).length := by
  induction bytes with
  | nil => rfl
  | cons c bytes ih =>
      have body : quoteBody (c :: bytes) = quoteByte c ++ quoteBody bytes := rfl
      rw [body, List.append_assoc, scanQuoted_quoteByte, ih, List.length_append, Nat.add_comm]
      rfl

/-- `scan_string` takes a quoted string as one token. -/
theorem scanString_quote (bytes : List UInt8) {rest : List UInt8} (dotisspecial : Bool)
    (ends : rest.head? ≠ some (ascii '"')) :
    scanString (quote bytes ++ rest) lineno dotisspecial =
      .ok (setToken .string lineno (quote bytes ++ rest) (quote bytes).length) := by
  have body : (quote bytes ++ rest).drop 1 = quoteBody bytes ++ ascii '"' :: rest := by
    simp [quote]
  have single : (quote bytes ++ rest)[0]? ≠ some (ascii '\'') := by
    exact fun same => nomatch same
  have double : (quote bytes ++ rest)[0]? = some (ascii '"') := rfl
  unfold scanString
  rw [if_neg (not_triple_quote bytes _ ends), if_neg (not_triple_quote bytes _ ends),
    if_neg single, if_pos double, body, scanQuoted_quoteBody]
  have length : (quote bytes).length = (quoteBody bytes).length + 2 := by
    simp [quote]
  rw [length]
  rfl

/-- Any bytes without a NUL are one token between quotes, and `toml_rtos` gives them for it. -/
theorem quoted_string_read_back {bytes rest : List UInt8} (noNul : 0 ∉ bytes) (lineno : Nat)
    (dotisspecial : Bool) (ends : rest.head? ≠ some (ascii '"')) :
    ∃ t, scanString (quote bytes ++ rest) lineno dotisspecial = .ok t ∧
      t.ptr.drop t.len = rest ∧ stringOf (t.ptr.take t.len) = some bytes := by
  refine ⟨_, scanString_quote bytes dotisspecial ends, List.drop_left, ?_⟩
  rw [show (setToken .string lineno (quote bytes ++ rest) (quote bytes).length).ptr.take
    (setToken .string lineno (quote bytes ++ rest) (quote bytes).length).len = quote bytes from
      List.take_left]
  rw [stringOf_quote, sliceTo_eq_iff.mpr noNul]

/-- A quote, a tab, a backslash and a bell at the end of a line. -/
theorem quoted_string_read_back_line :
    ∃ t, scanString (quote [ascii '"', ascii '\t', ascii '\\', 7] ++ [ascii '\n']) 1 false = .ok t ∧
      t.ptr.drop t.len = [ascii '\n'] ∧
        stringOf (t.ptr.take t.len) = some [ascii '"', ascii '\t', ascii '\\', 7] :=
  quoted_string_read_back (by decide) 1 false (by decide)

end Scan

end RenogyX10.Toml
