import Mathlib.Tactic.Common
import Mathlib.Tactic.Ring

set_option autoImplicit false

namespace RenogyX10.Toml

/-- The bytes that follow a first one, each with six more bits of the value. -/
def followers : Nat → List UInt8 → Nat → Option Nat
  | 0, _, v => some v
  | _ + 1, [], _ => none
  | n + 1, i :: buf, v =>
      if 0x2 ≠ i.toNat >>> 6 then none
      else followers n buf ((v <<< 6) ||| (i.toNat &&& 0x3f))

/-- A character of several bytes, whose first one has bits under `mask`. -/
def severalBytes (count mask len i : Nat) (buf : List UInt8) : Option (Nat × Nat) :=
  if len < count then none
  else (followers (count - 1) buf (i &&& mask)).map fun v => (v, count)

/-- The value of the character at `orig` and the number of its bytes; -1 is `none`. -/
def tomlUtf8ToUcs (orig : List UInt8) (len : Nat) : Option (Nat × Nat) :=
  match orig with
  | [] => none
  | first :: buf =>
      let i := first.toNat
      if 0 = i >>> 7 then if len < 1 then none else some (i, 1)
      else if 0x6 = i >>> 5 then severalBytes 2 0x1f len i buf
      else if 0xE = i >>> 4 then severalBytes 3 0x0F len i buf
      else if 0x1E = i >>> 3 then severalBytes 4 0x07 len i buf
      else if 0x3E = i >>> 2 then severalBytes 5 0x03 len i buf
      else if 0x7e = i >>> 1 then severalBytes 6 0x01 len i buf
      else none

/-- `(unsigned char) (mark | (code >> shift))` -/
def leadByte (mark shift code : Nat) : UInt8 := UInt8.ofNat (mark ||| (code >>> shift))

/-- `(unsigned char) (0x80 | ((code >> shift) & 0x3f))` -/
def tailByte (shift code : Nat) : UInt8 := UInt8.ofNat (0x80 ||| ((code >>> shift) &&& 0x3f))

/-- The bytes written to `buf`; -1 is `none`. -/
def tomlUcsToUtf8 (code : Int) : Option (List UInt8) :=
  let c := code.toNat
  if 0xd800 ≤ code ∧ code ≤ 0xdfff then none
  else if 0xfffe ≤ code ∧ code ≤ 0xffff then none
  else if code < 0 then none
  else if code ≤ 0x7F then some [UInt8.ofNat c]
  else if code ≤ 0x7FF then some [leadByte 0xc0 6 c, tailByte 0 c]
  else if code ≤ 0xFFFF then some [leadByte 0xe0 12 c, tailByte 6 c, tailByte 0 c]
  else if code ≤ 0x1FFFFF then
    some [leadByte 0xf0 18 c, tailByte 12 c, tailByte 6 c, tailByte 0 c]
  else if code ≤ 0x3FFFFFF then
    some [leadByte 0xf8 24 c, tailByte 18 c, tailByte 12 c, tailByte 6 c, tailByte 0 c]
  else if code ≤ 0x7FFFFFFF then
    some [leadByte 0xfc 30 c, tailByte 24 c, tailByte 18 c, tailByte 12 c, tailByte 6 c,
      tailByte 0 c]
  else none

/-- The last `n` bytes of a character. -/
def tailBytes (code : Nat) : Nat → List UInt8
  | 0 => []
  | n + 1 => tailByte (6 * n) code :: tailBytes code n

theorem tailByte_toNat (shift code : Nat) :
    (tailByte shift code).toNat = 128 + code / 2 ^ shift % 64 := by
  have masked : (code >>> shift) &&& 0x3f = code / 2 ^ shift % 64 := by
    rw [Nat.shiftRight_eq_div_pow]
    exact Nat.and_two_pow_sub_one_eq_mod _ 6
  have small : code / 2 ^ shift % 64 < 2 ^ 7 := by omega
  have joined : 2 ^ 7 * 1 + code / 2 ^ shift % 64 = 2 ^ 7 * 1 ||| code / 2 ^ shift % 64 :=
    Nat.two_pow_add_eq_or_of_lt small 1
  rw [tailByte, masked, show (0x80 : Nat) = 2 ^ 7 * 1 from rfl, ← joined, UInt8.toNat_ofNat']
  omega

theorem leadByte_toNat {mark shift code k : Nat} (a : Nat) (isMark : mark = 2 ^ k * a)
    (bits : code / 2 ^ shift < 2 ^ k) (fits : mark + 2 ^ k ≤ 256) :
    (leadByte mark shift code).toNat = mark + code / 2 ^ shift := by
  have joined : 2 ^ k * a + code / 2 ^ shift = 2 ^ k * a ||| code / 2 ^ shift :=
    Nat.two_pow_add_eq_or_of_lt bits a
  rw [leadByte, Nat.shiftRight_eq_div_pow, isMark, ← joined, UInt8.toNat_ofNat']
  rw [isMark] at fits
  omega

theorem followers_tailBytes (code n v : Nat) (rest : List UInt8) :
    followers n (tailBytes code n ++ rest) v = some (v * 64 ^ n + code % 64 ^ n) := by
  induction n generalizing v with
  | zero => simp [followers, Nat.mod_one]
  | succ n ih =>
      have bits : code / 2 ^ (6 * n) % 64 < 64 := Nat.mod_lt _ (by omega)
      have head : ¬ (0x2 ≠ (tailByte (6 * n) code).toNat >>> 6) := by
        rw [tailByte_toNat, Nat.shiftRight_eq_div_pow]
        omega
      have low : (tailByte (6 * n) code).toNat &&& 0x3f = code / 2 ^ (6 * n) % 64 := by
        rw [tailByte_toNat, show (0x3f : Nat) = 2 ^ 6 - 1 from rfl,
          Nat.and_two_pow_sub_one_eq_mod]
        omega
      have shifted : (v <<< 6) ||| (code / 2 ^ (6 * n) % 64) = v * 64 + code / 2 ^ (6 * n) % 64 := by
        rw [Nat.shiftLeft_eq, Nat.mul_comm v (2 ^ 6), ← Nat.two_pow_add_eq_or_of_lt bits v]
      have power : 2 ^ (6 * n) = 64 ^ n := pow_mul 2 6 n
      have split : code % 64 ^ (n + 1) = code % 64 ^ n + 64 ^ n * (code / 64 ^ n % 64) := by
        rw [pow_succ]
        exact Nat.mod_mul
      rw [tailBytes, List.cons_append, followers, if_neg head, low, shifted, ih, split, power]
      congr 1
      ring

theorem severalBytes_encoded {count k mark code len : Nat} (rest : List UInt8) (a : Nat)
    (isMark : mark = 2 ^ k * a) (bits : code / 2 ^ (6 * (count - 1)) < 2 ^ k)
    (fits : mark + 2 ^ k ≤ 256) (enough : count ≤ len) :
    severalBytes count (2 ^ k - 1) len (leadByte mark (6 * (count - 1)) code).toNat
      (tailBytes code (count - 1) ++ rest) = some (code, count) := by
  have masked : (leadByte mark (6 * (count - 1)) code).toNat &&& (2 ^ k - 1) =
      code / 2 ^ (6 * (count - 1)) := by
    rw [leadByte_toNat a isMark bits fits, Nat.and_two_pow_sub_one_eq_mod, isMark,
      Nat.mul_add_mod, Nat.mod_eq_of_lt bits]
  rw [severalBytes, if_neg (Nat.not_lt.mpr enough), masked, followers_tailBytes, pow_mul 2 6]
  show some (code / 64 ^ (count - 1) * 64 ^ (count - 1) + code % 64 ^ (count - 1), count) = _
  rw [Nat.div_add_mod']

/-- The characters that have no encoding. -/
def Unencodable (code : Int) : Prop :=
  code < 0 ∨ 0x7FFFFFFF < code ∨ (0xd800 ≤ code ∧ code ≤ 0xdfff) ∨ code = 0xfffe ∨ code = 0xffff

theorem tomlUcsToUtf8_none_iff (code : Int) : tomlUcsToUtf8 code = none ↔ Unencodable code := by
  unfold tomlUcsToUtf8 Unencodable
  dsimp only
  split_ifs <;> simp only [false_iff, true_iff] <;> omega

/-- The number of bytes, the mark of the first one and the bits under it. -/
inductive Shape : Nat → Nat → Nat → Prop where
  | two : Shape 2 0xc0 5
  | three : Shape 3 0xe0 4
  | four : Shape 4 0xf0 3
  | five : Shape 5 0xf8 2
  | six : Shape 6 0xfc 1

theorem Shape.mark_eq {count mark k : Nat} (shape : Shape count mark k) :
    ∃ a, mark = 2 ^ k * a ∧ mark + 2 ^ k ≤ 256 := by
  cases shape with
  | two => exact ⟨6, rfl, by decide⟩
  | three => exact ⟨14, rfl, by decide⟩
  | four => exact ⟨30, rfl, by decide⟩
  | five => exact ⟨62, rfl, by decide⟩
  | six => exact ⟨126, rfl, by decide⟩

theorem tomlUtf8ToUcs_several {first : UInt8} {buf : List UInt8} {len count mark k : Nat}
    (shape : Shape count mark k) (lower : mark ≤ first.toNat)
    (upper : first.toNat < mark + 2 ^ k) :
    tomlUtf8ToUcs (first :: buf) len = severalBytes count (2 ^ k - 1) len first.toNat buf := by
  simp only [tomlUtf8ToUcs, Nat.shiftRight_eq_div_pow]
  cases shape with
  | two =>
      rw [if_neg (by omega), if_pos (by omega)]
      rfl
  | three =>
      rw [if_neg (by omega), if_neg (by omega), if_pos (by omega)]
      rfl
  | four =>
      rw [if_neg (by omega), if_neg (by omega), if_neg (by omega), if_pos (by omega)]
      rfl
  | five =>
      rw [if_neg (by omega), if_neg (by omega), if_neg (by omega), if_neg (by omega),
        if_pos (by omega)]
      rfl
  | six =>
      rw [if_neg (by omega), if_neg (by omega), if_neg (by omega), if_neg (by omega),
        if_neg (by omega), if_pos (by omega)]
      rfl

theorem read_several {count mark k code len : Nat} (shape : Shape count mark k) (rest : List UInt8)
    (bits : code / 2 ^ (6 * (count - 1)) < 2 ^ k) (enough : count ≤ len) :
    tomlUtf8ToUcs (leadByte mark (6 * (count - 1)) code :: tailBytes code (count - 1) ++ rest) len =
      some (code, count) := by
  obtain ⟨a, isMark, fits⟩ := shape.mark_eq
  have lead := leadByte_toNat a isMark bits fits
  have lower : mark ≤ (leadByte mark (6 * (count - 1)) code).toNat := by
    rw [lead]
    exact Nat.le_add_right _ _
  have upper : (leadByte mark (6 * (count - 1)) code).toNat < mark + 2 ^ k := by
    rw [lead]
    exact Nat.add_lt_add_left bits mark
  rw [List.cons_append, tomlUtf8ToUcs_several shape lower upper]
  exact severalBytes_encoded rest a isMark bits fits enough

/-- What is written for a character is read as that character, whatever comes behind it. -/
theorem ucs_utf8_roundtrip {code : Int} {bytes : List UInt8}
    (written : tomlUcsToUtf8 code = some bytes) (rest : List UInt8) {len : Nat}
    (enough : bytes.length ≤ len) :
    tomlUtf8ToUcs (bytes ++ rest) len = some (code.toNat, bytes.length) := by
  unfold tomlUcsToUtf8 at written
  dsimp only at written
  split_ifs at written with surrogate nonchar negative one two three four five six <;>
    cases written
  · have i : (UInt8.ofNat code.toNat).toNat = code.toNat := by
      rw [UInt8.toNat_ofNat']
      omega
    have single : ¬ len < 1 := Nat.not_lt.mpr enough
    simp only [List.cons_append, tomlUtf8ToUcs, i, Nat.shiftRight_eq_div_pow]
    rw [if_pos (by omega), if_neg single]
    rfl
  · exact read_several .two rest (by omega) enough
  · exact read_several .three rest (by omega) enough
  · exact read_several .four rest (by omega) enough
  · exact read_several .five rest (by omega) enough
  · exact read_several .six rest (by omega) enough

/-- Every character is either one that has no encoding, and none is written, or it is read
back from its bytes in front of any others. -/
theorem character_roundtrip (code : Int) :
    (Unencodable code ∧ tomlUcsToUtf8 code = none) ∨
      ∃ bytes, tomlUcsToUtf8 code = some bytes ∧ ∀ (rest : List UInt8) (len : Nat),
        bytes.length ≤ len → tomlUtf8ToUcs (bytes ++ rest) len = some (code.toNat, bytes.length) := by
  cases written : tomlUcsToUtf8 code with
  | none => exact .inl ⟨(tomlUcsToUtf8_none_iff code).mp written, rfl⟩
  | some bytes => exact .inr ⟨bytes, rfl, fun rest _ => ucs_utf8_roundtrip written rest⟩

end RenogyX10.Toml
