import RenogyX10.Lib.CString
import RenogyX10.Lib.Triple
import RenogyX10.Toml.Utf8

set_option autoImplicit false

/- `norm_lit_str` and `norm_basic_str`: the text between the quotes of a string, in a
buffer that grows as it is written. Memory is taken to suffice. -/
namespace RenogyX10.Toml

open CString

inductive NormError where
  | invalidChar (ch : UInt8)
  | lastBackslash
  | expectsHex (ch : UInt8) (nhex : Nat)
  | invalidHex
  | illegalUcs
  | illegalEscape (ch : UInt8)
deriving DecidableEq

def hexText (value : Nat) : Nat → String
  | 0 => ""
  | n + 1 => hexText (value / 16) n ++ (Nat.digitChar (value % 16)).toString

/-- What is written to `errbuf`. -/
def NormError.text : NormError → String
  | invalidChar ch => "invalid char U+" ++ hexText ch.toNat 4
  | lastBackslash => "last backslash is invalid"
  | expectsHex ch nhex =>
      "\\" ++ (Char.ofNat ch.toNat).toString ++ " expects " ++ toString nhex ++ " hex chars"
  | invalidHex => "invalid hex chars for \\u or \\U"
  | illegalUcs => "illegal ucs code in \\u or \\U"
  | illegalEscape ch => "illegal escape char \\" ++ (Char.ofNat ch.toNat).toString

/-- The buffer `dst` of `max` bytes, with what is written to it so far. -/
structure Dst where
  bytes : List UInt8 := []
  max : Nat := 0

/-- Some slack for what one step writes. -/
def Dst.grow (dst : Dst) : Dst :=
  if dst.max ≤ dst.bytes.length + 10 then { dst with max := dst.max + 50 } else dst

abbrev Norm (α : Type) := Proc NormError Dst α

/-- Writing behind the end of the buffer is not survived. -/
def put (bytes : List UInt8) : Norm Unit := do
  let dst ← Proc.read id
  if dst.bytes.length + bytes.length ≤ dst.max then
    Proc.modify fun dst => { dst with bytes := dst.bytes ++ bytes }
  else Proc.abort

/-- Cap with NUL and return it. -/
def finish : Norm (List UInt8) := do
  let dst ← Proc.read id
  put [0]
  pure dst.bytes

/-- Control characters other than tab. -/
def isControl (ch : UInt8) : Bool := ch ≤ 0x08 || (0x0a ≤ ch && ch ≤ 0x1f) || ch = 0x7f

def checkChar (multiline : Bool) (ch : UInt8) : Norm Unit :=
  if isControl ch ∧ ¬ (multiline ∧ (ch = ascii '\r' ∨ ch = ascii '\n')) then
    Proc.fail (.invalidChar ch)
  else pure ()

def normLitLoop (multiline : Bool) : List UInt8 → Norm (List UInt8)
  | [] => do
      Proc.modify Dst.grow
      finish
  | ch :: sp => do
      Proc.modify Dst.grow
      checkChar multiline ch
      put [ch]
      normLitLoop multiline sp

def normLitStr (src : List UInt8) (srclen : Nat) (multiline : Bool) :
    Exit NormError Dst (List UInt8) :=
  normLitLoop multiline (src.take srclen) {}

/-- A digit of `\u`; letters are capitals. -/
def hexDigit (ch : UInt8) : Option Nat :=
  if ascii '0' ≤ ch ∧ ch ≤ ascii '9' then some (ch.toNat - (ascii '0').toNat)
  else if ascii 'A' ≤ ch ∧ ch ≤ ascii 'F' then some (ch.toNat - (ascii 'A').toNat + 10)
  else none

/-- The digits of `\u` and `\U`; an error names the byte that was read last. -/
def scanHex (nhex : Nat) : Nat → UInt8 → List UInt8 → Nat → Nat → Norm Nat
  | 0, _, _, _, ucs => pure ucs
  | n + 1, last, sp, left, ucs =>
      if left = 0 then Proc.fail (.expectsHex last nhex)
      else
        match sp with
        | [] => Proc.abort
        | ch :: sp =>
            match hexDigit ch with
            | none => Proc.fail .invalidHex
            | some v => scanHex nhex n ch sp (left - 1) (ucs * 16 + v)

/-- The escapes of one letter. -/
def escaped (ch : UInt8) : Option UInt8 :=
  if ch = ascii 'b' then some 0x08
  else if ch = ascii 't' then some (ascii '\t')
  else if ch = ascii 'n' then some (ascii '\n')
  else if ch = ascii 'f' then some 0x0c
  else if ch = ascii 'r' then some (ascii '\r')
  else if ch = ascii '"' then some (ascii '"')
  else if ch = ascii '\\' then some (ascii '\\')
  else none

/-- `" \t\r"` -/
def isBlank (c : UInt8) : Bool := c = ascii ' ' || c = ascii '\t' || c = ascii '\r'

/-- `" \t\r\n"` -/
def isSpace (c : UInt8) : Bool := isBlank c || c = ascii '\n'

/-- The scan, with `left` bytes before the end `sq`; the text goes on behind it. -/
def normBasicLoop (multiline : Bool) : Nat → List UInt8 → Nat → Norm (List UInt8)
  | 0, _, _ => Proc.abort
  | fuel + 1, sp, left => do
      Proc.modify Dst.grow
      if left = 0 then finish
      else
        match sp with
        | [] => Proc.abort
        | ch :: sp =>
            if ch ≠ ascii '\\' then do
              checkChar multiline ch
              put [ch]
              normBasicLoop multiline fuel sp (left - 1)
            else if left = 1 then Proc.fail .lastBackslash
            else if multiline ∧ sp[strspn isBlank sp]? = some (ascii '\n') then
              -- a line-ending backslash: all the white space behind it goes
              normBasicLoop multiline fuel (sp.drop (strspn isSpace sp))
                (left - 1 - strspn isSpace sp)
            else
              match sp with
              | [] => Proc.abort
              | ch :: sp =>
                  if ch = ascii 'u' ∨ ch = ascii 'U' then do
                    let nhex := if ch = ascii 'u' then 4 else 8
                    let ucs ← scanHex nhex nhex ch sp (left - 2) 0
                    let bytes ← Proc.orFail .illegalUcs (tomlUcsToUtf8 ucs)
                    put bytes
                    normBasicLoop multiline fuel (sp.drop nhex) (left - 2 - nhex)
                  else do
                    let ch ← Proc.orFail (.illegalEscape ch) (escaped ch)
                    put [ch]
                    normBasicLoop multiline fuel sp (left - 2)

def normBasicStr (src : List UInt8) (srclen : Nat) (multiline : Bool) :
    Exit NormError Dst (List UInt8) :=
  normBasicLoop multiline (srclen + 1) src srclen {}

section Bounds

variable {dst : Dst}

theorem Dst.grow_room (fits : dst.bytes.length ≤ dst.max) :
    dst.grow.bytes.length + 10 < dst.grow.max := by
  unfold Dst.grow
  split
  · show dst.bytes.length + 10 < dst.max + 50
    omega
  · omega

@[simp] theorem Dst.grow_bytes (dst : Dst) : dst.grow.bytes = dst.bytes := by
  unfold Dst.grow
  split <;> rfl

theorem put_run {bytes : List UInt8} (room : dst.bytes.length + bytes.length ≤ dst.max) :
    put bytes dst = .ok () { dst with bytes := dst.bytes ++ bytes } := by
  unfold put
  rw [Proc.read_bind, Proc.ite_run]
  exact if_pos room

theorem finish_run (room : dst.bytes.length < dst.max) :
    finish dst = .ok dst.bytes { dst with bytes := dst.bytes ++ [0] } := by
  have fits : dst.bytes.length + [(0 : UInt8)].length ≤ dst.max := room
  unfold finish
  rw [Proc.read_bind, Proc.bind_of_ok (put_run fits)]
  rfl

theorem tomlUcsToUtf8_length {code : Int} {bytes : List UInt8}
    (written : tomlUcsToUtf8 code = some bytes) : bytes.length ≤ 6 := by
  unfold tomlUcsToUtf8 at written
  dsimp only at written
  split_ifs at written <;> cases written <;> simp only [List.length_cons, List.length_nil] <;> omega

/-- The string as it is returned: with its NUL it is in the buffer, and it is no longer
than its source. -/
def Capped (longest : Nat) (bytes : List UInt8) (dst : Dst) : Prop :=
  dst.bytes = bytes ++ [0] ∧ bytes.length < dst.max ∧ bytes.length ≤ longest

/-- What is in the buffer fits, and leaves `left` bytes of `longest`. -/
def Fits (longest left : Nat) (dst : Dst) : Prop :=
  dst.bytes.length ≤ dst.max ∧ dst.bytes.length + left ≤ longest

theorem finish_capped {longest left : Nat} (fits : Fits longest left dst) :
    (finish dst.grow).Ends (Capped longest) fun _ _ => True := by
  have room := Dst.grow_room fits.1
  rw [finish_run (by omega)]
  refine ⟨rfl, ?_, ?_⟩
  · show dst.grow.bytes.length < dst.grow.max
    omega
  · rw [Dst.grow_bytes]
    exact Nat.le_trans (Nat.le_add_right _ left) fits.2

theorem Fits.skip {longest left : Nat} (fits : Fits longest left dst) (taken : Nat) :
    Fits longest (left - taken) dst.grow := by
  have room := Dst.grow_room fits.1
  refine ⟨by omega, ?_⟩
  have total := fits.2
  rw [Dst.grow_bytes]
  omega

theorem put_fits {longest left taken : Nat} (bytes : List UInt8) (fits : Fits longest left dst)
    (small : bytes.length ≤ 6) (less : bytes.length ≤ taken) (there : taken ≤ left) :
    ∃ next, put bytes dst.grow = .ok () next ∧ Fits longest (left - taken) next := by
  have room := Dst.grow_room fits.1
  refine ⟨_, put_run (by omega), ?_, ?_⟩
  · show (dst.grow.bytes ++ bytes).length ≤ dst.grow.max
    rw [List.length_append]
    omega
  · show (dst.grow.bytes ++ bytes).length + (left - taken) ≤ longest
    have total := fits.2
    rw [List.length_append, Dst.grow_bytes]
    omega

theorem checkChar_ends (multiline : Bool) (ch : UInt8) (dst : Dst) :
    (checkChar multiline ch dst).Ends (fun _ t => t = dst) fun _ _ => True :=
  Proc.ends_ite (fun _ => trivial) fun _ => rfl

theorem scanHex_ends (nhex n : Nat) (last : UInt8) {sp : List UInt8} {left : Nat} (ucs : Nat)
    (dst : Dst) (inside : left ≤ sp.length) :
    (scanHex nhex n last sp left ucs dst).Ends (fun _ t => t = dst ∧ n ≤ left)
      fun _ _ => True := by
  induction n generalizing last sp left ucs with
  | zero => exact ⟨rfl, Nat.zero_le left⟩
  | succ n ih =>
      unfold scanHex
      apply Proc.ends_ite
      · exact fun _ => trivial
      · intro more
        cases sp with
        | nil => exact absurd (Nat.le_zero.mp inside) more
        | cons ch sp =>
            rw [List.length_cons] at inside
            dsimp only
            cases hexDigit ch with
            | none => exact trivial
            | some v =>
                apply (ih ch (ucs * 16 + v) (by omega : left - 1 ≤ sp.length)).mono
                · exact fun _ t ⟨same, enough⟩ => ⟨same, by omega⟩
                · exact fun _ _ _ => trivial

/-- The buffer is never written behind its end, and nothing is read behind the text. -/
theorem normBasicLoop_ends (multiline : Bool) {longest fuel left : Nat} {sp : List UInt8}
    (fits : Fits longest left dst) (inside : left ≤ sp.length) (enough : left < fuel) :
    (normBasicLoop multiline fuel sp left dst).Ends (Capped longest) fun _ _ => True := by
  induction fuel generalizing sp left dst with
  | zero => omega
  | succ fuel ih =>
      unfold normBasicLoop
      rw [Proc.modify_bind]
      apply Proc.ends_ite
      · exact fun _ => finish_capped fits
      · intro more
        cases sp with
        | nil => exact absurd (Nat.le_zero.mp inside) more
        | cons ch sp =>
            rw [List.length_cons] at inside
            dsimp only
            apply Proc.ends_ite
            · intro _
              apply Proc.ends_bind (checkChar_ends multiline ch dst.grow)
              rintro _ _ rfl
              obtain ⟨next, ran, stillFits⟩ :=
                put_fits [ch] fits (show 1 ≤ 6 by decide) (Nat.le_refl 1) (by omega)
              rw [Proc.bind_of_ok ran]
              exact ih stillFits (by omega) (by omega)
            · intro _
              apply Proc.ends_ite
              · exact fun _ => trivial
              · intro notLast
                apply Proc.ends_ite
                · intro _
                  rw [Nat.sub_sub]
                  apply ih (fits.skip _)
                  · rw [List.length_drop]
                    omega
                  · omega
                · intro _
                  cases sp with
                  | nil =>
                      rw [List.length_nil] at inside
                      omega
                  | cons letter sp =>
                      rw [List.length_cons] at inside
                      dsimp only
                      apply Proc.ends_ite
                      · intro _
                        apply Proc.ends_bind (scanHex_ends _ _ _ _ dst.grow (by omega))
                        rintro ucs _ ⟨rfl, digits⟩
                        cases written : tomlUcsToUtf8 ucs with
                        | none => exact trivial
                        | some bytes =>
                            have short := tomlUcsToUtf8_length written
                            have atLeast : 4 ≤ if letter = ascii 'u' then 4 else 8 := by
                              split <;> omega
                            obtain ⟨next, ran, stillFits⟩ := put_fits bytes fits short
                              (show bytes.length ≤ 2 + (if letter = ascii 'u' then 4 else 8) by omega)
                              (by omega)
                            rw [Proc.orFail_some, Proc.pure_bind_run, Proc.bind_of_ok ran,
                              Nat.sub_sub]
                            apply ih stillFits
                            · rw [List.length_drop]
                              omega
                            · omega
                      · intro _
                        cases escaped letter with
                        | none => exact trivial
                        | some ch =>
                            obtain ⟨next, ran, stillFits⟩ :=
                              put_fits [ch] fits (show 1 ≤ 6 by decide) (show 1 ≤ 2 by decide)
                                (by omega)
                            rw [Proc.orFail_some, Proc.pure_bind_run, Proc.bind_of_ok ran]
                            exact ih stillFits (by omega) (by omega)

theorem normBasicStr_ends {src : List UInt8} {srclen : Nat} (multiline : Bool)
    (inside : srclen ≤ src.length) :
    (normBasicStr src srclen multiline).Ends (Capped srclen) fun _ _ => True := by
  apply normBasicLoop_ends multiline _ inside (Nat.lt_succ_self srclen)
  exact ⟨Nat.le_refl 0, Nat.le_of_eq (Nat.zero_add srclen)⟩

theorem normLitLoop_ends (multiline : Bool) {longest : Nat} {sp : List UInt8}
    (fits : Fits longest sp.length dst) :
    (normLitLoop multiline sp dst).Ends (Capped longest) fun _ _ => True := by
  induction sp generalizing dst with
  | nil => exact finish_capped fits
  | cons ch sp ih =>
      unfold normLitLoop
      rw [Proc.modify_bind]
      apply Proc.ends_bind (checkChar_ends multiline ch dst.grow)
      rintro _ _ rfl
      obtain ⟨next, ran, stillFits⟩ := put_fits [ch] fits (show 1 ≤ 6 by decide) (Nat.le_refl 1)
        (by rw [List.length_cons]; omega)
      rw [Proc.bind_of_ok ran]
      exact ih stillFits

theorem normLitStr_ends {src : List UInt8} {srclen : Nat} (multiline : Bool)
    (inside : srclen ≤ src.length) :
    (normLitStr src srclen multiline).Ends (Capped srclen) fun _ _ => True := by
  apply normLitLoop_ends
  refine ⟨Nat.le_refl 0, ?_⟩
  rw [List.length_take, Nat.min_eq_left inside]
  exact Nat.le_of_eq (Nat.zero_add srclen)

end Bounds

end RenogyX10.Toml
