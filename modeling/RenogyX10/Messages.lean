import RenogyX10.Csck

set_option autoImplicit false

namespace RenogyX10.Messages

open Bytes Csck Parse Proc

inductive Quantity where
  | volts
  | amps
  | watts
  | pvvolts
  | pvamps
  | pvwatts
  | temp
  | hum
deriving DecidableEq

inductive Device where
  | renogy
  | pzem3
  | pzem6
  | pzem10
  | temp11
  | pzem12
  | pzem13
deriving DecidableEq

/-- A measured value: an integer from the registers and what it is divided by. -/
structure Scaled where
  raw : Nat
  divisor : Nat
deriving DecidableEq

/-- The four words in front of the registers. -/
structure Header where
  type : UInt16
  id : UInt16
  address : UInt16
  count : UInt16
deriving DecidableEq

/-- The read that a device is known by. -/
def Device.header : Device → Header
  | .renogy => ⟨0, 9, 256, 10⟩
  | .pzem3 => ⟨1, 3, 0, 8⟩
  | .pzem6 => ⟨1, 6, 0, 8⟩
  | .pzem10 => ⟨1, 10, 0, 8⟩
  | .temp11 => ⟨1, 11, 1, 2⟩
  | .pzem12 => ⟨1, 12, 0, 10⟩
  | .pzem13 => ⟨1, 13, 0, 10⟩

/-- The power meters for direct current. -/
def Device.isDc : Device → Bool
  | .pzem3 | .pzem6 | .pzem10 => true
  | _ => false

def deviceOf (header : Header) : Option Device :=
  [Device.renogy, .pzem3, .pzem6, .pzem10, .temp11, .pzem12, .pzem13].find? fun device =>
    device.header = header

theorem deviceOf_eq_some {header : Header} {device : Device} :
    deviceOf header = some device ↔ header = device.header := by
  constructor
  · intro found
    have same := List.find?_some found
    exact (of_decide_eq_true same).symm
  · rintro rfl
    cases device <;> rfl

theorem deviceOf_eq_none {header : Header} :
    deviceOf header = none ↔ ∀ device : Device, header ≠ device.header := by
  rw [Option.eq_none_iff_forall_ne_some]
  exact forall_congr' fun device => not_congr deviceOf_eq_some

/-- The comparisons of address and count fail for a message of no device. -/
theorem when_unknown {ε σ : Type} {type id address count : UInt16} (device : Device)
    (unknown : deviceOf ⟨type, id, address, count⟩ = none)
    (known : type = device.header.type ∧ id = device.header.id) (p : Proc ε σ Unit) :
    Proc.when (address = device.header.address ∧ count = device.header.count) p = pure () := by
  apply when_false
  intro same
  apply deviceOf_eq_none.mp unknown device
  rw [known.1, known.2, same.1, same.2]

/-- Where a quantity is: one register, or two with the low one first. -/
structure Field where
  quantity : Quantity
  register : Nat
  isWide : Bool
  divisor : Nat
deriving DecidableEq

/-- The layouts of the devices' registers. -/
def Device.fields : Device → List Field
  | .renogy =>
      [⟨.volts, 1, false, 10⟩, ⟨.amps, 2, false, 100⟩, ⟨.pvvolts, 7, false, 10⟩,
        ⟨.pvamps, 8, false, 100⟩, ⟨.pvwatts, 9, false, 1⟩]
  | .pzem3 | .pzem6 | .pzem10 =>
      [⟨.volts, 0, false, 100⟩, ⟨.amps, 1, false, 100⟩, ⟨.watts, 2, true, 10⟩]
  | .temp11 => [⟨.temp, 0, false, 10⟩, ⟨.hum, 1, false, 10⟩]
  | .pzem12 | .pzem13 =>
      [⟨.volts, 0, false, 10⟩, ⟨.amps, 1, true, 1000⟩, ⟨.watts, 3, true, 10⟩]

def Field.read (field : Field) (bytes : List UInt8) : Option Nat :=
  match field.isWide, bytes.drop (2 * field.register) with
  | false, low :: high :: _ => some (readLe16 low high).toNat
  | true, b0 :: b1 :: b2 :: b3 :: _ => some (wide (readLe16 b0 b1) (readLe16 b2 b3)).toNat
  | _, _ => none

theorem Field.read_short {field : Field} {bytes : List UInt8}
    (short : (bytes.drop (2 * field.register)).length < if field.isWide then 4 else 2) :
    field.read bytes = none := by
  unfold Field.read
  split <;> rename_i isWide drop
  · rw [isWide, drop] at short
    simp only [List.length_cons, Bool.false_eq_true, ↓reduceIte] at short
    omega
  · rw [isWide, drop] at short
    simp only [List.length_cons, ↓reduceIte] at short
    omega
  · rfl

def Field.raw (field : Field) (regs : List UInt16) : Option Nat :=
  regs[field.register]?.bind fun low =>
    if field.isWide then regs[field.register + 1]?.map fun high => low.toNat + 65536 * high.toNat
    else some low.toNat

theorem le16s_drop (regs : List UInt16) (count : Nat) :
    (le16s regs).drop (2 * count) = le16s (regs.drop count) := by
  induction regs generalizing count with
  | nil => simp
  | cons word rest ih =>
      cases count with
      | zero => rfl
      | succ count => exact ih count

/-- The bytes of the registers hold their integers. -/
theorem Field.read_le16s (field : Field) (regs : List UInt16) :
    field.read (le16s regs) = field.raw regs := by
  obtain ⟨quantity, register, isWide, divisor⟩ := field
  have low : regs[register]? = (regs.drop register)[0]? := by simp
  have high : regs[register + 1]? = (regs.drop register)[1]? := by simp
  simp only [Field.read, Field.raw, le16s_drop, low, high]
  match regs.drop register with
  | [] => cases isWide <;> rfl
  | [only] =>
      cases isWide
      · exact congrArg (fun word => some word.toNat) (readLe16_le16 only)
      · rfl
  | first :: second :: _ =>
      cases isWide
      · exact congrArg (fun word => some word.toNat) (readLe16_le16 first)
      · have both : wide (readLe16 (UInt8.ofNat first.toNat) (UInt8.ofNat (first.toNat / 256)))
            (readLe16 (UInt8.ofNat second.toNat) (UInt8.ofNat (second.toNat / 256))) =
              wide first second := by
          rw [readLe16_le16, readLe16_le16]
        exact congrArg some ((congrArg UInt32.toNat both).trans (wide_toNat first second))

theorem Field.raw_isSome {field : Field} {regs : List UInt16}
    (inside : field.register + (if field.isWide then 2 else 1) ≤ regs.length) :
    (field.raw regs).isSome = true := by
  obtain ⟨quantity, register, isWide, divisor⟩ := field
  cases isWide
  · have low : register < regs.length := inside
    simp [Field.raw, low]
  · have high : register + 1 < regs.length := inside
    have low : register < regs.length := by omega
    simp [Field.raw, low, high]

/-- A message whose registers are all there. -/
structure Message extends Header where
  regs : List UInt16
  complete : regs.length = count.toNat

def Message.payload (message : Message) : List UInt8 :=
  le16s ([message.type, message.id, message.address, message.count] ++ message.regs)

/-- Code, size and message, as the publisher sends them. -/
def Message.frame (message : Message) : List UInt8 :=
  le16s [0, UInt16.ofNat (12 + 2 * message.regs.length)] ++ message.payload

/-- The value of a quantity that a device reports. -/
def Message.measured (message : Message) (quantity : Quantity) : Option Scaled :=
  (deviceOf message.toHeader).bind fun device =>
    (device.fields.find? fun field => field.quantity = quantity).bind fun field =>
      (field.raw message.regs).map fun raw => ⟨raw, field.divisor⟩

section Reads

variable {σ : Type}

def inU16 (lib : ParseLib) (s : ParseT) : Proc ClientError σ (UInt16 × ParseT) :=
  Proc.orAbort (lib.inU16Le s)

def inU32 (lib : WideLib) (s : ParseT) : Proc ClientError σ (UInt32 × ParseT) :=
  Proc.orAbort (lib.inU32Le s)

variable {α : Type} {s : ParseT}

theorem inU16_at (lib : ParseLib) {next : UInt16 × ParseT → Proc ClientError σ α}
    {after : Proc ClientError σ α} {regs : List UInt16} {index : Nat}
    (left : s.rem = le16s (regs.drop index)) (inside : index < regs.length)
    (later : ∀ t, t.rem = le16s (regs.drop (index + 1)) → next (regs[index], t) = after) :
    (inU16 lib s >>= next) = after := by
  rw [List.drop_eq_getElem_cons inside] at left
  obtain ⟨t, read, behind⟩ := lib.inU16Le_le16 s _ _ left
  rw [inU16, read]
  exact later t behind

theorem inU32_at (lib : WideLib) {next : UInt32 × ParseT → Proc ClientError σ α}
    {after : Proc ClientError σ α} {regs : List UInt16} {index : Nat}
    (left : s.rem = le16s (regs.drop index)) (inside : index + 1 < regs.length)
    (later : ∀ t, t.rem = le16s (regs.drop (index + 2)) →
      next (wide regs[index] regs[index + 1], t) = after) :
    (inU32 lib s >>= next) = after := by
  rw [List.drop_eq_getElem_cons (Nat.lt_of_succ_lt inside),
    List.drop_eq_getElem_cons inside] at left
  obtain ⟨t, read, behind⟩ := lib.inU32Le_run left
  rw [readLe16_le16, readLe16_le16] at read
  rw [inU32, read]
  exact later t behind

end Reads

end RenogyX10.Messages
