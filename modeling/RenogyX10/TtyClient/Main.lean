import RenogyX10.Messages

set_option autoImplicit false

namespace RenogyX10.TtyClient

open Bytes Csck Messages Parse Proc

/-- A printed line, without what is computed from other values of it. -/
inductive Line where
  | dc (id : UInt16) (voltage amps watts : Scaled) (watthours : UInt32)
      (hiallarm loallarm : UInt16)
  | renogy (id percent : UInt16) (voltage amps : Scaled)
      (temp loadVolts loadAmps loadWatts : UInt16) (pvvoltage pvamps : Scaled) (pvwatts : UInt16)
  | tempHum (id : UInt16) (temp hum : Scaled)
  | ac (id : UInt16) (voltage amps watts : Scaled) (watthours : UInt32)
      (frequency powerFactor : Scaled) (alarm : UInt16)
deriving DecidableEq

/-- What a line says of a quantity. -/
def Line.value : Line → Quantity → Option Scaled
  | .dc _ voltage _ _ _ _ _, .volts => some voltage
  | .dc _ _ amps _ _ _ _, .amps => some amps
  | .dc _ _ _ watts _ _ _, .watts => some watts
  | .renogy _ _ voltage _ _ _ _ _ _ _ _, .volts => some voltage
  | .renogy _ _ _ amps _ _ _ _ _ _ _, .amps => some amps
  | .renogy _ _ _ _ _ _ _ _ pvvoltage _ _, .pvvolts => some pvvoltage
  | .renogy _ _ _ _ _ _ _ _ _ pvamps _, .pvamps => some pvamps
  | .renogy _ _ _ _ _ _ _ _ _ _ pvwatts, .pvwatts => some ⟨pvwatts.toNat, 1⟩
  | .tempHum _ temp _, .temp => some temp
  | .tempHum _ _ hum, .hum => some hum
  | .ac _ voltage _ _ _ _ _ _, .volts => some voltage
  | .ac _ _ amps _ _ _ _ _, .amps => some amps
  | .ac _ _ _ watts _ _ _ _, .watts => some watts
  | _, _ => none

/-- The process, as what it has printed. -/
abbrev Act (α : Type) := Proc ClientError (List Line) α

def print (line : Line) : Act Unit := Proc.modify fun lines => lines ++ [line]

def scaled16 (word : UInt16) (divisor : Nat) : Scaled := ⟨word.toNat, divisor⟩

def scaled32 (word : UInt32) (divisor : Nat) : Scaled := ⟨word.toNat, divisor⟩

section Print

variable (lib : WideLib)

/-- The branches for devices 3, 6 and 10. -/
def printDc (id : UInt16) (s : ParseT) : Act Unit := do
  let voltage ← inU16 lib.toParseLib s
  let amps ← inU16 lib.toParseLib voltage.2
  let watts ← inU32 lib amps.2
  let watthours ← inU32 lib watts.2
  let hiallarm ← inU16 lib.toParseLib watthours.2
  let loallarm ← inU16 lib.toParseLib hiallarm.2
  print (.dc id (scaled16 voltage.1 100) (scaled16 amps.1 100) (scaled32 watts.1 10)
    watthours.1 hiallarm.1 loallarm.1)

def printRenogy (id : UInt16) (s : ParseT) : Act Unit := do
  let percent ← inU16 lib.toParseLib s
  let voltage ← inU16 lib.toParseLib percent.2
  let amps ← inU16 lib.toParseLib voltage.2
  let val1 ← inU16 lib.toParseLib amps.2
  let val2 ← inU16 lib.toParseLib val1.2
  let val3 ← inU16 lib.toParseLib val2.2
  let val4 ← inU16 lib.toParseLib val3.2
  let pvvoltage ← inU16 lib.toParseLib val4.2
  let pvamps ← inU16 lib.toParseLib pvvoltage.2
  let pvwatts ← inU16 lib.toParseLib pvamps.2
  print (.renogy id percent.1 (scaled16 voltage.1 10) (scaled16 amps.1 100) val1.1 val2.1 val3.1
    val4.1 (scaled16 pvvoltage.1 10) (scaled16 pvamps.1 100) pvwatts.1)

def printTemp (id : UInt16) (s : ParseT) : Act Unit := do
  let temp ← inU16 lib.toParseLib s
  let hum ← inU16 lib.toParseLib temp.2
  print (.tempHum id (scaled16 temp.1 10) (scaled16 hum.1 10))

/-- The branches for devices 12 and 13. -/
def printAc (id : UInt16) (s : ParseT) : Act Unit := do
  let voltage ← inU16 lib.toParseLib s
  let amps ← inU32 lib voltage.2
  let watts ← inU32 lib amps.2
  let watthours ← inU32 lib watts.2
  let frequency ← inU16 lib.toParseLib watthours.2
  let powerFactor ← inU16 lib.toParseLib frequency.2
  let alarm ← inU16 lib.toParseLib powerFactor.2
  print (.ac id (scaled16 voltage.1 10) (scaled32 amps.1 1000) (scaled32 watts.1 10) watthours.1
    (scaled16 frequency.1 10) (scaled16 powerFactor.1 100) alarm.1)

def printRegisters (header : Header) (s : ParseT) : Act Unit :=
  if header.type = 1 ∧ header.id = 3 then
    Proc.when (header.address = 0 ∧ header.count = 8) (printDc lib header.id s)
  else if header.type = 1 ∧ header.id = 6 then
    Proc.when (header.address = 0 ∧ header.count = 8) (printDc lib header.id s)
  else if header.type = 0 ∧ header.id = 9 then
    Proc.when (header.address = 256 ∧ header.count = 10) (printRenogy lib header.id s)
  else if header.type = 1 ∧ header.id = 10 then
    Proc.when (header.address = 0 ∧ header.count = 8) (printDc lib header.id s)
  else if header.type = 1 ∧ header.id = 11 then
    Proc.when (header.address = 1 ∧ header.count = 2) (printTemp lib header.id s)
  else if header.type = 1 ∧ header.id = 12 then
    Proc.when (header.address = 0 ∧ header.count = 10) (printAc lib header.id s)
  else if header.type = 1 ∧ header.id = 13 then
    Proc.when (header.address = 0 ∧ header.count = 10) (printAc lib header.id s)
  else pure ()

/-- The message behind code and size. -/
def printMsg (s : ParseT) : Act Unit := do
  let type1 ← inU16 lib.toParseLib s
  let id ← inU16 lib.toParseLib type1.2
  let address1 ← inU16 lib.toParseLib id.2
  let count ← inU16 lib.toParseLib address1.2
  printRegisters lib ⟨type1.1, id.1, address1.1, count.1⟩ count.2

/-- What is behind the code. -/
def printSized (s : ParseT) : Act Unit := do
  let size ← Proc.orAbort (lib.inI16Le s)
  Proc.when (0 < size.1) (printMsg lib size.2)

def printFrame (s : ParseT) : Act Unit := do
  let code ← inU16 lib.toParseLib s
  Proc.when (code.1 = 0) (printSized lib code.2)

/-- What was received is printed, if its copy could be allocated. -/
def printRecv (created : Bool) (bytes : List UInt8) : Act Unit := do
  Proc.guard created .outOfMemory
  Proc.guard (lib.checkRem (lib.createFromSlice bytes) bytes.length) .endOfBuffer
  printFrame lib (lib.createFromSlice bytes)

/-- One pass of the loop in `main`; `true` leaves it. -/
def mainLoop (created : Bool) : Option (List UInt8) → Act Bool
  | none => Proc.fail .recvFailed
  | some [] => pure true
  | some bytes => do
      printRecv lib created bytes
      pure false

end Print

section Values

variable (lib : WideLib) {s : ParseT} {regs : List UInt16} {id : UInt16}

/-- A line with the values of this layout. -/
def Shows (fields : List Field) (regs : List UInt16) (line : Line) : Prop :=
  ∀ quantity, line.value quantity =
    (fields.find? fun field => field.quantity = quantity).bind fun field =>
      (field.raw regs).map fun raw => ⟨raw, field.divisor⟩

theorem printDc_run (left : s.rem = le16s (regs.drop 0)) (complete : regs.length = 8) :
    ∃ line, printDc lib id s = print line ∧ Shows Device.pzem3.fields regs line := by
  refine ⟨.dc id (scaled16 regs[0] 100) (scaled16 regs[1] 100) (scaled32 (wide regs[2] regs[3]) 10)
    (wide regs[4] regs[5]) regs[6] regs[7], ?_, ?_⟩
  · apply inU16_at lib.toParseLib left (by omega)
    intro s left
    apply inU16_at lib.toParseLib left (by omega)
    intro s left
    apply inU32_at lib left (by omega)
    intro s left
    apply inU32_at lib left (by omega)
    intro s left
    apply inU16_at lib.toParseLib left (by omega)
    intro s left
    apply inU16_at lib.toParseLib left (by omega)
    intro s left
    rfl
  · intro quantity
    cases quantity <;>
      simp [Line.value, Device.fields, Field.raw, complete, scaled16, scaled32, wide_toNat]

theorem printRenogy_run (left : s.rem = le16s (regs.drop 0)) (complete : regs.length = 10) :
    ∃ line, printRenogy lib id s = print line ∧ Shows Device.renogy.fields regs line := by
  refine ⟨.renogy id regs[0] (scaled16 regs[1] 10) (scaled16 regs[2] 100) regs[3] regs[4] regs[5]
    regs[6] (scaled16 regs[7] 10) (scaled16 regs[8] 100) regs[9], ?_, ?_⟩
  · apply inU16_at lib.toParseLib left (by omega)
    intro s left
    apply inU16_at lib.toParseLib left (by omega)
    intro s left
    apply inU16_at lib.toParseLib left (by omega)
    intro s left
    apply inU16_at lib.toParseLib left (by omega)
    intro s left
    apply inU16_at lib.toParseLib left (by omega)
    intro s left
    apply inU16_at lib.toParseLib left (by omega)
    intro s left
    apply inU16_at lib.toParseLib left (by omega)
    intro s left
    apply inU16_at lib.toParseLib left (by omega)
    intro s left
    apply inU16_at lib.toParseLib left (by omega)
    intro s left
    apply inU16_at lib.toParseLib left (by omega)
    intro s left
    rfl
  · intro quantity
    cases quantity <;> simp [Line.value, Device.fields, Field.raw, complete, scaled16]

theorem printTemp_run (left : s.rem = le16s (regs.drop 0)) (complete : regs.length = 2) :
    ∃ line, printTemp lib id s = print line ∧ Shows Device.temp11.fields regs line := by
  refine ⟨.tempHum id (scaled16 regs[0] 10) (scaled16 regs[1] 10), ?_, ?_⟩
  · apply inU16_at lib.toParseLib left (by omega)
    intro s left
    apply inU16_at lib.toParseLib left (by omega)
    intro s left
    rfl
  · intro quantity
    cases quantity <;> simp [Line.value, Device.fields, Field.raw, complete, scaled16]

theorem printAc_run (left : s.rem = le16s (regs.drop 0)) (complete : regs.length = 10) :
    ∃ line, printAc lib id s = print line ∧ Shows Device.pzem12.fields regs line := by
  refine ⟨.ac id (scaled16 regs[0] 10) (scaled32 (wide regs[1] regs[2]) 1000)
    (scaled32 (wide regs[3] regs[4]) 10) (wide regs[5] regs[6]) (scaled16 regs[7] 10)
    (scaled16 regs[8] 100) regs[9], ?_, ?_⟩
  · apply inU16_at lib.toParseLib left (by omega)
    intro s left
    apply inU32_at lib left (by omega)
    intro s left
    apply inU32_at lib left (by omega)
    intro s left
    apply inU32_at lib left (by omega)
    intro s left
    apply inU16_at lib.toParseLib left (by omega)
    intro s left
    apply inU16_at lib.toParseLib left (by omega)
    intro s left
    apply inU16_at lib.toParseLib left (by omega)
    intro s left
    rfl
  · intro quantity
    cases quantity <;>
      simp [Line.value, Device.fields, Field.raw, complete, scaled16, scaled32, wide_toNat]

theorem printRegisters_run {device : Device} (left : s.rem = le16s (regs.drop 0))
    (complete : regs.length = device.header.count.toNat) :
    ∃ line, printRegisters lib device.header s = print line ∧ Shows device.fields regs line := by
  cases device with
  | renogy => exact printRenogy_run lib left complete
  | pzem3 => exact printDc_run lib left complete
  | pzem6 => exact printDc_run lib left complete
  | pzem10 => exact printDc_run lib left complete
  | temp11 => exact printTemp_run lib left complete
  | pzem12 => exact printAc_run lib left complete
  | pzem13 => exact printAc_run lib left complete

theorem printFrame_run (message : Message) {device : Device}
    (known : deviceOf message.toHeader = some device) (left : s.rem = message.frame) :
    ∃ line, printFrame lib s = print line ∧ Shows device.fields message.regs line := by
  obtain ⟨header, regs, complete⟩ := message
  obtain rfl : header = device.header := deviceOf_eq_some.mp known
  have positive : 0 < (UInt16.ofNat (12 + 2 * regs.length)).toInt16 := by
    rw [complete]
    cases device <;> decide
  have whole : s.rem = le16s (0 :: UInt16.ofNat (12 + 2 * regs.length) :: device.header.type ::
      device.header.id :: device.header.address :: device.header.count :: regs) := left
  obtain ⟨_, code, whole⟩ := lib.inU16Le_le16 s _ _ whole
  obtain ⟨_, size, whole⟩ := lib.inU16Le_le16 _ _ _ whole
  obtain ⟨_, type1, whole⟩ := lib.inU16Le_le16 _ _ _ whole
  obtain ⟨_, idWord, whole⟩ := lib.inU16Le_le16 _ _ _ whole
  obtain ⟨_, address1, whole⟩ := lib.inU16Le_le16 _ _ _ whole
  obtain ⟨_, count, whole⟩ := lib.inU16Le_le16 _ _ _ whole
  obtain ⟨line, printed, shows⟩ := printRegisters_run lib whole complete
  refine ⟨line, ?_, shows⟩
  have sized := lib.inI16Le_eq
  simp only [printFrame, printSized, printMsg, inU16, code, sized, size, type1, idWord, address1,
    count, orAbort_some, pure_then, Option.map_some, when_true _ positive, printed]
  rfl

end Values

end RenogyX10.TtyClient
