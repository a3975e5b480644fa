import RenogyX10.Messages

set_option autoImplicit false

namespace RenogyX10.Influx

open Bytes Csck Messages Parse Proc

/-- A value for one table, whose name joins the device and the quantity. -/
structure Reading where
  device : Device
  quantity : Quantity
  value : Scaled
deriving DecidableEq

section Decode

variable {σ : Type} (lib : WideLib) (publish : Reading → Proc ClientError σ Unit)

def tableU16 (device : Device) (quantity : Quantity) (divisor : Nat) (s : ParseT) :
    Proc ClientError σ ParseT := do
  Proc.guard (lib.checkRem s 2) .endOfBuffer
  let word ← inU16 lib.toParseLib s
  publish ⟨device, quantity, ⟨word.1.toNat, divisor⟩⟩
  pure word.2

def tableU32 (device : Device) (quantity : Quantity) (divisor : Nat) (s : ParseT) :
    Proc ClientError σ ParseT := do
  Proc.guard (lib.checkRem s 4) .endOfBuffer
  let word ← inU32 lib s
  publish ⟨device, quantity, ⟨word.1.toNat, divisor⟩⟩
  pure word.2

def tableSkip (skip : Nat) (device : Device) (quantity : Quantity) (divisor : Nat) (s : ParseT) :
    Proc ClientError σ ParseT := do
  Proc.guard (lib.checkRem s (skip + 2)) .endOfBuffer
  let s ← Proc.orAbort (lib.inU8Skip s skip)
  let word ← inU16 lib.toParseLib s
  publish ⟨device, quantity, ⟨word.1.toNat, divisor⟩⟩
  pure word.2

def processRenogy (s : ParseT) : Proc ClientError σ Unit := do
  -- percent
  let s ← tableSkip lib publish 2 .renogy .volts 10 s
  let s ← tableU16 lib publish .renogy .amps 100 s
  -- temp, load
  let s ← tableSkip lib publish 8 .renogy .pvvolts 10 s
  let s ← tableU16 lib publish .renogy .pvamps 100 s
  let _ ← tableU16 lib publish .renogy .pvwatts 1 s
  pure ()

/-- The branches for devices 3, 6 and 10. -/
def processDc (device : Device) (s : ParseT) : Proc ClientError σ Unit := do
  let s ← tableU16 lib publish device .volts 100 s
  let s ← tableU16 lib publish device .amps 100 s
  let _ ← tableU16 lib publish device .watts 10 s
  pure ()

def processTemp (s : ParseT) : Proc ClientError σ Unit := do
  let s ← tableU16 lib publish .temp11 .temp 10 s
  let _ ← tableU16 lib publish .temp11 .hum 10 s
  pure ()

/-- The branches for devices 12 and 13. -/
def processAc (device : Device) (s : ParseT) : Proc ClientError σ Unit := do
  let s ← tableU16 lib publish device .volts 10 s
  let s ← tableU32 lib publish device .amps 1000 s
  let _ ← tableU32 lib publish device .watts 10 s
  pure ()

def processMsg (s : ParseT) : Proc ClientError σ Unit := do
  Proc.guard (lib.checkRem s 8) .endOfBuffer
  let type1 ← inU16 lib.toParseLib s
  let idWord ← inU16 lib.toParseLib type1.2
  let address1 ← inU16 lib.toParseLib idWord.2
  let count ← inU16 lib.toParseLib address1.2
  if type1.1 = 0 ∧ idWord.1 = 9 then
    Proc.when (address1.1 = 256 ∧ count.1 = 10) (processRenogy lib publish count.2)
  else if type1.1 = 1 ∧ idWord.1 = 3 then
    Proc.when (address1.1 = 0 ∧ count.1 = 8) (processDc lib publish .pzem3 count.2)
  else if type1.1 = 1 ∧ idWord.1 = 6 then
    Proc.when (address1.1 = 0 ∧ count.1 = 8) (processDc lib publish .pzem6 count.2)
  else if type1.1 = 1 ∧ idWord.1 = 10 then
    Proc.when (address1.1 = 0 ∧ count.1 = 8) (processDc lib publish .pzem10 count.2)
  else if type1.1 = 1 ∧ idWord.1 = 11 then
    Proc.when (address1.1 = 1 ∧ count.1 = 2) (processTemp lib publish count.2)
  else if type1.1 = 1 ∧ idWord.1 = 12 then
    Proc.when (address1.1 = 0 ∧ count.1 = 10) (processAc lib publish .pzem12 count.2)
  else if type1.1 = 1 ∧ idWord.1 = 13 then
    Proc.when (address1.1 = 0 ∧ count.1 = 10) (processAc lib publish .pzem13 count.2)
  else pure ()

/-- The layouts as `process_msg` assumes them: it takes the power of a direct
current meter for one register. -/
def fieldsOf (device : Device) : List Field :=
  if device.isDc then device.fields.map fun field => { field with isWide := false }
  else device.fields

/-- The fields go to their tables, up to the first that is cut off. -/
def publishFields (device : Device) (bytes : List UInt8) : List Field → Proc ClientError σ Unit
  | [] => pure ()
  | field :: rest =>
      match field.read bytes with
      | none => Proc.fail .endOfBuffer
      | some raw => do
          publish ⟨device, field.quantity, ⟨raw, field.divisor⟩⟩
          publishFields device bytes rest

def publishPayload : List UInt8 → Proc ClientError σ Unit
  | t0 :: t1 :: i0 :: i1 :: a0 :: a1 :: c0 :: c1 :: bytes =>
      match deviceOf ⟨readLe16 t0 t1, readLe16 i0 i1, readLe16 a0 a1, readLe16 c0 c1⟩ with
      | some device => publishFields publish device bytes (fieldsOf device)
      | none => pure ()
  | _ => Proc.fail .endOfBuffer

end Decode

section Runs

variable {σ : Type} (lib : WideLib) {publish : Reading → Proc ClientError σ Unit}
  {device : Device} {bytes : List UInt8} {s : ParseT} {next : ParseT → Proc ClientError σ Unit}
  {field : Field} {fields : List Field}

theorem publish_bind {reading : Reading} {t : ParseT}
    (later : next t = publishFields publish device bytes fields) :
    ((do publish reading; pure t : Proc ClientError σ ParseT) >>= next) =
      (publish reading >>= fun _ => publishFields publish device bytes fields) := by
  funext h
  rw [← later]
  simp only [bind_run]
  cases publish reading h <;> rfl

theorem publishFields_some {raw : Nat} (found : field.read bytes = some raw) :
    publishFields publish device bytes (field :: fields) =
      (publish ⟨device, field.quantity, ⟨raw, field.divisor⟩⟩ >>= fun _ =>
        publishFields publish device bytes fields) := by
  rw [publishFields, found]

theorem publishFields_none (missing : field.read bytes = none) :
    publishFields publish device bytes (field :: fields) = Proc.fail .endOfBuffer := by
  rw [publishFields, missing]

variable (field)

theorem tableU16_bind (narrow : field.isWide = false)
    (left : s.rem = bytes.drop (2 * field.register))
    (later : ∀ t, t.rem = bytes.drop (2 * (field.register + 1)) →
      next t = publishFields publish device bytes fields) :
    (tableU16 lib publish device field.quantity field.divisor s >>= next) =
      publishFields publish device bytes (field :: fields) := by
  unfold tableU16
  by_cases enough : 2 ≤ s.rem.length
  · have long := (lib.checkRem_iff s 2).mpr enough
    rw [left] at enough
    obtain ⟨low, high, rest, drop⟩ := exists_two enough
    have found : field.read bytes = some (readLe16 low high).toNat := by
      simp [Field.read, narrow, drop]
    have behind : rest = bytes.drop (2 * (field.register + 1)) := by
      rw [Nat.mul_succ, ← List.drop_drop, drop]
      rfl
    rw [long, publishFields_some found, Proc.bind_assoc, Proc.guard_true, pure_then,
      Proc.bind_assoc]
    obtain ⟨t, read, after⟩ := lib.inU16Le_run (left.trans drop)
    rw [inU16, read]
    exact publish_bind (later t (after.trans behind))
  · have missing : field.read bytes = none := by
      apply Field.read_short
      rw [← left, narrow]
      simpa using enough
    rw [lib.checkRem_short (Nat.lt_of_not_le enough), publishFields_none missing]
    rfl

theorem tableU32_bind (isWide : field.isWide = true)
    (left : s.rem = bytes.drop (2 * field.register))
    (later : ∀ t, t.rem = bytes.drop (2 * (field.register + 2)) →
      next t = publishFields publish device bytes fields) :
    (tableU32 lib publish device field.quantity field.divisor s >>= next) =
      publishFields publish device bytes (field :: fields) := by
  unfold tableU32
  by_cases enough : 4 ≤ s.rem.length
  · have long := (lib.checkRem_iff s 4).mpr enough
    rw [left] at enough
    obtain ⟨b0, b1, b2, b3, rest, drop⟩ := exists_four enough
    have found : field.read bytes = some (wide (readLe16 b0 b1) (readLe16 b2 b3)).toNat := by
      simp [Field.read, isWide, drop]
    have behind : rest = bytes.drop (2 * (field.register + 2)) := by
      rw [Nat.mul_add, ← List.drop_drop, drop]
      rfl
    rw [long, publishFields_some found, Proc.bind_assoc, Proc.guard_true, pure_then,
      Proc.bind_assoc]
    obtain ⟨t, read, after⟩ := lib.inU32Le_run (left.trans drop)
    rw [inU32, read]
    exact publish_bind (later t (after.trans behind))
  · have missing : field.read bytes = none := by
      apply Field.read_short
      rw [← left, isWide]
      simpa using enough
    rw [lib.checkRem_short (Nat.lt_of_not_le enough), publishFields_none missing]
    rfl

/-- One check covers what is skipped and the register behind it. -/
theorem tableSkip_bind {front skip : Nat} (narrow : field.isWide = false)
    (left : s.rem = bytes.drop front) (behind : front + skip = 2 * field.register)
    (later : ∀ t, t.rem = bytes.drop (2 * (field.register + 1)) →
      next t = publishFields publish device bytes fields) :
    (tableSkip lib publish skip device field.quantity field.divisor s >>= next) =
      publishFields publish device bytes (field :: fields) := by
  have skipped : bytes.drop (2 * field.register) = s.rem.drop skip := by
    rw [left, List.drop_drop, behind]
  by_cases enough : skip + 2 ≤ s.rem.length
  · have onward := lib.inU8Skip_inside s skip (by omega)
    have moved : ({ s with offset := s.offset + skip } : ParseT).rem =
        bytes.drop (2 * field.register) := by
      rw [skipped, ParseT.rem, ParseT.rem, List.drop_drop]
    have rest := tableU16_bind lib field narrow moved later
    have long := lib.checkRem_iff { s with offset := s.offset + skip } 2
    rw [moved, skipped, List.length_drop] at long
    rw [← rest]
    unfold tableSkip tableU16
    rw [(lib.checkRem_iff s _).mpr enough, long.mpr (by omega), onward]
    rfl
  · have missing : field.read bytes = none := by
      apply Field.read_short
      rw [skipped, narrow, List.length_drop]
      simp only [Bool.false_eq_true, ↓reduceIte]
      omega
    unfold tableSkip
    rw [lib.checkRem_short (Nat.lt_of_not_le enough), publishFields_none missing]
    rfl

theorem processRenogy_run (s : ParseT) :
    processRenogy lib publish s = publishFields publish .renogy s.rem (fieldsOf .renogy) := by
  unfold processRenogy
  apply tableSkip_bind lib ⟨.volts, 1, false, 10⟩ rfl (List.drop_zero).symm rfl
  intro s left
  apply tableU16_bind lib ⟨.amps, 2, false, 100⟩ rfl left
  intro s left
  apply tableSkip_bind lib ⟨.pvvolts, 7, false, 10⟩ rfl left rfl
  intro s left
  apply tableU16_bind lib ⟨.pvamps, 8, false, 100⟩ rfl left
  intro s left
  apply tableU16_bind lib ⟨.pvwatts, 9, false, 1⟩ rfl left
  intro s left
  rfl

theorem processDc_run (s : ParseT) {device : Device} (isDc : device.isDc = true) :
    processDc lib publish device s = publishFields publish device s.rem (fieldsOf device) := by
  have fields : fieldsOf device = fieldsOf .pzem3 := by
    cases device <;> first | rfl | cases isDc
  rw [fields]
  unfold processDc
  apply tableU16_bind lib ⟨.volts, 0, false, 100⟩ rfl (List.drop_zero).symm
  intro s left
  apply tableU16_bind lib ⟨.amps, 1, false, 100⟩ rfl left
  intro s left
  apply tableU16_bind lib ⟨.watts, 2, false, 10⟩ rfl left
  intro s left
  rfl

theorem processTemp_run (s : ParseT) :
    processTemp lib publish s = publishFields publish .temp11 s.rem (fieldsOf .temp11) := by
  unfold processTemp
  apply tableU16_bind lib ⟨.temp, 0, false, 10⟩ rfl (List.drop_zero).symm
  intro s left
  apply tableU16_bind lib ⟨.hum, 1, false, 10⟩ rfl left
  intro s left
  rfl

theorem processAc_run (s : ParseT) {device : Device} (fields : fieldsOf device = fieldsOf .pzem12) :
    processAc lib publish device s = publishFields publish device s.rem (fieldsOf device) := by
  rw [fields]
  unfold processAc
  apply tableU16_bind lib ⟨.volts, 0, false, 10⟩ rfl (List.drop_zero).symm
  intro s left
  apply tableU32_bind lib ⟨.amps, 1, true, 1000⟩ rfl left
  intro s left
  apply tableU32_bind lib ⟨.watts, 3, true, 10⟩ rfl left
  intro s left
  rfl

/-- A message is never read past its end: it is too short, of no interest, or its
fields are published as far as they go. -/
theorem processMsg_run (s : ParseT) : processMsg lib publish s = publishPayload publish s.rem := by
  unfold processMsg
  match left : s.rem with
  | [] | [_] | [_, _] | [_, _, _] | [_, _, _, _] | [_, _, _, _, _] | [_, _, _, _, _, _]
  | [_, _, _, _, _, _, _] =>
      have short : s.rem.length < 8 := by simp [left]
      rw [lib.checkRem_short short]
      rfl
  | t0 :: t1 :: i0 :: i1 :: a0 :: a1 :: c0 :: c1 :: bytes =>
      have long : lib.checkRem s 8 = true := by simp [lib.checkRem_iff, left]
      obtain ⟨_, first, left⟩ := lib.inU16Le_run left
      obtain ⟨_, second, left⟩ := lib.inU16Le_run left
      obtain ⟨_, third, left⟩ := lib.inU16Le_run left
      obtain ⟨s, fourth, left⟩ := lib.inU16Le_run left
      simp only [long, Proc.guard_true, pure_then, inU16, first, second, third, fourth,
        orAbort_some, publishPayload]
      generalize readLe16 t0 t1 = type
      generalize readLe16 i0 i1 = idWord
      generalize readLe16 a0 a1 = address
      generalize readLe16 c0 c1 = count
      subst left
      cases found : deviceOf ⟨type, idWord, address, count⟩ with
      | some device =>
          have same := deviceOf_eq_some.mp found
          cases device <;> cases same
          · exact processRenogy_run lib s
          · exact processDc_run lib s rfl
          · exact processDc_run lib s rfl
          · exact processDc_run lib s rfl
          · exact processTemp_run lib s
          · exact processAc_run lib s rfl
          · exact processAc_run lib s rfl
      | none =>
          split
          · exact when_unknown .renogy found ‹_› _
          split
          · exact when_unknown .pzem3 found ‹_› _
          split
          · exact when_unknown .pzem6 found ‹_› _
          split
          · exact when_unknown .pzem10 found ‹_› _
          split
          · exact when_unknown .temp11 found ‹_› _
          split
          · exact when_unknown .pzem12 found ‹_› _
          split
          · exact when_unknown .pzem13 found ‹_› _
          rfl

omit lib in
theorem publishPayload_cases (payload : List UInt8) :
    publishPayload publish payload = Proc.fail .endOfBuffer ∨
    publishPayload publish payload = pure () ∨
    ∃ device bytes, publishPayload publish payload =
      publishFields publish device bytes (fieldsOf device) := by
  unfold publishPayload
  split
  · split
    · exact .inr (.inr ⟨_, _, rfl⟩)
    · exact .inr (.inl rfl)
  · exact .inl rfl

omit lib in
theorem publishPayload_payload (message : Message) :
    publishPayload publish message.payload =
      (deviceOf message.toHeader).elim (pure ()) fun device =>
        publishFields publish device (le16s message.regs) (fieldsOf device) := by
  unfold Message.payload
  simp only [le16s_cons, List.cons_append, List.nil_append, le16, publishPayload, readLe16_le16]
  cases deviceOf message.toHeader <;> rfl

end Runs

end RenogyX10.Influx
