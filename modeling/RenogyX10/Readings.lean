import RenogyX10.Influx.Decode
import RenogyX10.TtyClient.Main

set_option autoImplicit false

namespace RenogyX10.Readings

open Bytes Csck Influx Messages Parse Proc TtyClient

def record (reading : Reading) : Proc ClientError (List Reading) Unit :=
  Proc.modify fun readings => readings ++ [reading]

/-- What `tty_reader_influx` publishes for a message. -/
def published (lib : WideLib) (message : Message) : List Reading :=
  (Influx.processMsg lib record (lib.createFromSlice message.payload) []).state

/-- What `tty_reader_client` prints when it receives the frame of a message. -/
def printed (lib : WideLib) (message : Message) : List Line :=
  (TtyClient.mainLoop lib true (some message.frame) []).state

/-- Every published value is printed for the same quantity, and it is the value
that the registers hold for it. -/
def SameReadings (lib : WideLib) (message : Message) : Prop :=
  ∀ reading ∈ published lib message,
    (∃ line ∈ printed lib message, line.value reading.quantity = some reading.value) ∧
    message.measured reading.quantity = some reading.value

/-- A direct current meter reports a power that takes two registers. -/
def HighWatts (message : Message) : Prop :=
  message.type = 1 ∧ message.id ∈ [3, 6, 10] ∧ message.address = 0 ∧ message.count = 8 ∧
    message.regs[3]? ≠ some 0

def readingOf (device : Device) (regs : List UInt16) (field : Field) : Option Reading :=
  (field.raw regs).map fun raw => ⟨device, field.quantity, ⟨raw, field.divisor⟩⟩

variable (lib : WideLib) {message : Message} {device : Device}

theorem publishFields_record {regs : List UInt16} {fields : List Field}
    (inside : ∀ field ∈ fields, (field.raw regs).isSome = true) (readings : List Reading) :
    publishFields record device (le16s regs) fields readings =
      .ok () (readings ++ fields.filterMap (readingOf device regs)) := by
  induction fields generalizing readings with
  | nil => simp [publishFields]
  | cons field rest ih =>
      obtain ⟨raw, found⟩ := Option.isSome_iff_exists.mp (inside field List.mem_cons_self)
      have later := ih fun other member => inside other (List.mem_cons_of_mem field member)
      have one : readingOf device regs field =
          some ⟨device, field.quantity, ⟨raw, field.divisor⟩⟩ := by
        rw [readingOf, found, Option.map_some]
      rw [publishFields_some (field.read_le16s regs ▸ found), record, modify_bind, later,
        List.filterMap_cons_some one, List.append_assoc, List.singleton_append]

theorem fieldsOf_inside (device : Device) : ∀ field ∈ fieldsOf device,
    field.register + (if field.isWide then 2 else 1) ≤ device.header.count.toNat := by
  cases device <;> decide

theorem published_eq (message : Message) : published lib message =
    (deviceOf message.toHeader).elim [] fun device =>
      (fieldsOf device).filterMap (readingOf device message.regs) := by
  unfold published
  rw [Influx.processMsg_run, lib.rem_createFromSlice, publishPayload_payload]
  cases known : deviceOf message.toHeader with
  | none => rfl
  | some device =>
      have header := deviceOf_eq_some.mp known
      have inside : ∀ field ∈ fieldsOf device, (field.raw message.regs).isSome = true := by
        intro field member
        apply Field.raw_isSome
        rw [message.complete, header]
        exact fieldsOf_inside device field member
      simp only [Option.elim_some, publishFields_record inside, Exit.state, List.nil_append]

/-- The client prints one line for a message of a known device, with its values. -/
theorem printed_known (known : deviceOf message.toHeader = some device) :
    ∃ line, printed lib message = [line] ∧
      ∀ quantity, line.value quantity = message.measured quantity := by
  have left := lib.rem_createFromSlice message.frame
  obtain ⟨line, ran, shows⟩ := printFrame_run lib message known left
  refine ⟨line, ?_, ?_⟩
  · have whole : lib.checkRem (lib.createFromSlice message.frame) message.frame.length = true := by
      apply (lib.checkRem_iff _ _).mpr
      exact Nat.le_of_eq (congrArg List.length left).symm
    have received : printRecv lib true message.frame = print line := by
      rw [printRecv, whole, ran]
      rfl
    show ((printRecv lib true message.frame >>= fun _ => pure false) []).state = [line]
    rw [received]
    rfl
  · intro quantity
    rw [shows, Message.measured, known, Option.bind_some]

theorem find_field (device : Device) : ∀ field ∈ device.fields,
    device.fields.find? (fun other => other.quantity = field.quantity) = some field := by
  cases device <;> decide

theorem measured_field (known : deviceOf message.toHeader = some device) {field : Field}
    (member : field ∈ device.fields) : message.measured field.quantity =
      (field.raw message.regs).map fun raw => ⟨raw, field.divisor⟩ := by
  rw [Message.measured, known, Option.bind_some, find_field device field member, Option.bind_some]

/-- The values agree when each is the one the registers hold. -/
theorem same_readings_known (known : deviceOf message.toHeader = some device) :
    SameReadings lib message ↔
      ∀ field ∈ fieldsOf device, ∀ raw ∈ field.raw message.regs,
        message.measured field.quantity = some ⟨raw, field.divisor⟩ := by
  obtain ⟨line, printed, shows⟩ := printed_known lib known
  have values := published_eq lib message
  rw [known, Option.elim_some] at values
  unfold SameReadings
  rw [values, printed]
  constructor
  · intro same field member raw found
    have here : ⟨device, field.quantity, ⟨raw, field.divisor⟩⟩ ∈
        (fieldsOf device).filterMap (readingOf device message.regs) := by
      apply List.mem_filterMap.mpr
      exact ⟨field, member, by rw [readingOf, found, Option.map_some]⟩
    exact (same _ here).2
  · intro same reading member
    obtain ⟨field, isField, value⟩ := List.mem_filterMap.mp member
    obtain ⟨raw, found, rfl⟩ := Option.map_eq_some_iff.mp value
    have measured := same field isField raw found
    exact ⟨⟨line, List.mem_singleton_self line, (shows _).trans measured⟩, measured⟩

/-- The first register of a field holds its whole value when there is no second
one, or the second one is zero. -/
theorem narrow_iff {field : Field} {regs : List UInt16}
    (inside : field.register + (if field.isWide then 2 else 1) ≤ regs.length) :
    (∀ raw ∈ ({ field with isWide := false } : Field).raw regs, field.raw regs = some raw) ↔
      (field.isWide = true → regs[field.register + 1]? = some 0) := by
  obtain ⟨quantity, register, isWide, divisor⟩ := field
  cases isWide with
  | false => simp
  | true =>
      have high : register + 1 < regs.length := inside
      have low : register < regs.length := by omega
      have zero : regs[register + 1].toNat = 0 ↔ regs[register + 1] = 0 :=
        UInt16.toNat_inj (b := 0)
      simp only [Field.raw, low, high, List.getElem?_eq_getElem, Option.bind_some, Option.map_some,
        Option.mem_def, Option.some.injEq, Bool.false_eq_true, ↓reduceIte, forall_eq',
        forall_const, ← zero]
      omega

/-- The power of a direct current meter is the only value of two registers that
is taken for one. -/
theorem measured_narrow (known : deviceOf message.toHeader = some device)
    (isDc : device.isDc = true) :
    (∀ field ∈ fieldsOf device, ∀ raw ∈ field.raw message.regs,
      message.measured field.quantity = some ⟨raw, field.divisor⟩) ↔
    message.regs[3]? = some 0 := by
  have length : message.regs.length = 8 := by
    rw [message.complete, deviceOf_eq_some.mp known]
    cases device <;> first | rfl | cases isDc
  have fields : device.fields = Device.pzem3.fields := by
    cases device <;> first | rfl | cases isDc
  have each : ∀ field ∈ device.fields,
      (∀ raw ∈ ({ field with isWide := false } : Field).raw message.regs,
        message.measured field.quantity = some ⟨raw, field.divisor⟩) ↔
      (field.isWide = true → message.regs[field.register + 1]? = some 0) := by
    intro field member
    have inside : field.register + (if field.isWide then 2 else 1) ≤ message.regs.length := by
      rw [length]
      rw [fields] at member
      revert field
      decide
    rw [← narrow_iff inside, measured_field known member]
    simp
  rw [fieldsOf, if_pos isDc, List.forall_mem_map]
  rw [forall₂_congr each, fields]
  simp [Device.fields]

/-- The frames with a high word of the power are the ones whose layout differs. -/
theorem highWatts_iff (message : Message) : HighWatts message ↔
    ∃ device, deviceOf message.toHeader = some device ∧ device.isDc = true ∧
      message.regs[3]? ≠ some 0 := by
  obtain ⟨⟨type, id, address, count⟩, regs, complete⟩ := message
  constructor
  · rintro ⟨rfl, isDc, rfl, rfl, high⟩
    simp only [List.mem_cons, List.not_mem_nil, or_false] at isDc
    rcases isDc with rfl | rfl | rfl
    · exact ⟨.pzem3, rfl, rfl, high⟩
    · exact ⟨.pzem6, rfl, rfl, high⟩
    · exact ⟨.pzem10, rfl, rfl, high⟩
  · rintro ⟨device, known, isDc, high⟩
    have header := deviceOf_eq_some.mp known
    cases device <;> cases isDc <;> cases header <;>
      exact ⟨rfl, by simp, rfl, rfl, high⟩

/-- The two subscribers read the same values exactly when the power of a direct
current meter fits one register. -/
theorem same_readings_iff (message : Message) : SameReadings lib message ↔ ¬ HighWatts message := by
  rw [highWatts_iff]
  cases known : deviceOf message.toHeader with
  | none =>
      have nothing := published_eq lib message
      rw [known, Option.elim_none] at nothing
      constructor
      · rintro _ ⟨device, found, _⟩
        cases found
      · intro _ reading member
        rw [nothing] at member
        cases member
  | some device =>
      rw [same_readings_known lib known]
      cases isDc : device.isDc with
      | true =>
          rw [measured_narrow known isDc]
          constructor
          · rintro zero ⟨_, _, _, high⟩
            exact high zero
          · intro low
            by_contra high
            exact low ⟨device, rfl, isDc, high⟩
      | false =>
          constructor
          · rintro _ ⟨other, found, dc, _⟩
            cases found
            rw [isDc] at dc
            cases dc
          · intro _ field member raw found
            rw [fieldsOf, isDc] at member
            rw [measured_field known member, found, Option.map_some]

/-- 120 volts, 60 amps, 7200 watts. -/
def highPower : Message := ⟨⟨1, 3, 0, 8⟩, [12000, 6000, 6464, 1, 0, 0, 0, 0], rfl⟩

/-- One subscriber publishes 646.4 watts, the other one prints 7200.0. -/
theorem readings_differ_highPower :
    ⟨.pzem3, .watts, ⟨6464, 10⟩⟩ ∈ published wideReference highPower ∧
      printed wideReference highPower =
        [.dc 3 ⟨12000, 100⟩ ⟨6000, 100⟩ ⟨72000, 10⟩ 0 0 0] ∧
      ¬ SameReadings wideReference highPower := by
  have watts : ⟨.pzem3, .watts, ⟨6464, 10⟩⟩ ∈ published wideReference highPower := by decide
  refine ⟨watts, by decide, ?_⟩
  intro same
  have measured := (same _ watts).2
  revert measured
  decide

end RenogyX10.Readings
