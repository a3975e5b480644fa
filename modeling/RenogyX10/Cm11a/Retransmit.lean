import Mathlib.Algebra.GroupWithZero.Nat
import RenogyX10.Cm11a.Steps

set_option autoImplicit false

namespace RenogyX10.Cm11a

def byteSum (bytes : List UInt8) : Nat := (bytes.map UInt8.toNat).sum % 256

theorem foldl_sum (bytes : List UInt8) (start : UInt32) :
    (bytes.foldl (fun crc byte => crc + byte.toUInt32) start).toNat % 256 =
      (start.toNat + (bytes.map UInt8.toNat).sum) % 256 := by
  induction bytes generalizing start with
  | nil => rfl
  | cons byte rest ih =>
      have added : (start + byte.toUInt32).toNat % 256 = (start.toNat + byte.toNat) % 256 := by
        rw [UInt32.toNat_add, UInt8.toNat_toUInt32]
        omega
      rw [List.foldl_cons, ih, List.map_cons, List.sum_cons]
      omega

theorem crcOf_toNat (bytes : List UInt8) : (crcOf bytes).toNat = byteSum bytes := by
  have mask : (0xFF : UInt32).toNat = 2 ^ 8 - 1 := rfl
  have sum := foldl_sum bytes 0
  rw [crcOf, UInt32.toNat_and, mask, Nat.and_two_pow_sub_one_eq_mod]
  simpa [byteSum] using sum

/-- The callback calls `libcm11a_write_data_crc` with this message, and the slot is
free when it does. -/
def Callback.Queues (callback : Callback) (s : LibCm11a) (bytes : List UInt8) : Prop :=
  ∃ front back, callback.writes = front ++ ⟨true, bytes⟩ :: back ∧
    (Callback.call ⟨front, callback.rv⟩ s).2.data = none

/-- The callback that a compared byte leads to. -/
def App.checksum (app : App) (byte : UInt8) (s : LibCm11a) : Callback :=
  if byte.toUInt32 == s.crc then app.crcOk else app.crcNotOk

/-- The comparison waits for the checksum of this message. -/
def Armed (bytes : List UInt8) (s : LibCm11a) : Prop :=
  s.wantCrc = true ∧ s.crc.toNat = byteSum bytes

instance (bytes : List UInt8) (s : LibCm11a) : Decidable (Armed bytes s) :=
  inferInstanceAs (Decidable (_ ∧ _))

/-- The port takes the whole message in the step that queued it, and `done_write`
queues one with the same checksum. -/
structure SentAndQueuedAgain (io : CheckIo) (callback : Callback) (bytes : List UInt8) : Prop where
  returned : callback.rv = 0
  writable : io.canWrite = true
  nonempty : 0 < bytes.length
  whole : io.port.answer bytes.length = bytes.length
  again : ∃ other, io.app.doneWrite.writes.head? = some ⟨true, other⟩ ∧
    byteSum other = byteSum bytes

variable {s : LibCm11a} {bytes : List UInt8} {io : CheckIo} {callback : Callback}

theorem Callback.call_free {write : Write} {rest : List Write} (free : s.data = none)
    (first : callback.writes = write :: rest) : callback.call s = (callback.rv, write.call s) := by
  have busy : (write.call s).data ≠ none := by
    rw [write.call_free free]
    exact Option.some_ne_none _
  have later := Callback.call_busy ⟨rest, callback.rv⟩ busy
  unfold Callback.call at later ⊢
  rw [first, List.foldl_cons]
  exact later

theorem Callback.Queues.head (queues : callback.Queues s bytes) :
    s.data = none ∧ ∃ rest, callback.writes = ⟨true, bytes⟩ :: rest := by
  obtain ⟨front, back, writes, free⟩ := queues
  cases front with
  | nil => exact ⟨free, back, writes⟩
  | cons write rest =>
      by_cases slot : s.data = none
      · rw [Callback.call_free slot rfl, write.call_free slot] at free
        cases free
      · rw [Callback.call_busy _ slot] at free
        exact absurd free slot

/-- The driver when the callback has queued the message and returned. -/
def queuedAgain (byte : UInt8) (bytes : List UInt8) (s : LibCm11a) : LibCm11a :=
  { ((s.emit (.checksum byte (byte.toUInt32 == s.crc))).queue bytes).emit (.queued true bytes) with
    crc := crcOf bytes
    wantCrc := false }

theorem checkRead_queues {byte : UInt8} (ready : io.canRead = true) (read : io.read = some byte)
    (wants : s.wantCrc = true) (queues : (io.app.checksum byte s).Queues s bytes) :
    checkRead io s = ((io.app.checksum byte s).rv, queuedAgain byte bytes s) := by
  obtain ⟨free, rest, writes⟩ := queues.head
  have slot : (s.emit (.checksum byte (byte.toUInt32 == s.crc))).data = none := free
  have called := Callback.call_free slot writes
  rw [Write.call_free _ slot] at called
  unfold checkRead
  rw [if_pos ready, read]
  dsimp only
  rw [if_pos wants]
  unfold compareCrc
  dsimp only
  unfold App.checksum at called
  rw [called]
  rfl

theorem not_armed (disarmed : s.wantCrc = false) : ¬ Armed bytes s := by
  intro armed
  rw [armed.1] at disarmed
  cases disarmed

/-- `done_write` finds a free slot and a disarmed driver. -/
theorem doneWrite_arms (free : s.data = none) (disarmed : s.wantCrc = false) :
    Armed bytes (callback.call s).2 ↔
      ∃ other, callback.writes.head? = some ⟨true, other⟩ ∧ byteSum other = byteSum bytes := by
  cases writes : callback.writes with
  | nil =>
      have same : (callback.call s).2 = s := by rw [Callback.call, writes]; rfl
      rw [same]
      constructor
      · exact fun armed => absurd armed (not_armed disarmed)
      · intro ⟨other, first, _⟩
        cases first
  | cons write rest =>
      rw [Callback.call_free free writes, write.call_free free, List.head?_cons]
      obtain ⟨crc, message⟩ := write
      cases crc with
      | false =>
          constructor
          · exact fun armed => absurd armed (not_armed rfl)
          · intro ⟨other, first, _⟩
            cases first
      | true =>
          have stored := crcOf_toNat message
          constructor
          · intro armed
            refine ⟨message, rfl, ?_⟩
            rw [← stored]
            exact armed.2
          · intro ⟨other, first, same⟩
            cases first
            exact ⟨rfl, stored.trans same⟩

theorem checkWrite_arms (byte : UInt8) :
    Armed bytes (checkWrite io (queuedAgain byte bytes s)).2 ↔
      io.canWrite = true ∧ 0 < bytes.length ∧ io.port.answer bytes.length = bytes.length ∧
        ∃ other, io.app.doneWrite.writes.head? = some ⟨true, other⟩ ∧
          byteSum other = byteSum bytes := by
  have within := io.port.within bytes.length
  have sent : (queuedAgain byte bytes s).dataBytes - (queuedAgain byte bytes s).dataSent =
      bytes.length := Nat.sub_zero _
  have slot : (queuedAgain byte bytes s).data = some bytes := rfl
  unfold checkWrite
  rw [slot, sent]
  dsimp only
  by_cases ready : io.canWrite = true
  · rw [if_pos ready]
    by_cases wrote : 0 < io.port.answer bytes.length
    · rw [if_pos wrote]
      unfold checkSent
      by_cases whole : io.port.answer bytes.length = bytes.length
      · have all : (notePiece bytes (io.port.answer bytes.length).toNat
            (queuedAgain byte bytes s)).dataBytes ≤ (notePiece bytes
              (io.port.answer bytes.length).toNat (queuedAgain byte bytes s)).dataSent := by
          show bytes.length ≤ 0 + (io.port.answer bytes.length).toNat
          omega
        rw [if_pos all, doneWrite_arms rfl rfl]
        exact ⟨fun again => ⟨ready, by omega, whole, again⟩, fun ⟨_, _, _, again⟩ => again⟩
      · have more : ¬ (notePiece bytes (io.port.answer bytes.length).toNat
            (queuedAgain byte bytes s)).dataBytes ≤ (notePiece bytes
              (io.port.answer bytes.length).toNat (queuedAgain byte bytes s)).dataSent := by
          show ¬ bytes.length ≤ 0 + (io.port.answer bytes.length).toNat
          omega
        rw [if_neg more]
        exact ⟨fun armed => absurd armed (not_armed rfl), fun ⟨_, _, same, _⟩ => absurd same whole⟩
    · rw [if_neg wrote]
      refine ⟨fun armed => absurd armed (not_armed rfl), fun ⟨_, nonempty, whole, _⟩ => ?_⟩
      omega
  · rw [if_neg ready]
    exact ⟨fun armed => absurd armed (not_armed rfl), fun ⟨writable, _⟩ => absurd writable ready⟩

/-- A message that a checksum callback queues stays armed exactly if it is sent at
once and `done_write` queues one with its checksum. -/
theorem retransmission_armed_iff (io : CheckIo) (s : LibCm11a) (byte : UInt8) (bytes : List UInt8)
    (ready : io.canRead = true) (read : io.read = some byte) (wants : s.wantCrc = true)
    (queues : (io.app.checksum byte s).Queues s bytes) :
    Armed bytes (checkWaitObjs io s).2 ↔
      SentAndQueuedAgain io (io.app.checksum byte s) bytes := by
  unfold checkWaitObjs
  rw [checkRead_queues ready read wants queues]
  dsimp only
  by_cases returned : (io.app.checksum byte s).rv = 0
  · rw [if_pos returned, checkWrite_arms]
    constructor
    · intro ⟨writable, nonempty, whole, again⟩
      exact ⟨returned, writable, nonempty, whole, again⟩
    · intro sent
      exact ⟨sent.writable, sent.nonempty, sent.whole, sent.again⟩
  · rw [if_neg returned]
    exact ⟨fun armed => absurd armed (not_armed rfl), fun sent => absurd sent.returned returned⟩

/-- The checksum of the address A1 is awaited. -/
def awaiting : LibCm11a := { wantCrc := true, crc := 0x6a }

/-- A wrong one comes, and the callback sends the address again. -/
def wrongChecksum (canWrite : Bool) (doneWrite : Callback) : CheckIo :=
  ⟨true, some 0x5A, canWrite, wholePort,
    { crcNotOk := ⟨[⟨true, [0x04, 0x66]⟩], 0⟩, doneWrite := doneWrite }⟩

theorem wrongChecksum_queues (canWrite : Bool) (doneWrite : Callback) :
    ((wrongChecksum canWrite doneWrite).app.checksum 0x5A awaiting).Queues awaiting [0x04, 0x66] :=
  ⟨[], [], rfl, rfl⟩

/-- It is sent at once, and `done_write` queues it a third time. -/
theorem retransmission_armed_iff_doneWrite :
    Armed [0x04, 0x66]
      (checkWaitObjs (wrongChecksum true ⟨[⟨true, [0x04, 0x66]⟩], 0⟩) awaiting).2 := by
  refine (retransmission_armed_iff _ awaiting 0x5A [0x04, 0x66] rfl rfl rfl
    (wrongChecksum_queues true _)).mpr ?_
  exact ⟨rfl, rfl, Nat.zero_lt_two, rfl, [0x04, 0x66], rfl, rfl⟩

/-- It waits in the slot, and its checksum is not awaited. -/
theorem retransmission_not_armed :
    ((wrongChecksum false {}).app.checksum 0x5A awaiting).Queues awaiting [0x04, 0x66] ∧
      ¬ Armed [0x04, 0x66] (checkWaitObjs (wrongChecksum false {}) awaiting).2 := by
  refine ⟨wrongChecksum_queues false {}, ?_⟩
  decide

end RenogyX10.Cm11a
