import RenogyX10.Cm11a.Types

set_option autoImplicit false

namespace RenogyX10.Cm11a

variable {inv : LibCm11a → Prop} {s : LibCm11a}

theorem Write.call_busy (write : Write) (busy : s.data ≠ none) : write.call s = s := by
  simp only [Write.call, writeDataCrc, writeData, if_pos busy, ite_self]

theorem Write.call_free (write : Write) (free : s.data = none) :
    write.call s = { (s.queue write.bytes).emit (.queued write.crc write.bytes) with
      crc := if write.crc then crcOf write.bytes else s.crc
      wantCrc := write.crc } := by
  have open_slot : ¬ s.data ≠ none := not_not.mpr free
  unfold Write.call writeDataCrc writeData
  simp only [if_neg open_slot]
  cases write.crc <;> rfl

/-- Of the writes of a callback only the first one can be accepted. -/
theorem Callback.call_busy (callback : Callback) (busy : s.data ≠ none) :
    callback.call s = (callback.rv, s) := by
  unfold Callback.call
  congr 1
  induction callback.writes with
  | nil => rfl
  | cons write rest ih =>
      rw [List.foldl_cons, write.call_busy busy]
      exact ih

theorem Callback.call_keeps (callback : Callback)
    (kept : ∀ t (write : Write), inv t → inv (write.call t)) (holds : inv s) :
    inv (callback.call s).2 := by
  unfold Callback.call
  dsimp only
  induction callback.writes generalizing s with
  | nil => exact holds
  | cons write rest ih => exact ih (kept s write holds)

/-- The reading half: nothing, a comparison, or an interface byte. -/
theorem checkRead_rule {io : CheckIo} (same : inv s)
    (compared : ∀ byte ok, io.canRead = true → io.read = some byte → s.wantCrc = true →
      inv (s.emit (.checksum byte ok)))
    (dispatched : ∀ byte, io.canRead = true → io.read = some byte → s.wantCrc ≠ true →
      inv (s.emit (.dispatched byte s.wantCrc)))
    (call : ∀ t (write : Write), inv t → inv (write.call t))
    (disarm : ∀ t, inv t → inv { t with wantCrc := false }) :
    inv (checkRead io s).2 := by
  unfold checkRead
  by_cases ready : io.canRead = true
  · rw [if_pos ready]
    cases read : io.read with
    | none => exact same
    | some byte =>
        dsimp only
        by_cases wants : s.wantCrc = true
        · rw [if_pos wants]
          exact disarm _ (Callback.call_keeps _ call (compared byte _ ready read wants))
        · rw [if_neg wants]
          have called (callback : Callback) :=
            callback.call_keeps call (dispatched byte ready read wants)
          unfold dispatchByte
          dsimp only
          split
          · exact called io.app.interfaceReady
          split
          · exact called io.app.interfacePoll
          split
          · exact called io.app.timeRequest
          · exact called {}
  · rw [if_neg ready]
    exact same

/-- The writing half: nothing, a piece, or the last piece and `done_write`. -/
theorem checkWrite_rule {io : CheckIo} (same : inv s)
    (piece : ∀ data, s.data = some data → io.canWrite = true →
      (io.port.answer (s.dataBytes - s.dataSent)).toNat ≤ s.dataBytes - s.dataSent →
      inv (notePiece data (io.port.answer (s.dataBytes - s.dataSent)).toNat s))
    (release : ∀ t data, inv t → t.data = some data → t.dataBytes ≤ t.dataSent → inv t.release)
    (call : ∀ t (write : Write), inv t → inv (write.call t)) :
    inv (checkWrite io s).2 := by
  unfold checkWrite
  cases slot : s.data with
  | none => exact same
  | some data =>
      dsimp only
      by_cases ready : io.canWrite = true
      · rw [if_pos ready]
        by_cases wrote : 0 < io.port.answer (s.dataBytes - s.dataSent)
        · have within := io.port.within (s.dataBytes - s.dataSent)
          have noted := piece data slot ready (by omega)
          rw [if_pos wrote]
          unfold checkSent
          split
          case isTrue all =>
            exact io.app.doneWrite.call_keeps call (release _ data noted slot all)
          case isFalse more => exact noted
        · rw [if_neg wrote]
          exact same
      · rw [if_neg ready]
        exact same

/-- A step: the writing half follows the reading half, or is left out. -/
theorem checkWaitObjs_rule (mid : LibCm11a → Prop) {io : CheckIo}
    (reading : mid (checkRead io s).2) (skip : ∀ t, mid t → inv t)
    (write : (checkRead io s).1 = 0 → ∀ t, mid t → inv (checkWrite io t).2) :
    inv (checkWaitObjs io s).2 := by
  unfold checkWaitObjs
  dsimp only
  split
  · rename_i goesOn
    exact write goesOn _ reading
  · exact skip _ reading

end RenogyX10.Cm11a
