import RenogyX10.Cm11a.Steps

set_option autoImplicit false

namespace RenogyX10.Cm11a

/-- The message that was queued last, in a trace that is newest first. -/
def messageOf : List Event → Option (List UInt8)
  | [] => none
  | .queued _ bytes :: _ => some bytes
  | _ :: older => messageOf older

/-- The bytes that were written since. -/
def outputOf : List Event → List UInt8
  | [] => []
  | .queued _ _ :: _ => []
  | .wrote _ bytes :: older => outputOf older ++ bytes
  | _ :: older => outputOf older

/-- Whenever `done_write` was called, exactly the message had been written. -/
def MessagesWritten : List Event → Prop
  | [] => True
  | .doneWrite :: older => messageOf older = some (outputOf older) ∧ MessagesWritten older
  | _ :: older => MessagesWritten older

instance decidableMessagesWritten : ∀ trace, Decidable (MessagesWritten trace)
  | [] => .isTrue trivial
  | .doneWrite :: older =>
      have := decidableMessagesWritten older
      inferInstanceAs (Decidable (messageOf older = some (outputOf older) ∧ MessagesWritten older))
  | .queued _ _ :: older | .wrote _ _ :: older | .checksum _ _ :: older
  | .dispatched _ _ :: older => decidableMessagesWritten older

/-- How many bytes the port takes of what is left. -/
def CheckIo.taken (io : CheckIo) (s : LibCm11a) : Nat :=
  (io.port.answer (s.dataBytes - s.dataSent)).toNat

/-- The piece that is due is a piece of the start of the message. -/
def PieceRepeats (io : CheckIo) (s : LibCm11a) : Prop :=
  ∀ data ∈ s.data, data.take (io.taken s) = (data.drop s.dataSent).take (io.taken s)

/-- A piece that is written of a message that has begun repeats its start; nothing is written
when the reading half fails. -/
def Repeats (s : LibCm11a) : Input → Prop
  | .check io => (checkRead io s).1 = 0 → io.canWrite = true → PieceRepeats io s
  | .write _ => True

instance (io : CheckIo) (s : LibCm11a) : Decidable (PieceRepeats io s) :=
  inferInstanceAs (Decidable (∀ data ∈ s.data, _))

instance (s : LibCm11a) : ∀ input, Decidable (Repeats s input)
  | .check _ => inferInstanceAs (Decidable (_ → _ → _))
  | .write _ => .isTrue trivial

/-- The slot was not written to, or has a message of which nothing is sent. -/
def Untouched (s t : LibCm11a) : Prop :=
  (t.data = s.data ∧ t.dataBytes = s.dataBytes ∧ t.dataSent = s.dataSent) ∨ t.dataSent = 0

namespace Untouched

variable {s t : LibCm11a}

theorem refl (s : LibCm11a) : Untouched s s := .inl ⟨rfl, rfl, rfl⟩

theorem call (untouched : Untouched s t) (write : Write) : Untouched s (write.call t) := by
  by_cases free : t.data = none
  · rw [write.call_free free]
    exact .inr rfl
  · rw [write.call_busy free]
    exact untouched

theorem checkRead (io : CheckIo) (s : LibCm11a) : Untouched s (checkRead io s).2 := by
  have noted (event : Event) : Untouched s (s.emit event) := .inl ⟨rfl, rfl, rfl⟩
  apply checkRead_rule (refl s)
  · exact fun byte ok _ _ _ => noted (.checksum byte ok)
  · exact fun byte _ _ _ => noted (.dispatched byte s.wantCrc)
  · exact fun _ write kept => kept.call write
  · exact fun _ kept => kept

/-- The first piece of a message always comes from its start. -/
theorem pieceRepeats {io : CheckIo} (untouched : Untouched s t) (repeats : PieceRepeats io s) :
    PieceRepeats io t := by
  intro data isData
  rcases untouched with ⟨slot, bytes, sent⟩ | fresh
  · have same : io.taken t = io.taken s := by unfold CheckIo.taken; rw [bytes, sent]
    rw [same, sent]
    exact repeats data (by rwa [slot] at isData)
  · rw [fresh, List.drop_zero]

end Untouched

/-- The driver has written what it counts as sent. -/
structure Underway (s : LibCm11a) : Prop where
  waiting : ∀ data ∈ s.data, messageOf s.trace = some data ∧ s.dataBytes = data.length ∧
    s.dataSent ≤ data.length ∧ outputOf s.trace = data.take s.dataSent
  written : MessagesWritten s.trace

namespace Underway

variable {s : LibCm11a} {data : List UInt8}

theorem received (underway : Underway s) {event : Event}
    (message : messageOf (event :: s.trace) = messageOf s.trace)
    (output : outputOf (event :: s.trace) = outputOf s.trace)
    (written : MessagesWritten (event :: s.trace)) : Underway (s.emit event) := by
  refine ⟨fun data isData => ?_, written⟩
  obtain ⟨same, bytes, sent, front⟩ := underway.waiting data isData
  exact ⟨message.trans same, bytes, sent, output.trans front⟩

theorem call (underway : Underway s) (write : Write) : Underway (write.call s) := by
  by_cases free : s.data = none
  · rw [write.call_free free]
    refine ⟨fun data isData => ?_, underway.written⟩
    obtain rfl := Option.some.inj isData
    exact ⟨rfl, rfl, Nat.zero_le _, rfl⟩
  · rw [write.call_busy free]
    exact underway

theorem checkRead (underway : Underway s) (io : CheckIo) : Underway (checkRead io s).2 := by
  apply checkRead_rule underway
  · exact fun byte ok _ _ _ => underway.received rfl rfl underway.written
  · exact fun byte _ _ _ => underway.received rfl rfl underway.written
  · exact fun _ write kept => kept.call write
  · exact fun _ kept => ⟨kept.waiting, kept.written⟩

theorem piece (underway : Underway s) (slot : s.data = some data) {written : Nat}
    (within : written ≤ s.dataBytes - s.dataSent)
    (repeats : data.take written = (data.drop s.dataSent).take written) :
    Underway (notePiece data written s) := by
  refine ⟨fun other isOther => ?_, underway.written⟩
  obtain rfl := Option.mem_unique slot isOther
  obtain ⟨message, bytes, sent, front⟩ := underway.waiting data slot
  refine ⟨message, bytes, ?_, ?_⟩
  · show s.dataSent + written ≤ data.length
    omega
  · show outputOf s.trace ++ data.take written = data.take (s.dataSent + written)
    rw [front, repeats, List.take_add]

theorem release (underway : Underway s) (slot : s.data = some data)
    (all : s.dataBytes ≤ s.dataSent) : Underway s.release := by
  obtain ⟨message, bytes, sent, front⟩ := underway.waiting data slot
  refine ⟨nofun, ?_, underway.written⟩
  have whole : outputOf s.trace = data := by
    rw [front]
    exact List.take_of_length_le (by omega)
  rw [message, whole]

theorem checkWrite (underway : Underway s) {io : CheckIo}
    (repeats : io.canWrite = true → PieceRepeats io s) : Underway (checkWrite io s).2 := by
  apply checkWrite_rule underway
  · intro data slot ready within
    exact underway.piece slot within (repeats ready data slot)
  · exact fun _ _ kept slot all => kept.release slot all
  · exact fun _ write kept => kept.call write

theorem step (underway : Underway s) (input : Input) (repeats : Repeats s input) :
    Underway (step s input) := by
  cases input with
  | write write => exact underway.call write
  | check io =>
      have reading : Underway (Cm11a.checkRead io s).2 ∧ Untouched s (Cm11a.checkRead io s).2 :=
        ⟨underway.checkRead io, .checkRead io s⟩
      apply checkWaitObjs_rule (fun t => Underway t ∧ Untouched s t) reading
      · exact fun _ between => between.1
      · intro goesOn t ⟨kept, untouched⟩
        exact kept.checkWrite fun ready => untouched.pieceRepeats (repeats goesOn ready)

end Underway

/-- In every run in which every later piece repeats the start of its message, a
message that is done has been written byte by byte. -/
theorem messages_written (inputs : List Input)
    (repeats : Runs.Admits step Repeats initial inputs) :
    MessagesWritten (Runs.exec step initial inputs).trace := by
  have start : Underway initial := ⟨nofun, trivial⟩
  have underway : Underway (Runs.exec step initial inputs) :=
    Runs.exec_keeps (fun _ input repeats underway => underway.step input repeats) repeats start
  exact underway.written

/-- The port takes three bytes at most. -/
def threePort : Port :=
  ⟨fun offered => (Nat.min 3 offered : Nat), fun offered =>
    Int.ofNat_le.mpr (Nat.min_le_right 3 offered)⟩

/-- The port takes a message in two pieces; a step between them fails before it writes. -/
def twoPieces : List Input :=
  [.write ⟨true, [7, 7, 7, 7]⟩, .check ⟨false, none, true, threePort, {}⟩,
    .check ⟨true, none, true, wholePort, {}⟩, .check ⟨false, none, true, wholePort, {}⟩]

theorem messages_written_twoPieces :
    MessagesWritten (Runs.exec step initial twoPieces).trace ∧
      (Runs.exec step initial twoPieces).trace = [.doneWrite, .wrote 0 [7], .wrote 0 [7, 7, 7],
        .queued true [7, 7, 7, 7]] :=
  ⟨messages_written twoPieces (by decide), by decide⟩

/-- The port takes one byte at a time: the first byte is written twice. -/
theorem messages_not_written_byByte :
    ¬ MessagesWritten (Runs.exec step initial [.write ⟨true, [0x04, 0x66]⟩,
      .check ⟨false, none, true, ⟨fun offered => min 1 offered, by omega⟩, {}⟩,
      .check ⟨false, none, true, ⟨fun offered => min 1 offered, by omega⟩, {}⟩]).trace := by
  decide

end RenogyX10.Cm11a
