import RenogyX10.Cm11a.Steps

set_option autoImplicit false

namespace RenogyX10.Cm11a

/-- The message that was queued last. -/
structure Job where
  crc : Bool
  message : List UInt8
  /-- how many calls of the port took a part of it -/
  pieces : Nat := 0
  /-- how many bytes they took -/
  sent : Nat := 0
  /-- the position up to which its bytes have been written -/
  reached : Nat := 0
  done : Bool := false
deriving DecidableEq

def Job.wrote (offset : Nat) (bytes : List UInt8) (job : Job) : Job :=
  { job with
    pieces := job.pieces + 1
    sent := job.sent + bytes.length
    reached := max job.reached (offset + bytes.length) }

def Job.finish (job : Job) : Job := { job with done := true }

/-- The trace is newest first. -/
def jobOf : List Event → Option Job
  | [] => none
  | .queued crc bytes :: _ => some { crc := crc, message := bytes }
  | .wrote offset bytes :: older => (jobOf older).map (Job.wrote offset bytes)
  | .doneWrite :: older => (jobOf older).map Job.finish
  | _ :: older => jobOf older

/-- Every byte that was compared with a checksum came after the last byte of the
message was written, and none was taken for an interface byte while a message with
a checksum was waiting and the comparison was not armed. -/
def Paired : List Event → Prop
  | [] => True
  | .checksum _ _ :: older =>
      (∃ job ∈ jobOf older, job.crc = true ∧ job.message.length ≤ job.reached) ∧ Paired older
  | .dispatched _ armed :: older =>
      (∀ job ∈ jobOf older, job.crc = true → job.done = false → armed = true) ∧ Paired older
  | _ :: older => Paired older

/-- No byte is read while a message with a checksum waits in the slot, and none is
compared with the checksum of a message that was written in several pieces. -/
def ReadsSafely (s : LibCm11a) : Input → Prop
  | .check io => io.canRead = true → io.read ≠ none → ∀ job ∈ jobOf s.trace,
      (job.crc = true → job.done = true) ∧ (s.wantCrc = true → job.pieces = 1)
  | .write _ => True

/-- The slot and the comparison belong to the message that was queued last. -/
structure Orderly (s : LibCm11a) : Prop where
  armed : s.wantCrc = true → ∃ job ∈ jobOf s.trace, job.crc = true
  waiting : ∀ data ∈ s.data, ∃ job ∈ jobOf s.trace, job.done = false ∧ job.message = data ∧
    s.dataBytes = data.length ∧ s.dataSent = job.sent
  free : s.data = none → ∀ job ∈ jobOf s.trace, job.done = true ∧ job.message.length ≤ job.sent
  paired : Paired s.trace

theorem jobOf_single (trace : List Event) : ∀ job ∈ jobOf trace,
    (job.pieces = 0 → job.sent = 0) ∧ (job.pieces = 1 → job.sent ≤ job.reached) := by
  induction trace with
  | nil => nofun
  | cons event older ih =>
      intro job isJob
      cases event with
      | queued crc bytes =>
          obtain rfl := Option.some.inj isJob
          exact ⟨fun _ => rfl, nofun⟩
      | wrote offset bytes =>
          obtain ⟨last, isLast, rfl⟩ := Option.map_eq_some_iff.mp isJob
          have before := (ih last isLast).1
          refine ⟨nofun, fun single => ?_⟩
          have first : last.pieces + 1 = 1 := single
          have none := before (by omega)
          show last.sent + bytes.length ≤ max last.reached (offset + bytes.length)
          omega
      | doneWrite =>
          obtain ⟨last, isLast, rfl⟩ := Option.map_eq_some_iff.mp isJob
          exact ih last isLast
      | checksum byte ok => exact ih job isJob
      | dispatched byte armed => exact ih job isJob

namespace Orderly

variable {s : LibCm11a} {data : List UInt8}

theorem call (orderly : Orderly s) (write : Write) : Orderly (write.call s) := by
  by_cases free : s.data = none
  · rw [write.call_free free]
    refine ⟨fun wants => ⟨_, rfl, wants⟩, fun data isData => ?_, nofun, orderly.paired⟩
    obtain rfl := Option.some.inj isData
    exact ⟨_, rfl, rfl, rfl, rfl, rfl⟩
  · rw [write.call_busy free]
    exact orderly

theorem disarm (orderly : Orderly s) : Orderly { s with wantCrc := false } :=
  ⟨nofun, orderly.waiting, orderly.free, orderly.paired⟩

theorem received (orderly : Orderly s) {event : Event}
    (same : jobOf (event :: s.trace) = jobOf s.trace) (paired : Paired (event :: s.trace)) :
    Orderly (s.emit event) := by
  refine ⟨fun wants => ?_, fun data isData => ?_, fun free => ?_, paired⟩
  · show ∃ job ∈ jobOf (event :: s.trace), _
    rw [same]
    exact orderly.armed wants
  · show ∃ job ∈ jobOf (event :: s.trace), _
    rw [same]
    exact orderly.waiting data isData
  · show ∀ job ∈ jobOf (event :: s.trace), _
    rw [same]
    exact orderly.free free

/-- A byte that is compared when the message is written comes after its last byte. -/
theorem written (orderly : Orderly s) (wants : s.wantCrc = true)
    (safe : ∀ job ∈ jobOf s.trace, (job.crc = true → job.done = true) ∧
      (s.wantCrc = true → job.pieces = 1)) :
    ∃ job ∈ jobOf s.trace, job.crc = true ∧ job.message.length ≤ job.reached := by
  obtain ⟨job, isJob, crc⟩ := orderly.armed wants
  obtain ⟨done, single⟩ := safe job isJob
  have enough : job.message.length ≤ job.sent := by
    cases slot : s.data with
    | none => exact (orderly.free slot job isJob).2
    | some data =>
        obtain ⟨other, isOther, waits, _⟩ := orderly.waiting data slot
        obtain rfl := Option.mem_unique isJob isOther
        rw [done crc] at waits
        cases waits
  have reached := (jobOf_single s.trace job isJob).2 (single wants)
  exact ⟨job, isJob, crc, by omega⟩

theorem checkRead (orderly : Orderly s) {io : CheckIo} (safe : ReadsSafely s (.check io)) :
    Orderly (checkRead io s).2 := by
  have known {byte : UInt8} (ready : io.canRead = true) (read : io.read = some byte) :=
    safe ready (by rw [read]; exact Option.some_ne_none byte)
  apply checkRead_rule orderly
  · intro byte ok ready read wants
    exact orderly.received rfl ⟨orderly.written wants (known ready read), orderly.paired⟩
  · intro byte ready read _
    apply orderly.received rfl
    refine ⟨fun job isJob crc waits => ?_, orderly.paired⟩
    rw [(known ready read job isJob).1 crc] at waits
    cases waits
  · exact fun _ write kept => kept.call write
  · exact fun _ kept => kept.disarm

theorem piece (orderly : Orderly s) (slot : s.data = some data) {written : Nat}
    (within : written ≤ s.dataBytes - s.dataSent) : Orderly (notePiece data written s) := by
  obtain ⟨job, isJob, waits, message, bytes, sent⟩ := orderly.waiting data slot
  have length : (data.take written).length = written := by
    rw [List.length_take]
    omega
  have next : jobOf (.wrote 0 (data.take written) :: s.trace) =
      some (job.wrote 0 (data.take written)) := Option.map_eq_some_iff.mpr ⟨job, isJob, rfl⟩
  refine ⟨fun wants => ?_, fun other isOther => ?_, fun free => ?_, orderly.paired⟩
  · obtain ⟨same, isSame, crc⟩ := orderly.armed wants
    obtain rfl := Option.mem_unique isJob isSame
    exact ⟨_, next, crc⟩
  · obtain rfl := Option.mem_unique slot isOther
    refine ⟨_, next, waits, message, bytes, ?_⟩
    show s.dataSent + written = job.sent + (data.take written).length
    rw [sent, length]
  · have none : s.data = none := free
    rw [slot] at none
    cases none

theorem release (orderly : Orderly s) (slot : s.data = some data)
    (all : s.dataBytes ≤ s.dataSent) : Orderly s.release := by
  obtain ⟨job, isJob, waits, message, bytes, sent⟩ := orderly.waiting data slot
  have next : jobOf (.doneWrite :: s.trace) = some job.finish :=
    Option.map_eq_some_iff.mpr ⟨job, isJob, rfl⟩
  refine ⟨fun wants => ?_, nofun, fun _ last isLast => ?_, orderly.paired⟩
  · obtain ⟨same, isSame, crc⟩ := orderly.armed wants
    obtain rfl := Option.mem_unique isJob isSame
    exact ⟨_, next, crc⟩
  · obtain rfl := Option.mem_unique next isLast
    refine ⟨rfl, ?_⟩
    show job.message.length ≤ job.sent
    rw [message]
    omega

theorem checkWrite (orderly : Orderly s) (io : CheckIo) : Orderly (checkWrite io s).2 := by
  apply checkWrite_rule orderly
  · exact fun _ slot _ within => orderly.piece slot within
  · exact fun _ _ kept slot all => kept.release slot all
  · exact fun _ write kept => kept.call write

theorem step (orderly : Orderly s) (input : Input) (safe : ReadsSafely s input) :
    Orderly (step s input) := by
  cases input with
  | write write => exact orderly.call write
  | check io =>
      apply checkWaitObjs_rule Orderly (orderly.checkRead safe)
      · exact fun _ kept => kept
      · exact fun _ _ kept => kept.checkWrite io

end Orderly

/-- In every run in which no byte is read too early, every byte that is compared
with a checksum came after the last byte of its message. -/
theorem checksums_paired (inputs : List Input)
    (safe : Runs.Admits step ReadsSafely initial inputs) :
    Paired (Runs.exec step initial inputs).trace := by
  have start : Orderly initial := ⟨nofun, nofun, nofun, trivial⟩
  have orderly : Orderly (Runs.exec step initial inputs) :=
    Runs.exec_keeps (fun _ input safe orderly => orderly.step input safe) safe start
  exact orderly.paired

def stepIo (canWrite : Bool) (read : Option UInt8) : CheckIo :=
  ⟨read.isSome, read, canWrite, wholePort, {}⟩

/-- The address A1 is sent, and the interface answers with its checksum. -/
theorem checksums_paired_address :
    Paired (Runs.exec step initial [.write ⟨true, [0x04, 0x66]⟩, .check (stepIo true none),
      .check (stepIo false (some 0x6a))]).trace := by
  apply checksums_paired
  refine ⟨trivial, nofun, ?_, trivial⟩
  intro _ _ job isJob
  obtain rfl := Option.some.inj isJob
  exact ⟨fun _ => rfl, fun _ => rfl⟩

/-- The interface polls while the address is waiting to be written. -/
theorem checksums_not_paired_poll :
    ¬ Paired (Runs.exec step initial [.write ⟨true, [0x04, 0x66]⟩,
      .check (stepIo true (some 0x5A))]).trace := by
  intro paired
  obtain ⟨⟨job, isJob, _, written⟩, _⟩ := paired
  obtain rfl := Option.some.inj isJob
  exact absurd written (by decide)

end RenogyX10.Cm11a
