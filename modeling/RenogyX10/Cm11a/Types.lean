import RenogyX10.Lib.Runs

set_option autoImplicit false

/- The driver `libcm11a.c` for the CM11A interface: a slot for one message, a
checksum that may be awaited, and callbacks that may call the write functions
again. What select, the port and the application do is chosen by the environment. -/
namespace RenogyX10.Cm11a

/-- What is seen on the port and in the callbacks. -/
inductive Event where
  /-- a write function accepted this message -/
  | queued (crc : Bool) (bytes : List UInt8)
  /-- the port took these bytes, from this position of the message on -/
  | wrote (offset : Nat) (bytes : List UInt8)
  | doneWrite
  /-- a received byte was compared with the awaited checksum -/
  | checksum (byte : UInt8) (ok : Bool)
  /-- a received byte was taken for an interface byte; was a checksum awaited? -/
  | dispatched (byte : UInt8) (armed : Bool)
deriving DecidableEq

/-- `struct libcm11a_t`, with a trace that is newest first. -/
structure LibCm11a where
  wantCrc : Bool := false
  crc : UInt32 := 0
  dataSent : Nat := 0
  dataBytes : Nat := 0
  data : Option (List UInt8) := none
  trace : List Event := []

def LibCm11a.emit (event : Event) (s : LibCm11a) : LibCm11a :=
  { s with trace := event :: s.trace }

def crcOf (bytes : List UInt8) : UInt32 :=
  (bytes.foldl (fun crc byte => crc + byte.toUInt32) 0) &&& 0xFF

def LibCm11a.queue (bytes : List UInt8) (s : LibCm11a) : LibCm11a :=
  { s with data := some bytes, dataBytes := bytes.length, dataSent := 0 }

/-- The return value, and the state it leaves. -/
def writeDataCrc (bytes : List UInt8) (s : LibCm11a) : Int × LibCm11a :=
  if s.data ≠ none then (1, s)
  else (0, { (s.queue bytes).emit (.queued true bytes) with crc := crcOf bytes, wantCrc := true })

def writeData (bytes : List UInt8) (s : LibCm11a) : Int × LibCm11a :=
  if s.data ≠ none then (1, s)
  else (0, { (s.queue bytes).emit (.queued false bytes) with wantCrc := false })

/-- A call of a write function by the application. -/
structure Write where
  crc : Bool
  bytes : List UInt8

def Write.call (write : Write) (s : LibCm11a) : LibCm11a :=
  if write.crc then (writeDataCrc write.bytes s).2 else (writeData write.bytes s).2

/-- A callback: the write functions it calls, and what it returns. -/
structure Callback where
  writes : List Write := []
  rv : Int := 0

def Callback.call (callback : Callback) (s : LibCm11a) : Int × LibCm11a :=
  (callback.rv, callback.writes.foldl (fun s write => write.call s) s)

/-- The callbacks of the application, as they behave in one step. -/
structure App where
  interfaceReady : Callback := {}
  interfacePoll : Callback := {}
  timeRequest : Callback := {}
  crcOk : Callback := {}
  crcNotOk : Callback := {}
  doneWrite : Callback := {}

/-- What `sp_blocking_write` returns when it is offered so many bytes: an error, or
how many of them it wrote. -/
structure Port where
  answer : Nat → Int
  within : ∀ offered, answer offered ≤ offered

def wholePort : Port := ⟨fun offered => offered, fun _ => Int.le_refl _⟩

/-- What the system answers in one call of `libcm11a_check_wait_objs`. -/
structure CheckIo where
  canRead : Bool
  /-- the byte that `sp_blocking_read` read, unless it failed -/
  read : Option UInt8
  canWrite : Bool
  port : Port
  app : App

/-- The byte is compared with the checksum; none is awaited any more. -/
def compareCrc (app : App) (byte : UInt8) (s : LibCm11a) : Int × LibCm11a :=
  let ok := byte.toUInt32 == s.crc
  let callback := if ok then app.crcOk else app.crcNotOk
  let called := callback.call (s.emit (.checksum byte ok))
  (called.1, { called.2 with wantCrc := false })

def dispatchByte (app : App) (byte : UInt8) (s : LibCm11a) : Int × LibCm11a :=
  let s := s.emit (.dispatched byte s.wantCrc)
  if byte = 0x55 then app.interfaceReady.call s
  else if byte = 0x5A then app.interfacePoll.call s
  else if byte = 0xA5 then app.timeRequest.call s
  else (1, s)

/-- The reading half of `libcm11a_check_wait_objs`. -/
def checkRead (io : CheckIo) (s : LibCm11a) : Int × LibCm11a :=
  if io.canRead then
    match io.read with
    | none => (1, s)
    | some byte => if s.wantCrc then compareCrc io.app byte s else dispatchByte io.app byte s
  else (0, s)

/-- The port took the first bytes of what it was offered. -/
def notePiece (data : List UInt8) (written : Nat) (s : LibCm11a) : LibCm11a :=
  { s.emit (.wrote 0 (data.take written)) with dataSent := s.dataSent + written }

def LibCm11a.release (s : LibCm11a) : LibCm11a :=
  { s.emit .doneWrite with data := none, dataSent := 0, dataBytes := 0 }

def checkSent (app : App) (s : LibCm11a) : Int × LibCm11a :=
  if s.dataBytes ≤ s.dataSent then app.doneWrite.call s.release else (0, s)

/-- The writing half. The offer begins at the start of the message, whatever has
been sent of it. -/
def checkWrite (io : CheckIo) (s : LibCm11a) : Int × LibCm11a :=
  match s.data with
  | none => (0, s)
  | some data =>
      if io.canWrite then
        let written := io.port.answer (s.dataBytes - s.dataSent)
        if 0 < written then checkSent io.app (notePiece data written.toNat s) else (1, s)
      else (0, s)

def checkWaitObjs (io : CheckIo) (s : LibCm11a) : Int × LibCm11a :=
  let reading := checkRead io s
  if reading.1 = 0 then checkWrite io reading.2 else reading

/-- A call of the library from the application's loop. -/
inductive Input where
  | write (write : Write)
  | check (io : CheckIo)

def step (s : LibCm11a) : Input → LibCm11a
  | .write write => write.call s
  | .check io => (checkWaitObjs io s).2

/-- The state that `libcm11a_create` makes. -/
def initial : LibCm11a := {}

end RenogyX10.Cm11a
