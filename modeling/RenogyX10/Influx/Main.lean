import RenogyX10.Influx.Types
import RenogyX10.Lib.Checked

set_option autoImplicit false

namespace RenogyX10.Influx

open Checked Csck LinkedQueue Messages Parse Proc Toml
open TtyReader (SendT)

/-- What connect returns on the socket, which does not block. -/
inductive ConnectResult where
  | ok
  | wouldBlock
  | failed
deriving DecidableEq

/-- What the system answers while `connect_isck` connects. -/
structure ConnectIo where
  /-- how many addresses the host has; `none` is an error -/
  addresses : Option Nat
  socket : Option Nat
  /-- whether the socket already does not block -/
  getFl : Option Bool
  setFl : Bool
  connect : ConnectResult

def openIsck (sck : Nat) (h : Client) : Client :=
  { h with isck := sck, trace := .socket sck :: h.trace }

def closeIsck (h : Client) : Client := { h with isck := -1, trace := .close h.isck :: h.trace }

/-- What is done with the socket before a connection counts as begun. -/
def beginConnect (io : ConnectIo) (logln : LogSite → Bool) : Act Unit := do
  let nonblock ← Proc.orFail .fcntlFailed io.getFl
  Proc.when (nonblock = false) (Proc.guard io.setFl .fcntlFailed)
  Proc.guard (io.connect ≠ .failed) .connectFailed
  Proc.guard (logln .connecting) .logFailed
  Proc.modify (Client.setConnecting true)

def connectIsck (io : ConnectIo) (logln : LogSite → Bool) : Act Unit := do
  let h ← Proc.read id
  Proc.when (h.isck = -1) do
    let _ ← Proc.orAbort (intCastU16 h.config.influxPort)
    let addresses ← Proc.orFail .addressFailed io.addresses
    Proc.guard (0 < addresses) .invalidParam
    let sck ← Proc.orFail .socketFailed io.socket
    Proc.modify (openIsck sck)
    beginConnect io logln

/-- What the three handlers do about an error: the connection is closed, if there
is one. -/
def dropIsck (logged : Bool) : Act Unit := do
  let h ← Proc.read id
  Proc.when (h.isck ≠ -1) (Proc.modify closeIsck)
  Proc.guard logged .logFailed

/-- What the allocator answers for one request: the address of the node, and
whether there is room for the bytes. -/
structure AllocIo where
  node : Option Nat
  slice : Bool

/-- What the system answers while a message is processed; a message has a
quantity once at most. -/
structure MsgIo where
  /-- the copy of the payload could be allocated -/
  created : Bool
  alloc : Quantity → AllocIo

/-- The text of a value as an `f32` with two decimals. -/
abbrev FloatText := Scaled → List UInt8

/-- What is printed to `buffer_con`. -/
@[irreducible] def lineOf (fmt : FloatText) (config : InfluxInfo) (reading : Reading) : List UInt8 :=
  reading.tableName ++ text ",host=" ++ config.influxHostTag ++ text " value=" ++
    fmt reading.value ++ text "\n"

/-- What is printed to `buffer_out`. -/
@[irreducible] def requestOf (config : InfluxInfo) (line : List UInt8) : List UInt8 :=
  text "POST /api/v2/write?org=" ++ config.influxOrg ++ text "&bucket=" ++
    config.influxDatabase ++ text " HTTP/1.1\r\n" ++
    text "Host: " ++ config.influxHostname ++ text ":" ++ decimalInt config.influxPort ++
    text "\r\n" ++
    text "Authorization: Token " ++ config.influxToken ++ text "\r\n" ++
    text "Content-Type: text/plain; charset=utf-8\r\n" ++
    text "Accept: application/json\r\n" ++
    text "Content-Length: " ++ decimal line.length ++ text "\r\n\r\n" ++ line

def bufferConSize : Nat := 64

def bufferOutSize : Nat := 2048

def queueRequest (node : Nat) (request : List UInt8) (h : Client) : Client :=
  let pushed := push h.heap h.send node ⟨0, request⟩
  { h with heap := pushed.1, send := pushed.2, trace := .build request :: h.trace }

def processMsgTable (fmt : FloatText) (alloc : Quantity → AllocIo) (reading : Reading) :
    Act Unit := do
  let h ← Proc.read id
  let line := lineOf fmt h.config reading
  Proc.guard (line.length ≤ bufferConSize) .noSpaceLeft
  let request := requestOf h.config line
  Proc.guard (request.length ≤ bufferOutSize) .noSpaceLeft
  let node ← Proc.orFail .outOfMemory (alloc reading.quantity).node
  Proc.guard (alloc reading.quantity).slice .outOfMemory
  Proc.modify (queueRequest node request)

/-- `process_msg` works on a copy of the payload. -/
def deliver (lib : WideLib) (fmt : FloatText) (io : MsgIo) (s : ParseT) : Act Unit := do
  Proc.guard io.created .outOfMemory
  processMsg lib (processMsgTable fmt io.alloc) s

def processCsckIn (lib : WideLib) (fmt : FloatText) (io : MsgIo) (recv : Option (List UInt8)) :
    SysAct Unit :=
  Csck.processCsckIn lib.toParseLib (deliver lib fmt io) recv

/-- What recv returns on the connection to the database. -/
inductive IsckRecv where
  | received (count : Nat)
  | wouldBlock
  | failed

def processIsckIn (recv : IsckRecv) (logln : LogSite → Bool) : Act Unit :=
  match recv with
  | .received count => do
      Proc.guard (logln .received) .logFailed
      Proc.guard (0 < count) .invalidParam
  | .wouldBlock => pure ()
  | .failed => Proc.fail .recvFailed

/-- Count `sent` bytes of the first request as sent; a finished one is unlinked. -/
def advance (address sent : Nat) (node : Node SendT) (h : Client) : Client :=
  let value : SendT := { node.value with sent := node.value.sent + sent }
  if value.outDataSlice.length ≤ value.sent then
    let dropped := dropHead h.heap h.send address node
    { h with heap := dropped.1, send := dropped.2 }
  else { h with heap := setValue h.heap address value }

/-- What send returns; `none` is an error, which would block is one of. -/
def processIsckOut (taken : Option Nat) : Act Unit := do
  let h ← Proc.read id
  match h.send.head with
  | none => pure ()
  | some address => do
      let node ← Proc.orAbort (h.heap.lookup address)
      let slice ← Proc.orAbort node.value.outSlice
      let accepted ← Proc.orFail .sendFailed taken
      let sent := min accepted slice.length
      if 0 < sent then do
        Proc.modify (Client.emit (.send h.isck (slice.take sent)))
        Proc.modify (advance address sent node)
      else Proc.fail .invalidParam

def clearOutQueue (h : Client) : Client :=
  { h with heap := freeAll h.heap h.send.head, send := empty }

/-- The result of poll: which of the terminate, hup, subscriber and database
descriptors are readable, and whether the last one is writable. -/
inductive PollIo where
  | failed
  | timeout
  | ready (term hup csck isckIn isckOut : Bool)

/-- What `setup_influx_info` makes of the configuration file. -/
inductive SetupResult where
  | ok (config : InfluxInfo)
  | failed
  | panic

/-- What the environment answers in one pass of the loop. -/
structure LoopIo where
  poll : PollIo
  setup : SetupResult
  connect : ConnectIo
  recv : Option (List UInt8)
  msg : MsgIo
  isckRecv : IsckRecv
  isckSent : Option Nat
  logln : LogSite → Bool

/-- Connect to the database if there is no connection, then receive. -/
def csckCanRecv (lib : WideLib) (fmt : FloatText) (io : LoopIo) : SysAct Unit := do
  onHost (Proc.rescue (connectIsck io.connect io.logln) fun _ =>
    dropIsck (io.logln .connectFailed))
  processCsckIn lib fmt io.msg io.recv

/-- Whether `isck_index` is still set. -/
def isckCanRecv (io : LoopIo) : Act Bool :=
  Proc.rescue (do
    processIsckIn io.isckRecv io.logln
    pure true) fun _ => do
      dropIsck (io.logln .recvFailed)
      Proc.modify (Client.setConnecting false)
      pure false

def isckCanSend (io : LoopIo) : Act Unit := do
  let h ← Proc.read id
  Proc.when h.connecting do
    Proc.modify (Client.setConnecting false)
    Proc.guard (io.logln .connected) .logFailed
  Proc.rescue (processIsckOut io.isckSent) fun _ => dropIsck (io.logln .sendFailed)

def reloadConfig (setup : SetupResult) (logln : LogSite → Bool) : Act Unit := do
  Proc.guard (logln .reloading) .logFailed
  match setup with
  | .ok config => do
      Proc.modify (Client.install config)
      Proc.guard (logln .reloaded) .logFailed
  | .failed => Proc.guard (logln .reloaded) .logFailed
  | .panic => Proc.abort

/-- Receive from the database descriptor, if it was polled; whether it is still to
be looked at. -/
def receiveIsck (io : LoopIo) (polled isckIn : Bool) : Act Bool :=
  if polled ∧ isckIn then isckCanRecv io else pure polled

def serveIsck (io : LoopIo) (polled isckIn isckOut : Bool) : Act Unit := do
  let indexed ← receiveIsck io polled isckIn
  Proc.when (indexed ∧ isckOut) (isckCanSend io)

/-- The end of the loop: what is queued is lost with its connection. -/
def endPass : Act Unit := do
  let h ← Proc.read id
  Proc.when (h.isck = -1) (Proc.modify clearOutQueue)

/-- One pass of `main_loop`; `true` leaves the loop. -/
def mainLoop (lib : WideLib) (fmt : FloatText) (io : LoopIo) : SysAct Bool := do
  Proc.guard (io.logln .loop) .logFailed
  let c ← Proc.read id
  match io.poll with
  | .failed => Proc.fail .pollFailed
  | .timeout => do
      onHost endPass
      pure false
  | .ready term hup csck isckIn isckOut =>
      if term then do
        Proc.guard (io.logln .term) .logFailed
        pure true
      else do
        Proc.when hup (onHost (reloadConfig io.setup io.logln))
        Proc.when csck (csckCanRecv lib fmt io)
        onHost (serveIsck io (c.host.isck ≠ -1) isckIn isckOut)
        onHost endPass
        pure false

/-- What the environment answers while `main` connects to the publisher. -/
structure StartIo where
  initLog : Bool
  started : Bool
  address : Bool
  socket : Bool
  connect : Bool

/-- From the top of the loop in `main` to its call of `main_loop`. -/
def start (io : StartIo) : Act Unit := do
  Proc.guard io.initLog .initLog
  Proc.guard io.started .logFailed
  Proc.guard io.address .addressFailed
  Proc.guard io.socket .socketFailed
  Proc.guard io.connect .connectFailed

/-- Where `main` is: about to connect, in the loop, about to log the loop's error,
behind its own loop, or over. -/
inductive Ctl where
  | connect
  | loop
  | report
  | finish
  | stopped
deriving DecidableEq

inductive Input where
  | start (io : StartIo)
  | loop (io : LoopIo)
  | report (logged : Bool)
  | finish

structure Daemon where
  sys : Sys
  ctl : Ctl

/-- Where an exit of `main_loop` leads `main`. -/
def afterLoop : Exit ClientError Sys Bool → Ctl
  | .ok false _ => .loop
  | .ok true _ => .finish
  | .error reason _ => if reason = .reload then .connect else .report
  | .panic _ => .stopped

/-- Where an exit before `main_loop` leads `main`: every error ends it. -/
def afterStart : Exit ClientError Sys Unit → Ctl
  | .ok _ _ => .loop
  | _ => .stopped

def Daemon.step (lib : WideLib) (fmt : FloatText) (d : Daemon) (input : Input) : Daemon :=
  match d.ctl, input with
  | .connect, .start io =>
      let ended := onHost (start io) d.sys
      ⟨ended.state, afterStart ended⟩
  | .loop, .loop io =>
      let ended := mainLoop lib fmt io d.sys
      ⟨ended.state, afterLoop ended⟩
  | .report, .report logged => { d with ctl := if logged then .finish else .stopped }
  | .finish, .finish => ⟨{ d.sys with host := clearOutQueue d.sys.host }, .stopped⟩
  | _, _ => d

def Daemon.run (lib : WideLib) (fmt : FloatText) (d : Daemon) (inputs : List Input) : Daemon :=
  Runs.exec (Daemon.step lib fmt) d inputs

def Daemon.initial (config : InfluxInfo) : Daemon := ⟨Sys.initial config, .connect⟩

end RenogyX10.Influx
