import RenogyX10.Influx.Types
import RenogyX10.Lib.Checked
import RenogyX10.Lib.Runs
import RenogyX10.RenogyInflux.Main

set_option autoImplicit false

/- The rounds of `main_modbus_loop` on one connection, with the passes of
`main_send_recv_loop` in each. The machine takes one pass at a time; an overflow
of a signed `int` is undefined and ends it. -/
namespace RenogyX10.RenogyInflux

open Checked Influx Toml

/-- How select ends. -/
inductive Select where
  /-- the sets keep what was passed in, whether the termination pipe can be read or not -/
  | failed (term : Bool)
  | timeout
  | ready (term readable writable : Bool)
deriving DecidableEq

/-- Whether the termination pipe can be read. -/
def Select.term : Select → Bool
  | .failed term => term
  | .timeout => false
  | .ready term _ _ => term

/-- Whether the socket is reported readable, and writable. -/
def Select.readable : Select → Bool
  | .ready _ readable _ => readable
  | _ => false

def Select.writable : Select → Bool
  | .ready _ _ writable => writable
  | _ => false

/-- What is in the sets after select, that were passed in with these members. -/
def Select.isSet (interest : Bool) (reported : Bool) : Select → Bool
  | .failed _ => interest
  | _ => interest && reported

/-- What the system answers in a pass of `main_send_recv_loop`. -/
structure PassIo where
  /-- what `get_mstime` reads, unless it fails -/
  mstime : Option Int
  select : Select
  /-- what recv could store; nothing if it fails or the connection was closed -/
  recv : List UInt8
  /-- how many bytes send could take; none if it fails -/
  send : Nat

/-- What is seen on the socket. -/
inductive SckEvent where
  /-- a call of recv; was the socket reported readable? -/
  | recv (reported : Bool)
  /-- a call of send that took these bytes; was the socket reported writable? -/
  | send (bytes : List UInt8) (reported : Bool)
  /-- `main_send_recv_loop` returned with so many bytes to send; could the termination
  pipe be read? -/
  | returned (rv : Error) (unsent : Nat) (term : Bool)
deriving DecidableEq

/-- What `main_modbus_loop` does next. -/
inductive LinkCtl where
  | round
  | sending (endSendTime : Int)
  | ended (rv : Error)
  | undefined
deriving DecidableEq

/-- The buffers of a round, and a trace that is newest first. -/
structure Link where
  ctl : LinkCtl := .round
  /-- the string in `buffer_out` -/
  bufferOut : List UInt8 := []
  bufferOutSent : Nat := 0
  /-- the first `buffer_in_read` bytes of `buffer_in`; the others are 0 -/
  bufferIn : List UInt8 := []
  trace : List SckEvent := []

/-- A C string: the bytes before the first 0. -/
def cString (bytes : List UInt8) : List UInt8 := bytes.takeWhile (· ≠ 0)

/-- All of `buffer_in` but for the last byte. -/
def bm1 : Nat := 1023

def noContent : List UInt8 := text "204 No Content"

namespace Link

def emit (event : SckEvent) (s : Link) : Link := { s with trace := event :: s.trace }

def unsent (s : Link) : Nat := s.bufferOut.length - s.bufferOutSent

def endSendRecv (rv : Error) (term : Bool) (s : Link) : Link :=
  { s.emit (.returned rv s.unsent term) with
    ctl := if rv = .none then .round else .ended rv }

def startSendRecv (buffer : List UInt8) (endSendTime : Int) (s : Link) : Link :=
  { s with
    ctl := .sending endSendTime
    bufferOut := cString buffer
    bufferOutSent := 0
    bufferIn := [] }

/-- The reply is empty as a string, or it has the status that is looked for. -/
def Accepts (s : Link) : Prop :=
  cString s.bufferIn = [] ∨ noContent <:+: cString s.bufferIn

instance (s : Link) : Decidable s.Accepts := inferInstanceAs (Decidable (_ ∨ _))

def receive (bytes : List UInt8) (reported : Bool) (s : Link) : Link :=
  { s.emit (.recv reported) with bufferIn := s.bufferIn ++ bytes }

def sendPiece (taken : Nat) (reported : Bool) (s : Link) : Link :=
  { s.emit (.send ((s.bufferOut.drop s.bufferOutSent).take taken) reported) with
    bufferOutSent := s.bufferOutSent + taken }

end Link

/-- The first half of a pass: how much time is left? An error is a `break` with the
return code. -/
def checkDeadline (endSendTime : Int) (io : PassIo) : Proc Error Link Unit := do
  let now ← Proc.orFail .fatal io.mstime
  let waitMstime ← Proc.orAbort (subI32 endSendTime now)
  Proc.when (waitMstime < 0) (Proc.fail .fatal)
  let _ ← Proc.orAbort (mulI32 waitMstime 1000)

def recvReply (io : PassIo) : Proc Error Link Unit := do
  let s ← Proc.read id
  Proc.when (bm1 ≤ s.bufferIn.length) (Proc.fail .fatal)
  let bytes := io.recv.take (bm1 - s.bufferIn.length)
  Proc.modify (Link.receive bytes io.select.readable)
  Proc.when (bytes = []) (Proc.fail .connect)

def sendRequest (io : PassIo) : Proc Error Link Unit := do
  let s ← Proc.read id
  Proc.when (s.bufferOutSent < s.bufferOut.length) (do
    let taken := min io.send s.unsent
    Proc.modify (Link.sendPiece taken io.select.writable)
    Proc.when (taken = 0) (Proc.fail .connect))

/-- The second half of a pass. -/
def handleSelect (io : PassIo) : Proc Error Link Unit := do
  let s ← Proc.read id
  Proc.when (io.select = .timeout) (Proc.fail (if s.Accepts then .none else .fatal))
  Proc.when (io.select.isSet true io.select.term) (Proc.fail .shutdown)
  Proc.when (io.select.isSet true io.select.readable) (recvReply io)
  Proc.when (io.select.isSet (s.bufferOutSent < s.bufferOut.length) io.select.writable)
    (sendRequest io)

def sendRecvPass (endSendTime : Int) (io : PassIo) : Proc Error Link Unit := do
  checkDeadline endSendTime io
  handleSelect io

/-- What the system answers before `main_send_recv_loop` is called: what `get_mstime`
and `modbus_read_registers` read. -/
structure StartIo where
  mstime : Option Int
  register : Option UInt16

/-- snprintf to a buffer of this size. -/
def snprintf (size : Nat) (bytes : List UInt8) : List UInt8 := bytes.take (size - 1)

def bufferConOf (value : UInt16) : List UInt8 :=
  snprintf 64 (text "renogy,host=serverA value=" ++ decimal value.toNat ++ text "\n")

/-- What is printed to `buffer_out`. -/
@[irreducible] def bufferOutOf (value : UInt16) : List UInt8 :=
  snprintf 2048 (text "POST /api/v2/write?org=org1&bucket=" ++ text "voltages" ++
    text " HTTP/1.1\r\n" ++
    text "Host: " ++ text "server3.xrdp.org" ++ text ":" ++ decimal 8086 ++ text "\r\n" ++
    text "Authorization: Token " ++ text "Wh4XF_BN120-dvfZiI0T6L7DIdG7Ma8JnSMW6GnMTpT5" ++
    text "uG4qDlBFsEGS_jwo9eBD2pf2jtra7sgi0ajl5R-oEA==" ++ text "\r\n" ++
    text "Content-Type: text/plain; charset=utf-8\r\n" ++
    text "Accept: application/json\r\n" ++
    text "Content-Length: " ++ decimal (bufferConOf value).length ++ text "\r\n\r\n" ++
    bufferConOf value)

/-- `end_send_time` of a round that starts at this time. -/
def endSendTimeOf (startSendTime : Int) : Option Int := addI32 startSendTime (60 * 1000)

def startRound (io : StartIo) : Proc Error Link Unit := do
  let now ← Proc.orFail .fatal io.mstime
  let value ← Proc.orFail .modbus io.register
  let endSendTime ← Proc.orAbort (endSendTimeOf now)
  Proc.modify (Link.startSendRecv (bufferOutOf value) endSendTime)

/-- The machine on after a part of the code ended: `leave` is what a return does. -/
def conclude (leave : Error → Link → Link) : Exit Error Link Unit → Link
  | .ok _ s => s
  | .error rv s => leave rv s
  | .panic s => { s with ctl := .undefined }

inductive LinkInput where
  | start (io : StartIo)
  | pass (io : PassIo)

def Link.step (s : Link) (input : LinkInput) : Link :=
  match s.ctl, input with
  | .round, .start io => conclude (fun rv s => { s with ctl := .ended rv }) (startRound io s)
  | .sending endSendTime, .pass io =>
      conclude (Link.endSendRecv · io.select.term) (sendRecvPass endSendTime io s)
  | _, _ => s

/-- The state in which `main_modbus_loop` begins with a new connection. -/
def connected : Link := {}

/-- The state in which `main_send_recv_loop` begins, with any request. -/
def calling (buffer : List UInt8) (endSendTime : Int) : Link :=
  connected.startSendRecv buffer endSendTime

end RenogyX10.RenogyInflux
