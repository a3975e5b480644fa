import RenogyX10.Lib.Checked
import RenogyX10.Lib.LinkedQueue
import RenogyX10.Lib.Proc

set_option autoImplicit false

/- The data of `tty_reader.zig`: the device list, the peers with their send
queues, the scheduler's clock fields, and what an observer sees of a run. Times
are milliseconds. Log calls are taken to return. -/
namespace RenogyX10.TtyReader

open LinkedQueue

inductive TtyError where
  | termSet
  | modbusSetSlaveFailed
  | modbusReadRegistersFailed
  | modbusSetErrorRecoveryFailed
  | modbusGetResponseTimeoutFailed
  | modbusConnectFailed
  | modbusSetDebugFailed
  | peerNotFound
  | reload
  | outOfMemory
  | endOfBuffer
  | pollFailed
  | acceptFailed
deriving DecidableEq

/-- A `send_t` node; its `next` pointer is the queue's. -/
structure SendT where
  sent : Nat
  outDataSlice : List UInt8
deriving DecidableEq

/-- The bytes of a node that are still to be sent. -/
def SendT.unsent (node : SendT) : List UInt8 := node.outDataSlice.drop node.sent

/-- The slice `out_data_slice[sent..]`, whose start is checked. -/
def SendT.outSlice (node : SendT) : Option (List UInt8) :=
  if node.sent ≤ node.outDataSlice.length then some node.unsent else none

/-- One connected client; `send` is `send_head` and `send_tail`. -/
structure TtyPeerInfo where
  delme : Bool := false
  sck : Int := -1
  send : Ends := empty

/-- One modbus device. -/
structure TtyIdInfo where
  id : UInt8 := 0
  readAddress : UInt16 := 0
  readCount : UInt8 := 0
  readInputAddress : UInt16 := 0
  readInputCount : UInt8 := 0
deriving DecidableEq

/-- The fields of `tty_info_t` that the configuration file sets. -/
structure Config where
  modbusDebug : Bool := false
  itemMstime : Int := 0
  listMstime : Int := 0
  tty : List UInt8 := []
  listenSocket : List UInt8 := []
  idList : List TtyIdInfo := []

structure TtyInfo extends Config where
  peerList : List TtyPeerInfo := []
  idListIndex : Nat := 0
  idListSubIndex : Nat := 0
  minMstime : Nat := 0
  lastModbusTime : Option Int := none
  nextModbusTime : Option Int := none
  firstModbusTime : Option Int := none

/-- The two register reads a device can be configured for. -/
inductive Kind where
  | holding
  | input
deriving DecidableEq

/-- What an observer of the process and of its connections sees. -/
inductive Event where
  /-- the list position is set back to the first device -/
  | reset
  /-- `get_next_id_info` returned this, and left this `id_list_sub_index` -/
  | next (item : Option TtyIdInfo) (subIndex : Nat)
  /-- a `process_tty_id_info` call: the device, the read it selects, when it
  starts and ends, and the `min_mstime` in force -/
  | call (idInfo : TtyIdInfo) (kind : Option Kind) (start stop : Int) (minMstime : Nat)
  /-- a read that completed and was queued for every peer -/
  | read (kind : Kind) (idInfo : TtyIdInfo) (regs : List UInt16)
  /-- the value converted to the poll timeout -/
  | cast (value : Int)
  | accept (sck : Int)
  | send (sck : Int) (bytes : List UInt8)
  | close (sck : Int)

/-- The process with its heap of send nodes; the trace is newest first. -/
structure Sys where
  info : TtyInfo
  heap : Heap SendT
  trace : List Event

abbrev Act (α : Type) := Proc TtyError Sys α

def Sys.emit (event : Event) (s : Sys) : Sys := { s with trace := event :: s.trace }

/-- A fresh process: no peers, nothing allocated, nothing observed. -/
def Sys.initial (config : Config) : Sys := ⟨{ config with }, ∅, []⟩

end RenogyX10.TtyReader
