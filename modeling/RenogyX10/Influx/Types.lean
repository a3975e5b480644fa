import RenogyX10.Influx.Decode
import RenogyX10.Toml
import RenogyX10.TtyReader.Queues

set_option autoImplicit false

namespace RenogyX10.Influx

open Csck LinkedQueue Messages Parse Toml
open TtyReader (SendT)

/-- The configuration file. -/
structure InfluxInfo where
  influxHostname : List UInt8
  influxPort : Int
  influxDatabase : List UInt8
  influxOrg : List UInt8
  influxToken : List UInt8
  influxHostTag : List UInt8

def InfluxInfo.defaults : InfluxInfo where
  influxHostname := text "server3.xrdp.org"
  influxPort := 8086
  influxDatabase := text "solar"
  influxOrg := text "org1"
  influxToken := text "Wh4XF_BN120-dvfZiI0T6L7DIdG7Ma8JnSMW6GnMTpT5" ++
    text "uG4qDlBFsEGS_jwo9eBD2pf2jtra7sgi0ajl5R-oEA=="
  influxHostTag := text "serverA"

/-- What an observer of the process and of the database sees. -/
inductive Event where
  /-- a socket for a new connection -/
  | socket (sck : Int)
  /-- `process_msg_table` queued this request -/
  | build (request : List UInt8)
  | send (sck : Int) (bytes : List UInt8)
  | close (sck : Int)

/-- The process but for its receiver; `send` is `send_head` and `send_tail`, the
trace is newest first. -/
structure Client where
  config : InfluxInfo
  isck : Int := -1
  connecting : Bool := false
  send : Ends := empty
  heap : Heap SendT := ∅
  trace : List Event := []

abbrev Act (α : Type) := Proc ClientError Client α

abbrev Sys := Conn Client

abbrev SysAct (α : Type) := Proc ClientError Sys α

def Client.emit (event : Event) (h : Client) : Client := { h with trace := event :: h.trace }

def Client.setConnecting (connecting : Bool) (h : Client) : Client :=
  { h with connecting := connecting }

def Client.install (config : InfluxInfo) (h : Client) : Client := { h with config := config }

/-- The calls of the logger, which can fail like any other. -/
inductive LogSite where
  | started
  | loop
  | term
  | reloading
  | reloaded
  | connecting
  | connectFailed
  | received
  | recvFailed
  | connected
  | sendFailed
deriving DecidableEq

def Sys.initial (config : InfluxInfo) : Sys :=
  ⟨{}, ⟨List.replicate insSize 0, 0⟩, { config := config }⟩

def decimal (value : Nat) : List UInt8 :=
  (Nat.toDigits 10 value).map fun digit => UInt8.ofNat digit.toNat

def decimalInt (value : Int) : List UInt8 :=
  if value < 0 then text "-" ++ decimal value.natAbs else decimal value.natAbs

def deviceName : Device → List UInt8
  | .renogy => text "renogy"
  | .pzem3 => text "pzem3"
  | .pzem6 => text "pzem6"
  | .pzem10 => text "pzem10"
  | .temp11 => text "temp11"
  | .pzem12 => text "pzem12"
  | .pzem13 => text "pzem13"

def quantityName : Quantity → List UInt8
  | .volts => text "volts"
  | .amps => text "amps"
  | .watts => text "watts"
  | .pvvolts => text "pvvolts"
  | .pvamps => text "pvamps"
  | .pvwatts => text "pvwatts"
  | .temp => text "temp"
  | .hum => text "hum"

def Reading.tableName (reading : Reading) : List UInt8 :=
  deviceName reading.device ++ text "_" ++ quantityName reading.quantity

end RenogyX10.Influx
