import RenogyX10.Csck
import RenogyX10.Lib.Checked

set_option autoImplicit false

namespace RenogyX10.Heyu

open Csck Parse

/-- The configuration file. The comparison of a voltage, in tenths of a volt,
with `low_voltage_on` is done in `f32`: it is a predicate here. -/
structure HeyuInfo where
  belowLowVoltageOn : UInt16 → Bool
  millisOn : Int
  chargerExe : List UInt8
  chargerHU : List UInt8
  connectSocket : List UInt8

inductive State where
  | lookingForLow
  | charging
deriving DecidableEq

inductive Command where
  | on
  | off
deriving DecidableEq

/-- How a child command ends. -/
inductive ChildResult where
  /-- `Child.run` failed -/
  | spawnFailed
  | exited (code : UInt8)
  /-- killed by a signal, or stopped: there is no exit code -/
  | killed
deriving DecidableEq

/-- What an observer of the process sees. -/
inductive Event where
  /-- a connection is open; `stream` are the frames its publisher sends on it -/
  | connect (socket : List UInt8) (stream : List Frame)
  | recv (bytes : List UInt8)
  /-- `process_msg` is called with this payload -/
  | msg (payload : List UInt8)
  | child (exe : List UInt8) (command : Command) (hu : List UInt8) (result : ChildResult)
  /-- the value converted to the poll timeout -/
  | cast (value : Int)

/-- The process but for its receiver; the trace is newest first. -/
structure Client where
  config : HeyuInfo
  state : State := .lookingForLow
  chargerOnTime : Int := 0
  chargerOffTime : Int := 0
  trace : List Event := []

abbrev Act (α : Type) := Proc ClientError Client α

abbrev Sys := Conn Client

abbrev SysAct (α : Type) := Proc ClientError Sys α

def Client.emit (event : Event) (h : Client) : Client := { h with trace := event :: h.trace }

@[simp] theorem Client.emit_trace (event : Event) (h : Client) :
    (h.emit event).trace = event :: h.trace := rfl

def Client.setState (state : State) (h : Client) : Client := { h with state := state }

/-- The calls of the logger, which can fail like any other. -/
inductive LogSite where
  | started
  | top
  | timeout
  | term
  | reloading
  | reloaded
  | turningOn
  | on
  | turningOff
  | off
  | mainLoopError
deriving DecidableEq

def Sys.initial (config : HeyuInfo) : Sys :=
  ⟨{}, ⟨List.replicate insSize 0, 0⟩, { config := config }⟩

end RenogyX10.Heyu
