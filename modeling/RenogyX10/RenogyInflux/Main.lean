import RenogyX10.Lib.Runs

set_option autoImplicit false

/- `renogy_influx.c`: the three loops of `main_modbus`, `main_connect_loop` and
`main_modbus_loop`, as a machine that takes one turn of the innermost loop at a
time. It starts when the buffers are allocated. -/
namespace RenogyX10.RenogyInflux

/-- The return codes `ERROR_NONE` to `ERROR_SHUTDOWN`. -/
inductive Error where
  | none
  | fatal
  | connect
  | modbus
  | shutdown
deriving DecidableEq

/-- The calls that open and release something. -/
inductive Event where
  /-- a `modbus_connect` that succeeds opens a serial port handle -/
  | modbusConnect
  /-- only `modbus_close` releases it -/
  | modbusClose
  /-- `modbus_free` releases the context alone -/
  | modbusFree
  | connect
  | close
deriving DecidableEq

/-- The loop that is about to start a turn, or the code `main_modbus` returned. -/
inductive Ctl where
  | modbus
  | connect
  | round
  | ended (rv : Error)
deriving DecidableEq

/-- The trace is newest first. -/
structure Process where
  ctl : Ctl := .modbus
  trace : List Event := []
deriving DecidableEq

/-- A turn of `main_modbus`: `modbus_new_rtu` and `modbus_connect` succeed. -/
structure ModbusIo where
  context : Bool
  connected : Bool

/-- A turn of `main_connect_loop`: the socket is made, the name is resolved, and
`connect` succeeds. -/
structure ConnectIo where
  socket : Bool
  resolved : Bool
  connected : Bool

/-- A turn of `main_modbus_loop`: `get_mstime` succeeds, what
`modbus_read_registers` reads, and what `main_send_recv_loop` returns. -/
structure RoundIo where
  mstime : Bool
  register : Option UInt16
  sendRecv : Error

inductive Input where
  | modbus (io : ModbusIo)
  | connect (io : ConnectIo)
  | round (io : RoundIo)

def Process.emit (event : Event) (s : Process) : Process := { s with trace := event :: s.trace }

/-- The end of a turn of `main_modbus`: a modbus failure is tried again. -/
def endModbus (rv : Error) (s : Process) : Process :=
  let rv := if rv = .modbus then .none else rv
  { s with ctl := if rv ≠ .none then .ended rv else .modbus }

def leaveConnectLoop (rv : Error) (s : Process) : Process := endModbus rv (s.emit .modbusFree)

def endConnect (rv : Error) (s : Process) : Process :=
  if rv ≠ .none then leaveConnectLoop rv s else { s with ctl := .connect }

/-- `main_modbus_loop` returns to `main_connect_loop`: a connection that went down
is made again. -/
def leaveModbusLoop (rv : Error) (s : Process) : Process :=
  endConnect (if rv = .connect then .none else rv) (s.emit .close)

def mainModbus (io : ModbusIo) (s : Process) : Process :=
  if io.context then
    if io.connected then { s.emit .modbusConnect with ctl := .connect }
    else endModbus .fatal (s.emit .modbusFree)
  else endModbus .fatal s

def mainConnectLoop (io : ConnectIo) (s : Process) : Process :=
  if io.socket then
    if io.resolved && io.connected then { s.emit .connect with ctl := .round }
    else endConnect .none (s.emit .close)
  else endConnect .fatal s

def mainModbusLoop (io : RoundIo) (s : Process) : Process :=
  if io.mstime then
    match io.register with
    | none => leaveModbusLoop .modbus s
    | some _ => if io.sendRecv ≠ .none then leaveModbusLoop io.sendRecv s else s
  else leaveModbusLoop .fatal s

def Process.step (s : Process) (input : Input) : Process :=
  match s.ctl, input with
  | .modbus, .modbus io => mainModbus io s
  | .connect, .connect io => mainConnectLoop io s
  | .round, .round io => mainModbusLoop io s
  | _, _ => s

def Process.run (s : Process) (inputs : List Input) : Process := Runs.exec Process.step s inputs

end RenogyX10.RenogyInflux
