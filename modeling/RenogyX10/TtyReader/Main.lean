import RenogyX10.Lib.Runs
import RenogyX10.TtyReader.Peers

set_option autoImplicit false

/- The event loop `tty_main_loop`, the reload, and the retry loop of `main`,
as a machine that takes one pass or one restart at a time. -/
namespace RenogyX10.TtyReader

open Checked Parse

/-- What `setup_tty_info` makes of the configuration file. -/
inductive SetupResult where
  | ok (config : Config)
  | failed
  | panic

/-- The scheduler and the list position start over. -/
def clearSchedule (s : Sys) : Sys :=
  { s with
    info := { s.info with
      nextModbusTime := none
      firstModbusTime := none
      lastModbusTime := none
      idListIndex := 0
      idListSubIndex := 0 }
    trace := .reset :: s.trace }

/-- The fields a reload takes over; `tty` and `listen_socket` are not among them. -/
def installConfig (config : Config) (s : Sys) : Sys :=
  { s with
    info := { s.info with
      idList := config.idList
      itemMstime := config.itemMstime
      listMstime := config.listMstime
      modbusDebug := config.modbusDebug } }

def reloadConfig : SetupResult → Act Unit
  | .ok config => do
      Proc.modify (installConfig config)
      Proc.modify clearSchedule
  | .failed => pure ()
  | .panic => Proc.abort

/-- The result of poll: which of the terminate, hup and listen descriptors are
readable. -/
inductive PollIo where
  | failed
  | timeout
  | ready (term hup listen : Bool)

/-- What the allocator has for a new peer: its place in the list, and the buffer that
`init` creates once the peer is there. -/
inductive PeerAlloc where
  | whole
  | noPlace
  | noBuffer
deriving DecidableEq

/-- What the environment answers in one pass of the loop. -/
structure LoopIo where
  check : CheckIo
  poll : PollIo
  setup : SetupResult
  accept : Option Int
  peers : List PeerIo
  alloc : PeerAlloc := .whole

def maxPolls : Nat := 32

/-- A new connection becomes the last peer, with nothing queued. A peer whose `init`
fails stays in the list, and never gets the descriptor. -/
def acceptPeer (alloc : PeerAlloc) : Option Int → Act Unit
  | none => Proc.fail .acceptFailed
  | some sck =>
      match alloc with
      | .noPlace => Proc.fail .outOfMemory
      | .noBuffer => do
          Proc.modify fun s =>
            { s with info := { s.info with peerList := s.info.peerList ++ [{}] } }
          Proc.fail .outOfMemory
      | .whole =>
          Proc.modify fun s =>
            { s with
              info := { s.info with peerList := s.info.peerList ++ [{ sck := sck }] }
              trace := .accept sck :: s.trace }

/-- The top of the loop: without a peer nothing is read and the schedule is
forgotten. -/
def scheduleReads (lib : ParseLib) (io : CheckIo) : Act Unit := do
  let peers ← Proc.read fun s => s.info.peerList.length
  if peers = 0 then Proc.modify clearSchedule
  else do
    let _ ← checkModbus lib io
    pure ()

/-- The state in which a pass polls, if it gets there. -/
def atPoll (lib : ParseLib) (io : LoopIo) (s : Sys) : Option Sys :=
  match scheduleReads lib io.check s with
  | .ok _ t => some t
  | _ => none

theorem atPoll_eq_some {lib : ParseLib} {io : LoopIo} {s t : Sys} :
    atPoll lib io s = some t ↔ ∃ value, scheduleReads lib io.check s = .ok value t := by
  unfold atPoll
  cases scheduleReads lib io.check s with
  | ok value u => simp
  | error reason u => simp
  | panic u => simp

/-- The end of the loop, for the peers that were polled. -/
def servePolled (io : LoopIo) (listen : Bool) (polled : List Int) : Act Unit := do
  Proc.when listen (acceptPeer io.alloc io.accept)
  Proc.when (polled ≠ []) (checkPeers (polled.zip io.peers))

/-- One pass of `tty_main_loop`; `true` leaves the loop. -/
def ttyMainLoop (lib : ParseLib) (io : LoopIo) : Act Bool := do
  scheduleReads lib io.check
  let polled ← Proc.read fun s => s.info.peerList.map TtyPeerInfo.sck
  if maxPolls < 3 + polled.length then Proc.abort
  else
    match io.poll with
    | .failed => Proc.fail .pollFailed
    | .timeout => pure false
    | .ready term hup listen =>
        if term then pure true
        else if hup then do
          reloadConfig io.setup
          Proc.fail .reload
        else do
          servePolled io listen polled
          pure false

/-- Where a call leads: a return and a reload go on from a state that `good`
describes, every other exit ends the loop in a state that `bad` describes. -/
def Leads {α : Type} (good bad : Sys → Prop) : Exit TtyError Sys α → Prop
  | .ok _ t => good t
  | .error reason t => if reason = .reload then good t else bad t
  | .panic t => bad t

theorem Leads.of_state {α : Type} {good bad : Sys → Prop} {ended : Exit TtyError Sys α}
    (weaken : ∀ t, good t → bad t) (reached : good ended.state) : Leads good bad ended := by
  cases ended with
  | ok value t => exact reached
  | error reason t =>
      by_cases again : reason = .reload
      · simpa only [Leads, again, ↓reduceIte, Exit.state] using reached
      · simpa only [Leads, again, ↓reduceIte, Exit.state] using weaken t reached
  | panic t => exact weaken t reached

theorem Leads.state {α : Type} {good bad : Sys → Prop} {ended : Exit TtyError Sys α}
    (leads : Leads good bad ended) (weaken : ∀ t, good t → bad t) : bad ended.state := by
  cases ended with
  | ok value t => exact weaken t leads
  | error reason t =>
      by_cases again : reason = .reload
      · simp only [Leads, again, ↓reduceIte] at leads
        exact weaken t leads
      · simpa only [Leads, again, ↓reduceIte, Exit.state] using leads
  | panic t => exact leads

/-- What one pass preserves, from what its three parts preserve: scheduling the
reads reaches `mid`, from which a reload and the peers lead back to `good`. -/
theorem ttyMainLoop_rule {mid good bad : Sys → Prop} (lib : ParseLib) (io : LoopIo) {s : Sys}
    (schedule : Leads mid bad (scheduleReads lib io.check s))
    (resume : ∀ t, mid t → good t) (weaken : ∀ t, good t → bad t)
    (reload : ∀ config, io.setup = .ok config → ∀ t, mid t →
      good (clearSchedule (installConfig config t)))
    (serve : ∀ listen t, mid t →
      good (servePolled io listen (t.info.peerList.map TtyPeerInfo.sck) t).state) :
    Leads good bad (ttyMainLoop lib io s) := by
  unfold ttyMainLoop
  cases ended : scheduleReads lib io.check s with
  | error reason t =>
      rw [Proc.bind_of_error ended]
      rw [ended] at schedule
      by_cases again : reason = .reload
      · simp only [Leads, again, ↓reduceIte] at schedule ⊢
        exact resume t schedule
      · simpa only [Leads, again, ↓reduceIte] using schedule
  | panic t =>
      rw [Proc.bind_of_panic ended]
      rw [ended] at schedule
      exact schedule
  | ok _ t =>
      rw [Proc.bind_of_ok ended]
      rw [ended] at schedule
      have holds : good t := resume t schedule
      simp only [Proc.read_bind, Proc.ite_run]
      split
      · exact weaken t holds
      · cases io.poll with
        | failed => exact weaken t holds
        | timeout => exact holds
        | ready term hup listen =>
            simp only [Proc.ite_run]
            split
            · exact holds
            · split
              · cases setup : io.setup with
                | ok config => exact reload config setup t schedule
                | failed => exact holds
                | panic => exact weaken t holds
              · apply Leads.of_state weaken
                exact Proc.Keeps.bind_at (serve listen t schedule) fun _ => .pure false

/-- What the environment answers while `main` sets the process up again. -/
structure StartIo where
  /-- `modbus_new_rtu` gives a context -/
  context : Bool
  /-- log, unlink, socket, bind and listen all succeed -/
  listening : Bool
  setErrorRecovery : Bool
  getResponseTimeout : Bool
  responseSec : Nat
  responseUsec : Nat
  connect : Bool
  setDebug : Bool

/-- `process_tty_info` up to its call of the loop; the response timeout is
converted in `u32`. -/
def processTtyInfo (io : StartIo) : Act Unit := do
  Proc.guard io.setErrorRecovery .modbusSetErrorRecoveryFailed
  Proc.guard io.getResponseTimeout .modbusGetResponseTimeoutFailed
  let millis ← Proc.orAbort ((unsigned 32 (io.responseSec * 1000)).bind fun sec =>
    unsigned 32 (sec + io.responseUsec / 1000))
  Proc.modify fun s => { s with info := { s.info with minMstime := millis } }
  Proc.guard io.connect .modbusConnectFailed
  Proc.guard io.setDebug .modbusSetDebugFailed

/-- Where `main` is: about to set up, in the loop, in `tty_sleep`, or over. -/
inductive Ctl where
  | restart
  | loop
  | sleep
  | stopped
deriving DecidableEq

inductive Input where
  | start (io : StartIo)
  | loop (io : LoopIo)
  /-- the end of `tty_sleep(60000)` -/
  | wake (time : Int) (term : Bool)

/-- The process, the point `main` has reached, and the time there. -/
structure Daemon where
  sys : Sys
  ctl : Ctl
  clock : Int

def Input.time (clock : Int) : Input → Int
  | .start _ => clock
  | .loop io => io.check.done
  | .wake time _ => time

/-- Where an exit of `tty_main_loop` leads `main`. -/
def afterLoop : Exit TtyError Sys Bool → Ctl
  | .ok false _ => .loop
  | .ok true _ => .stopped
  | .error reason _ => if reason = .reload then .restart else .sleep
  | .panic _ => .stopped

/-- Where an exit of `process_tty_info` before the loop leads `main`. -/
def afterStart : Exit TtyError Sys Unit → Ctl
  | .ok _ _ => .loop
  | .error _ _ => .sleep
  | .panic _ => .stopped

def Daemon.step (lib : ParseLib) (d : Daemon) (input : Input) : Daemon :=
  match d.ctl, input with
  | .restart, .start io =>
      if io.context && io.listening then
        let ended := processTtyInfo io d.sys
        ⟨ended.state, afterStart ended, d.clock⟩
      else { d with ctl := .stopped }
  | .loop, .loop io =>
      let ended := ttyMainLoop lib io d.sys
      ⟨ended.state, afterLoop ended, io.check.done⟩
  | .sleep, .wake time term => ⟨d.sys, if term then .stopped else .restart, time⟩
  | _, _ => d

def Daemon.run (lib : ParseLib) (d : Daemon) (inputs : List Input) : Daemon :=
  Runs.exec (Daemon.step lib) d inputs

def Daemon.initial (config : Config) (clock : Int) : Daemon := ⟨Sys.initial config, .restart, clock⟩

/-- One device with one holding register. -/
def oneDevice : Config := { listMstime := 1000, idList := [{ id := 1, readCount := 1 }] }

def startUp : Input := .start
  { context := true, listening := true, setErrorRecovery := true, getResponseTimeout := true,
    responseSec := 0, responseUsec := 500000, connect := true, setDebug := true }

/-- Registers that all read as seven. -/
def answered (start stop : Int) : ReadIo :=
  { setSlave := 0, err := 1, regs := fun _ => 7, nodes := [0], start := start, stop := stop }

def checkAt (now : Int) : CheckIo := { now := now, read := answered now (now + 20), done := now + 20 }

end RenogyX10.TtyReader
