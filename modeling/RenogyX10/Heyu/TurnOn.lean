import RenogyX10.Heyu.Main

set_option autoImplicit false

namespace RenogyX10.Heyu

open Checked Csck Framing Parse Proc

/-- A pass in which every line is logged and a command ends with exit status 0. -/
def quietPass (now : Int) (poll : PollIo) : LoopIo where
  now := now
  poll := poll
  setup := .failed
  recv := none
  msg := ⟨true, now, ⟨.exited 0, fun _ => true⟩⟩
  later := now
  off := ⟨.exited 0, fun _ => true⟩
  logln _ := true

/-- Such a pass in which bytes arrive. -/
def receivePass (now : Int) (bytes : List UInt8) : LoopIo :=
  { quietPass now (.ready false false true) with recv := some bytes }

variable {lib : ParseLib} {c next : Sys} {now : Int} {bytes : List UInt8}

theorem pollTimeout_idle {h : Client} (idle : h.state ≠ .charging) (logln : LogSite → Bool) :
    pollTimeout now logln h = .ok (-1) h := by
  unfold pollTimeout
  simp only [read_bind, id_eq]
  rw [if_neg idle, pure_run]

theorem checkOffTime_waits {h : Client} {off : ChildIo}
    (waits : h.state = .charging → now < h.chargerOffTime) : checkOffTime now off h = .ok () h := by
  have early : ¬ (h.state = .charging ∧ h.chargerOffTime ≤ now) := by
    intro ⟨charging, expired⟩
    have left := waits charging
    omega
  unfold checkOffTime
  simp only [read_bind, id_eq]
  rw [when_false _ early, pure_run]

theorem mainLoop_receives (idle : c.host.state ≠ .charging)
    (ran : csckCanRecv lib (receivePass now bytes).msg (some bytes) c = .ok () next)
    (waits : next.host.state = .charging → now < next.host.chargerOffTime) :
    mainLoop lib (receivePass now bytes) c = .ok false next := by
  have polled : onHost (pollTimeout now (receivePass now bytes).logln) c = .ok (-1) c := by
    rw [onHost, focus_run, pollTimeout_idle idle]
  have checked : onHost (checkOffTime now (receivePass now bytes).off) next = .ok () next := by
    rw [onHost, focus_run, checkOffTime_waits waits]
  unfold mainLoop
  apply (bind_of_ok polled).trans
  apply (bind_of_ok ran).trans
  exact bind_of_ok checked

theorem step_receives (idle : c.host.state ≠ .charging)
    (ran : csckCanRecv lib (receivePass now bytes).msg (some bytes) c = .ok () next)
    (waits : next.host.state = .charging → now < next.host.chargerOffTime) :
    Daemon.step lib ⟨c, .loop⟩ (.loop (receivePass now bytes)) = ⟨next, .loop⟩ := by
  have ran := mainLoop_receives idle ran waits
  unfold Daemon.step
  dsimp only
  rw [ran]
  rfl

/-- A low voltage turns the charger on for `millis_on`. -/
theorem processVolts_low {h : Client} {volts : UInt16} (low : h.state = .lookingForLow)
    (below : h.config.belowLowVoltageOn volts = true) (fits : FitsI64 (now + h.config.millisOn)) :
    processVolts (receivePass now bytes).msg volts h =
      .ok () ((setOffTime (now + h.config.millisOn) (startCharging now h)).child .on (.exited 0)) := by
  unfold processVolts
  simp only [read_bind, id_eq]
  rw [when_true _ ⟨low, below⟩]
  show (orAbort (addI64 now h.config.millisOn) >>= fun offTime => do
    Proc.modify (setOffTime offTime)
    chargerOn (receivePass now bytes).msg.child : Act Unit) (startCharging now h) = _
  rw [addI64_of_fits fits]
  rfl

theorem step_header (lib : ParseLib) (now : Int) (idle : Holding c [])
    (low : c.host.state = .lookingForLow) (frame : Frame) :
    ∃ next, Daemon.step lib ⟨c, .loop⟩ (.loop (receivePass now (frame.bytes.take 4))) =
        ⟨next, .loop⟩ ∧
      next.host = c.host.emit (.recv (frame.bytes.take 4)) ∧ Holding next (frame.bytes.take 4) := by
  obtain ⟨next, ran, host, holding⟩ := Holding.takes_header lib
    (deliver lib (receivePass now (frame.bytes.take 4)).msg)
    (idle.withHost (noteRecv (some (frame.bytes.take 4)) c).host) frame
  have state : next.host.state = .lookingForLow := by
    rw [host]
    exact low
  refine ⟨next, step_receives ?_ ran ?_, host, holding⟩
  · rw [low]
    decide
  · intro charging
    rw [state] at charging
    cases charging

theorem handle_delivers (lib : ParseLib) {frame : Frame} {h : Client} (zero : frame.code = 0) :
    handle lib (deliver lib (receivePass now bytes).msg) frame h =
      processReport (receivePass now bytes).msg (reportOf frame.payload)
        (h.emit (.msg frame.payload)) := by
  rw [handle, when_true _ zero, lib.createFromSlice_eq]
  exact processMsg_run lib (receivePass now bytes).msg ⟨frame.payload, 0⟩ h

theorem step_low (lib : ParseLib) {frame : Frame} {tenths : UInt16}
    (holding : Holding c (frame.bytes.take 4)) (low : c.host.state = .lookingForLow)
    (zero : frame.code = 0)
    (report : reportOf frame.payload = .volts tenths)
    (below : c.host.config.belowLowVoltageOn tenths = true)
    (fits : FitsI64 (now + c.host.config.millisOn)) (positive : 0 < c.host.config.millisOn) :
    ∃ next, Daemon.step lib ⟨c, .loop⟩ (.loop (receivePass now frame.payload)) = ⟨next, .loop⟩ ∧
      next.host = (setOffTime (now + c.host.config.millisOn) (startCharging now
        ((c.host.emit (.recv frame.payload)).emit (.msg frame.payload)))).child .on (.exited 0) ∧
      Holding next [] := by
  obtain ⟨next, ran, buffer⟩ := Holding.takes_payload lib
    (deliver lib (receivePass now frame.payload).msg)
    (holding.withHost (noteRecv (some frame.payload) c).host)
  have handled : handle lib (deliver lib (receivePass now frame.payload).msg) frame
      (c.host.emit (.recv frame.payload)) = .ok () ((setOffTime (now + c.host.config.millisOn)
        (startCharging now ((c.host.emit (.recv frame.payload)).emit (.msg frame.payload)))).child
          .on (.exited 0)) := by
    rw [handle_delivers lib zero, report]
    exact processVolts_low low below fits
  have ran : csckCanRecv lib (receivePass now frame.payload).msg (some frame.payload) c =
      finish next (handle lib (deliver lib (receivePass now frame.payload).msg) frame
        (c.host.emit (.recv frame.payload))) := ran
  rw [handled] at ran
  refine ⟨_, step_receives ?_ ran ?_, rfl, Holding.idle buffer rfl rfl⟩
  · rw [low]
    decide
  · intro _
    show now < now + c.host.config.millisOn
    omega

/-- The timeout of a poll while charging, as an observer sees it. -/
def noteCast (now : Int) (c : Sys) : Sys :=
  { c with host := c.host.emit (.cast (c.host.chargerOffTime - now)) }

theorem pollTimeout_charging (charging : c.host.state = .charging)
    (fits : FitsI32 (c.host.chargerOffTime - now)) :
    ∃ timeout, onHost (pollTimeout now fun _ => true) c = .ok timeout (noteCast now c) := by
  have ran : pollTimeout now (fun _ => true) c.host =
      .ok (if c.host.chargerOffTime - now < 0 then 0 else c.host.chargerOffTime - now)
        (c.host.emit (.cast (c.host.chargerOffTime - now))) := by
    unfold pollTimeout
    simp only [read_bind, id_eq]
    rw [if_pos charging, modify_bind, intCastI32_of_fits fits]
    rfl
  refine ⟨if c.host.chargerOffTime - now < 0 then 0 else c.host.chargerOffTime - now, ?_⟩
  rw [onHost, focus_run, ran]
  rfl

theorem step_terminates {hup csck : Bool} (charging : c.host.state = .charging)
    (fits : FitsI32 (c.host.chargerOffTime - now)) :
    Daemon.step lib ⟨c, .loop⟩ (.loop (quietPass now (.ready true hup csck))) =
      ⟨noteCast now c, .finish⟩ := by
  have ran : mainLoop lib (quietPass now (.ready true hup csck)) c = .ok true (noteCast now c) := by
    obtain ⟨timeout, polled⟩ := pollTimeout_charging charging fits
    unfold mainLoop
    exact bind_of_ok polled
  unfold Daemon.step
  dsimp only
  rw [ran]
  rfl

theorem step_reloads {csck : Bool} (charging : c.host.state = .charging)
    (fits : FitsI32 (c.host.chargerOffTime - now)) :
    Daemon.step lib ⟨c, .loop⟩ (.loop (quietPass now (.ready false true csck))) =
      ⟨noteCast now c, .connect⟩ := by
  have ran : mainLoop lib (quietPass now (.ready false true csck)) c =
      .error .reload (noteCast now c) := by
    obtain ⟨timeout, polled⟩ := pollTimeout_charging charging fits
    unfold mainLoop
    exact bind_of_ok polled
  unfold Daemon.step
  dsimp only
  rw [ran]
  rfl

def connected (stream : List Frame) : StartIo := ⟨true, true, true, true, true, stream⟩

/-- The rest of the process when it has connected. -/
def connectedHost (stream : List Frame) (h : Client) : Client :=
  h.emit (.connect h.config.connectSocket stream)

/-- The inputs from the start to the first frame. -/
def firstFrame (now : Int) (frame : Frame) (later : List Frame) : List Input :=
  [.start (connected (frame :: later)), .loop (receivePass now (frame.bytes.take 4)),
    .loop (receivePass now frame.payload)]

/-- What has to be known of these inputs to know it of the run. -/
structure FirstFrame (allowed : Daemon → Input → Prop) (config : HeyuInfo) (now : Int)
    (frame : Frame) (later : List Frame) : Prop where
  connects : allowed (Daemon.initial config) (.start (connected (frame :: later)))
  header : ∀ c, Holding c [] →
    c.host = connectedHost (frame :: later) (Sys.initial config).host →
    allowed ⟨c, .loop⟩ (.loop (receivePass now (frame.bytes.take 4)))
  payload : ∀ c, Holding c (frame.bytes.take 4) →
    c.host = (connectedHost (frame :: later) (Sys.initial config).host).emit
      (.recv (frame.bytes.take 4)) →
    allowed ⟨c, .loop⟩ (.loop (receivePass now frame.payload))

structure On (config : HeyuInfo) (now : Int) (c : Sys) : Prop where
  state : c.host.state = .charging
  offTime : c.host.chargerOffTime = now + config.millisOn
  command : c.host.trace.head? = some (.child config.chargerExe .on config.chargerHU (.exited 0))
  idle : Holding c []

/-- A first frame that reports a low voltage turns the charger on. -/
theorem firstFrame_turns_on (lib : ParseLib) {allowed : Daemon → Input → Prop} {config : HeyuInfo}
    {frame : Frame} {later : List Frame} {tenths : UInt16} (zero : frame.code = 0)
    (report : reportOf frame.payload = .volts tenths)
    (below : config.belowLowVoltageOn tenths = true) (fits : FitsI64 (now + config.millisOn))
    (positive : 0 < config.millisOn) (known : FirstFrame allowed config now frame later) :
    Runs.Admits (Daemon.step lib) allowed (Daemon.initial config) (firstFrame now frame later) ∧
      ∃ c, (Daemon.initial config).run lib (firstFrame now frame later) = ⟨c, .loop⟩ ∧
        On config now c := by
  have idle : Holding { Sys.initial config with
      host := connectedHost (frame :: later) (Sys.initial config).host } [] :=
    .idle List.length_replicate rfl rfl
  have opened : Daemon.step lib (Daemon.initial config) (.start (connected (frame :: later))) =
      ⟨{ Sys.initial config with
        host := connectedHost (frame :: later) (Sys.initial config).host }, .loop⟩ := rfl
  obtain ⟨headed, first, host, holding⟩ := step_header lib now idle rfl frame
  have low : headed.host.state = .lookingForLow := by
    rw [host]
    rfl
  have same : headed.host.config = config := by
    rw [host]
    rfl
  rw [← same] at below fits positive
  obtain ⟨c, second, turnedOn, after⟩ :=
    step_low lib holding low zero report below fits positive
  refine ⟨⟨known.connects, ?_⟩, c, ?_, ?_⟩
  · rw [opened]
    refine ⟨known.header _ idle rfl, ?_⟩
    rw [first]
    exact ⟨known.payload _ holding host, trivial⟩
  · unfold Daemon.run firstFrame
    rw [Runs.exec_cons, opened, Runs.exec_cons, first, Runs.exec_cons, second, Runs.exec_nil]
  · rw [same] at turnedOn
    refine ⟨by rw [turnedOn]; rfl, by rw [turnedOn]; rfl, ?_, after⟩
    rw [turnedOn, ← same]
    rfl

theorem firstFrame_kernelOk (config : HeyuInfo) (frame : Frame) (later : List Frame) :
    FirstFrame KernelOk config now frame later := by
  refine ⟨trivial, fun c idle _ => idle.recvFits (Nat.le_refl 4), fun c holding _ => ?_⟩
  have target : wire.target (frame.bytes.take 4) = frame.bytes.length :=
    Layout.target_of_begun frame.framed (List.take_prefix 4 _) (Nat.le_refl 4)
  apply holding.recvFits
  rw [target, frame.bytes_length]
  show 4 + frame.payload.length ≤ _
  omega

/-- A configuration with the default threshold, 26.1 V, and time. -/
def battery : HeyuInfo where
  belowLowVoltageOn tenths := decide (tenths < 261)
  millisOn := 4 * 60 * 60 * 1000
  chargerExe := "heyu".toUTF8.toList
  chargerHU := "A2".toUTF8.toList
  connectSocket := "/tmp/tty_reader.socket".toUTF8.toList

/-- A battery message with 20.0 V in its second register. -/
def lowFrame : Frame := ⟨0, [0, 0, 9, 0, 0, 1, 10, 0, 50, 0, 200, 0], by decide, by decide⟩

section LowFrame

variable (lib : ParseLib) {allowed : Daemon → Input → Prop}

theorem lowFrame_turns_on (known : FirstFrame allowed battery 0 lowFrame []) :
    Runs.Admits (Daemon.step lib) allowed (Daemon.initial battery) (firstFrame 0 lowFrame []) ∧
      ∃ c, (Daemon.initial battery).run lib (firstFrame 0 lowFrame []) = ⟨c, .loop⟩ ∧
        On battery 0 c := by
  have report : reportOf lowFrame.payload = .volts 200 := rfl
  exact firstFrame_turns_on lib rfl report rfl (by decide) (by decide) known

/-- What follows it starts from a charger that is on. -/
theorem lowFrame_then {rest : List Input} (known : FirstFrame allowed battery 0 lowFrame [])
    (after : ∀ c, On battery 0 c → Runs.Admits (Daemon.step lib) allowed ⟨c, .loop⟩ rest) :
    Runs.Admits (Daemon.step lib) allowed (Daemon.initial battery)
      (firstFrame 0 lowFrame [] ++ rest) := by
  obtain ⟨admitted, c, ran, on⟩ := lowFrame_turns_on lib known
  rw [Runs.admits_append]
  refine ⟨admitted, ?_⟩
  have reached : Runs.exec (Daemon.step lib) (Daemon.initial battery) (firstFrame 0 lowFrame []) =
      ⟨c, .loop⟩ := ran
  rw [reached]
  exact after c on

theorem lowFrame_kernelOk {rest : List Input}
    (after : ∀ c, On battery 0 c → Runs.Admits (Daemon.step lib) KernelOk ⟨c, .loop⟩ rest) :
    Runs.Admits (Daemon.step lib) KernelOk (Daemon.initial battery)
      (firstFrame 0 lowFrame [] ++ rest) :=
  lowFrame_then lib (firstFrame_kernelOk battery lowFrame []) after

theorem lowFrame_run (rest : List Input) :
    ∃ c, On battery 0 c ∧ (Daemon.initial battery).run lib (firstFrame 0 lowFrame [] ++ rest) =
      Daemon.run lib ⟨c, .loop⟩ rest := by
  obtain ⟨_, c, ran, on⟩ := lowFrame_turns_on lib (firstFrame_kernelOk battery lowFrame [])
  refine ⟨c, on, ?_⟩
  have reached : Runs.exec (Daemon.step lib) (Daemon.initial battery) (firstFrame 0 lowFrame []) =
      ⟨c, .loop⟩ := ran
  unfold Daemon.run
  rw [Runs.exec_append, reached]

end LowFrame

end RenogyX10.Heyu
