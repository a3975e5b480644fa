import RenogyX10.Heyu.Charger

set_option autoImplicit false

namespace RenogyX10.Heyu

open Checked Csck Parse Proc

/-- What `setup_heyu_info` makes of the configuration file. -/
inductive SetupResult where
  | ok (config : HeyuInfo)
  | failed
  | panic

/-- The result of poll: which of the terminate, hup and connection descriptors
are readable. -/
inductive PollIo where
  | failed
  | timeout
  | ready (term hup csck : Bool)

def PollIo.hups : PollIo → Bool
  | .ready false true _ => true
  | _ => false

def PollIo.receives : PollIo → Bool
  | .ready false false true => true
  | _ => false

theorem PollIo.receives_of_hups {poll : PollIo} (hups : poll.hups = true) :
    poll.receives = false := by
  match poll with
  | .ready false true _ => rfl

/-- What the environment answers in one pass of the loop. -/
structure LoopIo where
  /-- the clock at the top of the pass -/
  now : Int
  poll : PollIo
  setup : SetupResult
  recv : Option (List UInt8)
  msg : MsgIo
  /-- the clock at the end of the pass -/
  later : Int
  off : ChildIo
  logln : LogSite → Bool

/-- `process_msg` works on a copy of the payload. -/
def deliver (lib : ParseLib) (io : MsgIo) (s : ParseT) : Act Unit := do
  Proc.guard io.created .outOfMemory
  processMsg lib io s

def processCsckIn (lib : ParseLib) (io : MsgIo) (recv : Option (List UInt8)) : SysAct Unit :=
  Csck.processCsckIn lib (deliver lib io) recv

/-- What recv returned, as an observer sees it. -/
def noteRecv (recv : Option (List UInt8)) (c : Sys) : Sys :=
  { c with host := c.host.emit (.recv (recv.getD [])) }

def csckCanRecv (lib : ParseLib) (io : MsgIo) (recv : Option (List UInt8)) : SysAct Unit := do
  Proc.modify (noteRecv recv)
  processCsckIn lib io recv

def Client.install (config : HeyuInfo) (h : Client) : Client := { h with config := config }

def reloadConfig (setup : SetupResult) (logln : LogSite → Bool) : Act Unit := do
  Proc.guard (logln .reloading) .logFailed
  match setup with
  | .ok config => do
      Proc.modify (Client.install config)
      Proc.guard (logln .reloaded) .logFailed
  | .failed => Proc.guard (logln .reloaded) .logFailed
  | .panic => Proc.abort

/-- The timeout that poll is given: while charging it must end at
`charger_off_time`. -/
def pollTimeout (now : Int) (logln : LogSite → Bool) : Act Int := do
  let h ← Proc.read id
  if h.state = .charging then do
    Proc.modify (Client.emit (.cast (h.chargerOffTime - now)))
    let timeout ← Proc.orAbort (intCastI32 (h.chargerOffTime - now))
    Proc.guard (logln .timeout) .logFailed
    pure (if timeout < 0 then 0 else timeout)
  else pure (-1)

/-- The end of the pass: the charger is turned off when its time is over. -/
def checkOffTime (later : Int) (off : ChildIo) : Act Unit := do
  let h ← Proc.read id
  Proc.when (h.state = .charging ∧ h.chargerOffTime ≤ later) do
    Proc.guard (off.logln .turningOff) .logFailed
    Proc.modify (Client.setState .lookingForLow)
    chargerOff off

/-- One pass of `main_loop`; `true` leaves the loop. -/
def mainLoop (lib : ParseLib) (io : LoopIo) : SysAct Bool := do
  Proc.guard (io.logln .top) .logFailed
  let _ ← onHost (pollTimeout io.now io.logln)
  match io.poll with
  | .failed => Proc.fail .pollFailed
  | .timeout => do
      onHost (checkOffTime io.later io.off)
      pure false
  | .ready term hup csck =>
      if term then do
        Proc.guard (io.logln .term) .logFailed
        pure true
      else if hup then do
        onHost (reloadConfig io.setup io.logln)
        Proc.fail .reload
      else do
        Proc.when csck (csckCanRecv lib io.msg io.recv)
        onHost (checkOffTime io.later io.off)
        pure false

/-- What the environment answers while `main` connects, and the frames that the
publisher sends on the new connection. -/
structure StartIo where
  initLog : Bool
  started : Bool
  address : Bool
  socket : Bool
  connect : Bool
  stream : List Frame

def StartIo.connects (io : StartIo) : Bool :=
  io.initLog && io.started && io.address && io.socket && io.connect

/-- From the top of the loop in `main` to its call of `main_loop`. -/
def start (io : StartIo) : Act Unit := do
  Proc.guard io.initLog .initLog
  Proc.guard io.started .logFailed
  Proc.guard io.address .addressFailed
  Proc.guard io.socket .socketFailed
  Proc.guard io.connect .connectFailed
  Proc.modify fun h => h.emit (.connect h.config.connectSocket io.stream)

def turnOffAtExit (io : ChildIo) : Act Unit := do
  let h ← Proc.read id
  Proc.when (h.state = .charging) (chargerOff io)

/-- Where `main` is: about to connect, in the loop, about to log the loop's error,
behind its own loop, or over. -/
inductive Ctl where
  | connect
  | loop
  | report
  | finish
  | stopped
deriving DecidableEq

inductive Input where
  | start (io : StartIo)
  | loop (io : LoopIo)
  | report (logged : Bool)
  | finish (io : ChildIo)

structure Daemon where
  sys : Sys
  ctl : Ctl

/-- Where an exit of `main_loop` leads `main`. -/
def afterLoop : Exit ClientError Sys Bool → Ctl
  | .ok false _ => .loop
  | .ok true _ => .finish
  | .error reason _ => if reason = .reload then .connect else .report
  | .panic _ => .stopped

/-- Where an exit before `main_loop` leads `main`: every error ends it. -/
def afterStart : Exit ClientError Sys Unit → Ctl
  | .ok _ _ => .loop
  | _ => .stopped

def Daemon.step (lib : ParseLib) (d : Daemon) (input : Input) : Daemon :=
  match d.ctl, input with
  | .connect, .start io =>
      let ended := onHost (start io) d.sys
      ⟨ended.state, afterStart ended⟩
  | .loop, .loop io =>
      let ended := mainLoop lib io d.sys
      ⟨ended.state, afterLoop ended⟩
  | .report, .report logged => { d with ctl := if logged then .finish else .stopped }
  | .finish, .finish io => ⟨(onHost (turnOffAtExit io) d.sys).state, .stopped⟩
  | _, _ => d

def Daemon.run (lib : ParseLib) (d : Daemon) (inputs : List Input) : Daemon :=
  Runs.exec (Daemon.step lib) d inputs

def Daemon.initial (config : HeyuInfo) : Daemon := ⟨Sys.initial config, .connect⟩

theorem initial_inBounds (config : HeyuInfo) : InBounds (Sys.initial config) := by
  refine ⟨List.length_replicate, Nat.zero_le 4, ?_⟩
  show 4 < insSize
  decide

/-- The kernel stores no more than recv is asked for. -/
def KernelOk (d : Daemon) : Input → Prop
  | .loop io => RecvFits d.sys io.recv
  | _ => True

instance (d : Daemon) : ∀ input, Decidable (KernelOk d input)
  | .start _ | .report _ | .finish _ => .isTrue trivial
  | .loop io => inferInstanceAs (Decidable (RecvFits d.sys io.recv))

section Rules

variable {good bad fallen : Client → Prop} {h : Client}

theorem pollTimeout_meets {now : Int} {logln : LogSite → Bool} (idle : h.state ≠ .charging → good h)
    (cast : h.state = .charging → good (h.emit (.cast (h.chargerOffTime - now))) ∧
      bad (h.emit (.cast (h.chargerOffTime - now))))
    (outside : h.state = .charging → ¬ FitsI32 (h.chargerOffTime - now) →
      fallen (h.emit (.cast (h.chargerOffTime - now)))) :
    (pollTimeout now logln h).Meets good bad fallen := by
  unfold pollTimeout
  simp only [read_bind, id_eq, ite_run]
  split
  · rename_i charging
    rw [modify_bind]
    by_cases fits : FitsI32 (h.chargerOffTime - now)
    · rw [intCastI32_of_fits fits]
      exact meets_guard_bind _ _ (cast charging).2 (cast charging).1
    · rw [intCastI32_of_not_fits fits]
      exact outside charging fits
  · rename_i low
    exact idle low

theorem checkOffTime_meets {later : Int} {off : ChildIo} (same : good h) (unlogged : bad h)
    (due : h.state = .charging → h.chargerOffTime ≤ later →
      (chargerOff off (h.setState .lookingForLow)).Meets good bad fallen) :
    (checkOffTime later off h).Meets good bad fallen := by
  unfold checkOffTime
  simp only [read_bind, id_eq]
  apply meets_when
  · intro expired
    exact meets_guard_bind _ _ unlogged (due expired.1 expired.2)
  · exact fun _ => same

theorem reloadConfig_meets {setup : SetupResult} {logln : LogSite → Bool} (same : good h)
    (failed : bad h) (installed : ∀ config, good (h.install config) ∧ bad (h.install config))
    (panic : setup = .panic → fallen h) :
    (reloadConfig setup logln h).Meets good bad fallen := by
  unfold reloadConfig
  apply meets_guard_bind _ _ failed
  cases setup with
  | ok config => exact meets_guard _ _ (installed config).1 (installed config).2
  | failed => exact meets_guard _ _ same failed
  | panic => exact panic rfl

theorem start_meets {io : StartIo} (failed : io.connects = false → bad h)
    (connected : io.connects = true →
      good (h.emit (.connect h.config.connectSocket io.stream))) :
    (start io h).Meets good bad fallen := by
  obtain ⟨initLog, started, address, socket, connect, stream⟩ := io
  cases initLog
  case false => exact failed rfl
  cases started
  case false => exact failed rfl
  cases address
  case false => exact failed rfl
  cases socket
  case false => exact failed rfl
  cases connect
  case false => exact failed rfl
  exact connected rfl

theorem turnOffAtExit_meets {io : ChildIo} (idle : h.state ≠ .charging → good h)
    (charging : h.state = .charging → (chargerOff io h).Meets good bad fallen) :
    (turnOffAtExit io h).Meets good bad fallen := by
  unfold turnOffAtExit
  simp only [read_bind, id_eq]
  exact meets_when charging idle

end Rules

section SysRules

variable {good bad fallen : Sys → Prop} {c : Sys}

theorem csckCanRecv_meets (lib : ParseLib) {io : MsgIo} {recv : Option (List UInt8)}
    {good bad fallen : Client → Prop} (bounds : InBounds c) (fits : RecvFits c recv)
    (same : good (c.host.emit (.recv (recv.getD []))))
    (failed : bad (c.host.emit (.recv (recv.getD []))))
    (msg : ∀ s, (processMsg lib io s (c.host.emit (.recv (recv.getD [])))).Meets
      good bad fallen) :
    (csckCanRecv lib io recv c).Meets (fun t => InBounds t ∧ good t.host)
      (fun t => InBounds t ∧ bad t.host) fun t => fallen t.host := by
  unfold csckCanRecv
  rw [modify_bind]
  have noted : InBounds (noteRecv recv c) := ⟨bounds.buffer, bounds.readed, bounds.toRead⟩
  apply InBounds.processCsckIn lib noted fits same failed
  intro s
  exact meets_guard_bind _ _ failed (msg s)

theorem mainLoop_meets (lib : ParseLib) {io : LoopIo} (polled received : Sys → Prop)
    (failed : bad c)
    (timeout : io.logln .top = true →
      (onHost (pollTimeout io.now io.logln) c).Meets polled bad fallen)
    (unchanged : ∀ t, polled t → good t ∧ bad t ∧ received t)
    (reload : ∀ t, polled t → io.poll.hups = true →
      (onHost (reloadConfig io.setup io.logln) t).Meets bad bad fallen)
    (receive : ∀ t, polled t → io.poll.receives = true →
      (csckCanRecv lib io.msg io.recv t).Meets received bad fallen)
    (off : ∀ t, received t → (onHost (checkOffTime io.later io.off) t).Meets good bad fallen) :
    (mainLoop lib io c).Meets good bad fallen := by
  have ending (t : Sys) (here : received t) : ((do
      onHost (checkOffTime io.later io.off)
      pure false : SysAct Bool) t).Meets good bad fallen :=
    meets_bind (off t here) fun _ _ holds => holds
  unfold mainLoop
  cases logged : io.logln .top
  case false => exact failed
  apply meets_bind (timeout logged)
  intro _ t here
  obtain ⟨isGood, isBad, skipped⟩ := unchanged t here
  cases poll : io.poll with
  | failed => exact isBad
  | timeout => exact ending t skipped
  | ready term hup csck =>
      cases term with
      | true => exact meets_guard_bind _ _ isBad isGood
      | false =>
          cases hup with
          | true =>
              have hups : io.poll.hups = true := by rw [poll]; rfl
              exact meets_bind (reload t here hups) fun _ _ holds => holds
          | false =>
              have served : (Proc.when csck (csckCanRecv lib io.msg io.recv) t).Meets
                  received bad fallen := by
                apply meets_when
                · intro readable
                  apply receive t here
                  rw [poll, readable]
                  rfl
                · exact fun _ => skipped
              exact meets_bind served fun _ u holds => ending u holds

end SysRules

section Avoids

theorem runCharger_avoids (command : Command) (site : LogSite) (io : ChildIo) :
    Avoids .reload (runCharger command site io) := by
  apply Avoids.bind (.modify _)
  intro _
  cases io.result with
  | spawnFailed => exact .fail (by decide)
  | killed => exact .abort
  | exited code => exact .guard _ (by decide)

theorem processMsg_avoids (lib : ParseLib) (io : MsgIo) (s : ParseT) :
    Avoids .reload (processMsg lib io s) := by
  intro h t
  rw [processMsg_run]
  cases reportOf s.rem with
  | short => exact Avoids.fail (by decide) _ _
  | other => exact Avoids.pure () _ _
  | volts tenths =>
      have turnsOn : Avoids .reload (processVolts io tenths) := by
        apply Avoids.bind (.read _)
        intro _
        apply Avoids.when
        apply Avoids.bind (.guard _ (by decide))
        intro _
        apply Avoids.bind (.modify _)
        intro _
        apply Avoids.bind (.orAbort _)
        intro _
        exact .bind (.modify _) fun _ => runCharger_avoids _ _ _
      exact turnsOn _ _

/-- Only a pass that reloads leaves the loop for a new connection. -/
theorem mainLoop_hups (lib : ParseLib) {io : LoopIo} {c t : Sys}
    (left : mainLoop lib io c = .error .reload t) : io.poll.hups = true := by
  by_contra stays
  have ending : Avoids .reload (do
      onHost (checkOffTime io.later io.off)
      pure false : SysAct Bool) := by
    have off : Avoids .reload (checkOffTime io.later io.off) := by
      apply Avoids.bind (.read _)
      intro _
      apply Avoids.when
      apply Avoids.bind (.guard _ (by decide))
      intro _
      exact .bind (.modify _) fun _ => runCharger_avoids _ _ _
    exact .bind (.focus off) fun _ => .pure false
  have polls : Avoids .reload (pollTimeout io.now io.logln) := by
    apply Avoids.bind (.read _)
    intro _
    apply Avoids.ite
    · apply Avoids.bind (.modify _)
      intro _
      apply Avoids.bind (.orAbort _)
      intro _
      exact .bind (.guard _ (by decide)) fun _ => .pure _
    · exact .pure _
  have receives : Avoids .reload (csckCanRecv lib io.msg io.recv) := by
    apply Avoids.bind (.modify _)
    intro _
    apply processCsckIn_avoids lib io.recv (by decide) (by decide) (by decide)
    exact fun s => .bind (.guard _ (by decide)) fun _ => processMsg_avoids lib io.msg s
  have avoids : Avoids .reload (mainLoop lib io) := by
    apply Avoids.bind (.guard _ (by decide))
    intro _
    apply Avoids.bind (.focus polls)
    intro _
    cases poll : io.poll with
    | failed => exact .fail (by decide)
    | timeout => exact ending
    | ready term hup csck =>
        cases term with
        | true => exact .bind (.guard _ (by decide)) fun _ => .pure true
        | false =>
            cases hup with
            | true => exact absurd (by rw [poll]; rfl) stays
            | false => exact .bind (.when receives) fun _ => ending
  exact avoids c t left

end Avoids

/-- What one step of `main` establishes, from the call that it makes. -/
theorem Daemon.step_rule (lib : ParseLib) {inv : Daemon → Prop} {d : Daemon} {input : Input}
    (holds : inv d)
    (start : ∀ io, input = .start io → d.ctl = .connect →
      (onHost (start io) d.sys).Meets (fun t => inv ⟨t, .loop⟩) (fun t => inv ⟨t, .stopped⟩)
        fun t => inv ⟨t, .stopped⟩)
    (loop : ∀ io, input = .loop io → d.ctl = .loop →
      (mainLoop lib io d.sys).Meets (fun t => inv ⟨t, .loop⟩ ∧ inv ⟨t, .finish⟩)
        (fun t => (io.poll.hups = true → inv ⟨t, .connect⟩) ∧ inv ⟨t, .report⟩)
        fun t => inv ⟨t, .stopped⟩)
    (report : ∀ logged, input = .report logged → d.ctl = .report →
      inv ⟨d.sys, if logged then .finish else .stopped⟩)
    (finish : ∀ io, input = .finish io → d.ctl = .finish →
      (onHost (turnOffAtExit io) d.sys).Meets (fun t => inv ⟨t, .stopped⟩)
        (fun t => inv ⟨t, .stopped⟩) fun t => inv ⟨t, .stopped⟩) :
    inv (d.step lib input) := by
  obtain ⟨sys, ctl⟩ := d
  cases ctl <;> cases input <;> try exact holds
  case connect.start io =>
      have meets := start io rfl rfl
      unfold Daemon.step
      dsimp only
      cases ended : onHost (Heyu.start io) sys <;> (rw [ended] at meets; exact meets)
  case loop.loop io =>
      have meets := loop io rfl rfl
      unfold Daemon.step
      dsimp only
      cases ended : mainLoop lib io sys with
      | ok done t =>
          rw [ended] at meets
          cases done
          · exact meets.1
          · exact meets.2
      | error reason t =>
          rw [ended] at meets
          unfold afterLoop
          dsimp only
          by_cases reload : reason = .reload
          · rw [if_pos reload]
            rw [reload] at ended
            exact meets.1 (mainLoop_hups lib ended)
          · rw [if_neg reload]
            exact meets.2
      | panic t =>
          rw [ended] at meets
          exact meets
  case report.report logged => exact report logged rfl rfl
  case finish.finish io => exact meets_state (finish io rfl rfl)

end RenogyX10.Heyu
