import RenogyX10.Heyu.TurnOn

set_option autoImplicit false

namespace RenogyX10.Heyu

open Checked Csck Parse Proc

/-- The last charger command that was attempted, in a trace that is newest first. -/
def lastCommand : List Event → Option Command
  | [] => none
  | .child _ command _ _ :: _ => some command
  | _ :: older => lastCommand older

theorem lastCommand_of_head {trace : List Event} {exe hu : List UInt8} {command : Command}
    {result : ChildResult} (newest : trace.head? = some (.child exe command hu result)) :
    lastCommand trace = some command := by
  cases trace with
  | nil => cases newest
  | cons event older =>
      obtain rfl := Option.some.inj newest
      rfl

/-- The last command, if any, turned the charger off. -/
def TurnedOff (h : Client) : Prop := lastCommand h.trace ≠ some .on

instance (h : Client) : Decidable (TurnedOff h) := inferInstanceAs (Decidable (¬ _))

/-- The charger is off when `main` has ended. -/
def OffAtExit (d : Daemon) : Prop := d.ctl = .stopped → TurnedOff d.sys.host

instance (d : Daemon) : Decidable (OffAtExit d) := inferInstanceAs (Decidable (_ → _))

/-- No exit that passes the end of `main` by is taken while the charger is on. -/
def ExitSafe (d : Daemon) : Input → Prop
  | .start io => d.sys.host.state = .charging → io.connects = true
  | .loop io =>
      match d.sys.host.state with
      | .charging =>
          (io.logln .top = true → FitsI32 (d.sys.host.chargerOffTime - io.now)) ∧
            (io.poll.hups = true → io.setup ≠ .panic)
      | .lookingForLow => io.poll.receives = true → io.msg.child.result ≠ .killed
  | .report logged => d.sys.host.state = .charging → logged = true
  | .finish _ => True

/-- Whenever the charger was turned on last, the state says so. -/
def Believed (h : Client) : Prop := lastCommand h.trace = some .on → h.state = .charging

/-- What holds before every step: `main` has ended with the charger off, or it
knows that the charger is on. -/
def Guarded (d : Daemon) : Prop :=
  match d.ctl with
  | .stopped => TurnedOff d.sys.host
  | _ => InBounds d.sys ∧ Believed d.sys.host

theorem Guarded.open {d : Daemon} (guarded : Guarded d) (running : d.ctl ≠ .stopped) :
    InBounds d.sys ∧ Believed d.sys.host := by
  obtain ⟨sys, ctl⟩ := d
  cases ctl with
  | stopped => exact absurd rfl running
  | connect | loop | report | finish => exact guarded

variable {h : Client}

theorem Believed.of_charging (charging : h.state = .charging) : Believed h := fun _ => charging

theorem Believed.off (believed : Believed h) (idle : h.state ≠ .charging) :
    TurnedOff h := fun on => idle (believed on)

theorem TurnedOff.believed (off : TurnedOff h) : Believed h := fun on => absurd on off

theorem Believed.emit (believed : Believed h) (event : Event)
    (quiet : lastCommand (event :: h.trace) = lastCommand h.trace) : Believed (h.emit event) := by
  intro on
  rw [Client.emit_trace, quiet] at on
  exact believed on

theorem TurnedOff.child (result : ChildResult) : TurnedOff (h.child .off result) := by
  show some Command.off ≠ some .on
  decide

theorem chargerOff_believed (io : ChildIo) :
    (chargerOff io h).Meets Believed Believed TurnedOff :=
  runCharger_meets (fun _ _ => (TurnedOff.child _).believed) (fun _ => (TurnedOff.child _).believed)
    fun _ => .child _

theorem processVolts_believed {io : MsgIo} (tenths : UInt16) (believed : Believed h)
    (survives : h.state = .lookingForLow → io.child.result ≠ .killed) :
    (processVolts io tenths h).Meets Believed Believed TurnedOff := by
  apply processVolts_meets believed believed
  · intro low
    have idle : h.state ≠ .charging := by
      rw [low]
      decide
    exact believed.off idle
  · intro low _
    exact runCharger_meets (fun _ _ => .of_charging rfl) (fun _ => .of_charging rfl)
      fun killed => absurd killed (survives low)

theorem csckCanRecv_believed (lib : ParseLib) {io : LoopIo} {c : Sys}
    (survives : c.host.state = .lookingForLow → io.msg.child.result ≠ .killed)
    (bounds : InBounds c) (fits : RecvFits c io.recv) (believed : Believed c.host) :
    (csckCanRecv lib io.msg io.recv c).Meets (fun t => InBounds t ∧ Believed t.host)
      (fun t => InBounds t ∧ Believed t.host) fun t => TurnedOff t.host := by
  have received := believed.emit (.recv (io.recv.getD [])) rfl
  apply csckCanRecv_meets lib bounds fits received received
  intro s
  have noted := received.emit (.msg s.rem) rfl
  exact processMsg_meets lib noted noted fun tenths _ => processVolts_believed tenths noted survives

/-- One pass of the loop ends with a charger that is off, or known to be on. -/
theorem mainLoop_believed (lib : ParseLib) {io : LoopIo} {c : Sys} (bounds : InBounds c)
    (believed : Believed c.host) (fits : RecvFits c io.recv)
    (inRange : c.host.state = .charging → io.logln .top = true →
      FitsI32 (c.host.chargerOffTime - io.now))
    (loads : c.host.state = .charging → io.poll.hups = true → io.setup ≠ .panic)
    (survives : c.host.state = .lookingForLow → io.poll.receives = true →
      io.msg.child.result ≠ .killed) :
    (mainLoop lib io c).Meets (fun t => InBounds t ∧ Believed t.host)
      (fun t => InBounds t ∧ Believed t.host) fun t => TurnedOff t.host := by
  apply mainLoop_meets lib
    (fun t => InBounds t ∧ RecvFits t io.recv ∧ Believed t.host ∧ t.host.state = c.host.state)
    (fun t => InBounds t ∧ Believed t.host)
  · exact ⟨bounds, believed⟩
  · intro logged
    apply meets_focus
    have noted (time : Int) : Believed (c.host.emit (.cast time)) := believed.emit _ rfl
    apply pollTimeout_meets
    · exact fun _ => ⟨bounds, fits, believed, rfl⟩
    · exact fun _ => ⟨⟨bounds.withHost _, fits, noted _, rfl⟩, bounds.withHost _, noted _⟩
    · exact fun charging outside => absurd (inRange charging logged) outside
  · exact fun t ⟨bounds, _, believed, _⟩ => ⟨⟨bounds, believed⟩, ⟨bounds, believed⟩, bounds, believed⟩
  · intro t ⟨bounds, _, believed, same⟩ hups
    apply bounds.onHost
    apply reloadConfig_meets believed believed
    · exact fun _ => ⟨believed, believed⟩
    · intro panic
      apply believed.off
      intro charging
      exact loads (same.symm.trans charging) hups panic
  · intro t ⟨bounds, fits, believed, same⟩ receives
    apply csckCanRecv_believed lib (fun low => survives (same.symm.trans low) receives) bounds fits
      believed
  · intro t ⟨bounds, believed⟩
    exact bounds.onHost
      (checkOffTime_meets believed believed fun _ _ => chargerOff_believed io.off)

theorem step_guarded (lib : ParseLib) (d : Daemon) (input : Input)
    (allowed : KernelOk d input ∧ ExitSafe d input) (guarded : Guarded d) :
    Guarded (d.step lib input) := by
  obtain ⟨kernel, safe⟩ := allowed
  apply Daemon.step_rule lib guarded
  · rintro io rfl connecting
    obtain ⟨bounds, believed⟩ := guarded.open (by rw [connecting]; decide)
    apply meets_focus
    apply start_meets
    · intro failed
      apply believed.off
      intro charging
      rw [safe charging] at failed
      cases failed
    · exact fun _ => ⟨bounds.withHost _, believed.emit _ rfl⟩
  · rintro io rfl looping
    obtain ⟨bounds, believed⟩ := guarded.open (by rw [looping]; decide)
    have charging (on : d.sys.host.state = .charging) :
        (io.logln .top = true → FitsI32 (d.sys.host.chargerOffTime - io.now)) ∧
          (io.poll.hups = true → io.setup ≠ .panic) := by
      unfold ExitSafe at safe
      rw [on] at safe
      exact safe
    have survives (low : d.sys.host.state = .lookingForLow) :
        io.poll.receives = true → io.msg.child.result ≠ .killed := by
      unfold ExitSafe at safe
      rw [low] at safe
      exact safe
    apply meets_mono (mainLoop_believed lib bounds believed kernel (fun on => (charging on).1)
      (fun on => (charging on).2) survives)
    · exact fun _ holds => ⟨holds, holds⟩
    · exact fun _ holds => ⟨fun _ => holds, holds⟩
    · exact fun _ holds => holds
  · rintro logged rfl reporting
    obtain ⟨bounds, believed⟩ := guarded.open (by rw [reporting]; decide)
    cases logged with
    | true => exact ⟨bounds, believed⟩
    | false =>
        apply believed.off
        intro charging
        cases safe charging
  · rintro io rfl finishing
    obtain ⟨_, believed⟩ := guarded.open (by rw [finishing]; decide)
    apply meets_focus
    apply turnOffAtExit_meets
    · exact fun idle => believed.off idle
    · exact fun _ => runCharger_meets (fun _ _ => .child _) (fun _ => .child _) fun _ => .child _

/-- In every run in which no step passes the end of `main` by while the charger is
on, the charger is off when `main` has ended. -/
theorem charger_off_at_exit (lib : ParseLib) (config : HeyuInfo) (inputs : List Input)
    (kernel : Runs.Admits (Daemon.step lib) KernelOk (Daemon.initial config) inputs)
    (safe : Runs.Admits (Daemon.step lib) ExitSafe (Daemon.initial config) inputs) :
    OffAtExit ((Daemon.initial config).run lib inputs) := by
  have start : Guarded (Daemon.initial config) :=
    ⟨initial_inBounds config, fun on => by cases on⟩
  have guarded : Guarded ((Daemon.initial config).run lib inputs) :=
    Runs.exec_keeps (step_guarded lib) (kernel.and safe) start
  intro stopped
  unfold Guarded at guarded
  rw [stopped] at guarded
  exact guarded

/-- The process is told to end while the charger is on. -/
def terminated : List Input :=
  firstFrame 0 lowFrame [] ++
    [.loop (quietPass 1000 (.ready true false false)), .finish ⟨.exited 0, fun _ => true⟩]

theorem charger_off_at_exit_terminated :
    TurnedOff ((Daemon.initial battery).run reference terminated).sys.host := by
  apply charger_off_at_exit reference battery terminated
  · exact lowFrame_kernelOk reference fun c _ => ⟨trivial, trivial, trivial⟩
  · apply lowFrame_then reference
    · refine ⟨nofun, fun c _ host => ?_, fun c _ host => ?_⟩
      · unfold ExitSafe
        rw [host]
        exact nofun
      · unfold ExitSafe
        rw [host]
        exact nofun
    · intro c on
      have inRange : FitsI32 (c.host.chargerOffTime - 1000) := by
        rw [on.offTime]
        decide
      refine ⟨?_, trivial, trivial⟩
      unfold ExitSafe
      rw [on.state]
      exact ⟨fun _ => inRange, nofun⟩
  · obtain ⟨c, on, ran⟩ := lowFrame_run reference
      [.loop (quietPass 1000 (.ready true false false)), .finish ⟨.exited 0, fun _ => true⟩]
    have inRange : FitsI32 (c.host.chargerOffTime - 1000) := by
      rw [on.offTime]
      decide
    have ended : Daemon.step reference ⟨c, .loop⟩
        (.loop (quietPass 1000 (.ready true false false))) = ⟨noteCast 1000 c, .finish⟩ :=
      step_terminates on.state inRange
    unfold terminated
    rw [ran, Daemon.run, Runs.exec_cons, ended]
    rfl

def refused : StartIo := { connected [] with connect := false }

/-- The process is told to load its configuration again, and the publisher is gone. -/
def gone : List Input :=
  firstFrame 0 lowFrame [] ++
    [.loop (quietPass 1000 (.ready false true false)), .start refused]

theorem charger_left_on_gone :
    Runs.Admits (Daemon.step reference) KernelOk (Daemon.initial battery) gone ∧
      ¬ OffAtExit ((Daemon.initial battery).run reference gone) := by
  refine ⟨lowFrame_kernelOk reference fun c _ => ⟨trivial, trivial, trivial⟩, ?_⟩
  obtain ⟨c, on, ran⟩ := lowFrame_run reference
    [.loop (quietPass 1000 (.ready false true false)), .start refused]
  have inRange : FitsI32 (c.host.chargerOffTime - 1000) := by
    rw [on.offTime]
    decide
  have reloaded : Daemon.step reference ⟨c, .loop⟩
      (.loop (quietPass 1000 (.ready false true false))) = ⟨noteCast 1000 c, .connect⟩ :=
    step_reloads on.state inRange
  intro off
  unfold gone at off
  rw [ran, Daemon.run, Runs.exec_cons, reloaded] at off
  have last : lastCommand c.host.trace = some .on := lastCommand_of_head on.command
  exact off rfl last

end RenogyX10.Heyu
