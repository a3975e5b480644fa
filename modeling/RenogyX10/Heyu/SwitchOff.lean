import RenogyX10.Heyu.TurnOn

set_option autoImplicit false

namespace RenogyX10.Heyu

open Checked Csck Parse Proc

/-- An on command has succeeded, and every off command since then has failed. The
trace is newest first. -/
def Standing : List Event → Prop
  | [] => False
  | .child _ .on _ result :: older => result = .exited 0 ∨ Standing older
  | .child _ .off _ result :: older => result ≠ .exited 0 ∧ Standing older
  | _ :: older => Standing older

theorem standing_of_head {trace : List Event} {exe hu : List UInt8}
    (newest : trace.head? = some (.child exe .on hu (.exited 0))) : Standing trace := by
  cases trace with
  | nil => cases newest
  | cons event older =>
      obtain rfl := Option.some.inj newest
      exact .inl rfl

/-- The last command and how it ended. -/
def lastResult : List Event → Option (Command × ChildResult)
  | [] => none
  | .child _ command _ result :: _ => some (command, result)
  | _ :: older => lastResult older

/-- A charger that stands on is not forgotten. -/
def Recorded (h : Client) : Prop := Standing h.trace → h.state = .charging

/-- From charging the state goes back only by an off command that succeeded. -/
def SwitchesBack (before after : Client) : Prop :=
  before.state = .charging → after.state = .lookingForLow →
    lastResult after.trace = some (.off, .exited 0)

/-- The end of the charging time, if the charger is on at the end of a pass that
starts in this state. -/
def Client.offTime (now : Int) (h : Client) : Int :=
  match h.state with
  | .charging => h.chargerOffTime
  | .lookingForLow => now + h.config.millisOn

/-- An off command at the end of a pass succeeds, when the charging time is over. -/
def OffSucceeds (d : Daemon) : Input → Prop
  | .loop io => d.sys.host.offTime io.msg.now ≤ io.later → io.off.result = .exited 0
  | _ => True

/-- Before the end of a pass: nothing has been switched back. -/
structure Kept (before : Client) (now : Int) (h : Client) : Prop where
  recorded : Recorded h
  stays : before.state = .charging → h.state = .charging
  time : h.state = .charging → h.chargerOffTime = before.offTime now
  config : h.config = before.config

/-- At its end. -/
structure Settled (before h : Client) : Prop where
  recorded : Recorded h
  back : SwitchesBack before h

variable {before h : Client} {now : Int}

theorem Recorded.of_charging (charging : h.state = .charging) : Recorded h := fun _ => charging

theorem Kept.refl (recorded : Recorded h) (now : Int) : Kept h now h := by
  refine ⟨recorded, fun charging => charging, fun charging => ?_, rfl⟩
  rw [Client.offTime, charging]

theorem Settled.of_charging (charging : h.state = .charging) : Settled before h := by
  refine ⟨.of_charging charging, fun _ low => ?_⟩
  rw [charging] at low
  cases low

theorem Kept.settled (kept : Kept before now h) : Settled before h := by
  refine ⟨kept.recorded, fun was low => ?_⟩
  rw [kept.stays was] at low
  cases low

theorem Kept.emit (kept : Kept before now h) (event : Event)
    (quiet : Standing (event :: h.trace) = Standing h.trace) : Kept before now (h.emit event) := by
  refine ⟨fun stands => ?_, kept.stays, kept.time, kept.config⟩
  rw [Client.emit_trace, quiet] at stands
  exact kept.recorded stands

theorem Settled.off : Settled before (h.child .off (.exited 0)) := by
  refine ⟨fun stands => ?_, fun _ _ => rfl⟩
  have failed : ChildResult.exited 0 ≠ .exited 0 := stands.1
  exact absurd rfl failed

theorem processVolts_kept {io : MsgIo} (tenths : UInt16) (kept : Kept before io.now h) :
    (processVolts io tenths h).Meets (Kept before io.now) (Settled before) (Settled before) := by
  apply processVolts_meets kept kept.settled
  · exact fun _ => .of_charging rfl
  · intro low _
    have was : before.state = .lookingForLow := by
      cases state : before.state with
      | lookingForLow => rfl
      | charging =>
          have charging := kept.stays state
          rw [low] at charging
          cases charging
    have on : Kept before io.now ((setOffTime (io.now + h.config.millisOn)
        (startCharging io.now h)).child .on io.child.result) := by
      refine ⟨.of_charging rfl, fun _ => rfl, fun _ => ?_, kept.config⟩
      show io.now + h.config.millisOn = before.offTime io.now
      rw [kept.config, Client.offTime, was]
    exact runCharger_meets (fun _ _ => on) (fun _ => on.settled) fun _ => on.settled

theorem csckCanRecv_kept (lib : ParseLib) {io : LoopIo} {c : Sys} (bounds : InBounds c)
    (fits : RecvFits c io.recv) (kept : Kept before io.msg.now c.host) :
    (csckCanRecv lib io.msg io.recv c).Meets
      (fun t => InBounds t ∧ Kept before io.msg.now t.host)
      (fun t => InBounds t ∧ Settled before t.host) fun t => Settled before t.host := by
  have received := kept.emit (.recv (io.recv.getD [])) rfl
  apply csckCanRecv_meets lib bounds fits received received.settled
  intro s
  have noted := received.emit (.msg s.rem) rfl
  exact processMsg_meets lib noted noted.settled fun tenths _ => processVolts_kept tenths noted

theorem checkOffTime_settled {io : LoopIo} (kept : Kept before io.msg.now h)
    (succeeds : before.offTime io.msg.now ≤ io.later → io.off.result = .exited 0) :
    (checkOffTime io.later io.off h).Meets (Settled before) (Settled before) (Settled before) := by
  apply checkOffTime_meets kept.settled kept.settled
  intro charging due
  rw [kept.time charging] at due
  have off : Settled before ((h.setState .lookingForLow).child .off io.off.result) := by
    rw [succeeds due]
    exact Settled.off
  exact runCharger_meets (fun _ _ => off) (fun _ => off) fun _ => off

theorem mainLoop_settled (lib : ParseLib) {io : LoopIo} {c : Sys} (bounds : InBounds c)
    (recorded : Recorded c.host) (fits : RecvFits c io.recv)
    (succeeds : c.host.offTime io.msg.now ≤ io.later → io.off.result = .exited 0) :
    (mainLoop lib io c).Meets (fun t => InBounds t ∧ Settled c.host t.host)
      (fun t => InBounds t ∧ Settled c.host t.host) fun t => Settled c.host t.host := by
  have kept : Kept c.host io.msg.now c.host := .refl recorded _
  apply mainLoop_meets lib
    (fun t => InBounds t ∧ RecvFits t io.recv ∧ Kept c.host io.msg.now t.host)
    (fun t => InBounds t ∧ Kept c.host io.msg.now t.host)
  · exact ⟨bounds, kept.settled⟩
  · intro _
    apply meets_focus
    have noted (time : Int) : Kept c.host io.msg.now (c.host.emit (.cast time)) :=
      kept.emit _ rfl
    apply pollTimeout_meets
    · exact fun _ => ⟨bounds, fits, kept⟩
    · exact fun _ => ⟨⟨bounds.withHost _, fits, noted _⟩, bounds.withHost _, (noted _).settled⟩
    · exact fun _ _ => (noted _).settled
  · exact fun t ⟨bounds, _, kept⟩ => ⟨⟨bounds, kept.settled⟩, ⟨bounds, kept.settled⟩, bounds, kept⟩
  · intro t ⟨bounds, _, kept⟩ _
    apply bounds.onHost
    apply reloadConfig_meets kept.settled kept.settled
    · exact fun _ => ⟨⟨kept.recorded, kept.settled.back⟩, kept.recorded, kept.settled.back⟩
    · exact fun _ => kept.settled
  · exact fun t ⟨bounds, fits, kept⟩ _ => csckCanRecv_kept lib bounds fits kept
  · exact fun t ⟨bounds, kept⟩ => bounds.onHost (checkOffTime_settled kept succeeds)

/-- What holds before every step. -/
structure Recording (d : Daemon) : Prop where
  bounds : d.ctl ≠ .stopped → InBounds d.sys
  recorded : Recorded d.sys.host

/-- What a step establishes. -/
structure Advanced (before : Client) (d : Daemon) : Prop where
  bounds : d.ctl ≠ .stopped → InBounds d.sys
  settled : Settled before d.sys.host

theorem Advanced.running {d : Daemon} (bounds : InBounds d.sys)
    (settled : Settled before d.sys.host) : Advanced before d := ⟨fun _ => bounds, settled⟩

theorem Advanced.stopped {c : Sys} (settled : Settled before c.host) :
    Advanced before ⟨c, .stopped⟩ := ⟨fun going => absurd rfl going, settled⟩

theorem step_settled (lib : ParseLib) (d : Daemon) (input : Input) (kernel : KernelOk d input)
    (succeeds : OffSucceeds d input) (recording : Recording d) :
    Advanced d.sys.host (d.step lib input) := by
  have kept : Kept d.sys.host 0 d.sys.host := .refl recording.recorded 0
  apply Daemon.step_rule lib
  · exact ⟨recording.bounds, kept.settled⟩
  · rintro io rfl connecting
    have bounds := recording.bounds (by rw [connecting]; decide)
    have noted := kept.emit (.connect d.sys.host.config.connectSocket io.stream) rfl
    apply meets_focus
    apply start_meets
    · exact fun _ => .stopped kept.settled
    · exact fun _ => .running (bounds.withHost _) noted.settled
  · rintro io rfl looping
    have bounds := recording.bounds (by rw [looping]; decide)
    apply meets_mono (mainLoop_settled lib bounds recording.recorded kernel succeeds)
    · exact fun _ holds => ⟨.running holds.1 holds.2, .running holds.1 holds.2⟩
    · exact fun _ holds => ⟨fun _ => .running holds.1 holds.2, .running holds.1 holds.2⟩
    · exact fun _ holds => .stopped holds
  · rintro logged rfl reporting
    have bounds := recording.bounds (by rw [reporting]; decide)
    exact .running bounds kept.settled
  · rintro io rfl finishing
    apply meets_focus
    apply turnOffAtExit_meets
    · exact fun _ => .stopped kept.settled
    · intro charging
      -- the state is left as it is, whatever becomes of the command
      have off (result : ChildResult) : Settled d.sys.host (d.sys.host.child .off result) :=
        .of_charging charging
      exact runCharger_meets (fun _ _ => .stopped (off _)) (fun _ => .stopped (off _))
        fun _ => .stopped (off _)

/-- In every run in which the off commands of `main_loop` succeed, a charger that
stands on is recorded, and the next step forgets it only if it turned it off. -/
theorem switch_off_recorded (lib : ParseLib) (config : HeyuInfo) (inputs : List Input)
    (kernel : Runs.Admits (Daemon.step lib) KernelOk (Daemon.initial config) inputs)
    (succeed : Runs.Admits (Daemon.step lib) OffSucceeds (Daemon.initial config) inputs) :
    Recorded ((Daemon.initial config).run lib inputs).sys.host ∧
      ∀ input, KernelOk ((Daemon.initial config).run lib inputs) input →
        OffSucceeds ((Daemon.initial config).run lib inputs) input →
        SwitchesBack ((Daemon.initial config).run lib inputs).sys.host
          (((Daemon.initial config).run lib inputs).step lib input).sys.host := by
  have start : Recording (Daemon.initial config) :=
    ⟨fun _ => initial_inBounds config, fun stands => absurd stands id⟩
  have recording : Recording ((Daemon.initial config).run lib inputs) := by
    apply Runs.exec_keeps ?_ (kernel.and succeed) start
    intro d input allowed recording
    obtain ⟨bounds, settled⟩ := step_settled lib d input allowed.1 allowed.2 recording
    exact ⟨bounds, settled.recorded⟩
  refine ⟨recording.recorded, fun input kernel succeeds => ?_⟩
  exact (step_settled lib _ input kernel succeeds recording).settled.back

/-- The pass at the end of the charging time. -/
def overPass (off : ChildIo) : LoopIo := { quietPass battery.millisOn .timeout with off := off }

/-- The charger is turned on at 20.0 V and off four hours later. -/
def cycle : List Input := firstFrame 0 lowFrame [] ++ [.loop (overPass ⟨.exited 0, fun _ => true⟩)]

theorem switch_off_recorded_cycle :
    Recorded ((Daemon.initial battery).run reference cycle).sys.host ∧
      ∀ input, KernelOk ((Daemon.initial battery).run reference cycle) input →
        OffSucceeds ((Daemon.initial battery).run reference cycle) input →
        SwitchesBack ((Daemon.initial battery).run reference cycle).sys.host
          (((Daemon.initial battery).run reference cycle).step reference input).sys.host := by
  apply switch_off_recorded
  · exact lowFrame_kernelOk reference fun c _ => ⟨trivial, trivial⟩
  · exact lowFrame_then reference ⟨trivial, fun _ _ _ _ => rfl, fun _ _ _ _ => rfl⟩
      fun c _ => ⟨fun _ => rfl, trivial⟩

def spawnFails : ChildIo := ⟨.spawnFailed, fun _ => true⟩

/-- At the end of the charging time the off command cannot be started. -/
def forgotten : List Input :=
  firstFrame 0 lowFrame [] ++
    [.loop (overPass spawnFails), .report true, .finish ⟨.exited 0, fun _ => true⟩]

/-- The process after that pass. -/
def abandoned (c : Sys) : Sys :=
  { c with
    host := ((noteCast battery.millisOn c).host.setState .lookingForLow).child .off .spawnFailed }

/-- The state forgets the charger, and the error ends the loop. -/
theorem step_off_fails (lib : ParseLib) {c : Sys} (on : On battery 0 c) :
    Daemon.step lib ⟨c, .loop⟩ (.loop (overPass spawnFails)) = ⟨abandoned c, .report⟩ := by
  have inRange : FitsI32 (c.host.chargerOffTime - battery.millisOn) := by
    rw [on.offTime]
    decide
  have due : (noteCast battery.millisOn c).host.state = .charging ∧
      (noteCast battery.millisOn c).host.chargerOffTime ≤ battery.millisOn :=
    ⟨on.state, Int.le_of_eq (on.offTime.trans (Int.zero_add _))⟩
  have off : checkOffTime battery.millisOn spawnFails (noteCast battery.millisOn c).host =
      .error .spawnFailed (abandoned c).host := by
    unfold checkOffTime
    simp only [read_bind, id_eq]
    rw [when_true _ due]
    rfl
  have ran : mainLoop lib (overPass spawnFails) c = .error .spawnFailed (abandoned c) := by
    obtain ⟨timeout, polled⟩ := pollTimeout_charging on.state inRange
    unfold mainLoop
    apply (bind_of_ok polled).trans
    apply bind_of_error
    show onHost (checkOffTime battery.millisOn spawnFails) (noteCast battery.millisOn c) = _
    rw [onHost, focus_run, off]
    rfl
  unfold Daemon.step
  dsimp only
  rw [ran]
  rfl

/-- `main` ends with the charger on, and does not try to turn it off again. -/
theorem switch_off_forgotten :
    Runs.Admits (Daemon.step reference) KernelOk (Daemon.initial battery) forgotten ∧
      ((Daemon.initial battery).run reference forgotten).ctl = .stopped ∧
      ¬ Recorded ((Daemon.initial battery).run reference forgotten).sys.host := by
  refine ⟨lowFrame_kernelOk reference fun c on => ?_, ?_⟩
  · refine ⟨trivial, ?_⟩
    rw [step_off_fails reference on]
    exact ⟨trivial, trivial, trivial⟩
  · obtain ⟨c, on, ran⟩ := lowFrame_run reference
      [.loop (overPass spawnFails), .report true, .finish ⟨.exited 0, fun _ => true⟩]
    have last : (Daemon.initial battery).run reference forgotten = ⟨abandoned c, .stopped⟩ := by
      unfold forgotten
      rw [ran, Daemon.run, Runs.exec_cons, step_off_fails reference on]
      rfl
    have stood : Standing c.host.trace := standing_of_head on.command
    have stands : Standing (abandoned c).host.trace := ⟨nofun, stood⟩
    rw [last]
    refine ⟨rfl, fun recorded => ?_⟩
    have charging : State.lookingForLow = .charging := recorded stands
    cases charging

end RenogyX10.Heyu
