import RenogyX10.Heyu.TurnOn

set_option autoImplicit false

namespace RenogyX10.Heyu

open Checked Csck Parse Proc

/-- The commands of a trace that is newest first, in order. -/
def commandsOf : List Event → List Command
  | [] => []
  | .child _ command _ _ :: older => commandsOf older ++ [command]
  | _ :: older => commandsOf older

/-- A command that is attempted in a step, with the process before and after it. -/
structure Attempt where
  before : Client
  input : Input
  after : Client
  command : Command

/-- The commands that one step attempts. -/
def stepAttempts (lib : ParseLib) (d : Daemon) (input : Input) : List Attempt :=
  ((commandsOf (d.step lib input).sys.host.trace).drop (commandsOf d.sys.host.trace).length).map
    (Attempt.mk d.sys.host input (d.step lib input).sys.host)

/-- The commands that a run attempts, in order. -/
def attempts (lib : ParseLib) : Daemon → List Input → List Attempt
  | _, [] => []
  | d, input :: rest => stepAttempts lib d input ++ attempts lib (d.step lib input) rest

/-- The clock that `main_loop` has just read; behind it none is read. -/
def Attempt.time (attempt : Attempt) : Option Int :=
  match attempt.input, attempt.command with
  | .loop io, .on => some io.msg.now
  | .loop io, .off => some io.later
  | _, _ => none

/-- The newest command turned the charger on because of a low voltage. -/
def Triggering (before : Client) (trace : List Event) : Prop :=
  ∃ newer older exe hu result payload tenths,
    trace = newer ++ .child exe .on hu result :: .msg payload :: older ∧
    before.trace <:+ older ∧ reportOf payload = .volts tenths ∧
    before.config.belowLowVoltageOn tenths = true

/-- An on command follows an off command, if anything. It is run in a pass that
finds the process looking for a low voltage, directly behind a battery message
with such a voltage. -/
def OnFollows (last : Option Attempt) (attempt : Attempt) : Prop :=
  (∀ earlier ∈ last, earlier.command = .off) ∧ attempt.before.state = .lookingForLow ∧
    Triggering attempt.before attempt.after.trace

/-- An off command follows an on command, behind `main_loop` or when the time that
was in force at the on command has passed. -/
def OffFollows (last : Option Attempt) (attempt : Attempt) : Prop :=
  ∃ earlier ∈ last, earlier.command = .on ∧
    ((∃ io, attempt.input = .finish io) ∨
      ∃ on off, earlier.time = some on ∧ attempt.time = some off ∧
        on + earlier.before.config.millisOn ≤ off)

/-- The commands alternate, each for its reason. -/
def Follows : Option Attempt → List Attempt → Prop
  | _, [] => True
  | last, attempt :: rest =>
      (attempt.command = .on → OnFollows last attempt) ∧
        (attempt.command = .off → OffFollows last attempt) ∧ Follows (some attempt) rest

/-- The poll ends at once or no later than `charger_off_time`. -/
def PollsInTime (h : Client) : Prop :=
  ∀ now logln timeout t, h.state = .charging → pollTimeout now logln h = .ok timeout t →
    0 ≤ timeout ∧ (timeout = 0 ∨ now + timeout ≤ h.chargerOffTime)

theorem follows_append (last : Option Attempt) (front back : List Attempt) :
    Follows last (front ++ back) ↔ Follows last front ∧ Follows (front.getLast?.or last) back := by
  induction front generalizing last with
  | nil => simp [Follows]
  | cons attempt rest ih =>
      have newest : (attempt :: rest).getLast?.or last = rest.getLast?.or (some attempt) := by
        rw [List.getLast?_cons, Option.some_or]
        cases rest.getLast? <;> rfl
      rw [List.cons_append, Follows, ih, newest, Follows]
      simp only [and_assoc]

/-- What a pass has attempted, and how it leaves the process. -/
inductive Pass (before : Client) (io : LoopIo) : List Command → Client → Prop
  | quiet {h : Client} (state : h.state = before.state)
      (time : h.chargerOffTime = before.chargerOffTime) : Pass before io [] h
  | on {h : Client} (low : before.state = .lookingForLow) (trigger : Triggering before h.trace)
      (charging : h.state = .charging)
      (time : h.chargerOffTime = io.msg.now + before.config.millisOn) : Pass before io [.on] h
  | off {h : Client} (charging : before.state = .charging)
      (due : before.chargerOffTime ≤ io.later) (state : h.state = .lookingForLow) :
      Pass before io [.off] h
  | onOff {h : Client} (low : before.state = .lookingForLow)
      (trigger : Triggering before h.trace)
      (due : io.msg.now + before.config.millisOn ≤ io.later) (state : h.state = .lookingForLow) :
      Pass before io [.on, .off] h

/-- The pass is over, or ends here. -/
def Passed (before : Client) (io : LoopIo) (h : Client) : Prop :=
  ∃ commands, commandsOf h.trace = commandsOf before.trace ++ commands ∧ Pass before io commands h

/-- The process has aborted, at the latest in the last command. -/
def Aborted (before : Client) (io : LoopIo) (h : Client) : Prop :=
  commandsOf h.trace = commandsOf before.trace ∨ Passed before io h

structure Waiting (before h : Client) : Prop where
  state : h.state = before.state
  time : h.chargerOffTime = before.chargerOffTime
  config : h.config = before.config
  commands : commandsOf h.trace = commandsOf before.trace
  trace : before.trace <:+ h.trace

/-- The charger has just been turned on. -/
structure Started (before : Client) (io : LoopIo) (h : Client) : Prop where
  low : before.state = .lookingForLow
  charging : h.state = .charging
  time : h.chargerOffTime = io.msg.now + before.config.millisOn
  commands : commandsOf h.trace = commandsOf before.trace ++ [.on]
  trigger : Triggering before h.trace

def Mid (before : Client) (io : LoopIo) (h : Client) : Prop := Waiting before h ∨ Started before io h

variable {before h : Client} {io : LoopIo}

theorem Waiting.refl (h : Client) : Waiting h h := ⟨rfl, rfl, rfl, rfl, List.suffix_rfl⟩

theorem Waiting.emit (waiting : Waiting before h) (event : Event)
    (quiet : commandsOf (event :: h.trace) = commandsOf h.trace) : Waiting before (h.emit event) :=
  ⟨waiting.state, waiting.time, waiting.config, quiet.trans waiting.commands,
    waiting.trace.trans (List.suffix_cons _ _)⟩

theorem Waiting.passed (waiting : Waiting before h) (io : LoopIo) : Passed before io h :=
  ⟨[], by rw [waiting.commands, List.append_nil], .quiet waiting.state waiting.time⟩

theorem Started.passed (started : Started before io h) : Passed before io h :=
  ⟨[.on], started.commands, .on started.low started.trigger started.charging started.time⟩

theorem commandsOf_child (h : Client) (command : Command) (result : ChildResult) :
    commandsOf (h.child command result).trace = commandsOf h.trace ++ [command] := rfl

theorem processVolts_started {payload : List UInt8} {tenths : UInt16}
    (waiting : Waiting before h) (report : reportOf payload = .volts tenths) :
    (processVolts io.msg tenths (h.emit (.msg payload))).Meets
      (Mid before io) (Passed before io) (Aborted before io) := by
  have noted : Waiting before (h.emit (.msg payload)) := waiting.emit _ rfl
  apply processVolts_meets (.inl noted) (noted.passed io)
  · exact fun _ => .inl noted.commands
  · intro low below
    have started (result : ChildResult) : Started before io
        ((setOffTime (io.msg.now + (h.emit (.msg payload)).config.millisOn)
          (startCharging io.msg.now (h.emit (.msg payload)))).child .on result) := by
      refine ⟨noted.state.symm.trans low, rfl, ?_, ?_, ?_⟩
      · show io.msg.now + h.config.millisOn = _
        rw [waiting.config]
      · rw [commandsOf_child]
        exact congrArg (· ++ [Command.on]) noted.commands
      · refine ⟨[], h.trace, _, _, _, payload, tenths, rfl, waiting.trace, report, ?_⟩
        rw [← noted.config]
        exact below
    exact runCharger_meets (fun _ _ => .inr (started _)) (fun _ => (started _).passed)
      fun _ => .inr (started _).passed

theorem csckCanRecv_started (lib : ParseLib) {c : Sys} (bounds : InBounds c)
    (fits : RecvFits c io.recv) (waiting : Waiting before c.host) :
    (csckCanRecv lib io.msg io.recv c).Meets
      (fun t => InBounds t ∧ Mid before io t.host)
      (fun t => InBounds t ∧ Passed before io t.host) fun t => Aborted before io t.host := by
  have received := waiting.emit (.recv (io.recv.getD [])) rfl
  apply csckCanRecv_meets lib bounds fits (.inl received) (received.passed io)
  intro s
  have noted := received.emit (.msg s.rem) rfl
  apply processMsg_meets lib (.inl noted) (noted.passed io)
  exact fun tenths report => processVolts_started received report

theorem Triggering.later {trace : List Event} (trigger : Triggering before trace) (event : Event) :
    Triggering before (event :: trace) := by
  obtain ⟨newer, older, exe, hu, result, payload, tenths, shape, rest⟩ := trigger
  exact ⟨event :: newer, older, exe, hu, result, payload, tenths, by rw [shape]; rfl, rest⟩

theorem checkOffTime_passed (mid : Mid before io h) :
    (checkOffTime io.later io.off h).Meets (Passed before io) (Passed before io)
      (Aborted before io) := by
  have same : Passed before io h := mid.elim (fun waiting => waiting.passed io) Started.passed
  apply checkOffTime_meets same same
  intro charging due
  have off (result : ChildResult) :
      Passed before io ((h.setState .lookingForLow).child .off result) := by
    rcases mid with waiting | started
    · refine ⟨[.off], ?_, .off ?_ ?_ rfl⟩
      · rw [commandsOf_child]
        exact congrArg (· ++ [Command.off]) waiting.commands
      · exact waiting.state.symm.trans charging
      · rw [← waiting.time]
        exact due
    · refine ⟨[.on, .off], ?_, .onOff started.low (started.trigger.later _) ?_ rfl⟩
      · rw [commandsOf_child]
        show commandsOf h.trace ++ _ = _
        rw [started.commands, List.append_assoc]
        rfl
      · rw [← started.time]
        exact due
  exact runCharger_meets (fun _ _ => off _) (fun _ => off _) fun _ => .inr (off _)

theorem mainLoop_passed (lib : ParseLib) {c : Sys} (bounds : InBounds c)
    (fits : RecvFits c io.recv) :
    (mainLoop lib io c).Meets (fun t => InBounds t ∧ Passed c.host io t.host)
      (fun t => InBounds t ∧ Passed c.host io t.host) fun t => Aborted c.host io t.host := by
  have waiting := Waiting.refl c.host
  apply mainLoop_meets lib
    (fun t => InBounds t ∧ RecvFits t io.recv ∧ Waiting c.host t.host)
    (fun t => InBounds t ∧ Mid c.host io t.host)
  · exact ⟨bounds, waiting.passed io⟩
  · intro _
    apply meets_focus
    have noted (time : Int) : Waiting c.host (c.host.emit (.cast time)) := waiting.emit _ rfl
    apply pollTimeout_meets
    · exact fun _ => ⟨bounds, fits, waiting⟩
    · exact fun _ => ⟨⟨bounds.withHost _, fits, noted _⟩, bounds.withHost _, (noted _).passed io⟩
    · exact fun _ _ => .inl (noted _).commands
  · exact fun t ⟨bounds, _, waiting⟩ =>
      ⟨⟨bounds, waiting.passed io⟩, ⟨bounds, waiting.passed io⟩, bounds, .inl waiting⟩
  · intro t ⟨bounds, _, waiting⟩ _
    apply bounds.onHost
    have installed (config : HeyuInfo) : Passed c.host io (t.host.install config) :=
      ⟨[], by rw [List.append_nil]; exact waiting.commands, .quiet waiting.state waiting.time⟩
    apply reloadConfig_meets (waiting.passed io) (waiting.passed io)
    · exact fun config => ⟨installed config, installed config⟩
    · exact fun _ => .inl waiting.commands
  · exact fun t ⟨bounds, fits, waiting⟩ _ => csckCanRecv_started lib bounds fits waiting
  · exact fun t ⟨bounds, mid⟩ => bounds.onHost (checkOffTime_passed mid)

/-- What is known before a step: a charger that is on has its time, and one that
is not is off. -/
structure Expects (d : Daemon) (last : Option Attempt) : Prop where
  bounds : InBounds d.sys
  charging : d.sys.host.state = .charging → ∃ earlier ∈ last, earlier.command = .on ∧
    ∃ on, earlier.time = some on ∧ d.sys.host.chargerOffTime = on + earlier.before.config.millisOn
  low : d.sys.host.state = .lookingForLow → ∀ earlier ∈ last, earlier.command = .off

theorem stepAttempts_eq (lib : ParseLib) {d : Daemon} {input : Input} {commands : List Command}
    (ran : commandsOf (d.step lib input).sys.host.trace =
      commandsOf d.sys.host.trace ++ commands) :
    stepAttempts lib d input =
      commands.map (Attempt.mk d.sys.host input (d.step lib input).sys.host) := by
  rw [stepAttempts, ran, List.drop_left]

/-- What a step has to establish. -/
def Disciplined (lib : ParseLib) (d : Daemon) (input : Input) (last : Option Attempt) : Prop :=
  Follows last (stepAttempts lib d input) ∧
    ((d.step lib input).ctl ≠ .stopped →
      Expects (d.step lib input) ((stepAttempts lib d input).getLast?.or last))

theorem disciplined_of_pass (lib : ParseLib) {d : Daemon} {last : Option Attempt}
    {commands : List Command} (expects : Expects d last)
    (ran : commandsOf (d.step lib (.loop io)).sys.host.trace =
      commandsOf d.sys.host.trace ++ commands)
    (pass : Pass d.sys.host io commands (d.step lib (.loop io)).sys.host)
    (bounds : (d.step lib (.loop io)).ctl ≠ .stopped → InBounds (d.step lib (.loop io)).sys) :
    Disciplined lib d (.loop io) last := by
  unfold Disciplined
  rw [stepAttempts_eq lib ran]
  cases pass with
  | quiet state time =>
      refine ⟨trivial, fun running => ⟨bounds running, ?_, ?_⟩⟩
      · rw [state, time]
        exact expects.charging
      · rw [state]
        exact expects.low
  | on low trigger charging time =>
      refine ⟨⟨fun _ => ⟨expects.low low, low, trigger⟩, nofun, trivial⟩,
        fun running => ⟨bounds running, fun _ => ?_, fun idle => ?_⟩⟩
      · exact ⟨_, rfl, rfl, io.msg.now, rfl, time⟩
      · rw [charging] at idle
        cases idle
  | off charging due state =>
      obtain ⟨earlier, isLast, isOn, on, onTime, offTime⟩ := expects.charging charging
      refine ⟨⟨nofun, fun _ => ?_, trivial⟩, fun running => ⟨bounds running, fun on => ?_, ?_⟩⟩
      · refine ⟨earlier, isLast, isOn, .inr ⟨on, io.later, onTime, rfl, ?_⟩⟩
        rw [← offTime]
        exact due
      · rw [state] at on
        cases on
      · rintro _ _ ⟨⟩
        rfl
  | onOff low trigger due state =>
      refine ⟨⟨fun _ => ⟨expects.low low, low, trigger⟩, nofun, nofun, fun _ => ?_, trivial⟩,
        fun running => ⟨bounds running, fun on => ?_, ?_⟩⟩
      · exact ⟨_, rfl, rfl, .inr ⟨io.msg.now, io.later, rfl, rfl, due⟩⟩
      · rw [state] at on
        cases on
      · rintro _ _ ⟨⟩
        rfl

/-- The ways a step can end. -/
inductive Outcome (d : Daemon) (input : Input) (next : Daemon) : Prop
  | quiet (bounds : next.ctl ≠ .stopped → InBounds next.sys)
      (waiting : Waiting d.sys.host next.sys.host)
  | pass (io : LoopIo) (isLoop : input = .loop io)
      (bounds : next.ctl ≠ .stopped → InBounds next.sys)
      (passed : Passed d.sys.host io next.sys.host)
  | aborted (stopped : next.ctl = .stopped)
      (commands : commandsOf next.sys.host.trace = commandsOf d.sys.host.trace)
  | exit (io : ChildIo) (isFinish : input = .finish io) (stopped : next.ctl = .stopped)
      (charging : d.sys.host.state = .charging)
      (commands : commandsOf next.sys.host.trace = commandsOf d.sys.host.trace ++ [.off])

theorem step_outcome (lib : ParseLib) {d : Daemon} {input : Input} (bounds : InBounds d.sys)
    (kernel : KernelOk d input) : Outcome d input (d.step lib input) := by
  have waiting := Waiting.refl d.sys.host
  apply Daemon.step_rule lib
  · exact .quiet (fun _ => bounds) waiting
  · rintro io rfl _
    apply meets_focus
    apply start_meets
    · exact fun _ => .aborted rfl rfl
    · exact fun _ => .quiet (fun _ => bounds.withHost _) (waiting.emit _ rfl)
  · rintro io rfl _
    apply meets_mono (mainLoop_passed lib bounds kernel)
    · exact fun t ⟨bounds, passed⟩ =>
        ⟨.pass io rfl (fun _ => bounds) passed, .pass io rfl (fun _ => bounds) passed⟩
    · exact fun t ⟨bounds, passed⟩ =>
        ⟨fun _ => .pass io rfl (fun _ => bounds) passed, .pass io rfl (fun _ => bounds) passed⟩
    · rintro t (same | passed)
      · exact .aborted rfl same
      · exact .pass io rfl (fun running => absurd rfl running) passed
  · rintro logged rfl _
    exact .quiet (fun _ => bounds) waiting
  · rintro io rfl _
    apply meets_focus
    apply turnOffAtExit_meets
    · exact fun _ => .aborted rfl rfl
    · intro charging
      have off (result : ChildResult) :
          Outcome d (.finish io) ⟨{ d.sys with host := d.sys.host.child .off result }, .stopped⟩ :=
        .exit io rfl rfl charging (commandsOf_child _ _ _)
      exact runCharger_meets (fun _ _ => off _) (fun _ => off _) fun _ => off _

theorem step_disciplined (lib : ParseLib) {d : Daemon} {input : Input} {last : Option Attempt}
    (kernel : KernelOk d input) (expects : Expects d last) : Disciplined lib d input last := by
  cases step_outcome lib expects.bounds kernel with
  | quiet bounds waiting =>
      unfold Disciplined
      rw [stepAttempts_eq lib (waiting.commands.trans (List.append_nil _).symm)]
      refine ⟨trivial, fun running => ⟨bounds running, ?_, ?_⟩⟩
      · rw [waiting.state, waiting.time]
        exact expects.charging
      · rw [waiting.state]
        exact expects.low
  | pass io isLoop bounds passed =>
      subst isLoop
      obtain ⟨commands, ran, pass⟩ := passed
      exact disciplined_of_pass lib expects ran pass bounds
  | aborted stopped commands =>
      unfold Disciplined
      rw [stepAttempts_eq lib (commands.trans (List.append_nil _).symm)]
      exact ⟨trivial, fun running => absurd stopped running⟩
  | exit io isFinish stopped charging commands =>
      subst isFinish
      unfold Disciplined
      rw [stepAttempts_eq lib commands]
      obtain ⟨earlier, isLast, isOn, _⟩ := expects.charging charging
      refine ⟨⟨nofun, fun _ => ⟨earlier, isLast, isOn, .inl ⟨io, rfl⟩⟩, trivial⟩, ?_⟩
      exact fun running => absurd stopped running

theorem step_stopped (lib : ParseLib) {d : Daemon} (input : Input) (stopped : d.ctl = .stopped) :
    d.step lib input = d := by
  obtain ⟨sys, ctl⟩ := d
  obtain rfl : ctl = .stopped := stopped
  cases input <;> rfl

theorem attempts_stopped (lib : ParseLib) (inputs : List Input) {d : Daemon}
    (stopped : d.ctl = .stopped) : attempts lib d inputs = [] := by
  induction inputs with
  | nil => rfl
  | cons input rest ih =>
      have none_made : stepAttempts lib d input = [] := by
        rw [stepAttempts, step_stopped lib input stopped, List.drop_length, List.map_nil]
      rw [attempts, none_made, step_stopped lib input stopped, ih, List.nil_append]

theorem attempts_follow (lib : ParseLib) (inputs : List Input) {d : Daemon}
    {last : Option Attempt} (kernel : Runs.Admits (Daemon.step lib) KernelOk d inputs)
    (expects : d.ctl ≠ .stopped → Expects d last) : Follows last (attempts lib d inputs) := by
  induction inputs generalizing d last with
  | nil => trivial
  | cons input rest ih =>
      by_cases stopped : d.ctl = .stopped
      · rw [attempts_stopped lib _ stopped]
        trivial
      · obtain ⟨now, next⟩ := step_disciplined lib kernel.1 (expects stopped)
        exact (follows_append _ _ _).mpr ⟨now, ih kernel.2 next⟩

theorem Outcome.commands {d next : Daemon} {input : Input} (outcome : Outcome d input next) :
    ∃ commands, commandsOf next.sys.host.trace = commandsOf d.sys.host.trace ++ commands := by
  cases outcome with
  | quiet _ waiting => exact ⟨[], waiting.commands.trans (List.append_nil _).symm⟩
  | pass _ _ _ passed =>
      obtain ⟨commands, ran, _⟩ := passed
      exact ⟨commands, ran⟩
  | aborted _ commands => exact ⟨[], commands.trans (List.append_nil _).symm⟩
  | exit _ _ _ _ commands => exact ⟨[.off], commands⟩

theorem Outcome.bounds {d next : Daemon} {input : Input} (outcome : Outcome d input next)
    (running : next.ctl ≠ .stopped) : InBounds next.sys := by
  cases outcome with
  | quiet bounds _ => exact bounds running
  | pass _ _ bounds _ => exact bounds running
  | aborted stopped _ => exact absurd stopped running
  | exit _ _ stopped _ _ => exact absurd stopped running

theorem attempts_commands (lib : ParseLib) (inputs : List Input) {d : Daemon}
    (kernel : Runs.Admits (Daemon.step lib) KernelOk d inputs)
    (bounds : d.ctl ≠ .stopped → InBounds d.sys) :
    commandsOf (d.run lib inputs).sys.host.trace =
      commandsOf d.sys.host.trace ++ (attempts lib d inputs).map Attempt.command := by
  induction inputs generalizing d with
  | nil => exact (List.append_nil _).symm
  | cons input rest ih =>
      by_cases stopped : d.ctl = .stopped
      · have same := ih (step_stopped lib input stopped ▸ kernel.2) bounds
        rw [attempts_stopped lib rest stopped] at same
        rw [attempts_stopped lib _ stopped, Daemon.run, Runs.exec_cons,
          step_stopped lib input stopped]
        exact same
      · have outcome := step_outcome lib (bounds stopped) kernel.1
        obtain ⟨commands, ran⟩ := outcome.commands
        have mapped : (commands.map (Attempt.mk d.sys.host input
            (d.step lib input).sys.host)).map Attempt.command = commands := by
          rw [List.map_map]
          exact List.map_id _
        have later := ih kernel.2 outcome.bounds
        rw [attempts, List.map_append, stepAttempts_eq lib ran, mapped, ← List.append_assoc, ← ran]
        exact later

theorem pollTimeout_inTime (h : Client) : PollsInTime h := by
  intro now logln timeout t charging polled
  unfold pollTimeout at polled
  simp only [read_bind, id_eq, charging, ↓reduceIte, modify_bind] at polled
  by_cases fits : FitsI32 (h.chargerOffTime - now)
  · rw [intCastI32_of_fits fits, orAbort_some, pure_bind_run] at polled
    cases logged : logln .timeout with
    | false =>
        rw [logged] at polled
        cases polled
    | true =>
        rw [logged] at polled
        cases polled
        split <;> omega
  · rw [intCastI32_of_not_fits fits] at polled
    cases polled

theorem initial_expects (config : HeyuInfo) : Expects (Daemon.initial config) none := by
  refine ⟨initial_inBounds config, fun charging => ?_, fun _ earlier isLast => ?_⟩
  · have low : State.lookingForLow = .charging := charging
    cases low
  · cases isLast

/-- In every run the commands alternate, beginning with on; each on is triggered
by a low voltage, each off comes behind the loop or in its time; and the poll of a
charging process ends in time. -/
theorem charger_disciplined (lib : ParseLib) (config : HeyuInfo) (inputs : List Input)
    (kernel : Runs.Admits (Daemon.step lib) KernelOk (Daemon.initial config) inputs) :
    commandsOf ((Daemon.initial config).run lib inputs).sys.host.trace =
        (attempts lib (Daemon.initial config) inputs).map Attempt.command ∧
      Follows none (attempts lib (Daemon.initial config) inputs) ∧
      PollsInTime ((Daemon.initial config).run lib inputs).sys.host := by
  have start := initial_expects config
  refine ⟨?_, attempts_follow lib inputs kernel fun _ => start, pollTimeout_inTime _⟩
  exact attempts_commands lib inputs kernel fun _ => start.bounds

/-- The charger is turned on at 20.0 V, and four hours later there is a pass. -/
def onAndOver : List Input :=
  firstFrame 0 lowFrame [] ++ [.loop (quietPass battery.millisOn .timeout)]

theorem charger_disciplined_onAndOver :
    commandsOf ((Daemon.initial battery).run reference onAndOver).sys.host.trace = [.on, .off] ∧
      commandsOf ((Daemon.initial battery).run reference onAndOver).sys.host.trace =
        (attempts reference (Daemon.initial battery) onAndOver).map Attempt.command ∧
      Follows none (attempts reference (Daemon.initial battery) onAndOver) ∧
      PollsInTime ((Daemon.initial battery).run reference onAndOver).sys.host := by
  refine ⟨by decide +kernel, ?_⟩
  exact charger_disciplined reference battery onAndOver
    (lowFrame_kernelOk reference fun _ _ => ⟨trivial, trivial⟩)

end RenogyX10.Heyu
