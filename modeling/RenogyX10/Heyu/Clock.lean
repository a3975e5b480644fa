import RenogyX10.Heyu.Discipline

set_option autoImplicit false

namespace RenogyX10.Heyu

open Checked Csck Parse Proc

/-- The top of a pass with the charger on: the conversion does not abort, and poll is
given the time that is left. -/
structure Survives (h : Client) (io : LoopIo) : Prop where
  fits : FitsI32 (h.chargerOffTime - io.now)
  runs : ∀ t, pollTimeout io.now io.logln h ≠ .panic t
  timeout : ∀ timeout t, pollTimeout io.now io.logln h = .ok timeout t →
    timeout = max 0 (h.chargerOffTime - io.now)

/-- No pass of the run that begins with the charger on aborts at its top. -/
def TimerSurvives (lib : ParseLib) (start : Daemon) (inputs : List Input) : Prop :=
  ∀ front io back, inputs = front ++ .loop io :: back → (start.run lib front).ctl = .loop →
    io.logln .top = true → (start.run lib front).sys.host.state = .charging →
    Survives (start.run lib front).sys.host io

/-- The reading with which the charger was turned on, and the `millis_on` then in force. -/
def Attempt.since (attempt : Attempt) : Option (Int × Int) :=
  if attempt.command = .on then
    attempt.time.map fun time => (time, attempt.before.config.millisOn)
  else none

/-- The same for the charger that the run has left on. -/
def chargingSince (lib : ParseLib) (start : Daemon) (inputs : List Input) : Option (Int × Int) :=
  (attempts lib start inputs).getLast?.bind Attempt.since

/-- No reading at the top of a pass is far from the one that turned the charger on. -/
def ReadingsNear (lib : ParseLib) (start : Daemon) (inputs : List Input) : Prop :=
  ∀ front io back, inputs = front ++ .loop io :: back → (start.run lib front).ctl = .loop →
    io.logln .top = true → ∀ on ∈ chargingSince lib start front,
      on.1 + on.2 - 2 ^ 31 < io.now ∧ io.now ≤ on.1 + on.2 + 2 ^ 31

theorem fitsI32_iff_near {on millis now : Int} :
    FitsI32 (on + millis - now) ↔ on + millis - 2 ^ 31 < now ∧ now ≤ on + millis + 2 ^ 31 := by
  unfold FitsI32
  omega

/-- A pass that begins with a time that does not fit aborts there. -/
theorem step_aborts (lib : ParseLib) (poll : PollIo) {c : Sys} {now : Int}
    (charging : c.host.state = .charging) (outside : ¬ FitsI32 (c.host.chargerOffTime - now)) :
    Daemon.step lib ⟨c, .loop⟩ (.loop (quietPass now poll)) = ⟨noteCast now c, .stopped⟩ := by
  have polled : onHost (pollTimeout now fun _ => true) c = .panic (noteCast now c) := by
    unfold pollTimeout
    rw [onHost, focus_run]
    simp only [read_bind, id_eq, charging, ↓reduceIte, modify_bind, intCastI32_of_not_fits outside]
    rfl
  have ran : mainLoop lib (quietPass now poll) c = .panic (noteCast now c) := by
    unfold mainLoop quietPass
    simp only [guard_true, pure_bind_run]
    exact bind_of_panic polled
  unfold Daemon.step
  dsimp only
  rw [ran]
  rfl

theorem survives_of_fits {h : Client} {io : LoopIo} (charging : h.state = .charging)
    (fits : FitsI32 (h.chargerOffTime - io.now)) : Survives h io := by
  refine ⟨fits, ?_, ?_⟩ <;> unfold pollTimeout <;>
    simp only [read_bind, id_eq, charging, ↓reduceIte, modify_bind, intCastI32_of_fits fits,
      orAbort_some, pure_bind_run]
  · intro t aborted
    cases logged : io.logln .timeout <;> (rw [logged] at aborted; cases aborted)
  · intro timeout t polled
    cases logged : io.logln .timeout with
    | false =>
        rw [logged] at polled
        cases polled
    | true =>
        rw [logged] at polled
        cases polled
        split <;> omega

theorem attempts_expects (lib : ParseLib) (inputs : List Input) {d : Daemon}
    {last : Option Attempt} (kernel : Runs.Admits (Daemon.step lib) KernelOk d inputs)
    (expects : d.ctl ≠ .stopped → Expects d last) (running : (d.run lib inputs).ctl ≠ .stopped) :
    Expects (d.run lib inputs) ((attempts lib d inputs).getLast?.or last) := by
  induction inputs generalizing d last with
  | nil => exact expects running
  | cons input rest ih =>
      by_cases stopped : d.ctl = .stopped
      · have same := ih (step_stopped lib input stopped ▸ kernel.2) expects
        rw [attempts_stopped lib _ stopped] at same ⊢
        rw [Daemon.run, Runs.exec_cons, step_stopped lib input stopped] at running ⊢
        exact same running
      · obtain ⟨_, next⟩ := step_disciplined lib kernel.1 (expects stopped)
        rw [attempts, List.getLast?_append, Option.or_assoc]
        exact ih kernel.2 next running

theorem Expects.since {d : Daemon} {last : Option Attempt} (expects : Expects d last)
    (charging : d.sys.host.state = .charging) :
    ∃ on millis, last.bind Attempt.since = some (on, millis) ∧
      d.sys.host.chargerOffTime = on + millis := by
  obtain ⟨earlier, isLast, isOn, on, time, off⟩ := expects.charging charging
  obtain rfl : last = some earlier := isLast
  refine ⟨on, earlier.before.config.millisOn, ?_, off⟩
  rw [Option.bind_some, Attempt.since, if_pos isOn, time, Option.map_some]

theorem Expects.charging_of_since {d : Daemon} {last : Option Attempt} (expects : Expects d last)
    {on : Int × Int} (since : last.bind Attempt.since = some on) :
    d.sys.host.state = .charging := by
  cases state : d.sys.host.state with
  | charging => rfl
  | lookingForLow =>
      obtain ⟨earlier, isLast, isOn⟩ := Option.bind_eq_some_iff.mp since
      have off := expects.low state earlier isLast
      rw [Attempt.since, off, if_neg (by decide)] at isOn
      cases isOn

/-- The timer of a run survives exactly the clock changes after which the clock is less
than 2^31 milliseconds before, and no more than that behind, the time at which the charger
is to be turned off. -/
theorem timer_survives_iff (lib : ParseLib) (config : HeyuInfo) (inputs : List Input)
    (kernel : Runs.Admits (Daemon.step lib) KernelOk (Daemon.initial config) inputs) :
    TimerSurvives lib (Daemon.initial config) inputs ↔
      ReadingsNear lib (Daemon.initial config) inputs := by
  have expects (front : List Input) (back : List Input) (split : inputs = front ++ back)
      (inLoop : ((Daemon.initial config).run lib front).ctl = .loop) :
      Expects ((Daemon.initial config).run lib front)
        (attempts lib (Daemon.initial config) front).getLast? := by
    rw [split, Runs.admits_append] at kernel
    have reached := attempts_expects lib front kernel.1 (fun _ => initial_expects config)
      (by rw [inLoop]; decide)
    rwa [Option.or_none] at reached
  constructor
  · intro survives front io back split inLoop logged on isOn
    have known := expects front _ split inLoop
    have charging := known.charging_of_since isOn
    obtain ⟨time, millis, since, off⟩ := known.since charging
    obtain rfl : on = (time, millis) := Option.some.inj (isOn.symm.trans since)
    have fits := (survives front io back split inLoop logged charging).fits
    rw [off] at fits
    exact fitsI32_iff_near.mp fits
  · intro near front io back split inLoop logged charging
    obtain ⟨time, millis, since, off⟩ := (expects front _ split inLoop).since charging
    have here := near front io back split inLoop logged (time, millis) since
    apply survives_of_fits charging
    rw [off]
    exact fitsI32_iff_near.mpr here

/-- A pass with the charger on reads the clock in time. -/
def TimerFits (d : Daemon) : Input → Prop
  | .loop io => d.sys.host.state = .charging → FitsI32 (d.sys.host.chargerOffTime - io.now)
  | _ => True

/-- The pass at the end of the charging time is the only one with the charger on. -/
theorem timer_survives_onAndOver : TimerSurvives reference (Daemon.initial battery) onAndOver ∧
    ReadingsNear reference (Daemon.initial battery) onAndOver := by
  have fits : Runs.Admits (Daemon.step reference) TimerFits (Daemon.initial battery) onAndOver := by
    apply lowFrame_then reference
    · refine ⟨trivial, fun c _ host => ?_, fun c _ host => ?_⟩
      · unfold TimerFits
        rw [host]
        exact nofun
      · unfold TimerFits
        rw [host]
        exact nofun
    · intro c on
      refine ⟨fun _ => ?_, trivial⟩
      rw [on.offTime]
      decide
  have survives : TimerSurvives reference (Daemon.initial battery) onAndOver :=
    fun _ _ _ split _ _ charging => survives_of_fits charging (fits.at_split split charging)
  refine ⟨survives, (timer_survives_iff reference battery onAndOver ?_).mp survives⟩
  exact lowFrame_kernelOk reference fun _ _ => ⟨trivial, trivial⟩

/-- The clock is set by thirty days while the charger is on. -/
def steppedForward : List Input :=
  firstFrame 0 lowFrame [] ++ [.loop (quietPass (30 * 24 * 60 * 60 * 1000) .timeout)]

/-- The process aborts, and the charger stays on. -/
theorem timer_dies_steppedForward :
    Runs.Admits (Daemon.step reference) KernelOk (Daemon.initial battery) steppedForward ∧
      ¬ TimerSurvives reference (Daemon.initial battery) steppedForward ∧
      ((Daemon.initial battery).run reference steppedForward).ctl = .stopped ∧
      ((Daemon.initial battery).run reference steppedForward).sys.host.state = .charging := by
  obtain ⟨c, on, ran⟩ := lowFrame_run reference
    [.loop (quietPass (30 * 24 * 60 * 60 * 1000) .timeout)]
  have outside : ¬ FitsI32 (c.host.chargerOffTime - 30 * 24 * 60 * 60 * 1000) := by
    rw [on.offTime]
    decide
  have aborted := step_aborts reference .timeout on.state outside
  refine ⟨lowFrame_kernelOk reference fun _ _ => ⟨trivial, trivial⟩, fun survives => ?_, ?_, ?_⟩
  · obtain ⟨other, otherOn, otherRan⟩ := lowFrame_run reference []
    have reached : (Daemon.initial battery).run reference (firstFrame 0 lowFrame []) =
        ⟨other, .loop⟩ := otherRan
    have last := survives (firstFrame 0 lowFrame []) _ [] rfl
    rw [reached] at last
    have fits := (last rfl rfl otherOn.state).fits
    rw [otherOn.offTime] at fits
    exact absurd fits (by decide)
  · unfold steppedForward
    rw [ran, Daemon.run, Runs.exec_cons, aborted]
    rfl
  · unfold steppedForward
    rw [ran, Daemon.run, Runs.exec_cons, aborted]
    exact on.state

end RenogyX10.Heyu
