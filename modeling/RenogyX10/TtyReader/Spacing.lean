import Mathlib.Data.List.Chain
import RenogyX10.TtyReader.Blind

set_option autoImplicit false

/- The distance on the bus between two calls of `process_tty_id_info`. The guard
of `check_modbus` compares with `last_modbus_time`, which a pass without peers and
a reload clear, and which a failed call does not write. -/
namespace RenogyX10.TtyReader

open Parse Proc

structure CallTime where
  start : Int
  stop : Int
  minMstime : Nat

/-- The calls of a run, newest first. -/
def callTimes : List Event → List CallTime
  | [] => []
  | .call _ _ start stop minMstime :: older => ⟨start, stop, minMstime⟩ :: callTimes older
  | _ :: older => callTimes older

/-- The later call starts at least `min_mstime` after the earlier one ended. -/
def FarBehind (later earlier : CallTime) : Prop :=
  earlier.stop + later.minMstime ≤ later.start

instance : DecidableRel FarBehind := fun later earlier =>
  inferInstanceAs (Decidable (earlier.stop + later.minMstime ≤ later.start))

/-- Consecutive calls of a run are far enough apart. -/
def Spaced (trace : List Event) : Prop := (callTimes trace).IsChain FarBehind

instance (trace : List Event) : Decidable (Spaced trace) :=
  inferInstanceAs (Decidable (List.IsChain FarBehind (callTimes trace)))

/-- A clock that never goes back, and `tty_sleep(60000)` that sleeps so long
unless the process is told to end. -/
def ClockOk (d : Daemon) : Input → Prop
  | .start _ => True
  | .loop io =>
      d.clock ≤ io.check.now ∧ io.check.now ≤ io.check.read.start ∧
        io.check.read.start ≤ io.check.read.stop ∧ io.check.read.stop ≤ io.check.done
  | .wake time term => d.clock ≤ time ∧ (term = false → d.clock + 60000 ≤ time)

instance (d : Daemon) : ∀ input, Decidable (ClockOk d input)
  | .start _ => .isTrue trivial
  | .loop _ => inferInstanceAs (Decidable (_ ∧ _ ∧ _ ∧ _))
  | .wake _ _ => inferInstanceAs (Decidable (_ ∧ (_ → _)))

/-- The branch of `check_modbus` that calls `process_tty_id_info`. -/
def CallDue (info : TtyInfo) (now : Int) : Prop :=
  ¬ info.TooClose now ∧ info.nmt now ≤ now ∧ (getNextIdInfo info).1 ≠ none

/-- Where the guard has nothing to go by, `min_mstime` has passed: a call that is
made while `last_modbus_time` is null, or with a `min_mstime` longer than the
sleep after a failed call, comes late enough. -/
def LateEnough (d : Daemon) : Input → Prop
  | .loop io =>
      d.sys.info.peerList ≠ [] → CallDue d.sys.info io.check.now →
      d.sys.info.lastModbusTime = none ∨ 60000 < d.sys.info.minMstime →
      ∀ earlier ∈ (callTimes d.sys.trace).head?,
        earlier.stop + d.sys.info.minMstime ≤ io.check.now
  | _ => True

/-- Every call so far is over at the clock's time, and they are spaced. -/
structure Timed (clock : Int) (s : Sys) : Prop where
  spaced : Spaced s.trace
  ended : ∀ earlier ∈ (callTimes s.trace).head?, earlier.stop ≤ clock

/-- The last call is on record, or forgotten, or as old as the sleep is long. -/
structure Remembered (clock : Int) (s : Sys) : Prop extends Timed clock s where
  record : ∀ earlier ∈ (callTimes s.trace).head?,
    s.info.lastModbusTime = none ∨
    (∃ time, s.info.lastModbusTime = some time ∧ earlier.stop ≤ time) ∨
    earlier.stop + 60000 ≤ clock

variable {clock later : Int} {s t : Sys}

theorem Timed.of_same (timed : Timed clock s) (calls : callTimes t.trace = callTimes s.trace)
    (forward : clock ≤ later) : Timed later t := by
  refine ⟨?_, ?_⟩
  · unfold Spaced
    rw [calls]
    exact timed.spaced
  · intro earlier isLast
    rw [calls] at isLast
    have ended := timed.ended earlier isLast
    omega

theorem Remembered.of_same (remembered : Remembered clock s)
    (calls : callTimes t.trace = callTimes s.trace)
    (record : t.info.lastModbusTime = s.info.lastModbusTime) (forward : clock ≤ later) :
    Remembered later t := by
  refine ⟨remembered.toTimed.of_same calls forward, ?_⟩
  intro earlier isLast
  rw [calls] at isLast
  rw [record]
  rcases remembered.record earlier isLast with cleared | recorded | slept
  · exact .inl cleared
  · exact .inr (.inl recorded)
  · have longer : earlier.stop + 60000 ≤ later := by omega
    exact .inr (.inr longer)

theorem Timed.clear (timed : Timed clock s) (forward : clock ≤ later) :
    Remembered later (clearSchedule s) :=
  ⟨timed.of_same rfl forward, fun _ _ => .inl rfl⟩

theorem timed_blind (clock : Int) : PeerBlind (Timed clock) where
  peers _ _ _ timed := timed.of_same rfl (Int.le_refl clock)
  traffic s event isTraffic timed := by
    cases event <;> first
      | exact timed.of_same rfl (Int.le_refl clock)
      | cases isTraffic

theorem remembered_blind (clock : Int) : PeerBlind (Remembered clock) where
  peers _ _ _ remembered := remembered.of_same rfl rfl (Int.le_refl clock)
  traffic s event isTraffic remembered := by
    cases event <;> first
      | exact remembered.of_same rfl rfl (Int.le_refl clock)
      | cases isTraffic

/-- A recorded call is far enough behind whenever the guard lets a call through. -/
theorem Remembered.far_enough {io : CheckIo} (remembered : Remembered clock s)
    (forward : clock ≤ io.now) (due : CallDue s.info io.now)
    (late : s.info.lastModbusTime = none ∨ 60000 < s.info.minMstime →
      ∀ earlier ∈ (callTimes s.trace).head?, earlier.stop + s.info.minMstime ≤ io.now) :
    ∀ earlier ∈ (callTimes s.trace).head?, earlier.stop + s.info.minMstime ≤ io.now := by
  intro earlier isLast
  by_cases unguarded : s.info.lastModbusTime = none ∨ 60000 < s.info.minMstime
  · exact late unguarded earlier isLast
  · rw [not_or] at unguarded
    rcases remembered.record earlier isLast with cleared | ⟨time, recorded, after⟩ | slept
    · exact absurd cleared unguarded.1
    · have passed : ¬ io.now - s.info.lmt < s.info.minMstime :=
        fun close => due.1 ⟨due.2.1, close⟩
      have lmt : s.info.lmt = time := by rw [TtyInfo.lmt, recorded, Option.getD_some]
      omega
    · omega

theorem noteCall_timed {io : ReadIo} {idInfo : TtyIdInfo} (timed : Timed clock s)
    (far : ∀ earlier ∈ (callTimes s.trace).head?, earlier.stop + s.info.minMstime ≤ io.start)
    (ended : io.stop ≤ later) : Timed later (noteCall io idInfo s) := by
  refine ⟨?_, ?_⟩
  · exact List.isChain_cons.mpr ⟨far, timed.spaced⟩
  · intro earlier isLast
    obtain rfl := Option.some.inj isLast
    exact ended

theorem checkModbus_spacing (lib : ParseLib) {io : CheckIo} (remembered : Remembered clock s)
    (times : clock ≤ io.now ∧ io.now ≤ io.read.start ∧ io.read.start ≤ io.read.stop ∧
      io.read.stop ≤ io.done)
    (late : CallDue s.info io.now → s.info.lastModbusTime = none ∨ 60000 < s.info.minMstime →
      ∀ earlier ∈ (callTimes s.trace).head?, earlier.stop + s.info.minMstime ≤ io.now) :
    Leads (Remembered io.done) (Timed io.done) (checkModbus lib io s) := by
  have forward : clock ≤ io.done := by omega
  apply checkModbus_rule lib io (timed_blind io.done)
  · exact fun t holds => holds.toTimed
  · exact fun _ => remembered.of_same rfl rfl forward
  · intro far due idInfo found
    have callDue : CallDue s.info io.now := ⟨far, due, by rw [found]; exact Option.some_ne_none _⟩
    have taken : Timed clock (setNext (io.now + s.info.itemMstime) (takeNext s)) :=
      remembered.toTimed.of_same rfl (Int.le_refl clock)
    apply noteCall_timed taken ?_ times.2.2.2
    intro earlier isLast
    have enough : earlier.stop + s.info.minMstime ≤ io.now :=
      remembered.far_enough times.1 callDue (late callDue) earlier isLast
    show earlier.stop + s.info.minMstime ≤ io.read.start
    omega
  · exact fun t holds => holds
  · intro _ _ _ _ t holds _
    refine ⟨holds.of_same rfl (Int.le_refl _), ?_⟩
    intro earlier isLast
    exact .inr (.inl ⟨io.done, rfl, holds.ended earlier isLast⟩)
  · exact fun _ _ _ => remembered.of_same rfl rfl forward
  · exact fun _ => remembered.of_same rfl rfl forward

theorem ttyMainLoop_spacing (lib : ParseLib) {io : LoopIo} (remembered : Remembered clock s)
    (times : clock ≤ io.check.now ∧ io.check.now ≤ io.check.read.start ∧
      io.check.read.start ≤ io.check.read.stop ∧ io.check.read.stop ≤ io.check.done)
    (late : s.info.peerList ≠ [] → CallDue s.info io.check.now →
      s.info.lastModbusTime = none ∨ 60000 < s.info.minMstime →
      ∀ earlier ∈ (callTimes s.trace).head?, earlier.stop + s.info.minMstime ≤ io.check.now) :
    Leads (Remembered io.check.done) (Timed io.check.done) (ttyMainLoop lib io s) := by
  have forward : clock ≤ io.check.done := by omega
  apply (remembered_blind io.check.done).ttyMainLoop
  · exact fun t holds => holds.toTimed
  · apply scheduleReads_rule
    · exact fun _ => remembered.toTimed.clear forward
    · exact fun peers => checkModbus_spacing lib remembered times (late peers)
  · intro config _ t holds
    have installed : Timed io.check.done (installConfig config t) :=
      holds.toTimed.of_same rfl (Int.le_refl _)
    exact installed.clear (Int.le_refl _)

theorem processTtyInfo_spacing (io : StartIo) :
    Keeps (Remembered clock) (processTtyInfo io) := by
  refine .bind (.guard _ _) fun _ => .bind (.guard _ _) fun _ => .bind (.orAbort _) fun millis => ?_
  refine .bind (.modify ?_) fun _ => .bind (.guard _ _) fun _ => .guard _ _
  exact fun s remembered => remembered.of_same rfl rfl (Int.le_refl clock)

/-- While `main` goes on the last call is remembered, except in the sleep that a
failed call leads to. -/
structure OnTime (d : Daemon) : Prop where
  timed : Timed d.clock d.sys
  record : d.ctl = .restart ∨ d.ctl = .loop → Remembered d.clock d.sys

theorem Leads.onTime {done : Int} {ended : Exit TtyError Sys Bool}
    (leads : Leads (Remembered done) (Timed done) ended) :
    OnTime ⟨ended.state, afterLoop ended, done⟩ := by
  refine ⟨leads.state fun t holds => holds.toTimed, ?_⟩
  intro going
  cases ended with
  | ok left t => exact leads
  | error reason t =>
      by_cases again : reason = .reload
      · simpa only [Leads, again, ↓reduceIte, Exit.state] using leads
      · simp [afterLoop, again] at going
  | panic t => simp [afterLoop] at going

theorem step_onTime (lib : ParseLib) (d : Daemon) (input : Input)
    (ok : ClockOk d input ∧ LateEnough d input) (onTime : OnTime d) :
    OnTime (d.step lib input) := by
  obtain ⟨s, ctl, clock⟩ := d
  cases ctl <;> cases input <;> try exact onTime
  case restart.start io =>
    unfold Daemon.step
    simp only
    split
    · have kept := processTtyInfo_spacing io s (onTime.record (.inl rfl))
      exact ⟨kept.toTimed, fun _ => kept⟩
    · refine ⟨onTime.timed, ?_⟩
      intro going
      simp at going
  case loop.loop io =>
    exact (ttyMainLoop_spacing lib (onTime.record (.inr rfl)) ok.1 ok.2).onTime
  case sleep.wake time term =>
    obtain ⟨forward, slept⟩ := ok.1
    refine ⟨onTime.timed.of_same rfl forward, ?_⟩
    intro going
    refine ⟨onTime.timed.of_same rfl forward, ?_⟩
    intro earlier isLast
    have ended : earlier.stop ≤ clock := onTime.timed.ended earlier isLast
    cases term with
    | true => simp [Daemon.step] at going
    | false =>
        have rested : clock + 60000 ≤ time := slept rfl
        right
        right
        show earlier.stop + 60000 ≤ time
        omega

/-- Calls are spaced in every run that is late enough wherever the guard has
nothing to go by. -/
theorem calls_spaced (lib : ParseLib) (config : Config) (clock : Int) (inputs : List Input)
    (clockOk : Runs.Admits (Daemon.step lib) ClockOk (Daemon.initial config clock) inputs)
    (late : Runs.Admits (Daemon.step lib) LateEnough (Daemon.initial config clock) inputs) :
    Spaced ((Daemon.initial config clock).run lib inputs).sys.trace := by
  have start : OnTime (Daemon.initial config clock) := by
    refine ⟨⟨List.IsChain.nil, ?_⟩, fun _ => ⟨⟨List.IsChain.nil, ?_⟩, ?_⟩⟩
    all_goals
      intro earlier isLast
      cases isLast
  have onTime := Runs.exec_keeps (step_onTime lib) (clockOk.and late) start
  exact onTime.timed.spaced

/-- A peer connects at 1000; the device is read at 2000 and again at 4100. -/
def twoCalls : List Input :=
  [startUp,
    .loop { check := checkAt 1000, poll := .ready false false true, setup := .failed,
            accept := some 5, peers := [] },
    .loop { check := checkAt 2000, poll := .timeout, setup := .failed, accept := none, peers := [] },
    .loop { check := checkAt 3000, poll := .timeout, setup := .failed, accept := none, peers := [] },
    .loop { check := checkAt 4100, poll := .timeout, setup := .failed, accept := none, peers := [] }]

theorem calls_spaced_twoCalls :
    (callTimes ((Daemon.initial oneDevice 0).run Parse.reference twoCalls).sys.trace).length = 2 ∧
      Spaced ((Daemon.initial oneDevice 0).run Parse.reference twoCalls).sys.trace := by
  refine ⟨by decide +kernel, calls_spaced Parse.reference oneDevice 0 twoCalls ?_ ?_⟩
  · decide +kernel
  · refine ⟨trivial, ?_, ?_, ?_, ?_, trivial⟩
    · intro peers
      exact absurd rfl peers
    · intro _ _ _ earlier isLast
      cases isLast
    · intro _ _ unguarded
      exact absurd unguarded (by decide +kernel)
    · intro _ _ unguarded
      exact absurd unguarded (by decide +kernel)

/-- The peer leaves after the read at 2000, another one connects at 2030, and
the device is read again at 2100. -/
def reconnect : List Input :=
  [startUp,
    .loop { check := checkAt 1000, poll := .ready false false true, setup := .failed,
            accept := some 5, peers := [] },
    .loop { check := checkAt 2000, poll := .ready false false false, setup := .failed,
            accept := none, peers := [⟨true, false, 0, 0⟩] },
    .loop { check := checkAt 2030, poll := .ready false false true, setup := .failed,
            accept := some 5, peers := [] },
    .loop { check := checkAt 2100, poll := .timeout, setup := .failed, accept := none, peers := [] }]

/-- The pass without peers in between forgets the first read. -/
theorem calls_not_spaced_reconnect :
    Runs.Admits (Daemon.step Parse.reference) ClockOk (Daemon.initial oneDevice 0) reconnect ∧
      ¬ Spaced ((Daemon.initial oneDevice 0).run Parse.reference reconnect).sys.trace := by
  decide +kernel

end RenogyX10.TtyReader
