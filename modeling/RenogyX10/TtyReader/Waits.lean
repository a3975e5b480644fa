import RenogyX10.TtyReader.Schedule

set_option autoImplicit false

namespace RenogyX10.TtyReader

open Parse Proc

/-- The longest of the three waits. -/
def TtyInfo.longest (info : TtyInfo) : Int :=
  max info.itemMstime (max info.listMstime info.minMstime)

/-- The pass begins when its next read is due, or has begun. -/
def TtyInfo.Begun (info : TtyInfo) (now : Int) : Prop :=
  ∀ start ∈ info.firstModbusTime, start ≤ max (info.nmt now) now

/-- A call that returned: the next read is known, and poll wakes up for it. -/
structure WaitsFor (now timeout : Int) (info : TtyInfo) : Prop where
  next : ∃ time, info.nextModbusTime = some time ∧ (timeout = 0 ∨ timeout = time - now)
  nonneg : 0 ≤ timeout
  longest : timeout ≤ info.longest
  begun : info.Begun now

/-- A clock that never goes back. -/
def NeverBack (d : Daemon) : Input → Prop
  | .start _ => True
  | .loop io => d.clock ≤ io.check.now ∧ io.check.now ≤ io.check.done
  | .wake time _ => d.clock ≤ time

instance (d : Daemon) : ∀ input, Decidable (NeverBack d input)
  | .start _ => .isTrue trivial
  | .loop _ => inferInstanceAs (Decidable (_ ∧ _))
  | .wake _ _ => inferInstanceAs (Decidable (_ ≤ _))

/-- The waits of every configuration are not negative, and a new context of the bus has
no shorter response timeout than the last one. -/
def WaitsGiven (d : Daemon) : Input → Prop
  | .start io => d.sys.info.minMstime ≤ io.responseSec * 1000 + io.responseUsec / 1000
  | .loop io => ∀ config, io.setup = .ok config → 0 ≤ config.itemMstime ∧ 0 ≤ config.listMstime
  | .wake _ _ => True

/-- The schedule against the clock. -/
structure Waiting (clock : Int) (s : Sys) : Prop where
  item : 0 ≤ s.info.itemMstime
  list : 0 ≤ s.info.listMstime
  next : ∀ time ∈ s.info.nextModbusTime, time ≤ clock + s.info.longest
  first : s.info.Begun clock
  last : ∀ time ∈ s.info.lastModbusTime, time ≤ clock

theorem waiting_blind (clock : Int) : PeerBlind (Waiting clock) where
  peers _ _ _ holds := ⟨holds.item, holds.list, holds.next, holds.first, holds.last⟩
  traffic _ _ _ holds := ⟨holds.item, holds.list, holds.next, holds.first, holds.last⟩

namespace TtyInfo

variable {info : TtyInfo} {clock now : Int}

theorem longest_le (info : TtyInfo) : info.itemMstime ≤ info.longest ∧
    info.listMstime ≤ info.longest ∧ info.minMstime ≤ info.longest := by
  unfold longest
  omega

theorem Begun.mono (begun : info.Begun clock) {later : Int} (forward : clock ≤ later) :
    info.Begun later := by
  intro start isFirst
  have before := begun start isFirst
  unfold nmt at before ⊢
  cases next : info.nextModbusTime with
  | none =>
      rw [next, Option.getD_none] at before
      rw [Option.getD_none]
      omega
  | some time =>
      rw [next, Option.getD_some] at before
      rw [Option.getD_some]
      omega

theorem Begun.fmt_le (begun : info.Begun now) (due : info.nmt now ≤ now) :
    info.fmt now ≤ now := by
  unfold fmt
  cases first : info.firstModbusTime with
  | none => exact Int.le_refl now
  | some start =>
      have before := begun start first
      rw [Option.getD_some]
      omega

end TtyInfo

variable {clock : Int} {s t : Sys} {io : CheckIo}

theorem Waiting.last_le {later : Int} (waiting : Waiting clock s) (forward : clock ≤ later) :
    ∀ time ∈ s.info.lastModbusTime, time ≤ later := by
  intro time isLast
  have past := waiting.last time isLast
  omega

theorem Waiting.mono {later : Int} (waiting : Waiting clock s) (forward : clock ≤ later) :
    Waiting later s := by
  have next : ∀ time ∈ s.info.nextModbusTime, time ≤ later + s.info.longest := by
    intro time isNext
    have near := waiting.next time isNext
    omega
  exact ⟨waiting.item, waiting.list, next, waiting.first.mono forward, waiting.last_le forward⟩

theorem Waiting.lmt_le (waiting : Waiting clock s) (epoch : 0 ≤ clock) : s.info.lmt ≤ clock := by
  unfold TtyInfo.lmt
  cases last : s.info.lastModbusTime with
  | none => exact epoch
  | some time => exact waiting.last time last

theorem Waiting.setDue (time : Int) {now : Int} (waiting : Waiting clock s)
    (forward : clock ≤ now) (near : time ≤ now + s.info.longest) : Waiting now (setDue time s) := by
  refine ⟨waiting.item, waiting.list, ?_, ?_, waiting.last_le forward⟩
  · intro next isNext
    cases isNext
    exact near
  · intro start isFirst
    cases isFirst
    exact Int.le_max_left _ _

theorem Waiting.takeNext (waiting : Waiting clock s) : Waiting clock (takeNext s) :=
  ⟨waiting.item, waiting.list, waiting.next, waiting.first, waiting.last⟩

theorem Waiting.setNext {now : Int} (waiting : Waiting clock s) (forward : clock ≤ now)
    (due : s.info.nmt now ≤ now) : Waiting now (setNext (now + s.info.itemMstime) s) := by
  have longest := s.info.longest_le
  refine ⟨waiting.item, waiting.list, ?_, ?_, waiting.last_le forward⟩
  · intro next isNext
    cases isNext
    show now + s.info.itemMstime ≤ now + s.info.longest
    omega
  · intro start isFirst
    have before := waiting.first.mono forward start isFirst
    show start ≤ max (now + s.info.itemMstime) now
    omega

theorem Waiting.emit (waiting : Waiting clock s) (event : Event) : Waiting clock (s.emit event) :=
  ⟨waiting.item, waiting.list, waiting.next, waiting.first, waiting.last⟩

theorem Waiting.clear (waiting : Waiting clock s) : Waiting clock (clearSchedule s) :=
  ⟨waiting.item, waiting.list, nofun, nofun, nofun⟩

theorem Waiting.setLast {done : Int} (waiting : Waiting done s) :
    Waiting done (setLast done s) := by
  refine ⟨waiting.item, waiting.list, waiting.next, waiting.first, ?_⟩
  intro last isLast
  cases isLast
  exact Int.le_refl done

/-- Every exit of `check_modbus` leaves such a schedule. -/
theorem checkModbus_waiting (lib : ParseLib) (waiting : Waiting clock s) (epoch : 0 ≤ clock)
    (times : clock ≤ io.now ∧ io.now ≤ io.done) :
    Leads (Waiting io.done) (Waiting io.done) (checkModbus lib io s) := by
  have longest := s.info.longest_le
  have last := waiting.lmt_le epoch
  have nowWaiting := waiting.mono times.1
  apply checkModbus_rule lib io (waiting_blind io.done)
  · exact fun _ holds => holds
  · intro _
    have put := nowWaiting.setDue (s.info.lmt + s.info.minMstime) (Int.le_refl _) (by omega)
    exact (put.mono times.2).emit _
  · intro _ due idInfo _
    have next := nowWaiting.takeNext.setNext (Int.le_refl _) due
    exact (next.mono times.2).emit _
  · exact fun _ holds => holds
  · exact fun _ _ _ _ t holds _ => holds.setLast.emit _
  · intro _ due _
    have fmt := nowWaiting.first.fmt_le due
    have near : s.info.fmt io.now + s.info.listMstime ≤ io.now + s.info.longest := by omega
    have put := nowWaiting.takeNext.setDue _ (Int.le_refl _) near
    exact (put.mono times.2).emit _
  · exact fun _ => (nowWaiting.mono times.2).emit _

theorem castTimeout_value {value timeout : Int} {s t : Sys}
    (ended : castTimeout value s = .ok timeout t) : timeout = max value 0 := by
  unfold castTimeout at ended
  rw [modify_bind] at ended
  cases fits : Checked.intCastI32 value with
  | none =>
      rw [fits] at ended
      cases ended
  | some cast =>
      rw [fits] at ended
      obtain ⟨_, rfl⟩ := Checked.intCastI32_eq_some.mp fits
      cases ended
      rfl

/-- The wait that a call converts: after a read it has passed already. -/
def waitOf (io : CheckIo) (info : TtyInfo) : Int :=
  if info.TooClose io.now then info.lmt + info.minMstime - io.now
  else if info.nmt io.now ≤ io.now then
    match (getNextIdInfo info).1 with
    | some _ => info.nmt io.now - io.done
    | none => info.fmt io.now + info.listMstime - io.now
  else info.nmt io.now - io.now

theorem checkModbus_timeout (lib : ParseLib) {timeout : Int}
    (ended : checkModbus lib io s = .ok timeout t) : timeout = max (waitOf io s.info) 0 := by
  unfold waitOf
  by_cases close : s.info.TooClose io.now
  · rw [if_pos close]
    rw [checkModbus_tooClose lib close] at ended
    exact castTimeout_value ended
  · rw [if_neg close]
    by_cases due : s.info.nmt io.now ≤ io.now
    · rw [if_pos due]
      cases found : (getNextIdInfo s.info).1 with
      | none =>
          rw [checkModbus_passEnd lib close due found] at ended
          exact castTimeout_value ended
      | some idInfo =>
          rw [checkModbus_call lib close due found] at ended
          obtain ⟨_, u, _, ended⟩ := of_bind_ok ended
          rw [modify_bind] at ended
          exact castTimeout_value ended
    · rw [if_neg due]
      rw [checkModbus_idle lib due] at ended
      exact castTimeout_value ended

theorem WaitsFor.of_max {now time wait : Int} {info : TtyInfo}
    (next : info.nextModbusTime = some time) (exact : wait = time - now ∨ wait ≤ 0)
    (near : wait ≤ info.longest) (long : 0 ≤ info.longest) (begun : info.Begun now) :
    WaitsFor now (max wait 0) info := by
  refine ⟨⟨time, next, ?_⟩, ?_, ?_, begun⟩ <;> omega

theorem WaitsFor.of_schedule {now timeout : Int} (waits : WaitsFor now timeout (schedule t)) :
    WaitsFor now timeout t.info := ⟨waits.next, waits.nonneg, waits.longest, waits.begun⟩

/-- A call that returns waits for the next read. -/
theorem checkModbus_waits (lib : ParseLib) (waiting : Waiting clock s) (epoch : 0 ≤ clock)
    (times : clock ≤ io.now ∧ io.now ≤ io.done) {timeout : Int}
    (ended : checkModbus lib io s = .ok timeout t) : WaitsFor io.now timeout t.info := by
  have bounds := s.info.longest_le
  have item := waiting.item
  have last := waiting.lmt_le epoch
  have nowWaiting := waiting.mono times.1
  have long : 0 ≤ s.info.longest := by omega
  have sameClose : (schedule s).TooClose io.now ↔ s.info.TooClose io.now := Iff.rfl
  have sameDue : (schedule s).nmt io.now = s.info.nmt io.now := rfl
  rw [checkModbus_timeout lib ended]
  apply WaitsFor.of_schedule
  rw [checkModbus_schedule lib ended]
  unfold nextSchedule waitOf
  by_cases close : s.info.TooClose io.now
  · rw [if_pos close, if_pos (sameClose.mpr close)]
    have put := nowWaiting.setDue (s.info.lmt + s.info.minMstime) (Int.le_refl _) (by omega)
    have near : s.info.lmt + s.info.minMstime - io.now ≤ s.info.longest := by omega
    exact .of_max rfl (.inl rfl) near long put.first
  · rw [if_neg close, if_neg (mt sameClose.mp close), sameDue]
    by_cases due : s.info.nmt io.now ≤ io.now
    · rw [if_pos due, if_pos due, (getNextIdInfo_schedule s).1, (getNextIdInfo_schedule s).2]
      cases found : (getNextIdInfo s.info).1 with
      | none =>
          have fmt := nowWaiting.first.fmt_le due
          have near : s.info.fmt io.now + s.info.listMstime - io.now ≤ s.info.longest := by omega
          have put := nowWaiting.takeNext.setDue (s.info.fmt io.now + s.info.listMstime)
            (Int.le_refl _) (by show _ ≤ io.now + s.info.longest; omega)
          exact .of_max rfl (.inl rfl) near long put.first
      | some idInfo =>
          have next := nowWaiting.takeNext.setNext (Int.le_refl _) due
          have passed : s.info.nmt io.now - io.done ≤ 0 := by omega
          exact .of_max rfl (.inr passed) (Int.le_trans passed long) long next.first
    · rw [if_neg due, if_neg due]
      have idle : ∃ time, s.info.nextModbusTime = some time ∧ s.info.nmt io.now = time := by
        unfold TtyInfo.nmt at due ⊢
        cases isNext : s.info.nextModbusTime with
        | none =>
            rw [isNext] at due
            exact absurd (Int.le_refl _) due
        | some time => exact ⟨time, rfl, rfl⟩
      obtain ⟨time, isNext, same⟩ := idle
      have near := nowWaiting.next time isNext
      rw [same]
      exact .of_max isNext (.inl rfl) (by show time - io.now ≤ s.info.longest; omega) long
        nowWaiting.first

theorem ttyMainLoop_waiting (lib : ParseLib) {loop : LoopIo} (waiting : Waiting clock s)
    (epoch : 0 ≤ clock) (times : clock ≤ loop.check.now ∧ loop.check.now ≤ loop.check.done)
    (given : ∀ config, loop.setup = .ok config → 0 ≤ config.itemMstime ∧ 0 ≤ config.listMstime) :
    Waiting loop.check.done (ttyMainLoop lib loop s).state := by
  have same : ∀ t, Waiting loop.check.done t → Waiting loop.check.done t := fun _ holds => holds
  have forward : clock ≤ loop.check.done := Int.le_trans times.1 times.2
  have leads : Leads (Waiting loop.check.done) (Waiting loop.check.done)
      (ttyMainLoop lib loop s) := by
    apply (waiting_blind loop.check.done).ttyMainLoop same
    · apply scheduleReads_rule
      · exact fun _ => (waiting.mono forward).clear
      · exact fun _ => checkModbus_waiting lib waiting epoch times
    · intro config isSetup t holds
      obtain ⟨item, list⟩ := given config isSetup
      exact ⟨item, list, nofun, nofun, nofun⟩
  exact leads.state same

theorem Waiting.longer (waiting : Waiting clock s) {millis : Nat}
    (longer : s.info.minMstime ≤ millis) :
    Waiting clock { s with info := { s.info with minMstime := millis } } := by
  refine ⟨waiting.item, waiting.list, ?_, waiting.first, waiting.last⟩
  intro time isNext
  have near := waiting.next time isNext
  unfold TtyInfo.longest at near ⊢
  dsimp only
  omega

theorem processTtyInfo_waiting {start : StartIo} (waiting : Waiting clock s)
    (longer : s.info.minMstime ≤ start.responseSec * 1000 + start.responseUsec / 1000) :
    Waiting clock (processTtyInfo start s).state := by
  apply meets_state
  apply meets_guard_bind _ _ waiting
  apply meets_guard_bind _ _ waiting
  apply meets_orAbort_bind waiting
  intro millis fits
  obtain ⟨sec, secFits, sumFits⟩ := Option.bind_eq_some_iff.mp fits
  obtain ⟨_, rfl⟩ := Checked.unsigned_eq_some.mp secFits
  obtain ⟨_, rfl⟩ := Checked.unsigned_eq_some.mp sumFits
  have put := waiting.longer longer
  rw [modify_bind]
  apply meets_guard_bind _ _ put
  exact meets_guard _ _ put put

/-- The schedule of a process whose clock has not gone back. -/
structure OnSchedule (d : Daemon) : Prop where
  epoch : 0 ≤ d.clock
  waiting : Waiting d.clock d.sys

theorem step_onSchedule (lib : ParseLib) (d : Daemon) (input : Input)
    (ok : NeverBack d input ∧ WaitsGiven d input) (onSchedule : OnSchedule d) :
    OnSchedule (d.step lib input) := by
  obtain ⟨forward, given⟩ := ok
  obtain ⟨s, ctl, clock⟩ := d
  obtain ⟨epoch, waiting⟩ := onSchedule
  cases ctl <;> cases input <;> try exact ⟨epoch, waiting⟩
  case restart.start start =>
    unfold Daemon.step
    simp only
    split
    · exact ⟨epoch, processTtyInfo_waiting waiting given⟩
    · exact ⟨epoch, waiting⟩
  case loop.loop loop =>
    have later : 0 ≤ loop.check.done := Int.le_trans epoch (Int.le_trans forward.1 forward.2)
    exact ⟨later, ttyMainLoop_waiting lib waiting epoch forward given⟩
  case sleep.wake time term =>
    exact ⟨Int.le_trans epoch forward, waiting.mono forward⟩

theorem initial_onSchedule {config : Config} {clock : Int} (item : 0 ≤ config.itemMstime)
    (list : 0 ≤ config.listMstime) (epoch : 0 ≤ clock) :
    OnSchedule (Daemon.initial config clock) :=
  ⟨epoch, item, list, nofun, nofun, nofun⟩

/-- In every reachable state the pass has begun when its next read is due, and a call of
`check_modbus` that returns there waits for the next read, and no longer than the longest
of the three times. -/
theorem poll_waits (lib : ParseLib) {config : Config} {clock : Int} {inputs : List Input}
    (item : 0 ≤ config.itemMstime) (list : 0 ≤ config.listMstime) (epoch : 0 ≤ clock)
    (neverBack : Runs.Admits (Daemon.step lib) NeverBack (Daemon.initial config clock) inputs)
    (given : Runs.Admits (Daemon.step lib) WaitsGiven (Daemon.initial config clock) inputs) :
    let d := (Daemon.initial config clock).run lib inputs
    d.sys.info.Begun d.clock ∧ ∀ io : CheckIo, d.clock ≤ io.now → io.now ≤ io.done →
      ∀ timeout t, checkModbus lib io d.sys = .ok timeout t → WaitsFor io.now timeout t.info := by
  have start := initial_onSchedule item list epoch
  have reached := Runs.exec_keeps (step_onSchedule lib) (neverBack.and given) start
  refine ⟨reached.waiting.first, ?_⟩
  intro io forward after timeout t ended
  exact checkModbus_waits lib reached.waiting reached.epoch ⟨forward, after⟩ ended

/-- A peer connects at 1000 and the device is read at 2000. -/
def oneRead : List Input :=
  [startUp,
    .loop { check := checkAt 1000, poll := .ready false false true, setup := .failed,
            accept := some 5, peers := [] },
    .loop { check := checkAt 2000, poll := .timeout, setup := .failed,
            accept := none, peers := [] }]

/-- At 2300 poll waits until half a second after the end of the read. -/
theorem poll_waits_oneRead :
    ∃ t, checkModbus Parse.reference (checkAt 2300)
        ((Daemon.initial oneDevice 0).run Parse.reference oneRead).sys = .ok 220 t ∧
      WaitsFor 2300 220 t.info := by
  have neverBack : Runs.Admits (Daemon.step Parse.reference) NeverBack
      (Daemon.initial oneDevice 0) oneRead := by decide +kernel
  have given : Runs.Admits (Daemon.step Parse.reference) WaitsGiven
      (Daemon.initial oneDevice 0) oneRead := ⟨Nat.zero_le _, nofun, nofun, trivial⟩
  have waits := poll_waits Parse.reference (by decide) (by decide) (by decide) neverBack given
  have close : ((Daemon.initial oneDevice 0).run Parse.reference oneRead).sys.info.TooClose
      (checkAt 2300).now := by decide +kernel
  have wait : ((Daemon.initial oneDevice 0).run Parse.reference oneRead).sys.info.lmt +
      ((Daemon.initial oneDevice 0).run Parse.reference oneRead).sys.info.minMstime - 2300 =
        220 := by decide +kernel
  have returned := checkModbus_tooClose Parse.reference close
  rw [show (checkAt 2300).now = 2300 from rfl, wait] at returned
  exact ⟨_, returned, waits.2 (checkAt 2300) (by decide +kernel) (by decide) 220 _ returned⟩

/-- A peer connects one millisecond before 1970. -/
def beforeEpoch : List Input :=
  [startUp, .loop { check := ⟨-1, answered (-1) (-1), -1⟩, poll := .ready false false true,
                    setup := .failed, accept := some 5, peers := [] }]

/-- A read that has never been made counts as made at the start of 1970: the wait of
half a second for the next one takes a millisecond more. -/
theorem poll_oversleeps_beforeEpoch :
    let config : Config := { oneDevice with listMstime := 0 }
    let d := (Daemon.initial config (-1)).run Parse.reference beforeEpoch
    0 ≤ config.itemMstime ∧ 0 ≤ config.listMstime ∧
      Runs.Admits (Daemon.step Parse.reference) NeverBack (Daemon.initial config (-1))
        beforeEpoch ∧
      Runs.Admits (Daemon.step Parse.reference) WaitsGiven (Daemon.initial config (-1))
        beforeEpoch ∧
      ∃ t, checkModbus Parse.reference ⟨-1, answered (-1) (-1), -1⟩ d.sys = .ok 501 t ∧
        t.info.longest = 500 := by
  refine ⟨by decide, by decide, by decide +kernel, ⟨Nat.zero_le _, nofun, trivial⟩, _, rfl, ?_⟩
  decide +kernel

end RenogyX10.TtyReader
