import Mathlib.Data.List.Chain
import RenogyX10.TtyReader.Schedule
import RenogyX10.TtyReader.Spacing

set_option autoImplicit false

namespace RenogyX10.TtyReader

open Parse Proc

/-- The due time that is stored when the iterator returns null. -/
def dueAt (lib : ParseLib) (d : Daemon) : Input → Option Int
  | .loop io =>
      if d.ctl = .loop ∧ d.sys.info.peerList ≠ [] ∧ d.sys.info.PassEnds io.check.now then
        (scheduleReads lib io.check d.sys).state.info.nextModbusTime
      else none
  | _ => none

/-- The due times of a run, in order. -/
def dues (lib : ParseLib) : Daemon → List Input → List Int
  | _, [] => []
  | d, input :: rest => (dueAt lib d input).toList ++ dues lib (d.step lib input) rest

/-- Peers are connected, nothing is reloaded, no read has failed, and a pass that
ends has done its last read `min_mstime` before the next one is due. -/
def Steady (d : Daemon) : Input → Prop
  | .loop io =>
      d.ctl = .loop ∧ d.sys.info.peerList ≠ [] ∧
        (d.sys.info.PassEnds io.check.now → ∀ last ∈ d.sys.info.lastModbusTime,
          last + d.sys.info.minMstime ≤ d.sys.info.fmt io.check.now + d.sys.info.listMstime)
  | _ => False

instance (d : Daemon) : ∀ input, Decidable (Steady d input)
  | .loop _ => inferInstanceAs (Decidable (_ ∧ ¬ _ = _ ∧ (_ → _)))
  | .start _ => .isFalse id
  | .wake _ _ => .isFalse id

/-- Inside a pass, or with no read to go by, the safety check does not step in. -/
def Unadjusted (d : Daemon) : Input → Prop
  | .loop io =>
      ¬ d.sys.info.AtStart ∨ d.sys.info.lastModbusTime = none → ¬ d.sys.info.TooClose io.check.now
  | _ => True

instance (d : Daemon) : ∀ input, Decidable (Unadjusted d input)
  | .loop _ => inferInstanceAs (Decidable (_ ∨ _ → ¬ _))
  | .start _ => .isTrue trivial
  | .wake _ _ => .isTrue trivial

/-- From the first due time on. -/
def KeepsReference (lib : ParseLib) : Daemon → List Input → Prop
  | _, [] => True
  | d, input :: rest =>
      if dueAt lib d input = none then KeepsReference lib (d.step lib input) rest
      else Runs.Admits (Daemon.step lib) Unadjusted (d.step lib input) rest

instance decidableKeepsReference (lib : ParseLib) : ∀ d inputs, Decidable (KeepsReference lib d inputs)
  | _, [] => .isTrue trivial
  | d, input :: rest =>
      have := decidableKeepsReference lib (d.step lib input) rest
      inferInstanceAs (Decidable (if dueAt lib d input = none then _ else Runs.Admits _ _ _ _))

/-- The last due time is the reference of the period, and the next pass starts
at it. -/
structure Anchored (due : Int) (info : TtyInfo) : Prop where
  reference : info.firstModbusTime = some due
  next : info.AtStart → info.nextModbusTime = some due
  rested : info.AtStart → ∀ last ∈ info.lastModbusTime, last + info.minMstime ≤ due

theorem Anchored.keeps {due : Int} {info : TtyInfo} {io : CheckIo} (anchored : Anchored due info)
    (inside : ¬ info.PassEnds io.now)
    (kept : ¬ info.AtStart ∨ info.lastModbusTime = none → ¬ info.TooClose io.now) :
    Anchored due (nextSchedule io info) := by
  have far : ¬ info.TooClose io.now := by
    intro close
    by_cases start : info.AtStart
    · cases record : info.lastModbusTime with
      | none => exact kept (.inr record) close
      | some last =>
          have rested : last + info.minMstime ≤ due := anchored.rested start last record
          obtain ⟨isDue, recent⟩ := close
          rw [TtyInfo.nmt, anchored.next start, Option.getD_some] at isDue
          rw [TtyInfo.lmt, record, Option.getD_some] at recent
          omega
    · exact kept (.inl start) close
  unfold nextSchedule
  rw [if_neg far]
  by_cases isDue : info.nmt io.now ≤ io.now
  · rw [if_pos isDue]
    cases found : (getNextIdInfo info).1 with
    | none => exact absurd ⟨far, isDue, found⟩ inside
    | some idInfo =>
        have behind : (getNextIdInfo info).2.idListSubIndex ≠ 0 := nextFrom_found found
        exact ⟨anchored.reference, fun start => absurd start.2 behind,
          fun start => absurd start.2 behind⟩
  · rw [if_neg isDue]
    exact anchored

theorem nextSchedule_anchored (info : TtyInfo) {io : CheckIo} (ended : info.PassEnds io.now)
    (rested : ∀ last ∈ info.lastModbusTime,
      last + info.minMstime ≤ info.fmt io.now + info.listMstime) :
    Anchored (info.fmt io.now + info.listMstime) (nextSchedule io info) := by
  obtain ⟨far, isDue, null⟩ := ended
  unfold nextSchedule
  rw [if_neg far, if_pos isDue, null]
  exact ⟨rfl, fun _ => rfl, fun _ => rested⟩

theorem nextSchedule_listMstime (io : CheckIo) (info : TtyInfo) :
    (nextSchedule io info).listMstime = info.listMstime := by
  unfold nextSchedule
  split
  · rfl
  · split
    · split <;> rfl
    · rfl

theorem step_schedule (lib : ParseLib) {d : Daemon} {io : LoopIo} (inLoop : d.ctl = .loop)
    (peers : d.sys.info.peerList ≠ []) (stays : (d.step lib (.loop io)).ctl = .loop) :
    schedule (d.step lib (.loop io)).sys = nextSchedule io.check (schedule d.sys) := by
  obtain ⟨s, ctl, clock⟩ := d
  obtain rfl : ctl = .loop := inLoop
  cases ended : ttyMainLoop lib io s with
  | error reason t =>
      simp only [Daemon.step, ended, afterLoop] at stays
      split at stays <;> cases stays
  | panic t =>
      simp only [Daemon.step, ended, afterLoop] at stays
      cases stays
  | ok left t =>
      cases left with
      | true =>
          simp only [Daemon.step, ended, afterLoop] at stays
          cases stays
      | false =>
          obtain ⟨u, reached, same⟩ := ttyMainLoop_schedule lib ended
          simp only [Daemon.step, ended, Exit.state]
          exact same.trans (atPoll_schedule lib peers reached)

theorem castTimeout_state (value : Int) (s : Sys) :
    (castTimeout value s).state = s.emit (.cast value) := by
  unfold castTimeout
  rw [modify_bind]
  cases Checked.intCastI32 value <;> rfl

theorem scheduleReads_state (lib : ParseLib) (io : CheckIo) {s : Sys}
    (peers : s.info.peerList ≠ []) :
    (scheduleReads lib io s).state = (checkModbus lib io s).state := by
  have some_peer : ¬ s.info.peerList.length = 0 := by simpa using peers
  unfold scheduleReads
  simp only [read_bind, some_peer, ↓reduceIte]
  cases ended : checkModbus lib io s with
  | ok timeout t => rw [bind_of_ok ended]; rfl
  | error reason t => rw [bind_of_error ended]; rfl
  | panic t => rw [bind_of_panic ended]; rfl

theorem step_listMstime (lib : ParseLib) {d : Daemon} {io : LoopIo} (inLoop : d.ctl = .loop)
    (peers : d.sys.info.peerList ≠ []) (stays : (d.step lib (.loop io)).ctl = .loop) :
    (d.step lib (.loop io)).sys.info.listMstime = d.sys.info.listMstime := by
  have moved := congrArg (fun info : TtyInfo => info.listMstime)
    (step_schedule lib inLoop peers stays)
  exact moved.trans (nextSchedule_listMstime io.check (schedule d.sys))

theorem dueAt_passEnds (lib : ParseLib) {d : Daemon} {io : LoopIo} (inLoop : d.ctl = .loop)
    (peers : d.sys.info.peerList ≠ []) (ended : d.sys.info.PassEnds io.check.now) :
    dueAt lib d (.loop io) = some (d.sys.info.fmt io.check.now + d.sys.info.listMstime) := by
  have stored : (scheduleReads lib io.check d.sys).state.info.nextModbusTime =
      some (d.sys.info.fmt io.check.now + d.sys.info.listMstime) := by
    rw [scheduleReads_state lib io.check peers,
      checkModbus_passEnd lib ended.1 ended.2.1 ended.2.2, castTimeout_state]
    rfl
  exact (if_pos ⟨inLoop, peers, ended⟩).trans stored

theorem dueAt_inside (lib : ParseLib) {d : Daemon} {io : LoopIo}
    (inside : ¬ d.sys.info.PassEnds io.check.now) : dueAt lib d (.loop io) = none :=
  if_neg fun holds => inside holds.2.2

/-- The later pass is due one `list_mstime` after the earlier one. -/
def Apart (period earlier later : Int) : Prop := later = earlier + period

instance (period : Int) : DecidableRel (Apart period) := fun earlier later =>
  inferInstanceAs (Decidable (later = earlier + period))

/-- With the reference at `due`, the due times of the rest of a run continue it. -/
theorem dues_follow (lib : ParseLib) {period : Int} (inputs : List Input) {d : Daemon} {due : Int}
    (steady : Runs.Admits (Daemon.step lib) Steady d inputs)
    (kept : Runs.Admits (Daemon.step lib) Unadjusted d inputs)
    (isPeriod : d.ctl = .loop → d.sys.info.listMstime = period)
    (anchored : d.ctl = .loop → Anchored due (schedule d.sys)) :
    List.IsChain (Apart period) (due :: dues lib d inputs) := by
  induction inputs generalizing d due with
  | nil => exact List.IsChain.singleton due
  | cons input rest ih =>
      obtain ⟨now, later⟩ := steady
      cases input with
      | start io => exact absurd now id
      | wake time term => exact absurd now id
      | loop io =>
          obtain ⟨inLoop, peers, rested⟩ := now
          have samePeriod : (d.step lib (.loop io)).ctl = .loop →
              (d.step lib (.loop io)).sys.info.listMstime = period :=
            fun stays => (step_listMstime lib inLoop peers stays).trans (isPeriod inLoop)
          have first : d.sys.info.firstModbusTime = some due := (anchored inLoop).reference
          by_cases ended : d.sys.info.PassEnds io.check.now
          · have stored : dueAt lib d (.loop io) = some (due + period) := by
              rw [dueAt_passEnds lib inLoop peers ended, TtyInfo.fmt, first, Option.getD_some,
                isPeriod inLoop]
            have follow : List.IsChain (Apart period)
                ((due + period) :: dues lib (d.step lib (.loop io)) rest) := by
              apply ih later kept.2 samePeriod
              intro stays
              have moved := nextSchedule_anchored (schedule d.sys) ended (rested ended)
              rw [step_schedule lib inLoop peers stays, ← isPeriod inLoop]
              simpa only [TtyInfo.fmt, schedule, first, Option.getD_some] using moved
            rw [dues, stored]
            exact List.isChain_cons_cons.mpr ⟨rfl, follow⟩
          · rw [dues, dueAt_inside lib ended]
            apply ih later kept.2 samePeriod
            intro stays
            rw [step_schedule lib inLoop peers stays]
            exact (anchored inLoop).keeps ended kept.1

theorem dues_apart (lib : ParseLib) {period : Int} (inputs : List Input) {d : Daemon}
    (steady : Runs.Admits (Daemon.step lib) Steady d inputs)
    (kept : KeepsReference lib d inputs)
    (isPeriod : d.ctl = .loop → d.sys.info.listMstime = period) :
    List.IsChain (Apart period) (dues lib d inputs) := by
  induction inputs generalizing d with
  | nil => exact List.IsChain.nil
  | cons input rest ih =>
      obtain ⟨now, later⟩ := steady
      cases input with
      | start io => exact absurd now id
      | wake time term => exact absurd now id
      | loop io =>
          obtain ⟨inLoop, peers, rested⟩ := now
          have samePeriod : (d.step lib (.loop io)).ctl = .loop →
              (d.step lib (.loop io)).sys.info.listMstime = period :=
            fun stays => (step_listMstime lib inLoop peers stays).trans (isPeriod inLoop)
          by_cases ended : d.sys.info.PassEnds io.check.now
          · have stored := dueAt_passEnds lib inLoop peers ended
            rw [KeepsReference, if_neg (by rw [stored]; exact Option.some_ne_none _)] at kept
            rw [dues, stored]
            apply dues_follow lib rest later kept samePeriod
            intro stays
            rw [step_schedule lib inLoop peers stays]
            exact nextSchedule_anchored (schedule d.sys) ended (rested ended)
          · have noneStored := dueAt_inside lib ended
            rw [KeepsReference, if_pos noneStored] at kept
            rw [dues, noneStored]
            exact ih later kept samePeriod

/-- After any beginning of a run, the due times stored while peers stay connected
are `list_mstime` apart if, from the first of them on, the safety check does not
step in inside a pass. -/
theorem due_times_periodic (lib : ParseLib) (config : Config) (clock : Int)
    (front inputs : List Input)
    (steady : Runs.Admits (Daemon.step lib) Steady
      ((Daemon.initial config clock).run lib front) inputs)
    (kept : KeepsReference lib ((Daemon.initial config clock).run lib front) inputs) :
    List.IsChain (Apart ((Daemon.initial config clock).run lib front).sys.info.listMstime)
      (dues lib ((Daemon.initial config clock).run lib front) inputs) :=
  dues_apart lib inputs steady kept fun _ => rfl

/-- A pass of the loop in which poll times out. -/
def quietAt (now : Int) : Input :=
  .loop { check := checkAt now, poll := .timeout, setup := .failed, accept := none, peers := [] }

/-- A peer connects at 1000. -/
def peerConnects : List Input :=
  [startUp, .loop { check := checkAt 1000, poll := .ready false false true, setup := .failed,
                    accept := some 5, peers := [] }]

/-- One device, a second after which the iterator is asked for the next one. -/
def slowList : Config :=
  { itemMstime := 1000, listMstime := 10000, idList := [{ id := 1, readCount := 1 }] }

theorem due_times_periodic_slowList :
    dues Parse.reference ((Daemon.initial slowList 0).run Parse.reference peerConnects)
        [quietAt 2000, quietAt 3000, quietAt 13000, quietAt 14000] = [13000, 23000] ∧
      List.IsChain (Apart 10000)
        (dues Parse.reference ((Daemon.initial slowList 0).run Parse.reference peerConnects)
          [quietAt 2000, quietAt 3000, quietAt 13000, quietAt 14000]) := by
  refine ⟨by decide +kernel, ?_⟩
  apply due_times_periodic Parse.reference slowList 0 peerConnects
  · decide +kernel
  · decide +kernel

/-- Two devices, and no wait between their reads. -/
def fastList : Config :=
  { listMstime := 10000, idList := [{ id := 1, readCount := 1 }, { id := 2, readCount := 1 }] }

/-- Two passes over the devices, with reads of 20 ms. -/
def twoPasses : List Input :=
  [quietAt 2000, quietAt 2020, quietAt 2520, quietAt 2540, quietAt 3040,
    quietAt 13040, quietAt 13060, quietAt 13560, quietAt 13580, quietAt 14080]

/-- The safety check after each read moves the reference: the second due time is
11040 ms after the first. -/
theorem due_times_not_periodic_fastList :
    Runs.Admits (Daemon.step Parse.reference) ClockOk (Daemon.initial fastList 0)
        (peerConnects ++ twoPasses) ∧
      Runs.Admits (Daemon.step Parse.reference) Steady
        ((Daemon.initial fastList 0).run Parse.reference peerConnects) twoPasses ∧
      dues Parse.reference ((Daemon.initial fastList 0).run Parse.reference peerConnects) twoPasses =
        [13040, 24080] ∧
      ¬ List.IsChain (Apart 10000)
        (dues Parse.reference ((Daemon.initial fastList 0).run Parse.reference peerConnects)
          twoPasses) := by
  decide +kernel

end RenogyX10.TtyReader
