import RenogyX10.TtyReader.Schedule

set_option autoImplicit false

namespace RenogyX10.TtyReader

open Checked Parse Proc

/-- Every value that was converted to the timeout fits it. -/
def CastsFit : List Event → Prop
  | [] => True
  | .cast value :: older => FitsI32 value ∧ CastsFit older
  | _ :: older => CastsFit older

/-- A process that calls `check_modbus` again and again, until it aborts. -/
structure Poller where
  sys : Sys
  clock : Int
  running : Bool

def Poller.step (lib : ParseLib) (p : Poller) (io : CheckIo) : Poller :=
  if p.running then
    match checkModbus lib io p.sys with
    | .panic t => ⟨t, io.done, false⟩
    | ended => ⟨ended.state, io.done, true⟩
  else { p with clock := io.done }

/-- Before the first call: the schedule is empty, the peers are connected. -/
def Poller.initial (config : Config) (peers : List TtyPeerInfo) (minMstime : Nat)
    (clock : Int) : Poller :=
  ⟨⟨{ config with peerList := peers, minMstime := minMstime }, ∅, []⟩, clock, true⟩

def Forward (p : Poller) (io : CheckIo) : Prop := p.clock ≤ io.now ∧ io.now ≤ io.done

/-- The bus answers a call with all the registers that it asks for. -/
def ReadIo.Completes (io : ReadIo) (idInfo : TtyIdInfo) (sub : Nat) : Prop :=
  io.setSlave = 0 ∧ ∀ kind, selectKind sub = some kind → io.err = (idInfo.count kind).toNat

instance (io : ReadIo) (idInfo : TtyIdInfo) (sub : Nat) : Decidable (io.Completes idInfo sub) :=
  inferInstanceAs (Decidable (_ ∧ ∀ kind ∈ selectKind sub, _))

/-- The clock advances by less than a minute, inside a call and between two of them. -/
def WithinMinute (p : Poller) (io : CheckIo) : Prop :=
  Forward p io ∧ io.now < p.clock + 60000 ∧ io.done < io.now + 60000

instance (p : Poller) (io : CheckIo) : Decidable (Forward p io) :=
  inferInstanceAs (Decidable (_ ∧ _))

instance (p : Poller) (io : CheckIo) : Decidable (WithinMinute p io) :=
  inferInstanceAs (Decidable (_ ∧ _ ∧ _))

/-- The passes over the device list by the clock: when the last one ended, and how much
longer than `list_mstime` each they have taken together, waits included. -/
structure PassTimes where
  ended : Option Int := none
  overrun : Int := 0
deriving DecidableEq

/-- The overrun with the time that has gone by since the last pass ended. -/
def PassTimes.overrunAt (times : PassTimes) (now : Int) : Int :=
  times.overrun + (now - times.ended.getD now)

/-- The count starts with the end of the first pass. It starts over at the time that the
safety check puts a read off to. -/
def PassTimes.next (info : TtyInfo) (now : Int) (times : PassTimes) : PassTimes :=
  if info.TooClose now then ⟨some (info.lmt + info.minMstime), 0⟩
  else if info.PassEnds now then ⟨some now, times.overrunAt now - info.listMstime⟩
  else times

theorem PassTimes.next_tooClose {info : TtyInfo} {now : Int} (close : info.TooClose now)
    (times : PassTimes) : times.next info now = ⟨some (info.lmt + info.minMstime), 0⟩ := by
  rw [PassTimes.next, if_pos close]

theorem PassTimes.next_passEnds {info : TtyInfo} {now : Int} (ends : info.PassEnds now)
    (times : PassTimes) :
    times.next info now = ⟨some now, times.overrunAt now - info.listMstime⟩ := by
  rw [PassTimes.next, if_neg ends.1, if_pos ends]

theorem PassTimes.next_inside {info : TtyInfo} {now : Int} (far : ¬ info.TooClose now)
    (inside : ¬ info.PassEnds now) (times : PassTimes) : times.next info now = times := by
  rw [PassTimes.next, if_neg far, if_neg inside]

/-- The process, with its passes timed. -/
structure TimedPoller where
  poller : Poller
  times : PassTimes := {}

def TimedPoller.step (lib : ParseLib) (p : TimedPoller) (io : CheckIo) : TimedPoller :=
  ⟨p.poller.step lib io, p.times.next p.poller.sys.info io.now⟩

/-- The passes keep up with `list_mstime`: where one ends, and where the first read of the
next one is over, they have not overrun it by more than 2^31 ms. -/
structure KeepsUp (p : TimedPoller) (io : CheckIo) : Prop where
  passEnd : p.poller.sys.info.PassEnds io.now →
    p.times.overrunAt io.now ≤ p.poller.sys.info.listMstime + 2 ^ 31
  firstRead : p.poller.sys.info.AtStart → ¬ p.poller.sys.info.TooClose io.now →
    p.poller.sys.info.nmt io.now ≤ io.now → ∀ idInfo ∈ (getNextIdInfo p.poller.sys.info).1,
    io.read.Completes idInfo (getNextIdInfo p.poller.sys.info).2.idListSubIndex →
    p.times.overrunAt io.done ≤ 2 ^ 31

instance (p : TimedPoller) (io : CheckIo) : Decidable (KeepsUp p io) :=
  decidable_of_iff ((p.poller.sys.info.PassEnds io.now →
      p.times.overrunAt io.now ≤ p.poller.sys.info.listMstime + 2 ^ 31) ∧
    (p.poller.sys.info.AtStart → ¬ p.poller.sys.info.TooClose io.now →
      p.poller.sys.info.nmt io.now ≤ io.now → ∀ idInfo ∈ (getNextIdInfo p.poller.sys.info).1,
      io.read.Completes idInfo (getNextIdInfo p.poller.sys.info).2.idListSubIndex →
      p.times.overrunAt io.done ≤ 2 ^ 31))
    ⟨fun ⟨passEnd, firstRead⟩ => ⟨passEnd, firstRead⟩,
      fun keepsUp => ⟨keepsUp.passEnd, keepsUp.firstRead⟩⟩

/-- Where the safety check puts a read off, `min_mstime` is less than 2^31 ms, and the
epoch it counts from without an earlier read is not ahead. -/
structure PutOffFits (p : TimedPoller) (io : CheckIo) : Prop where
  min : p.poller.sys.info.TooClose io.now → p.poller.sys.info.minMstime < 2 ^ 31
  epoch : p.poller.sys.info.TooClose io.now → p.poller.sys.info.lastModbusTime = none → 0 ≤ io.now

instance (p : TimedPoller) (io : CheckIo) : Decidable (PutOffFits p io) :=
  decidable_of_iff ((p.poller.sys.info.TooClose io.now → p.poller.sys.info.minMstime < 2 ^ 31) ∧
    (p.poller.sys.info.TooClose io.now → p.poller.sys.info.lastModbusTime = none → 0 ≤ io.now))
    ⟨fun ⟨min, epoch⟩ => ⟨min, epoch⟩, fun fits => ⟨fits.min, fits.epoch⟩⟩

theorem Poller.step_clock (lib : ParseLib) (p : Poller) (io : CheckIo) :
    (p.step lib io).clock = io.done := by
  unfold Poller.step
  split
  · split <;> rfl
  · rfl

theorem Poller.step_ran {lib : ParseLib} {p : Poller} {io : CheckIo}
    (stays : (p.step lib io).running = true) : p.running = true := by
  by_contra stopped
  rw [Poller.step, if_neg stopped] at stays
  exact stopped stays

theorem Poller.step_ok {lib : ParseLib} {p : Poller} {io : CheckIo} {timeout : Int} {t : Sys}
    (running : p.running = true) (ended : checkModbus lib io p.sys = .ok timeout t) :
    p.step lib io = ⟨t, io.done, true⟩ := by
  simp only [Poller.step, running, ↓reduceIte, ended]
  rfl

theorem castTimeout_ok {value : Int} (fits : FitsI32 value) (s : Sys) :
    castTimeout value s = .ok (max value 0) (s.emit (.cast value)) := by
  simp only [castTimeout, modify_bind, intCastI32_of_fits fits, orAbort_some, pure_bind_run,
    pure_run]

theorem processTtyIdInfo_completes {lib : ParseLib} {io : ReadIo} {idInfo : TtyIdInfo} {s t : Sys}
    (ended : processTtyIdInfo lib io idInfo s = .ok () t) :
    io.Completes idInfo s.info.idListSubIndex := by
  unfold processTtyIdInfo at ended
  rw [modify_bind] at ended
  by_cases selected : io.setSlave = 0
  · refine ⟨selected, ?_⟩
    intro kind isKind
    have same : (noteCall io idInfo s).info.idListSubIndex = s.info.idListSubIndex := rfl
    simp only [selected, decide_true, Proc.guard_true, pure_bind_run, read_bind, same, isKind,
      readRegisters] at ended
    by_contra short
    simp only [short, decide_false, Proc.guard_false, fail_bind] at ended
    cases ended
  · simp only [selected, decide_false, Proc.guard_false, fail_bind] at ended
    cases ended

/-- Every value fitted. The reference of the passes is behind by what they have overrun, and
the next read is at most a minute behind, unless it is the first of a pass. -/
structure Paced (clock : Int) (times : PassTimes) (s : Sys) : Prop where
  fit : CastsFit s.trace
  item : 0 ≤ s.info.itemMstime ∧ s.info.itemMstime < 2 ^ 31
  list : 0 ≤ s.info.listMstime ∧ s.info.listMstime < 2 ^ 31
  last : ∀ time ∈ s.info.lastModbusTime, time ≤ clock
  reference : ∀ now, s.info.fmt now = now - times.overrunAt now
  begun : ∀ start ∈ s.info.firstModbusTime,
    start ≤ clock ∨ ∃ time ∈ s.info.nextModbusTime, start ≤ time
  near : ∀ time ∈ s.info.nextModbusTime, time < clock + 2 ^ 31
  atStart : s.info.AtStart → s.info.nextModbusTime = s.info.firstModbusTime
  inside : ¬ s.info.AtStart → ∀ time ∈ s.info.nextModbusTime, clock < time + 60000

theorem paced_blind (clock : Int) (times : PassTimes) : PeerBlind (Paced clock times) where
  peers _ _ _ paced := ⟨paced.fit, paced.item, paced.list, paced.last, paced.reference,
    paced.begun, paced.near, paced.atStart, paced.inside⟩
  traffic s event isTraffic paced := by
    cases event <;> first
      | exact ⟨paced.fit, paced.item, paced.list, paced.last, paced.reference, paced.begun,
          paced.near, paced.atStart, paced.inside⟩
      | cases isTraffic

namespace Paced

variable {clock now : Int} {times : PassTimes} {s : Sys}

theorem fmt_le (paced : Paced clock times s) (forward : clock ≤ now)
    (due : s.info.nmt now ≤ now) : s.info.fmt now ≤ now := by
  unfold TtyInfo.fmt
  cases first : s.info.firstModbusTime with
  | none => exact Int.le_refl now
  | some start =>
      rw [Option.getD_some]
      rcases paced.begun start first with past | ⟨time, isNext, before⟩
      · omega
      · have nmt : s.info.nmt now = time := by rw [TtyInfo.nmt, isNext, Option.getD_some]
        omega

/-- The first read of a pass is due at its reference. -/
theorem nmt_eq (paced : Paced clock times s) (start : s.info.AtStart) :
    s.info.nmt now = s.info.fmt now := by
  rw [TtyInfo.nmt, TtyInfo.fmt, paced.atStart start]

theorem nmt_lt (paced : Paced clock times s) (waits : ¬ s.info.nmt now ≤ now) :
    s.info.nmt now < clock + 2 ^ 31 := by
  unfold TtyInfo.nmt at waits ⊢
  cases next : s.info.nextModbusTime with
  | none =>
      rw [next, Option.getD_none] at waits
      omega
  | some time =>
      rw [Option.getD_some]
      exact paced.near time next

/-- Any other read is due about when it is made. -/
theorem lt_nmt (paced : Paced clock times s) (inside : ¬ s.info.AtStart)
    (soon : now < clock + 60000) : now < s.info.nmt now + 120000 := by
  unfold TtyInfo.nmt
  cases next : s.info.nextModbusTime with
  | none =>
      rw [Option.getD_none]
      omega
  | some time =>
      have behind := paced.inside inside time next
      rw [Option.getD_some]
      omega

theorem lmt_le (paced : Paced clock times s) (forward : clock ≤ now)
    (epoch : s.info.lastModbusTime = none → 0 ≤ now) : s.info.lmt ≤ now := by
  unfold TtyInfo.lmt
  cases last : s.info.lastModbusTime with
  | none => exact epoch last
  | some time =>
      have past := paced.last time last
      rw [Option.getD_some]
      omega

theorem overrunAt_later (paced : Paced clock times s) (now later : Int) :
    times.overrunAt later = times.overrunAt now + (later - now) ∨ times.overrunAt now = 0 := by
  cases ended : times.ended with
  | some time =>
      left
      simp only [PassTimes.overrunAt, ended, Option.getD_some]
      omega
  | none =>
      right
      have today := paced.reference now
      have tomorrow := paced.reference (now + 1)
      simp only [PassTimes.overrunAt, ended, Option.getD_none, TtyInfo.fmt] at today tomorrow ⊢
      cases first : s.info.firstModbusTime with
      | none =>
          rw [first, Option.getD_none] at today
          omega
      | some start =>
          rw [first, Option.getD_some] at today tomorrow
          omega

theorem last_le {later : Int} (paced : Paced clock times s) (forward : clock ≤ later) :
    ∀ time ∈ s.info.lastModbusTime, time ≤ later := by
  intro time isLast
  have past := paced.last time isLast
  omega

end Paced

/-- A pass is to start at `due`. -/
theorem paced_setDue {clock due now : Int} {times : PassTimes} {s : Sys} (fit : CastsFit s.trace)
    (item : 0 ≤ s.info.itemMstime ∧ s.info.itemMstime < 2 ^ 31)
    (list : 0 ≤ s.info.listMstime ∧ s.info.listMstime < 2 ^ 31)
    (last : ∀ time ∈ s.info.lastModbusTime, time ≤ clock) (fits : FitsI32 (due - now))
    (reference : ∀ now, due = now - times.overrunAt now) (near : due < clock + 2 ^ 31)
    (inside : ¬ s.info.AtStart → clock < due + 60000) :
    Paced clock times ((setDue due s).emit (.cast (due - now))) := by
  refine ⟨⟨fits, fit⟩, item, list, last, reference, ?_, ?_, fun _ => rfl, ?_⟩
  · intro time isFirst
    exact .inr ⟨time, isFirst, Int.le_refl time⟩
  · intro time isNext
    obtain rfl := Option.some.inj isNext
    exact near
  · intro behind time isNext
    obtain rfl := Option.some.inj isNext
    exact inside behind

section Calls

variable {io : CheckIo} {p : TimedPoller}

theorem putOff_paced (paced : Paced p.poller.clock p.times p.poller.sys)
    (forward : WithinMinute p.poller io) (putOff : PutOffFits p io)
    (close : p.poller.sys.info.TooClose io.now) :
    Paced io.done (p.times.next p.poller.sys.info io.now)
      ((setDue (p.poller.sys.info.lmt + p.poller.sys.info.minMstime) p.poller.sys).emit
        (.cast (p.poller.sys.info.lmt + p.poller.sys.info.minMstime - io.now))) := by
  obtain ⟨⟨start, stop⟩, soon, short⟩ := forward
  have bound := putOff.min close
  have before := paced.lmt_le start (putOff.epoch close)
  have recent : io.now - p.poller.sys.info.lmt < p.poller.sys.info.minMstime := close.2
  rw [PassTimes.next_tooClose close]
  apply paced_setDue paced.fit paced.item paced.list (paced.last_le (Int.le_trans start stop))
  · exact ⟨by omega, by omega⟩
  · intro now
    simp only [PassTimes.overrunAt, Option.getD_some]
    omega
  · omega
  · omega

theorem noteCall_paced {idInfo : TtyIdInfo} (paced : Paced p.poller.clock p.times p.poller.sys)
    (forward : WithinMinute p.poller io) (far : ¬ p.poller.sys.info.TooClose io.now)
    (due : p.poller.sys.info.nmt io.now ≤ io.now)
    (found : (getNextIdInfo p.poller.sys.info).1 = some idInfo) :
    Paced io.done (p.times.next p.poller.sys.info io.now)
      (noteCall io.read idInfo
        (setNext (io.now + p.poller.sys.info.itemMstime) (takeNext p.poller.sys))) := by
  obtain ⟨⟨start, stop⟩, soon, short⟩ := forward
  have item := paced.item
  have begun := paced.fmt_le start due
  have inside : ¬ (takeNext p.poller.sys).info.AtStart := fun atStart =>
    nextFrom_found found atStart.2
  have goesOn : ¬ p.poller.sys.info.PassEnds io.now := by
    intro ended
    rw [ended.2.2] at found
    cases found
  rw [PassTimes.next_inside far goesOn]
  refine ⟨paced.fit, item, paced.list, paced.last_le (Int.le_trans start stop), paced.reference,
    ?_, ?_, fun atStart => absurd atStart inside, ?_⟩
  · intro time isFirst
    have fmt : p.poller.sys.info.fmt io.now = time := by
      rw [TtyInfo.fmt, show p.poller.sys.info.firstModbusTime = some time from isFirst,
        Option.getD_some]
    left
    omega
  · intro time isNext
    obtain rfl := Option.some.inj isNext
    omega
  · intro _ time isNext
    obtain rfl := Option.some.inj isNext
    omega

theorem setLast_paced {lib : ParseLib} {idInfo : TtyIdInfo} {times : PassTimes} {t : Sys}
    (paced : Paced p.poller.clock p.times p.poller.sys)
    (forward : WithinMinute p.poller io) (keepsUp : KeepsUp p io)
    (far : ¬ p.poller.sys.info.TooClose io.now) (due : p.poller.sys.info.nmt io.now ≤ io.now)
    (found : (getNextIdInfo p.poller.sys.info).1 = some idInfo) (kept : Paced io.done times t)
    (ended : processTtyIdInfo lib io.read idInfo
      (setNext (io.now + p.poller.sys.info.itemMstime) (takeNext p.poller.sys)) = .ok () t) :
    Paced io.done times
      ((setLast io.done t).emit (.cast (p.poller.sys.info.nmt io.now - io.done))) := by
  obtain ⟨⟨start, stop⟩, soon, short⟩ := forward
  have fits : FitsI32 (p.poller.sys.info.nmt io.now - io.done) := by
    by_cases atStart : p.poller.sys.info.AtStart
    · have bound := keepsUp.firstRead atStart far due idInfo found
        (processTtyIdInfo_completes ended)
      have reference := paced.reference io.now
      rw [← paced.nmt_eq atStart] at reference
      have later := paced.overrunAt_later io.now io.done
      unfold FitsI32
      omega
    · have behind := paced.lt_nmt atStart soon
      unfold FitsI32
      omega
  refine ⟨⟨fits, kept.fit⟩, kept.item, kept.list, ?_, kept.reference, kept.begun, kept.near,
    kept.atStart, kept.inside⟩
  intro time isLast
  obtain rfl := Option.some.inj isLast
  exact Int.le_refl _

theorem passEnd_paced (paced : Paced p.poller.clock p.times p.poller.sys)
    (forward : WithinMinute p.poller io) (keepsUp : KeepsUp p io)
    (ends : p.poller.sys.info.PassEnds io.now) :
    Paced io.done (p.times.next p.poller.sys.info io.now)
      ((setDue (p.poller.sys.info.fmt io.now + p.poller.sys.info.listMstime)
        (takeNext p.poller.sys)).emit
          (.cast (p.poller.sys.info.fmt io.now + p.poller.sys.info.listMstime - io.now))) := by
  obtain ⟨⟨start, stop⟩, soon, short⟩ := forward
  have list := paced.list
  have begun := paced.fmt_le start ends.2.1
  have reference := paced.reference io.now
  have bound := keepsUp.passEnd ends
  have position : (takeNext p.poller.sys).info.AtStart := by
    have counters := nextFrom_ended ends.2.2
    exact ⟨congrArg Prod.fst counters, congrArg Prod.snd counters⟩
  rw [PassTimes.next_passEnds ends]
  apply paced_setDue (s := takeNext p.poller.sys) paced.fit paced.item list
    (paced.last_le (Int.le_trans start stop))
  · exact ⟨by omega, by omega⟩
  · intro now
    simp only [PassTimes.overrunAt, Option.getD_some] at reference ⊢
    omega
  · omega
  · exact fun inside => absurd position inside

theorem idle_paced (paced : Paced p.poller.clock p.times p.poller.sys)
    (forward : WithinMinute p.poller io) (waits : ¬ p.poller.sys.info.nmt io.now ≤ io.now) :
    Paced io.done (p.times.next p.poller.sys.info io.now)
      (p.poller.sys.emit (.cast (p.poller.sys.info.nmt io.now - io.now))) := by
  obtain ⟨⟨start, stop⟩, soon, short⟩ := forward
  have upper := paced.nmt_lt waits
  rw [PassTimes.next_inside (fun close => waits close.1) fun ended => waits ended.2.1]
  refine ⟨⟨⟨by omega, by omega⟩, paced.fit⟩, paced.item, paced.list,
    paced.last_le (Int.le_trans start stop), paced.reference, ?_, ?_, paced.atStart, ?_⟩
  · intro time isFirst
    rcases paced.begun time isFirst with past | later
    · left
      omega
    · exact .inr later
  · intro time isNext
    have before := paced.near time isNext
    omega
  · intro _ time isNext
    have nmt : p.poller.sys.info.nmt io.now = time := by
      rw [TtyInfo.nmt, show p.poller.sys.info.nextModbusTime = some time from isNext,
        Option.getD_some]
    omega

/-- A call keeps the schedule paced, however it ends. -/
theorem checkModbus_paced (lib : ParseLib) (paced : Paced p.poller.clock p.times p.poller.sys)
    (forward : WithinMinute p.poller io) (putOff : PutOffFits p io) (keepsUp : KeepsUp p io) :
    Leads (Paced io.done (p.times.next p.poller.sys.info io.now))
      (Paced io.done (p.times.next p.poller.sys.info io.now))
      (checkModbus lib io p.poller.sys) := by
  apply checkModbus_rule lib io (paced_blind io.done (p.times.next p.poller.sys.info io.now))
  · exact fun t kept => kept
  · exact putOff_paced paced forward putOff
  · exact fun far due idInfo found => noteCall_paced paced forward far due found
  · exact fun t kept => kept
  · exact fun far due idInfo found t kept ended =>
      setLast_paced paced forward keepsUp far due found kept ended
  · exact fun far due found => passEnd_paced paced forward keepsUp ⟨far, due, found⟩
  · exact idle_paced paced forward

end Calls

/-- Every value fitted, and the schedule is paced until the process aborts. -/
structure InRange (p : TimedPoller) : Prop where
  fit : CastsFit p.poller.sys.trace
  paced : p.poller.running = true → Paced p.poller.clock p.times p.poller.sys

theorem step_inRange (lib : ParseLib) (p : TimedPoller) (io : CheckIo)
    (ok : p.poller.running = true →
      (WithinMinute p.poller io ∧ PutOffFits p io) ∧ KeepsUp p io) (holds : InRange p) :
    InRange (p.step lib io) := by
  unfold TimedPoller.step Poller.step
  cases running : p.poller.running with
  | false =>
      exact ⟨holds.fit, nofun⟩
  | true =>
      obtain ⟨⟨forward, putOff⟩, keepsUp⟩ := ok running
      have checked := checkModbus_paced lib (holds.paced running) forward putOff keepsUp
      have reached := checked.state fun _ kept => kept
      simp only [↓reduceIte]
      split
      · rename_i t ended
        rw [ended] at reached
        exact ⟨reached.fit, nofun⟩
      · exact ⟨reached.fit, fun _ => reached⟩

theorem exec_poller (lib : ParseLib) (p : TimedPoller) (inputs : List CheckIo) :
    (Runs.exec (TimedPoller.step lib) p inputs).poller =
      Runs.exec (Poller.step lib) p.poller inputs := by
  induction inputs generalizing p with
  | nil => rfl
  | cons io rest ih => exact ih (p.step lib io)

/-- Before the first call no pass has ended. -/
def TimedPoller.initial (config : Config) (peers : List TtyPeerInfo) (minMstime : Nat)
    (clock : Int) : TimedPoller :=
  { poller := Poller.initial config peers minMstime clock }

theorem initial_inRange {config : Config}
    (item : 0 ≤ config.itemMstime ∧ config.itemMstime < 2 ^ 31)
    (list : 0 ≤ config.listMstime ∧ config.listMstime < 2 ^ 31) (peers : List TtyPeerInfo)
    (minMstime : Nat) (clock : Int) :
    InRange (TimedPoller.initial config peers minMstime clock) := by
  have reference (now : Int) : now = now - (0 + (now - now)) := by omega
  exact ⟨trivial, fun _ => ⟨trivial, item, list, nofun, reference, nofun, nofun, fun _ => rfl,
    fun inside => absurd ⟨rfl, rfl⟩ inside⟩⟩

/-- The timeout is in range in every run whose passes keep up with `list_mstime`. -/
theorem casts_fit (lib : ParseLib) (config : Config)
    (item : 0 ≤ config.itemMstime ∧ config.itemMstime < 2 ^ 31)
    (list : 0 ≤ config.listMstime ∧ config.listMstime < 2 ^ 31) (peers : List TtyPeerInfo)
    (minMstime : Nat) (clock : Int) (inputs : List CheckIo)
    (forward : Runs.Admits (TimedPoller.step lib) (fun p => WithinMinute p.poller)
      (TimedPoller.initial config peers minMstime clock) inputs)
    (putOff : Runs.Admits (TimedPoller.step lib) PutOffFits
      (TimedPoller.initial config peers minMstime clock) inputs)
    (keepsUp : Runs.Admits (TimedPoller.step lib) KeepsUp
      (TimedPoller.initial config peers minMstime clock) inputs) :
    CastsFit (Runs.exec (Poller.step lib)
      (Poller.initial config peers minMstime clock) inputs).sys.trace := by
  have start := initial_inRange item list peers minMstime clock
  have reached := Runs.exec_keeps (fun p io ok => step_inRange lib p io fun _ => ok)
    ((forward.and putOff).and keepsUp) start
  have same := exec_poller lib (TimedPoller.initial config peers minMstime clock) inputs
  rw [show Poller.initial config peers minMstime clock =
    (TimedPoller.initial config peers minMstime clock).poller from rfl, ← same]
  exact reached.fit

/-- Since a time that is not ahead of the clock, the passes have not overrun by more than the
clock has advanced. -/
structure InRangeSince (origin : Int) (p : TimedPoller) : Prop where
  inRange : InRange p
  past : p.poller.running = true → origin ≤ p.poller.clock
  overrun : p.poller.running = true → ∀ now, p.poller.clock ≤ now →
    p.times.overrunAt now ≤ now - origin

theorem overrunAt_next_le {origin clock now later : Int} {info : TtyInfo} {times : PassTimes}
    (past : origin ≤ clock) (list : 0 ≤ info.listMstime)
    (overrun : ∀ now, clock ≤ now → times.overrunAt now ≤ now - origin)
    (start : clock ≤ now) (stop : now ≤ later) :
    (times.next info now).overrunAt later ≤ later - origin := by
  by_cases close : info.TooClose now
  · have recent : now - info.lmt < info.minMstime := close.2
    rw [PassTimes.next_tooClose close]
    simp only [PassTimes.overrunAt, Option.getD_some]
    omega
  · by_cases ends : info.PassEnds now
    · have ended := overrun now start
      rw [PassTimes.next_passEnds ends]
      simp only [PassTimes.overrunAt, Option.getD_some] at ended ⊢
      omega
    · rw [PassTimes.next_inside close ends]
      exact overrun later (Int.le_trans start stop)

theorem step_inRangeSince (lib : ParseLib) {origin : Int} (p : TimedPoller) (io : CheckIo)
    (ok : (WithinMinute p.poller io ∧ PutOffFits p io) ∧ io.done ≤ origin + 2 ^ 31)
    (holds : InRangeSince origin p) : InRangeSince origin (p.step lib io) := by
  obtain ⟨⟨forward, putOff⟩, short⟩ := ok
  obtain ⟨start, stop⟩ := forward.1
  have clock : (p.poller.step lib io).clock = io.done := p.poller.step_clock lib io
  refine ⟨?_, ?_, ?_⟩
  · apply step_inRange lib p io _ holds.inRange
    intro running
    have overrun := holds.overrun running
    have list := (holds.inRange.paced running).list
    refine ⟨⟨forward, putOff⟩, ?_, ?_⟩
    · intro _
      have ended := overrun io.now start
      omega
    · intro _ _ _ _ _ _
      have read := overrun io.done (Int.le_trans start stop)
      omega
  · intro stays
    have before := holds.past (Poller.step_ran stays)
    show _ ≤ (p.poller.step lib io).clock
    omega
  · intro stays now later
    have ran := Poller.step_ran stays
    replace later : (p.poller.step lib io).clock ≤ now := later
    exact overrunAt_next_le (holds.past ran) (holds.inRange.paced ran).list.1 (holds.overrun ran)
      start (by omega)

/-- In the first 2^31 ms of a run, 24 days, the passes keep up whatever they take. -/
theorem casts_fit_early (lib : ParseLib) (config : Config)
    (item : 0 ≤ config.itemMstime ∧ config.itemMstime < 2 ^ 31)
    (list : 0 ≤ config.listMstime ∧ config.listMstime < 2 ^ 31) (peers : List TtyPeerInfo)
    (minMstime : Nat) (clock : Int) (inputs : List CheckIo)
    (forward : Runs.Admits (TimedPoller.step lib) (fun p => WithinMinute p.poller)
      (TimedPoller.initial config peers minMstime clock) inputs)
    (putOff : Runs.Admits (TimedPoller.step lib) PutOffFits
      (TimedPoller.initial config peers minMstime clock) inputs)
    (early : ∀ io ∈ inputs, io.done ≤ clock + 2 ^ 31) :
    CastsFit (Runs.exec (Poller.step lib)
      (Poller.initial config peers minMstime clock) inputs).sys.trace := by
  have start : InRangeSince clock (TimedPoller.initial config peers minMstime clock) := by
    refine ⟨initial_inRange item list peers minMstime clock, fun _ => Int.le_refl clock, ?_⟩
    intro _ now later
    replace later : clock ≤ now := later
    show 0 + (now - now) ≤ now - clock
    omega
  have reached := Runs.exec_keeps (step_inRangeSince lib)
    ((forward.and putOff).and (Runs.admits_of_forall early)) start
  have same := exec_poller lib (TimedPoller.initial config peers minMstime clock) inputs
  rw [show Poller.initial config peers minMstime clock =
    (TimedPoller.initial config peers minMstime clock).poller from rfl, ← same]
  exact reached.inRange.fit

/-- One device, read again as soon as a pass is over. -/
def noPause : Config := { idList := [{ id := 1, readCount := 1 }] }

/-- The clock at the call with this number, almost a minute after the last one. -/
def tickTime (number : Nat) : Int := 1000000 + 59999 * number

def tick (number : Nat) : CheckIo :=
  let now := tickTime number
  { now := now, read := { answered now now with nodes := [number] }, done := now }

/-- Consecutive calls, from the one with this number on. -/
def ticks (number : Nat) : Nat → List CheckIo
  | 0 => []
  | count + 1 => tick number :: ticks (number + 1) count

def connected : List TtyPeerInfo := [{ sck := 5 }]

/-- The values that were converted, the last one first. -/
def converted (trace : List Event) : List Int :=
  trace.filterMap fun event =>
    match event with
    | .cast value => some value
    | _ => none

/-- Of three passes the second and the third overrun by almost two minutes each. -/
theorem casts_fit_tick :
    let times := (Runs.exec (TimedPoller.step Parse.reference)
      (TimedPoller.initial noPause connected 500 1000000) (ticks 0 6)).times
    let trace := (Runs.exec (Poller.step Parse.reference)
      (Poller.initial noPause connected 500 1000000) (ticks 0 6)).sys.trace
    times = ⟨some (tickTime 5), 4 * 59999⟩ ∧
      converted trace = [-239996, -179997, -119998, -59999, 0, 0] ∧ CastsFit trace := by
  refine ⟨by decide +kernel, by decide +kernel, ?_⟩
  apply casts_fit Parse.reference noPause (by decide) (by decide) connected 500 1000000
  · decide +kernel
  · decide +kernel
  · decide +kernel

/-- A device with two kinds of registers. -/
def withPauses : Config :=
  { idList := [{ id := 1, readCount := 1, readInputCount := 1 }]
    itemMstime := 250, listMstime := 2000 }

/-- A call whose read takes 20 ms. -/
def callAt (number : Nat) (now : Int) : CheckIo :=
  { now := now, read := { answered now (now + 20) with nodes := [number] }, done := now + 20 }

/-- The third call comes too close to the second read, so the end of the pass is put off. -/
def daytime : List CheckIo :=
  [callAt 0 1000000, callAt 1 1000600, callAt 2 1000900, callAt 3 1001200, callAt 4 1003300]

theorem casts_fit_early_daytime :
    let trace := (Runs.exec (Poller.step Parse.reference)
      (Poller.initial withPauses connected 500 1000000) daytime).sys.trace
    converted trace = [-200, 1920, 220, -370, -20] ∧ CastsFit trace := by
  refine ⟨by decide +kernel, ?_⟩
  apply casts_fit_early Parse.reference withPauses (by decide) (by decide) connected 500 1000000
  · decide +kernel
  · decide +kernel
  · decide +kernel

theorem ticks_withinMinute (lib : ParseLib) (count : Nat) :
    ∀ number (p : Poller), p.clock ≤ tickTime number → tickTime number < p.clock + 60000 →
      Runs.Admits (Poller.step lib) WithinMinute p (ticks number count) := by
  induction count with
  | zero => exact fun _ _ _ _ => trivial
  | succ count ih =>
      intro number p before soon
      have clock : (p.step lib (tick number)).clock = tickTime number :=
        p.step_clock lib (tick number)
      have short : tickTime number < tickTime number + 60000 := by omega
      refine ⟨⟨⟨before, Int.le_refl _⟩, soon, short⟩, ih (number + 1) _ ?_ ?_⟩
      · rw [clock]
        unfold tickTime
        omega
      · rw [clock]
        unfold tickTime
        omega

/-- The one device before its read or after it, with these times. -/
structure Between (sub : Nat) (last next first : Option Int) (p : Poller) : Prop where
  running : p.running = true
  peers : p.sys.info.peerList.length = 1
  idList : p.sys.info.idList = [{ id := 1, readCount := 1 }]
  item : p.sys.info.itemMstime = 0
  list : p.sys.info.listMstime = 0
  index : p.sys.info.idListIndex = 0
  sub : p.sys.info.idListSubIndex = sub
  min : p.sys.info.minMstime = 500
  last : p.sys.info.lastModbusTime = last
  next : p.sys.info.nextModbusTime = next
  first : p.sys.info.firstModbusTime = first

namespace Between

variable {sub : Nat} {last next first : Option Int} {p : Poller}

theorem not_close (here : Between sub last next first p) {now : Int}
    (far : 500 ≤ now - last.getD 0) : ¬ p.sys.info.TooClose now := by
  intro close
  have recent : now - p.sys.info.lmt < p.sys.info.minMstime := close.2
  rw [TtyInfo.lmt, here.last, here.min] at recent
  omega

theorem due (here : Between sub last next first p) {now : Int} (due : next.getD now ≤ now) :
    p.sys.info.nmt now ≤ now := by
  rw [TtyInfo.nmt, here.next]
  exact due

theorem taken (here : Between sub last next first p) {item : Option TtyIdInfo} {later : Nat}
    (found : nextFrom [{ id := 1, readCount := 1 }] 0 sub = (item, 0, later)) :
    (getNextIdInfo p.sys.info).1 = item ∧
      Between later last next first { p with sys := takeNext p.sys } := by
  have returned : getNextIdInfo p.sys.info =
      (item, { p.sys.info with idListIndex := 0, idListSubIndex := later }) := by
    simp only [getNextIdInfo, here.idList, here.index, here.sub, found]
  have info : (takeNext p.sys).info =
      { p.sys.info with idListIndex := 0, idListSubIndex := later } := by
    simp only [takeNext, returned]
  refine ⟨by rw [returned], here.running, ?_, ?_, ?_, ?_, ?_, ?_, ?_, ?_, ?_, ?_⟩
  · simpa only [info] using here.peers
  · simpa only [info] using here.idList
  · simpa only [info] using here.item
  · simpa only [info] using here.list
  · simp only [info]
  · simp only [info]
  · simpa only [info] using here.min
  · simpa only [info] using here.last
  · simpa only [info] using here.next
  · simpa only [info] using here.first

theorem read (here : Between 0 last next first p) (number : Nat) (lib : ParseLib)
    (far : 500 ≤ tickTime number - last.getD 0)
    (isDue : next.getD (tickTime number) ≤ tickTime number)
    (fits : FitsI32 (next.getD (tickTime number) - tickTime number)) :
    Between 1 (some (tickTime number)) (some (tickTime number)) first
      (p.step lib (tick number)) := by
  obtain ⟨found, there⟩ := here.taken (show _ = (some { id := 1, readCount := 1 }, 0, 1) by
    decide +kernel)
  have called : checkModbus lib (tick number) p.sys = _ :=
    checkModbus_call lib (here.not_close far) (here.due isDue) found
  have nmt : p.sys.info.nmt (tick number).now = next.getD (tickTime number) := by
    rw [TtyInfo.nmt, here.next]
    rfl
  have isKind : selectKind (takeNext p.sys).info.idListSubIndex = some .holding := by
    rw [there.sub]
    rfl
  have enough : (takeNext p.sys).info.peerList.length ≤ 1 := Nat.le_of_eq there.peers
  obtain ⟨heap, peers, trace, ran, same⟩ := processTtyIdInfo_ok lib (tick number).read
    { id := 1, readCount := 1 }
    (setNext ((tick number).now + p.sys.info.itemMstime) (takeNext p.sys)) rfl isKind rfl
    (by decide) enough
  rw [bind_of_ok ran, modify_bind, nmt] at called
  rw [Poller.step_ok here.running (called.trans (castTimeout_ok fits _))]
  have next : tickTime number + p.sys.info.itemMstime = tickTime number := by
    rw [here.item, Int.add_zero]
  exact ⟨rfl, same.trans there.peers, there.idList, there.item, there.list, there.index, there.sub,
    there.min, rfl, congrArg some next, there.first⟩

theorem ends (here : Between 1 last next first p) (number : Nat) (lib : ParseLib)
    (far : 500 ≤ tickTime number - last.getD 0)
    (isDue : next.getD (tickTime number) ≤ tickTime number) :
    Between 0 last next first { p with sys := takeNext p.sys } ∧
      checkModbus lib (tick number) p.sys =
        castTimeout (first.getD (tickTime number) - tickTime number)
          (setDue (first.getD (tickTime number)) (takeNext p.sys)) := by
  obtain ⟨found, there⟩ := here.taken (show _ = (none, 0, 0) by decide +kernel)
  have fmt : p.sys.info.fmt (tick number).now + p.sys.info.listMstime =
      first.getD (tickTime number) := by
    rw [TtyInfo.fmt, here.first, here.list, Int.add_zero]
    rfl
  have ended : checkModbus lib (tick number) p.sys = _ :=
    checkModbus_passEnd lib (here.not_close far) (here.due isDue) found
  rw [fmt] at ended
  exact ⟨there, ended⟩

theorem passEnd (here : Between 1 last next first p) (number : Nat) (lib : ParseLib)
    (far : 500 ≤ tickTime number - last.getD 0)
    (isDue : next.getD (tickTime number) ≤ tickTime number)
    (fits : FitsI32 (first.getD (tickTime number) - tickTime number)) :
    Between 0 last (some (first.getD (tickTime number))) (some (first.getD (tickTime number)))
      (p.step lib (tick number)) := by
  obtain ⟨there, ended⟩ := here.ends number lib far isDue
  rw [Poller.step_ok here.running (ended.trans (castTimeout_ok fits _))]
  exact ⟨rfl, there.peers, there.idList, there.item, there.list, there.index, there.sub,
    there.min, there.last, rfl, rfl⟩

/-- One that does not fit is converted all the same. -/
theorem passEnd_over (here : Between 1 last next first p) (number : Nat) (lib : ParseLib)
    (far : 500 ≤ tickTime number - last.getD 0)
    (isDue : next.getD (tickTime number) ≤ tickTime number)
    (outside : ¬ FitsI32 (first.getD (tickTime number) - tickTime number)) :
    ¬ CastsFit (p.step lib (tick number)).sys.trace := by
  obtain ⟨_, ended⟩ := here.ends number lib far isDue
  have aborted : checkModbus lib (tick number) p.sys = .panic ((setDue (first.getD
      (tickTime number)) (takeNext p.sys)).emit (.cast (first.getD (tickTime number) -
        tickTime number))) := by
    rw [ended, castTimeout, modify_bind, intCastI32_of_not_fits outside, orAbort_none, abort_bind]
  simp only [Poller.step, here.running, ↓reduceIte, aborted]
  intro fit
  exact outside fit.1

end Between

/-- Every pass more falls behind by the time it took. -/
theorem lagging (lib : ParseLib) (more : Nat) :
    ∀ passes (p : Poller), 2 * (passes + more) < 35792 →
      Between 0 (some (tickTime (2 * passes))) (some (tickTime 1)) (some (tickTime 1)) p →
      Between 0 (some (tickTime (2 * (passes + more)))) (some (tickTime 1)) (some (tickTime 1))
        (Runs.exec (Poller.step lib) p (ticks (2 * passes + 2) (2 * more))) := by
  induction more with
  | zero => exact fun _ _ _ here => here
  | succ more ih =>
      intro passes p bound here
      have read := here.read (2 * passes + 2) lib
        (by simp only [tickTime, Option.getD_some]; omega)
        (by simp only [tickTime, Option.getD_some]; omega)
        (by simp only [FitsI32, tickTime, Option.getD_some]; omega)
      have ended := read.passEnd (2 * passes + 3) lib
        (by simp only [tickTime, Option.getD_some]; omega)
        (by simp only [tickTime, Option.getD_some]; omega)
        (by simp only [FitsI32, tickTime, Option.getD_some]; omega)
      have rest := ih (passes + 1) _ (by omega) ended
      rw [show 2 * (more + 1) = 2 * more + 1 + 1 by omega, ticks, ticks, Runs.exec_cons,
        Runs.exec_cons]
      rw [show passes + (more + 1) = passes + 1 + more by omega]
      exact rest

theorem lagging_start (lib : ParseLib) :
    Between 0 (some (tickTime 0)) (some (tickTime 1)) (some (tickTime 1))
      (Runs.exec (Poller.step lib) (Poller.initial noPause connected 500 1000000) (ticks 0 2)) := by
  have here : Between 0 none none none (Poller.initial noPause connected 500 1000000) := by
    constructor <;> rfl
  have read := here.read 0 lib (by decide) (by decide) (by decide)
  exact read.passEnd 1 lib (by decide) (by decide) (by decide)

theorem ticks_append (count more : Nat) :
    ∀ number, ticks number (count + more) = ticks number count ++ ticks (number + count) more := by
  induction count with
  | zero =>
      intro number
      rw [Nat.zero_add, ticks, List.nil_append, Nat.add_zero]
  | succ count ih =>
      intro number
      rw [Nat.succ_add, ticks, ticks, ih (number + 1), List.cons_append]
      rw [show number + 1 + count = number + (count + 1) by omega]

/-- Calls almost a minute apart: the 35794th converts a value below the range. -/
theorem casts_do_not_fit_noPause :
    Runs.Admits (Poller.step Parse.reference) WithinMinute
        (Poller.initial noPause connected 500 1000000) (ticks 0 35794) ∧
      ¬ CastsFit (Runs.exec (Poller.step Parse.reference)
        (Poller.initial noPause connected 500 1000000) (ticks 0 35794)).sys.trace := by
  refine ⟨ticks_withinMinute _ _ _ _ (by decide) (by decide), ?_⟩
  have started := lagging_start Parse.reference
  have lagged := lagging Parse.reference 17895 0 _ (by decide) started
  have read := lagged.read 35792 Parse.reference (by decide) (by decide) (by decide)
  have outside := read.passEnd_over 35793 Parse.reference (by decide) (by decide) (by decide)
  have split : ∀ count, count = 2 + (2 * 17895 + 2) →
      ticks 0 count = ticks 0 2 ++ (ticks (2 * 0 + 2) (2 * 17895) ++
        [tick 35792, tick 35793]) := by
    intro count isCount
    rw [isCount, ticks_append, ticks_append]
    rfl
  rw [split 35794 (by omega), Runs.exec_append, Runs.exec_append, Runs.exec_cons, Runs.exec_cons,
    Runs.exec_nil]
  exact outside

end RenogyX10.TtyReader
