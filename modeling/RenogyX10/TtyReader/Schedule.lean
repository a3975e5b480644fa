import RenogyX10.TtyReader.Blind

set_option autoImplicit false

namespace RenogyX10.TtyReader

open Parse Proc

/-- Everything but the peers. -/
def schedule (s : Sys) : TtyInfo := { s.info with peerList := [] }

/-- No device of the current pass has been read yet. -/
def TtyInfo.AtStart (info : TtyInfo) : Prop := info.idListIndex = 0 ∧ info.idListSubIndex = 0

instance (info : TtyInfo) : Decidable info.AtStart := inferInstanceAs (Decidable (_ ∧ _))

/-- A pass over the device list ends in this call. -/
def TtyInfo.PassEnds (info : TtyInfo) (now : Int) : Prop :=
  ¬ info.TooClose now ∧ info.nmt now ≤ now ∧ (getNextIdInfo info).1 = none

instance (info : TtyInfo) (now : Int) : Decidable (info.PassEnds now) :=
  inferInstanceAs (Decidable (_ ∧ _ ∧ _))

/-- The schedule when a call of `check_modbus` returns. -/
def nextSchedule (io : CheckIo) (info : TtyInfo) : TtyInfo :=
  if info.TooClose io.now then
    { info with
      nextModbusTime := some (info.lmt + info.minMstime)
      firstModbusTime := some (info.lmt + info.minMstime) }
  else if info.nmt io.now ≤ io.now then
    match (getNextIdInfo info).1 with
    | some _ =>
        { (getNextIdInfo info).2 with
          nextModbusTime := some (io.now + info.itemMstime)
          lastModbusTime := some io.done }
    | none =>
        { (getNextIdInfo info).2 with
          nextModbusTime := some (info.fmt io.now + info.listMstime)
          firstModbusTime := some (info.fmt io.now + info.listMstime) }
  else info

theorem schedule_blind (info : TtyInfo) : PeerBlind fun s => schedule s = info where
  peers _ _ _ same := same
  traffic _ _ _ same := same

theorem castTimeout_schedule {value timeout : Int} {s t : Sys}
    (ended : castTimeout value s = .ok timeout t) : schedule t = schedule s := by
  unfold castTimeout at ended
  rw [modify_bind] at ended
  cases fits : Checked.intCastI32 value with
  | none =>
      rw [fits] at ended
      cases ended
  | some cast =>
      rw [fits] at ended
      cases ended
      rfl

theorem getNextIdInfo_schedule (s : Sys) :
    (getNextIdInfo (schedule s)).1 = (getNextIdInfo s.info).1 ∧
      (getNextIdInfo (schedule s)).2 = schedule (takeNext s) := ⟨rfl, rfl⟩

theorem checkModbus_schedule (lib : ParseLib) {io : CheckIo} {s t : Sys} {timeout : Int}
    (ended : checkModbus lib io s = .ok timeout t) :
    schedule t = nextSchedule io (schedule s) := by
  have sameClose : (schedule s).TooClose io.now ↔ s.info.TooClose io.now := Iff.rfl
  have sameDue : (schedule s).nmt io.now = s.info.nmt io.now := rfl
  unfold nextSchedule
  by_cases close : s.info.TooClose io.now
  · rw [if_pos (sameClose.mpr close)]
    rw [checkModbus_tooClose lib close] at ended
    exact castTimeout_schedule ended
  · rw [if_neg (mt sameClose.mp close), sameDue]
    by_cases due : s.info.nmt io.now ≤ io.now
    · rw [if_pos due, (getNextIdInfo_schedule s).1, (getNextIdInfo_schedule s).2]
      cases found : (getNextIdInfo s.info).1 with
      | none =>
          rw [checkModbus_passEnd lib close due found] at ended
          exact castTimeout_schedule ended
      | some idInfo =>
          rw [checkModbus_call lib close due found] at ended
          obtain ⟨_, u, called, ended⟩ := of_bind_ok ended
          have read := (schedule_blind
            (schedule (setNext (io.now + s.info.itemMstime) (takeNext s)))).processTtyIdInfo
            lib io.read idInfo (s := setNext (io.now + s.info.itemMstime) (takeNext s)) rfl
          rw [called] at read
          rw [modify_bind] at ended
          have kept : schedule u = schedule (setNext (io.now + s.info.itemMstime) (takeNext s)) :=
            read
          have last : schedule (setLast io.done u) =
              { schedule u with lastModbusTime := some io.done } := rfl
          rw [castTimeout_schedule ended, last, kept]
          rfl
    · rw [if_neg due]
      rw [checkModbus_idle lib due] at ended
      exact castTimeout_schedule ended

theorem atPoll_schedule (lib : ParseLib) {io : LoopIo} {s t : Sys}
    (peers : s.info.peerList ≠ []) (reached : atPoll lib io s = some t) :
    schedule t = nextSchedule io.check (schedule s) := by
  have some_peer : ¬ s.info.peerList.length = 0 := by simpa using peers
  obtain ⟨value, scheduled⟩ := atPoll_eq_some.mp reached
  unfold scheduleReads at scheduled
  simp only [read_bind, some_peer, ↓reduceIte] at scheduled
  obtain ⟨timeout, u, ended, same⟩ := of_bind_ok scheduled
  cases same
  exact checkModbus_schedule lib ended

theorem ttyMainLoop_schedule (lib : ParseLib) {io : LoopIo} {s u : Sys}
    (ended : ttyMainLoop lib io s = .ok false u) :
    ∃ t, atPoll lib io s = some t ∧ schedule u = schedule t := by
  unfold ttyMainLoop at ended
  obtain ⟨value, t, scheduled, ended⟩ := of_bind_ok ended
  refine ⟨t, atPoll_eq_some.mpr ⟨value, scheduled⟩, ?_⟩
  simp only [read_bind, ite_run] at ended
  split at ended
  · cases ended
  · cases poll : io.poll with
    | failed =>
        rw [poll] at ended
        cases ended
    | timeout =>
        rw [poll] at ended
        cases ended
        rfl
    | ready term hup listen =>
        rw [poll] at ended
        simp only [ite_run] at ended
        split at ended
        · cases ended
        · split at ended
          · cases setup : io.setup <;> (rw [setup] at ended; cases ended)
          · have served := (schedule_blind (schedule t)).servePolled io listen
              (t.info.peerList.map TtyPeerInfo.sck) t rfl
            obtain ⟨_, v, reached, same⟩ := of_bind_ok ended
            rw [reached] at served
            cases same
            exact served

end RenogyX10.TtyReader
