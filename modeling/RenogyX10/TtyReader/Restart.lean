import RenogyX10.TtyReader.Schedule

set_option autoImplicit false

namespace RenogyX10.TtyReader

open Parse Proc

/-- The names are those of the configuration. -/
def Named (config : Config) (s : Sys) : Prop :=
  s.info.tty = config.tty ∧ s.info.listenSocket = config.listenSocket

theorem named_blind (config : Config) : PeerBlind (Named config) where
  peers _ _ _ named := named
  traffic _ _ _ named := named

variable {old : Config} {s : Sys}

theorem checkModbus_named (lib : ParseLib) (io : CheckIo) (named : Named old s) :
    Leads (Named old) (Named old) (checkModbus lib io s) := by
  apply checkModbus_rule lib io (named_blind old)
  · exact fun _ holds => holds
  · exact fun _ => named
  · exact fun _ _ _ _ => named
  · exact fun _ holds => holds
  · exact fun _ _ _ _ _ holds _ => holds
  · exact fun _ _ _ => named
  · exact fun _ => named

theorem scheduleReads_named (lib : ParseLib) (io : CheckIo) (named : Named old s) :
    Leads (Named old) (Named old) (scheduleReads lib io s) := by
  apply scheduleReads_rule
  · exact fun _ => named
  · exact fun _ => checkModbus_named lib io named

theorem atPoll_named (lib : ParseLib) {io : LoopIo} {t : Sys} (named : Named old s)
    (reached : atPoll lib io s = some t) : Named old t := by
  have leads := scheduleReads_named lib io.check named
  obtain ⟨value, ended⟩ := atPoll_eq_some.mp reached
  rw [ended] at leads
  exact leads

/-- Nothing in a run writes the names, a reload included. -/
theorem step_named (lib : ParseLib) (d : Daemon) (input : Input) (named : Named old d.sys) :
    Named old (d.step lib input).sys := by
  obtain ⟨s, ctl, clock⟩ := d
  cases ctl <;> cases input <;> try exact named
  case restart.start io =>
    have kept : Keeps (Named old) (processTtyInfo io) := by
      refine .bind (.guard _ _) fun _ => .bind (.guard _ _) fun _ =>
        .bind (.orAbort _) fun millis => ?_
      exact .bind (.modify fun _ holds => holds) fun _ => .bind (.guard _ _) fun _ => .guard _ _
    unfold Daemon.step
    simp only
    split
    · exact kept s named
    · exact named
  case loop.loop io =>
    have same : ∀ t, Named old t → Named old t := fun _ holds => holds
    exact ((named_blind old).ttyMainLoop same lib io (scheduleReads_named lib io.check named)
      fun _ _ _ holds => holds).state same

/-- What `process_tty_info` stores on its way to the loop. -/
def setMin (millis : Nat) (s : Sys) : Sys := { s with info := { s.info with minMstime := millis } }

theorem processTtyInfo_uniform {io : StartIo} {t u : Sys}
    (entered : processTtyInfo io t = .ok () u) :
    ∃ millis, u = setMin millis t ∧ ∀ s, processTtyInfo io s = .ok () (setMin millis s) := by
  obtain ⟨context, listening, recovery, timeout, sec, usec, connect, debug⟩ := io
  unfold processTtyInfo at entered ⊢
  cases recovery
  · cases entered
  cases timeout
  · cases entered
  cases millis : ((Checked.unsigned 32 (sec * 1000)).bind fun sec =>
    Checked.unsigned 32 (sec + usec / 1000)) with
  | none =>
      simp only [guard_true, pure_bind_run, millis, orAbort_none, abort_bind] at entered
      cases entered
  | some value =>
      simp only [guard_true, pure_bind_run, millis, orAbort_some, modify_bind] at entered ⊢
      cases connect
      · cases entered
      cases debug
      · cases entered
      cases entered
      exact ⟨value, rfl, fun s => rfl⟩

/-- Settings and schedule are those of a process that starts with `config`, also
after both have gone the same way to the loop; the peers and their queues are
what they were. -/
structure LikeRestart (config : Config) (s t : Sys) : Prop where
  schedule : { schedule t with minMstime := 0 } = schedule (Sys.initial config)
  entry : ∀ io u, processTtyInfo io t = .ok () u →
    ∃ v, processTtyInfo io (Sys.initial config) = .ok () v ∧ TtyReader.schedule u = TtyReader.schedule v
  peers : t.info.peerList = s.info.peerList
  queues : t.heap = s.heap

theorem reload_schedule (config : Config) (named : Named config s) :
    { schedule (clearSchedule (installConfig config s)) with minMstime := 0 } =
      schedule (Sys.initial config) := by
  obtain ⟨tty, listenSocket⟩ := named
  unfold schedule clearSchedule installConfig Sys.initial
  simp only [tty, listenSocket]

theorem reload_like_restart {config : Config} (named : Named config s) :
    LikeRestart config s (clearSchedule (installConfig config s)) where
  schedule := reload_schedule config named
  entry := by
    intro io u entered
    obtain ⟨millis, rfl, anywhere⟩ := processTtyInfo_uniform entered
    refine ⟨_, anywhere _, ?_⟩
    exact congrArg (fun info : TtyInfo => { info with minMstime := millis })
      (reload_schedule config named)
  peers := rfl
  queues := rfl

/-- A pass that is told to reload leads `main` back with the state that
`reload_config` leaves. -/
theorem step_reload (lib : ParseLib) {d : Daemon} (io : LoopIo) {t : Sys} {listen : Bool}
    (inLoop : d.ctl = .loop) (reached : atPoll lib io d.sys = some s)
    (room : 3 + s.info.peerList.length ≤ maxPolls) (hup : io.poll = .ready false true listen)
    (reloaded : reloadConfig io.setup s = .ok () t) :
    d.step lib (.loop io) = ⟨t, .restart, io.check.done⟩ := by
  obtain ⟨start, ctl, clock⟩ := d
  obtain rfl : ctl = .loop := inLoop
  obtain ⟨value, scheduled⟩ := atPoll_eq_some.mp reached
  have fits : ¬ maxPolls < 3 + (s.info.peerList.map TtyPeerInfo.sck).length := by
    rw [List.length_map]
    omega
  have ended : ttyMainLoop lib io start = .error .reload t := by
    unfold ttyMainLoop
    rw [bind_of_ok scheduled, read_bind, if_neg fits, hup]
    exact bind_of_ok reloaded
  simp only [Daemon.step, ended, Exit.state, afterLoop, ↓reduceIte]

/-- In every state that a process started with `old` can reload in, a reload of
`config` is like a restart exactly when the names are the same; a reload that
fails changes nothing. -/
theorem reload_like_restart_iff (lib : ParseLib) (old config : Config) (clock : Int)
    (inputs : List Input) (io : LoopIo) (listen : Bool) (s : Sys)
    (inLoop : ((Daemon.initial old clock).run lib inputs).ctl = .loop)
    (reached : atPoll lib io ((Daemon.initial old clock).run lib inputs).sys = some s)
    (room : 3 + s.info.peerList.length ≤ maxPolls) (hup : io.poll = .ready false true listen) :
    (∃ t, ((Daemon.initial old clock).run lib inputs).step lib (.loop { io with setup := .ok config }) =
        ⟨t, .restart, io.check.done⟩ ∧ LikeRestart config s t) ∧
      ((Daemon.initial old clock).run lib inputs).step lib (.loop { io with setup := .failed }) =
        ⟨s, .restart, io.check.done⟩ ↔
    config.tty = old.tty ∧ config.listenSocket = old.listenSocket := by
  have start : Named old (Daemon.initial old clock).sys := ⟨rfl, rfl⟩
  have named : Named old s :=
    atPoll_named lib (Runs.exec_keeps_always (step_named lib) inputs start) reached
  have installed := step_reload lib { io with setup := .ok config } inLoop reached room hup rfl
  have failed := step_reload lib { io with setup := .failed } inLoop reached room hup rfl
  constructor
  · rintro ⟨⟨t, reloaded, like⟩, _⟩
    obtain rfl : clearSchedule (installConfig config s) = t :=
      congrArg Daemon.sys (installed.symm.trans reloaded)
    have tty : s.info.tty = config.tty := congrArg (fun info : TtyInfo => info.tty) like.schedule
    have listenSocket : s.info.listenSocket = config.listenSocket :=
      congrArg (fun info : TtyInfo => info.listenSocket) like.schedule
    exact ⟨tty.symm.trans named.1, listenSocket.symm.trans named.2⟩
  · rintro ⟨tty, listenSocket⟩
    have same : Named config s := ⟨named.1.trans tty.symm, named.2.trans listenSocket.symm⟩
    exact ⟨⟨_, installed, reload_like_restart same⟩, failed⟩

/-- A pass that finds the signal. -/
def hupAt (now : Int) : LoopIo :=
  { check := checkAt now, poll := .ready false true false, setup := .failed, accept := none,
    peers := [] }

/-- One device in place of another, the names left alone. -/
def otherDevice : Config := { listMstime := 2000, idList := [{ id := 2, readCount := 2 }] }

theorem reload_like_restart_iff_otherDevice :
    (∃ t, ((Daemon.initial oneDevice 0).run Parse.reference [startUp]).step Parse.reference
        (.loop { hupAt 1000 with setup := .ok otherDevice }) = ⟨t, .restart, 1020⟩ ∧
      LikeRestart otherDevice
        (clearSchedule ((Daemon.initial oneDevice 0).run Parse.reference [startUp]).sys) t) ∧
    ((Daemon.initial oneDevice 0).run Parse.reference [startUp]).step Parse.reference
        (.loop { hupAt 1000 with setup := .failed }) =
      ⟨clearSchedule ((Daemon.initial oneDevice 0).run Parse.reference [startUp]).sys,
        .restart, 1020⟩ :=
  (reload_like_restart_iff Parse.reference oneDevice otherDevice 0 [startUp] (hupAt 1000) false
    _ rfl rfl (by decide) rfl).mpr ⟨rfl, rfl⟩

/-- The same device behind another serial port. -/
def otherPort : Config := { oneDevice with tty := [47, 116] }

/-- The reload leaves `tty` as it was. -/
theorem reload_not_like_restart_otherPort :
    ∃ t, ((Daemon.initial oneDevice 0).run Parse.reference [startUp]).step Parse.reference
        (.loop { hupAt 1000 with setup := .ok otherPort }) = ⟨t, .restart, 1020⟩ ∧
      ¬ LikeRestart otherPort
        (clearSchedule ((Daemon.initial oneDevice 0).run Parse.reference [startUp]).sys) t := by
  refine ⟨_, rfl, fun like => ?_⟩
  have wanted := congrArg (fun info : TtyInfo => info.tty) like.schedule
  cases wanted

end RenogyX10.TtyReader
