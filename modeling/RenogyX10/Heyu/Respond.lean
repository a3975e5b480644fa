import RenogyX10.Heyu.Sync
import RenogyX10.Heyu.Discipline
import RenogyX10.TtyClient.Pieces

set_option autoImplicit false

namespace RenogyX10.Heyu

open Bytes Checked Csck Framing Messages Parse Proc
open TtyClient (Read)

/-- A read of the battery's registers, the second of which holds this voltage. -/
def Reports (read : Read) (tenths : UInt16) : Prop :=
  read.message.toHeader = Device.renogy.header ∧ read.regs[1]? = some tenths

theorem registersOf_le16s_iff {regs : List UInt16} {tenths : UInt16} :
    registersOf (le16s regs) = .volts tenths ↔ regs[1]? = some tenths := by
  match regs with
  | [] => simp [registersOf]
  | [word] => simp [registersOf, le16]
  | first :: second :: rest =>
      show Report.volts (readLe16 _ _) = .volts tenths ↔ some second = some tenths
      rw [readLe16_le16, Report.volts.injEq, Option.some.injEq]

/-- The voltage that the message of a read is taken for. -/
theorem reportOf_volts_iff {read : Read} {tenths : UInt16} :
    reportOf read.frame.payload = .volts tenths ↔ Reports read tenths := by
  have header : reportOf read.frame.payload =
      if read.message.type = 0 ∧ read.message.id = 9 ∧ read.message.address = 256 ∧
          read.message.count = 10 then registersOf (le16s read.regs) else .other := by
    show reportOf (le16s ([_, _, _, _] ++ read.message.regs)) = _
    simp only [List.cons_append, List.nil_append, le16s_cons, le16, reportOf, readLe16_le16]
    rfl
  have same : read.message.toHeader = Device.renogy.header ↔ read.message.type = 0 ∧
      read.message.id = 9 ∧ read.message.address = 256 ∧ read.message.count = 10 := by
    show read.message.toHeader = ⟨0, 9, 256, 10⟩ ↔ _
    rw [Header.mk.injEq]
  rw [header, Reports, same, ← registersOf_le16s_iff]
  split
  · rename_i battery
    exact (and_iff_right battery).symm
  · rename_i other
    simp [other]

/-- The charger was turned on only if it was due. -/
def Obeys (due : Prop) (before h : Client) : Prop :=
  ∃ commands, commandsOf h.trace = commandsOf before.trace ++ commands ∧ (.on ∈ commands → due)

/-- The charger was turned on exactly if it was due. -/
def Responds (due : Prop) (before h : Client) : Prop :=
  ∃ commands, commandsOf h.trace = commandsOf before.trace ++ commands ∧ (.on ∈ commands ↔ due)

variable {due : Prop} {before h t : Client}

theorem Responds.obeys (responds : Responds due before h) : Obeys due before h := by
  obtain ⟨commands, ran, exact⟩ := responds
  exact ⟨commands, ran, exact.mp⟩

theorem obeys_of_none (same : commandsOf h.trace = commandsOf before.trace) :
    Obeys due before h :=
  ⟨[], by rw [same, List.append_nil], fun none => absurd none List.not_mem_nil⟩

theorem responds_of_none (same : commandsOf h.trace = commandsOf before.trace) (idle : ¬ due) :
    Responds due before h :=
  ⟨[], by rw [same, List.append_nil], fun none => absurd none List.not_mem_nil,
    fun isDue => absurd isDue idle⟩

theorem responds_of_on (ran : commandsOf h.trace = commandsOf before.trace ++ [.on])
    (isDue : due) : Responds due before h :=
  ⟨[.on], ran, fun _ => isDue, fun _ => List.mem_singleton_self _⟩

theorem Responds.off (responds : Responds due before h) (result : ChildResult) :
    Responds due before (h.child .off result) := by
  obtain ⟨commands, ran, exact⟩ := responds
  refine ⟨commands ++ [.off], ?_, ?_⟩
  · rw [commandsOf_child, ← List.append_assoc, ← ran]
  · rw [List.mem_append, List.mem_singleton]
    simp only [reduceCtorEq, or_false]
    exact exact

theorem Obeys.of_same (obeys : Obeys due before h) (same : commandsOf before.trace = commandsOf t.trace) :
    Obeys due t h := by
  unfold Obeys
  rw [← same]
  exact obeys

theorem Responds.of_same (responds : Responds due before h)
    (same : commandsOf before.trace = commandsOf t.trace) : Responds due t h := by
  unfold Responds
  rw [← same]
  exact responds

/-- A voltage turns the charger on exactly if it is low and the process looks for one. -/
theorem processVolts_responds {io : MsgIo} (volts : UInt16) :
    (processVolts io volts h).Meets
      (fun t => t.link.received = h.link.received ∧ Responds
        (h.state = .lookingForLow ∧ h.config.belowLowVoltageOn volts = true) h t)
      (fun t => t.link.received = h.link.received ∧ Obeys
        (h.state = .lookingForLow ∧ h.config.belowLowVoltageOn volts = true) h t)
      fun t => t.link.received = h.link.received ∧ Obeys
        (h.state = .lookingForLow ∧ h.config.belowLowVoltageOn volts = true) h t := by
  unfold processVolts
  simp only [read_bind, id_eq]
  apply meets_when
  · intro isDue
    apply meets_guard_bind _ _ ⟨rfl, obeys_of_none rfl⟩
    rw [modify_bind]
    by_cases fits : FitsI64 (io.now + h.config.millisOn)
    · rw [addI64_of_fits fits]
      have on (result : ChildResult) : Responds
          (h.state = .lookingForLow ∧ h.config.belowLowVoltageOn volts = true) h
          ((setOffTime (io.now + h.config.millisOn) (startCharging io.now h)).child .on result) :=
        responds_of_on (commandsOf_child _ _ _) isDue
      exact runCharger_meets (fun _ _ => ⟨rfl, on _⟩) (fun _ => ⟨rfl, (on _).obeys⟩)
        fun _ => ⟨rfl, (on _).obeys⟩
    · rw [addI64_of_not_fits fits]
      exact ⟨rfl, obeys_of_none rfl⟩
  · exact fun idle => ⟨rfl, responds_of_none rfl idle⟩

/-- The voltage of this read is low, and the process looks for one. -/
def Low (h : Client) (read : Read) : Prop :=
  h.state = .lookingForLow ∧
    ∃ tenths, Reports read tenths ∧ h.config.belowLowVoltageOn tenths = true

theorem low_iff {read : Read} {tenths : UInt16}
    (report : reportOf read.frame.payload = .volts tenths) :
    Low h read ↔ h.state = .lookingForLow ∧ h.config.belowLowVoltageOn tenths = true := by
  have reports := reportOf_volts_iff.mp report
  constructor
  · rintro ⟨looking, other, otherReports, below⟩
    obtain rfl : other = tenths := Option.some.inj (otherReports.2.symm.trans reports.2)
    exact ⟨looking, below⟩
  · exact fun ⟨looking, below⟩ => ⟨looking, tenths, reports, below⟩

theorem not_low {read : Read} (other : ∀ tenths, reportOf read.frame.payload ≠ .volts tenths) :
    ¬ Low h read :=
  fun ⟨_, tenths, reports, _⟩ => other tenths (reportOf_volts_iff.mpr reports)

theorem handle_responds (lib : ParseLib) {io : MsgIo} (read : Read) :
    (handle lib (deliver lib io) read.frame h).Meets
      (fun t => t.link.received = h.link.received ∧ Responds (Low h read) h t)
      (fun t => t.link.received = h.link.received ∧ Obeys (Low h read) h t)
      fun t => t.link.received = h.link.received ∧ Obeys (Low h read) h t := by
  have published : read.frame.code = 0 := rfl
  unfold handle
  rw [when_true _ published, lib.createFromSlice_eq]
  unfold deliver
  apply meets_guard_bind _ _ ⟨rfl, obeys_of_none rfl⟩
  rw [processMsg_run]
  show (processReport io (reportOf read.frame.payload) (h.emit (.msg read.frame.payload))).Meets
    _ _ _
  cases report : reportOf read.frame.payload with
  | short => exact ⟨rfl, obeys_of_none rfl⟩
  | other =>
      have idle : ¬ Low h read := not_low fun tenths => by rw [report]; nofun
      exact ⟨rfl, responds_of_none rfl idle⟩
  | volts tenths =>
      rw [low_iff report]
      apply meets_mono (processVolts_responds tenths)
      · exact fun t ⟨received, responds⟩ => ⟨received, responds.of_same rfl⟩
      · exact fun t ⟨received, obeys⟩ => ⟨received, obeys.of_same rfl⟩
      · exact fun t ⟨received, obeys⟩ => ⟨received, obeys.of_same rfl⟩

/-- Of the reads that are sent, these are received and handled; of the ones behind them the
first bytes are held. -/
structure Reached (done later : List Read) (held : List UInt8) (c : Sys) : Prop where
  received : c.host.link.received = streamOf (done.map Read.frame) ++ held
  holding : Holding c held
  awaits : Awaits held (later.map Read.frame)
  part : held <+: streamOf (later.map Read.frame)

def Tracks (reads : List Read) (c : Sys) : Prop :=
  ∃ done later held, reads = done ++ later ∧ Reached done later held c

/-- Behind what was received before, the last byte of this read was received. -/
def Completes (reads : List Read) (before after : List UInt8) (read : Read) : Prop :=
  ∃ done later, reads = done ++ read :: later ∧
    before.length < (streamOf ((done ++ [read]).map Read.frame)).length ∧
      after = streamOf ((done ++ [read]).map Read.frame)

/-- The read that was completed, if any, has to turn the charger on. -/
def Due (reads : List Read) (before : Client) (after : List UInt8) : Prop :=
  ∃ read, Completes reads before.link.received after read ∧ Low before read

variable {reads done later : List Read} {held received bytes : List UInt8} {c : Sys}

theorem streamOf_eq_nil {reads : List Read} (none : streamOf (reads.map Read.frame) = []) :
    reads = [] := by
  cases reads with
  | nil => rfl
  | cons read rest =>
      have length := congrArg List.length none
      have positive := read.frame.nonempty
      rw [List.map_cons, streamOf, List.map_cons, List.flatten_cons, List.length_append,
        read.frame.bytes_length, List.length_nil] at length
      omega

theorem eq_of_streamOf_eq {front back : List Read} (isFront : front <+: reads)
    (isBack : back <+: reads)
    (same : streamOf (front.map Read.frame) = streamOf (back.map Read.frame)) : front = back := by
  rcases List.prefix_or_prefix_of_prefix isFront isBack with shorter | longer
  · obtain ⟨rest, rfl⟩ := shorter
    rw [List.map_append, streamOf_append] at same
    rw [streamOf_eq_nil (List.self_eq_append_right.mp same), List.append_nil]
  · obtain ⟨rest, rfl⟩ := longer
    rw [List.map_append, streamOf_append] at same
    rw [streamOf_eq_nil (List.append_right_eq_self.mp same), List.append_nil]

theorem not_due_of_short (h : Client) (short : received.length ≤ h.link.received.length) :
    ¬ Due reads h received := by
  rintro ⟨read, ⟨done, later, _, longer, rfl⟩, _⟩
  omega

theorem not_due_of_held {before : Client} (some_held : held ≠ [])
    (awaits : Awaits held (later.map Read.frame)) :
    ¬ Due (done ++ later) before (streamOf (done.map Read.frame) ++ held) := by
  rintro ⟨read, ⟨front, back, split, _, same⟩, _⟩
  have whole : (front ++ [read]) ++ back = done ++ later := by
    rw [split, List.append_assoc, List.singleton_append]
  rcases List.append_eq_append_iff.mp whole with ⟨rest, rfl, _⟩ | ⟨rest, ends, rfl⟩
  · rw [List.map_append, streamOf_append, List.append_assoc] at same
    exact some_held (List.append_eq_nil_iff.mp (List.append_right_eq_self.mp same)).2
  · rw [ends, List.map_append, streamOf_append] at same
    have inside : held = streamOf (rest.map Read.frame) := List.append_cancel_left same
    cases rest with
    | nil => exact some_held inside
    | cons first more =>
        have proper : held.length < first.frame.bytes.length := awaits.2
        rw [inside, List.map_cons, streamOf, List.map_cons, List.flatten_cons, List.length_append]
          at proper
        omega

theorem due_of_whole {before : Client} {read : Read}
    (longer : before.link.received.length < (streamOf ((done ++ [read]).map Read.frame)).length) :
    Due (done ++ read :: later) before (streamOf ((done ++ [read]).map Read.frame)) ↔
      Low before read := by
  constructor
  · rintro ⟨other, ⟨front, back, split, _, same⟩, low⟩
    have isFront : front ++ [other] <+: done ++ read :: later := by
      rw [split]
      exact ⟨back, by rw [List.append_assoc, List.singleton_append]⟩
    have isBack : done ++ [read] <+: done ++ read :: later :=
      ⟨later, by rw [List.append_assoc, List.singleton_append]⟩
    obtain ⟨_, last⟩ := List.append_inj' (eq_of_streamOf_eq isBack isFront same) rfl
    rw [List.singleton_inj.mp last]
    exact low
  · exact fun low => ⟨read, ⟨done, later, rfl, longer, rfl⟩, low⟩

/-- What the pass has received, before it looks at the time. -/
def Received (reads : List Read) (before : Client) (t : Sys) : Prop :=
  Tracks reads t ∧ Responds (Due reads before t.host.link.received) before t.host

/-- Where an error leaves the process. -/
def Failed (reads : List Read) (before : Client) (t : Sys) : Prop :=
  t.ins.data.length = insSize ∧ Obeys (Due reads before t.host.link.received) before t.host

/-- Where the process ends. -/
def Fallen (reads : List Read) (before : Client) (t : Sys) : Prop :=
  Obeys (Due reads before t.host.link.received) before t.host

/-- Up to its recv the pass has changed nothing. -/
structure Untouched (before h : Client) : Prop where
  waiting : Waiting before h
  received : h.link.received = before.link.received

theorem handle_completes (lib : ParseLib) {before : Client} {io : MsgIo} {read : Read}
    {c : Sys} (buffer : c.ins.data.length = insSize) (awaits : Awaits [] (later.map Read.frame))
    (untouched : Waiting before h)
    (longer : before.link.received.length < h.link.received.length)
    (whole : h.link.received = streamOf ((done ++ [read]).map Read.frame)) :
    (finish c (handle lib (deliver lib io) read.frame h)).Meets
      (Received (done ++ read :: later) before) (Failed (done ++ read :: later) before)
      (Fallen (done ++ read :: later) before) := by
  have due : Due (done ++ read :: later) before h.link.received ↔ Low h read := by
    rw [whole, due_of_whole (whole ▸ longer), Low, Low, untouched.state, untouched.config]
  apply meets_finish
  apply meets_mono (handle_responds lib read)
  · rintro t ⟨received, responds⟩
    refine ⟨⟨done ++ [read], later, [], ?_, ?_, .idle buffer rfl rfl, awaits, List.nil_prefix⟩, ?_⟩
    · rw [List.append_assoc, List.singleton_append]
    · rw [List.append_nil, ← whole]
      exact received
    · show Responds (Due _ before t.link.received) before t
      rw [received, due]
      exact responds.of_same untouched.commands
  · rintro t ⟨received, obeys⟩
    refine ⟨buffer, ?_⟩
    show Obeys (Due _ before t.link.received) before t
    rw [received, due]
    exact obeys.of_same untouched.commands
  · rintro t ⟨received, obeys⟩
    show Obeys (Due _ before t.link.received) before t
    rw [received, due]
    exact obeys.of_same untouched.commands

theorem csckCanRecv_responds (lib : ParseLib) {before : Client} {io : MsgIo}
    {recv : Option (List UInt8)} (tracks : Tracks reads c) (untouched : Untouched before c.host)
    (fits : RecvFits c recv)
    (sent : ∀ bytes, recv = some bytes →
      before.link.received ++ bytes <+: streamOf (reads.map Read.frame)) :
    (csckCanRecv lib io recv c).Meets (Received reads before) (Failed reads before)
      (Fallen reads before) := by
  obtain ⟨done, later, held, rfl, reached⟩ := tracks
  have noted : Waiting before (noteRecv recv c).host := untouched.waiting.emit _ rfl
  have quiet : Obeys (Due (done ++ later) before (noteRecv recv c).host.link.received) before
    (noteRecv recv c).host := obeys_of_none noted.commands
  unfold csckCanRecv
  rw [modify_bind]
  cases recv with
  | none =>
      unfold processCsckIn Csck.processCsckIn
      rw [read_bind, ite_run]
      split
      · exact quiet
      · exact ⟨reached.holding.buffer, quiet⟩
  | some bytes =>
      by_cases empty : bytes = []
      · unfold processCsckIn Csck.processCsckIn
        rw [read_bind, ite_run, empty]
        rw [empty] at quiet
        split
        · exact quiet
        · exact ⟨reached.holding.buffer, quiet⟩
      · have received : (noteRecv (some bytes) c).host.link.received =
            streamOf (done.map Read.frame) ++ (held ++ bytes) := by
          show c.host.link.received ++ bytes = _
          rw [reached.received, List.append_assoc]
        have within := sent bytes rfl
        rw [← untouched.received, reached.received, List.map_append, streamOf_append,
          List.append_assoc] at within
        have onward := (List.prefix_append_right_inj _).mp within
        have holding : Holding (noteRecv (some bytes) c) held := reached.holding.withHost _
        have longer : before.link.received.length <
            (noteRecv (some bytes) c).host.link.received.length := by
          have positive := List.length_pos_iff.mpr empty
          show _ < (c.host.link.received ++ bytes).length
          rw [← untouched.received, List.length_append]
          omega
        unfold processCsckIn
        rcases holding.receives_next lib (deliver lib io) reached.awaits ⟨empty, fits⟩
            onward with
          ⟨frame, rest, first, whole, others, next, buffer, ran⟩ | ⟨next, ran, host, after, awaits⟩
        · obtain ⟨read, more, rfl, same, rfl⟩ := List.map_eq_cons_iff.mp first
          subst same
          rw [ran]
          apply handle_completes lib buffer others noted longer
          rw [received, whole, List.map_append, streamOf_append]
          simp [streamOf]
        · rw [ran]
          refine ⟨⟨done, later, held ++ bytes, rfl, ?_, after, awaits, onward⟩, ?_⟩
          · rw [host, received]
          · rw [host, received]
            apply responds_of_none noted.commands
            exact not_due_of_held (fun none => empty (List.append_eq_nil_iff.mp none).2) awaits

theorem Tracks.buffer (tracks : Tracks reads c) : c.ins.data.length = insSize := by
  obtain ⟨_, _, _, _, reached⟩ := tracks
  exact reached.holding.buffer

theorem Tracks.withHost (tracks : Tracks reads c)
    (same : h.link.received = c.host.link.received) : Tracks reads { c with host := h } := by
  obtain ⟨done, later, held, split, reached⟩ := tracks
  exact ⟨done, later, held, split, same.trans reached.received, reached.holding.withHost h,
    reached.awaits, reached.part⟩

theorem Tracks.more (tracks : Tracks reads c) (more : List Read) : Tracks (reads ++ more) c := by
  obtain ⟨done, later, held, rfl, reached⟩ := tracks
  refine ⟨done, later ++ more, held, List.append_assoc _ _ _, reached.received, reached.holding, ?_,
    ?_⟩
  · rw [List.map_append]
    exact reached.awaits.more reached.part _
  · rw [List.map_append, streamOf_append]
    exact reached.part.trans (List.prefix_append _ _)

theorem Received.failed {before : Client} (received : Received reads before c) :
    Failed reads before c := ⟨received.1.buffer, received.2.obeys⟩

theorem Untouched.nothing_due {before : Client} (untouched : Untouched before c.host)
    (tracks : Tracks reads c) : Received reads before c := by
  refine ⟨tracks, responds_of_none untouched.waiting.commands ?_⟩
  exact not_due_of_short before (Nat.le_of_eq (congrArg List.length untouched.received))

theorem mainLoop_responds (lib : ParseLib) {io : LoopIo} (tracks : Tracks reads c)
    (fits : RecvFits c io.recv)
    (sent : ∀ bytes, io.recv = some bytes →
      c.host.link.received ++ bytes <+: streamOf (reads.map Read.frame)) :
    (mainLoop lib io c).Meets (Received reads c.host) (Failed reads c.host)
      (Fallen reads c.host) := by
  have start : Untouched c.host c.host := ⟨.refl c.host, rfl⟩
  apply mainLoop_meets lib
    (fun t => Tracks reads t ∧ Untouched c.host t.host ∧ RecvFits t io.recv) (Received reads c.host)
  · exact (start.nothing_due tracks).failed
  · intro _
    apply meets_focus
    have cast (time : Int) : Untouched c.host (c.host.emit (.cast time)) :=
      ⟨start.waiting.emit _ rfl, rfl⟩
    have same (time : Int) : Tracks reads { c with host := c.host.emit (.cast time) } :=
      tracks.withHost rfl
    apply pollTimeout_meets
    · exact fun _ => ⟨tracks, start, fits⟩
    · exact fun _ => ⟨⟨same _, cast _, fits⟩, ((cast _).nothing_due (same _)).failed⟩
    · exact fun _ _ => ((cast _).nothing_due (same _)).failed.2
  · rintro t ⟨tracks, untouched, _⟩
    have received := untouched.nothing_due tracks
    exact ⟨received, received.failed, received⟩
  · rintro t ⟨tracks, untouched, _⟩ _
    have failed := (untouched.nothing_due tracks).failed
    apply meets_focus
    apply reloadConfig_meets
    · exact failed
    · exact failed
    · exact fun config => ⟨failed, failed⟩
    · exact fun _ => failed.2
  · rintro t ⟨tracks, untouched, fits⟩ _
    exact csckCanRecv_responds lib tracks untouched fits sent
  · intro t received
    apply meets_focus
    apply checkOffTime_meets
    · exact received
    · exact received.failed
    · intro _ _
      have off (result : ChildResult) : Received reads c.host
          { t with host := (t.host.setState .lookingForLow).child .off result } :=
        ⟨received.1.withHost rfl, received.2.off result⟩
      exact runCharger_meets (fun _ _ => off _) (fun _ => (off _).failed)
        fun _ => (off _).failed.2

/-- What holds before every step. -/
structure Tracking (reads : List Read) (d : Daemon) : Prop where
  buffer : d.ctl = .connect → d.sys.ins.data.length = insSize
  tracks : d.ctl = .loop → Tracks reads d.sys

theorem Tracking.more {d : Daemon} (tracking : Tracking reads d) (more : List Read) :
    Tracking (reads ++ more) d :=
  ⟨tracking.buffer, fun looping => (tracking.tracks looping).more more⟩

/-- What a step has done about the reads: it never turns the charger on without one, and
where it goes on it has done so for the one that is due. -/
structure Answered (reads : List Read) (d next : Daemon) : Prop where
  obeys : Obeys (Due reads d.sys.host next.sys.host.link.received) d.sys.host next.sys.host
  responds : next.ctl = .loop →
    Responds (Due reads d.sys.host next.sys.host.link.received) d.sys.host next.sys.host

def Handled (reads : List Read) (d next : Daemon) : Prop :=
  Tracking reads next ∧ Answered reads d next

variable {d : Daemon} {ctl : Ctl}

theorem answered_of_none (short : h.link.received.length ≤ d.sys.host.link.received.length)
    (same : commandsOf h.trace = commandsOf d.sys.host.trace) :
    Answered reads d ⟨{ d.sys with host := h }, ctl⟩ :=
  ⟨obeys_of_none same, fun _ => responds_of_none same (not_due_of_short d.sys.host short)⟩

theorem Failed.answered (failed : Failed reads d.sys.host c) (outside : ctl ≠ .loop) :
    Handled reads d ⟨c, ctl⟩ :=
  ⟨⟨fun _ => failed.1, fun looping => absurd looping outside⟩, failed.2,
    fun looping => absurd looping outside⟩

theorem Received.answered (received : Received reads d.sys.host c) (ctl : Ctl) :
    Handled reads d ⟨c, ctl⟩ :=
  ⟨⟨fun _ => received.1.buffer, fun _ => received.1⟩, received.2.obeys, fun _ => received.2⟩

theorem Fallen.answered (fallen : Fallen reads d.sys.host c) :
    Handled reads d ⟨c, .stopped⟩ :=
  ⟨⟨nofun, nofun⟩, fallen, nofun⟩

/-- One step, with the reads of the connection that it ends with. -/
theorem step_responds (lib : ParseLib) {input : Input} (kernel : KernelOk d input)
    (between : BetweenFrames d input)
    (sent : ∀ io, input = .loop io → ∀ bytes, io.recv = some bytes →
      d.sys.host.link.received ++ bytes <+: streamOf (reads.map Read.frame))
    (tracking : Tracking reads d) :
    Handled reads d (d.step lib input) := by
  have idle (ctl : Ctl) : Answered reads d ⟨d.sys, ctl⟩ := answered_of_none (Nat.le_refl _) rfl
  apply Daemon.step_rule lib ⟨tracking, idle d.ctl⟩
  · rintro io rfl connecting
    have buffer := tracking.buffer connecting
    apply meets_focus
    apply start_meets
    · exact fun _ => ⟨⟨nofun, nofun⟩, idle .stopped⟩
    · intro _
      refine ⟨⟨nofun, fun _ => ⟨[], reads, [], rfl, rfl, ?_, ?_, List.nil_prefix⟩⟩, ?_⟩
      · exact .idle buffer between.1 between.2
      · exact Layout.pending_nil (framed_all _)
      · exact answered_of_none (Nat.zero_le _) rfl
  · rintro io rfl looping
    apply meets_mono (mainLoop_responds lib (tracking.tracks looping) kernel (sent io rfl))
    · exact fun t received => ⟨received.answered .loop, received.answered .finish⟩
    · exact fun t failed => ⟨fun _ => failed.answered nofun, failed.answered nofun⟩
    · exact fun t fallen => fallen.answered
  · rintro logged rfl _
    refine ⟨⟨?_, ?_⟩, idle _⟩
    · cases logged <;> nofun
    · cases logged <;> nofun
  · rintro io rfl _
    apply meets_focus
    apply turnOffAtExit_meets
    · exact fun _ => ⟨⟨nofun, nofun⟩, idle .stopped⟩
    · intro _
      have off (result : ChildResult) :
          Handled reads d ⟨{ d.sys with host := d.sys.host.child .off result }, .stopped⟩ := by
        have none : Responds (Due reads d.sys.host d.sys.host.link.received) d.sys.host d.sys.host :=
          responds_of_none rfl (not_due_of_short d.sys.host (Nat.le_refl _))
        exact ⟨⟨nofun, nofun⟩, (none.off result).obeys, nofun⟩
      exact runCharger_meets (fun _ _ => off _) (fun _ => off _) fun _ => off _

theorem initial_tracking (config : HeyuInfo) : Tracking reads (Daemon.initial config) := by
  constructor
  · intro _
    exact (initial_inBounds config).buffer
  · intro looping
    have connecting : Ctl.connect = .loop := looping
    cases connecting

end RenogyX10.Heyu
