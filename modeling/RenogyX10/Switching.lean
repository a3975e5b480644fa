import RenogyX10.Heyu.Respond
import RenogyX10.Publisher

set_option autoImplicit false

namespace RenogyX10.Switching

open Csck Parse Proc Publisher
open Heyu (Command Due HeyuInfo Tracking commandsOf)
open TtyClient (Read)

structure World where
  publisher : TtyReader.Daemon
  switch : Heyu.Daemon
  /-- how often the switch has tried to connect -/
  connects : Nat

inductive Input where
  | publisher (input : TtyReader.Input)
  | switch (input : Heyu.Input)

/-- Whether a step tries to connect. -/
def triesIn (d : Heyu.Daemon) : Heyu.Input → Nat
  | .start _ => if d.ctl = .connect then 1 else 0
  | _ => 0

def World.step (lib : ParseLib) (w : World) : Input → World
  | .publisher input => { w with publisher := w.publisher.step lib input }
  | .switch input =>
      { w with
        switch := w.switch.step lib input
        connects := w.connects + triesIn w.switch input }

def World.run (lib : ParseLib) (w : World) (inputs : List Input) : World :=
  Runs.exec (World.step lib) w inputs

def World.initial (reader : TtyReader.Config) (clock : Int) (heyu : HeyuInfo) : World :=
  ⟨.initial reader clock, .initial heyu, 0⟩

/-- What the current connection of the switch has brought. -/
def World.received (w : World) : List UInt8 := w.switch.sys.host.link.received

/-- The publisher accepts the connections of the switch at these places. -/
def World.place (places : Nat → Nat) (w : World) : Nat := places w.connects

/-- What the kernel promises at the point of the run an input arrives, and that no reload
cuts a frame: a connection starts where the switch waits for a header. -/
def Allowed (places : Nat → Nat) (w : World) : Input → Prop
  | .publisher input => TtyReader.KernelOk w.publisher input
  | .switch input =>
      Heyu.KernelOk w.switch input ∧ Heyu.BetweenFrames w.switch input ∧
        ∀ io, input = .loop io → ∀ bytes, io.recv = some bytes →
          w.received ++ bytes <+: sentTo (w.place places) w.publisher.sys.trace

/-- The commands that a step attempts. -/
def newCommands (w next : World) : List Command :=
  (commandsOf next.switch.sys.host.trace).drop (commandsOf w.switch.sys.host.trace).length

/-- In this step the switch, which looks for a low voltage, has received the last byte of a
read of the battery whose voltage is low. The read completed while its connection was open. -/
def LowRead (places : Nat → Nat) (w next : World) : Prop :=
  ∃ reads, readsFor (w.place places) w.publisher.sys.trace = reads.map completedOf ∧
    Due reads w.switch.sys.host next.received

/-- The charger is turned on for nothing else, and for this unless the switch has failed. -/
structure Switches (places : Nat → Nat) (w next : World) : Prop where
  only : .on ∈ newCommands w next → LowRead places w next
  always : next.switch.ctl = .loop → LowRead places w next → .on ∈ newCommands w next

/-- What holds in every state of a run. -/
structure Inv (places : Nat → Nat) (w : World) : Prop where
  logged : TtyReader.Logged [] w.publisher.sys
  tracking : ∀ reads, readsFor (w.place places) w.publisher.sys.trace = reads.map completedOf →
    Tracking reads w.switch

variable {places : Nat → Nat} {w : World} {reads : List Read}

theorem step_publisher (lib : ParseLib) {input : TtyReader.Input}
    (ok : TtyReader.KernelOk w.publisher input) (inv : Inv places w) :
    Inv places (w.step lib (.publisher input)) := by
  have onward := TtyReader.step_logged lib w.publisher input ok inv.logged.restart
  refine ⟨TtyReader.step_logged lib w.publisher input ok inv.logged, fun reads known => ?_⟩
  obtain ⟨new, split⟩ := readsFor_later (w.place places) onward.noted.later
  obtain ⟨before, more, rfl, same, -⟩ := List.map_eq_append_iff.mp (known.symm.trans split.symm)
  exact (inv.tracking before same.symm).more more

/-- What is received goes on with the frames of the reads. -/
theorem Allowed.sent {input : Heyu.Input} (allowed : Allowed places w (.switch input))
    (inv : Inv places w)
    (known : readsFor (w.place places) w.publisher.sys.trace = reads.map completedOf) :
    ∀ io, input = .loop io → ∀ bytes, io.recv = some bytes →
      w.received ++ bytes <+: streamOf (reads.map Read.frame) := by
  intro io isLoop bytes recv
  apply (allowed.2.2 io isLoop bytes recv).trans
  rw [streamOf_reads, ← known]
  exact sentTo_within _ inv.logged.noted.recorded

theorem Inv.exists_known (inv : Inv places w) :
    ∃ reads : List Read,
      readsFor (w.place places) w.publisher.sys.trace = reads.map completedOf :=
  exists_reads (readsFor_framed _ inv.logged.noted.recorded)

theorem step_switch (lib : ParseLib) {input : Heyu.Input}
    (allowed : Allowed places w (.switch input)) (inv : Inv places w) :
    Inv places (w.step lib (.switch input)) := by
  refine ⟨inv.logged, fun reads known => ?_⟩
  by_cases same : triesIn w.switch input = 0
  · have here : (w.step lib (.switch input)).place places = w.place places := by
      show places (w.connects + triesIn w.switch input) = _
      rw [same]
      rfl
    rw [here] at known
    exact (Heyu.step_responds lib allowed.1 allowed.2.1 (allowed.sent inv known)
      (inv.tracking reads known)).1
  · -- a new connection: the switch has received nothing of its reads yet
    obtain ⟨old, oldKnown⟩ := inv.exists_known
    cases input with
    | start io =>
        have connecting : w.switch.ctl = .connect := by
          by_contra other
          exact same (if_neg other)
        have waiting : Tracking reads w.switch := by
          refine ⟨(inv.tracking old oldKnown).buffer, fun looping => ?_⟩
          rw [connecting] at looping
          cases looping
        apply (Heyu.step_responds lib allowed.1 allowed.2.1 _ waiting).1
        intro other isLoop
        cases isLoop
    | loop io => exact absurd rfl same
    | report logged => exact absurd rfl same
    | finish io => exact absurd rfl same

theorem step_inv (lib : ParseLib) (w : World) (input : Input) (allowed : Allowed places w input)
    (inv : Inv places w) : Inv places (w.step lib input) := by
  cases input with
  | publisher input => exact step_publisher lib allowed inv
  | switch input => exact step_switch lib allowed inv

theorem initial_inv (reader : TtyReader.Config) (clock : Int) (heyu : HeyuInfo) :
    Inv places (World.initial reader clock heyu) := by
  constructor
  · exact TtyReader.initial_logged reader
  · exact fun reads _ => Heyu.initial_tracking heyu

theorem step_answers (lib : ParseLib) {input : Input} (allowed : Allowed places w input)
    (inv : Inv places w)
    (known : readsFor (w.place places) w.publisher.sys.trace = reads.map completedOf) :
    Heyu.Answered reads w.switch (w.step lib input).switch := by
  cases input with
  | publisher input => exact Heyu.answered_of_none (Nat.le_refl _) rfl
  | switch input =>
      exact (Heyu.step_responds lib allowed.1 allowed.2.1 (allowed.sent inv known)
        (inv.tracking reads known)).2

theorem step_switches (lib : ParseLib) {input : Input} (allowed : Allowed places w input)
    (inv : Inv places w) : Switches places w (w.step lib input) := by
  constructor
  · intro on
    obtain ⟨reads, known⟩ := inv.exists_known
    obtain ⟨commands, ran, only⟩ := (step_answers lib allowed inv known).obeys
    rw [newCommands, ran, List.drop_left] at on
    exact ⟨reads, known, only on⟩
  · rintro running ⟨reads, known, due⟩
    obtain ⟨commands, ran, responds⟩ := (step_answers lib allowed inv known).responds running
    rw [newCommands, ran, List.drop_left]
    exact responds.mpr due

/-- In every run of the two, in any order of their steps, with every cut of the stream
between them: the charger is turned on in exactly those steps in which a read of the battery
with a low voltage has come through, from the bus to the switch. -/
theorem charger_on_iff_low_read (lib : ParseLib) (reader : TtyReader.Config) (clock : Int)
    (heyu : HeyuInfo) (places : Nat → Nat) (inputs : List Input) (input : Input)
    (allowed : Runs.Admits (World.step lib) (Allowed places) (World.initial reader clock heyu)
      (inputs ++ [input])) :
    Switches places ((World.initial reader clock heyu).run lib inputs)
      (((World.initial reader clock heyu).run lib inputs).step lib input) := by
  rw [Runs.admits_append] at allowed
  obtain ⟨before, last⟩ := allowed
  exact step_switches lib last.1 (Runs.exec_keeps (step_inv lib) before
    (initial_inv reader clock heyu))

/-- A battery at 20.0 V, read once while the switch is connected; the switch receives the
frame in two parts. -/
def batteryReader : TtyReader.Config where
  listMstime := 1000
  idList := [{ id := 9, readAddress := 256, readCount := 10 }]

def batteryRegs : TtyReader.ReadIo where
  setSlave := 0
  err := 10
  regs index := if index = 1 then 200 else 0
  nodes := [0]
  start := 2000
  stop := 2020

def batteryRead : Read :=
  ⟨.holding, { id := 9, readAddress := 256, readCount := 10 }, [0, 200, 0, 0, 0, 0, 0, 0, 0, 0],
    by decide, by decide⟩

def acceptPass : TtyReader.LoopIo where
  check := ⟨1000, batteryRegs, 1020⟩
  poll := .ready false false true
  setup := .failed
  accept := some 5
  peers := []

def sendPass : TtyReader.LoopIo where
  check := ⟨2000, batteryRegs, 2020⟩
  poll := .ready false false false
  setup := .failed
  accept := none
  peers := [⟨false, true, 0, 64⟩]

def readAndSent : List TtyReader.Input := [TtyReader.startUp, .loop acceptPass, .loop sendPass]

def headerReceived : List Input :=
  [.switch (.start (Heyu.connected []))] ++ readAndSent.map .publisher ++
    [.switch (.loop (Heyu.receivePass 3000 (batteryRead.frame.bytes.take 4)))]

theorem batteryReader_sends :
    sentTo 0 ((TtyReader.Daemon.initial batteryReader 0).run reference readAndSent).sys.trace =
      batteryRead.frame.bytes := by
  decide +kernel

def opened : Heyu.Sys :=
  { Heyu.Sys.initial Heyu.battery with
    host := Heyu.connectedHost [] (Heyu.Sys.initial Heyu.battery).host }

/-- The payload goes on with the header that was received, and turns the charger on. -/
theorem charger_on_iff_low_read_battery :
    Heyu.commandsOf ((World.initial batteryReader 0 Heyu.battery).run reference
        headerReceived).switch.sys.host.trace = [] ∧
      Heyu.commandsOf (((World.initial batteryReader 0 Heyu.battery).run reference
        headerReceived).step reference
          (.switch (.loop (Heyu.receivePass 3000 batteryRead.frame.payload)))).switch.sys.host.trace =
            [.on] ∧
      Switches (fun _ => 0)
        ((World.initial batteryReader 0 Heyu.battery).run reference headerReceived)
        (((World.initial batteryReader 0 Heyu.battery).run reference headerReceived).step reference
          (.switch (.loop (Heyu.receivePass 3000 batteryRead.frame.payload)))) := by
  refine ⟨by decide +kernel, by decide +kernel, ?_⟩
  have idle : Holding opened [] := .idle List.length_replicate rfl rfl
  obtain ⟨headed, first, host, holding⟩ :=
    Heyu.step_header reference 3000 idle rfl batteryRead.frame
  apply charger_on_iff_low_read
  rw [Runs.admits_append]
  refine ⟨⟨⟨trivial, ⟨rfl, rfl⟩, ?_⟩, trivial, ⟨?_, ?_, rfl⟩, ⟨?_, ?_, rfl⟩, ⟨?_, trivial, ?_⟩,
    trivial⟩, ⟨?_, trivial, ?_⟩, trivial⟩
  · intro io isLoop
    cases isLoop
  · intro sck _ peer member
    cases member
  · exact ⟨by decide, fun _ _ => rfl, by decide⟩
  · intro sck accepted
    cases accepted
  · exact ⟨by decide, fun _ _ => rfl, by decide⟩
  · exact idle.recvFits (Nat.le_refl 4)
  · rintro io ⟨⟩ bytes ⟨⟩
    show [] ++ batteryRead.frame.bytes.take 4 <+: sentTo 0
      ((TtyReader.Daemon.initial batteryReader 0).run reference readAndSent).sys.trace
    rw [batteryReader_sends]
    exact List.take_prefix 4 _
  · show Heyu.KernelOk (Heyu.Daemon.step reference ⟨opened, .loop⟩
      (.loop (Heyu.receivePass 3000 (batteryRead.frame.bytes.take 4)))) _
    rw [first]
    apply holding.recvFits
    decide
  · rintro io ⟨⟩ bytes ⟨⟩
    show (Heyu.Daemon.step reference ⟨opened, .loop⟩
      (.loop (Heyu.receivePass 3000 (batteryRead.frame.bytes.take 4)))).sys.host.link.received ++
        batteryRead.frame.payload <+: sentTo 0
          ((TtyReader.Daemon.initial batteryReader 0).run reference readAndSent).sys.trace
    rw [first, batteryReader_sends, host]
    show [] ++ batteryRead.frame.bytes.take 4 ++ batteryRead.frame.payload <+: _
    decide

end RenogyX10.Switching
