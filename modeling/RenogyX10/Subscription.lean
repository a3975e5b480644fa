import RenogyX10.Influx.Follow
import RenogyX10.Publisher

set_option autoImplicit false

/- The publisher and a subscriber side by side, with their steps in any order. Between
them is one connection: what recv returns goes on with what was sent on it. -/
namespace RenogyX10.Subscription

open Csck Parse Proc Publisher
open Influx (FloatText InfluxInfo Reading readingsOf)
open TtyClient (Read)

structure World where
  publisher : TtyReader.Daemon
  subscriber : Influx.Daemon
  /-- what recv returned to the subscriber so far -/
  received : List UInt8

inductive Input where
  | publisher (input : TtyReader.Input)
  | subscriber (input : Influx.Input)

def World.step (lib : WideLib) (fmt : FloatText) (w : World) : Input → World
  | .publisher input => { w with publisher := w.publisher.step lib.toParseLib input }
  | .subscriber input =>
      { w with
        subscriber := w.subscriber.step lib fmt input
        received := w.received ++ Influx.receivedIn w.subscriber input }

def World.run (lib : WideLib) (fmt : FloatText) (w : World) (inputs : List Input) : World :=
  Runs.exec (World.step lib fmt) w inputs

def World.initial (reader : TtyReader.Config) (clock : Int) (influx : InfluxInfo) : World :=
  ⟨.initial reader clock, .initial influx, []⟩

/-- What the kernel promises at the point of the run an input arrives. The subscriber's
connection is the one that the publisher accepts at the place `index`. -/
def KernelOk (index : Nat) (w : World) : Input → Prop
  | .publisher input => TtyReader.KernelOk w.publisher input
  | .subscriber input =>
      Influx.KernelOk w.subscriber input ∧
        Influx.Continues w.received (sentTo index w.publisher.sys.trace) w.subscriber input

/-- The configurations that the subscriber is given in a run. -/
def Offered (first : InfluxInfo) (inputs : List Input) (config : InfluxInfo) : Prop :=
  config = first ∨ ∃ io, .subscriber (.loop io) ∈ inputs ∧ io.setup = .ok config

/-- The subscriber requested the values of these reads, in order and once each: the first
of them in any case, those of all whole frames it received while it is in its loop, and
all of them when it received all frames. Of its requests each connection to the database
was sent a beginning. -/
structure Accounted (fmt : FloatText) (configs : InfluxInfo → Prop) (reads : List Read)
    (w : World) : Prop where
  partly : Influx.Partly fmt configs (reads.flatMap readingsOf) w.subscriber.sys.host
  follows : w.subscriber.ctl = .loop → Influx.Follows fmt configs reads w.received w.subscriber.sys
  whole : w.subscriber.ctl = .loop → w.received = streamOf (reads.map Read.frame) →
    Influx.Requested fmt configs (reads.flatMap readingsOf) w.subscriber.sys.host
  streamed : Influx.Streamed w.subscriber.sys.host.trace

/-- What was received is a beginning of what was sent, and the subscriber follows the reads
that were sent for it. -/
structure Linked (fmt : FloatText) (configs : InfluxInfo → Prop) (index : Nat) (reads : List Read)
    (w : World) : Prop where
  known : readsFor index w.publisher.sys.trace = reads.map completedOf
  received : w.received <+: sentTo index w.publisher.sys.trace
  subscribed : Influx.Subscribed fmt configs reads w.received w.subscriber

/-- What holds of both in every state of a run. -/
structure Inv (fmt : FloatText) (configs : InfluxInfo → Prop) (index : Nat) (w : World) :
    Prop where
  logged : TtyReader.Logged [] w.publisher.sys
  influx : Influx.Inv w.subscriber
  linked : ∃ reads, Linked fmt configs index reads w

variable {fmt : FloatText} {configs : InfluxInfo → Prop} {index : Nat} {reads : List Read}
  {w : World}

theorem Linked.within (linked : Linked fmt configs index reads w)
    (recorded : TtyReader.Recorded w.publisher.sys.trace) :
    sentTo index w.publisher.sys.trace <+: streamOf (reads.map Read.frame) := by
  rw [streamOf_reads, ← linked.known]
  exact sentTo_within index recorded

theorem step_publisher (lib : WideLib) {input : TtyReader.Input}
    (ok : TtyReader.KernelOk w.publisher input) (inv : Inv fmt configs index w) :
    Inv fmt configs index (w.step lib fmt (.publisher input)) := by
  obtain ⟨reads, linked⟩ := inv.linked
  have onward := TtyReader.step_logged lib.toParseLib w.publisher input ok inv.logged.restart
  have later := onward.noted.later
  refine ⟨TtyReader.step_logged lib.toParseLib w.publisher input ok inv.logged, inv.influx, ?_⟩
  obtain ⟨new, split⟩ := readsFor_later index later
  have framed : ∀ read ∈ new, read.Framed := by
    intro read member
    apply readsFor_framed index onward.noted.recorded
    rw [← split]
    exact List.mem_append_right _ member
  obtain ⟨more, rfl⟩ := exists_reads framed
  refine ⟨reads ++ more, ?_, linked.received.trans (sentTo_later index later), ?_⟩
  · show readsFor index (w.publisher.step lib.toParseLib input).sys.trace = _
    rw [← split, linked.known, List.map_append]
  · apply linked.subscribed.more
    exact linked.received.trans (linked.within inv.logged.noted.recorded)

theorem step_subscriber (lib : WideLib) {input : Influx.Input}
    (ok : KernelOk index w (.subscriber input)) (configures : Influx.Configures configs input)
    (inv : Inv fmt configs index w) : Inv fmt configs index (w.step lib fmt (.subscriber input)) := by
  obtain ⟨reads, linked⟩ := inv.linked
  have continues : Influx.Continues w.received (sentTo index w.publisher.sys.trace) w.subscriber
    input := ok.2
  refine ⟨inv.logged, Influx.step_inv lib fmt w.subscriber input ok.1 inv.influx, reads,
    linked.known, continues.within linked.received, ?_⟩
  apply Influx.step_subscribed lib configures _ linked.subscribed
  have within := linked.within inv.logged.noted.recorded
  cases input with
  | loop io => exact fun bytes recv => ⟨(ok.2 bytes recv).1, (ok.2 bytes recv).2.trans within⟩
  | _ => trivial

theorem step_inv (lib : WideLib) (w : World) (input : Input)
    (ok : KernelOk index w input ∧
      ∀ io, input = .subscriber (.loop io) → ∀ config, io.setup = .ok config → configs config)
    (inv : Inv fmt configs index w) : Inv fmt configs index (w.step lib fmt input) := by
  cases input with
  | publisher input => exact step_publisher lib ok.1 inv
  | subscriber input =>
      apply step_subscriber lib ok.1 _ inv
      cases input with
      | loop io => exact ok.2 io rfl
      | _ => trivial

theorem initial_inv (reader : TtyReader.Config) (clock : Int) {influx : InfluxInfo}
    (given : configs influx) : Inv fmt configs index (World.initial reader clock influx) := by
  refine ⟨TtyReader.initial_logged reader, ⟨(Influx.initial_ready influx).sound.lost, fun _ =>
    Influx.initial_ready influx⟩, [], ?_⟩
  exact ⟨rfl, List.nil_prefix, Influx.initial_subscribed given⟩

theorem Inv.accounted (inv : Inv fmt configs index w) :
    ∃ reads, readsFor index w.publisher.sys.trace = reads.map completedOf ∧
      Accounted fmt configs reads w := by
  obtain ⟨reads, linked⟩ := inv.linked
  have inLoop : w.subscriber.ctl = .loop →
      Influx.Follows fmt configs reads w.received w.subscriber.sys := by
    intro here
    apply linked.subscribed.follows
    rw [here]
    rfl
  exact ⟨reads, linked.known, linked.subscribed.stopped, inLoop,
    fun here all => (inLoop here).whole all, inv.influx.lost⟩

theorem run_inv (lib : WideLib) (reader : TtyReader.Config) (clock : Int) (influx : InfluxInfo)
    {inputs : List Input}
    (ok : Runs.Admits (World.step lib fmt) (KernelOk index) (World.initial reader clock influx)
      inputs) :
    Inv fmt (Offered influx inputs) index ((World.initial reader clock influx).run lib fmt inputs) := by
  have offered : ∀ input ∈ inputs, ∀ io, input = .subscriber (.loop io) →
      ∀ config, io.setup = .ok config → Offered influx inputs config := by
    intro input member io same config setup
    exact .inr ⟨io, same ▸ member, setup⟩
  have promised := ok.and (Runs.admits_of_forall offered)
  exact Runs.exec_keeps (step_inv lib) promised (initial_inv reader clock (.inl rfl))

/-- In every run of the two, in any order of their steps, with every cut of the stream
between them: what the subscriber requests of the database are the values of the reads that
completed while its connection was open, once each and in order. -/
theorem readings_requested (lib : WideLib) (fmt : FloatText) (reader : TtyReader.Config)
    (clock : Int) (influx : InfluxInfo) (index : Nat) (inputs : List Input)
    (ok : Runs.Admits (World.step lib fmt) (KernelOk index) (World.initial reader clock influx)
      inputs) :
    ∃ reads, readsFor index
        ((World.initial reader clock influx).run lib fmt inputs).publisher.sys.trace =
          reads.map completedOf ∧
      Accounted fmt (Offered influx inputs) reads
        ((World.initial reader clock influx).run lib fmt inputs) := by
  exact (run_inv lib reader clock influx ok).accounted

/-- A thermometer, read once while the subscriber is connected; its frame is sent, and the
header received. -/
def climateReader : TtyReader.Config where
  listMstime := 1000
  idList := [{ id := 11, readInputAddress := 1, readInputCount := 2 }]

def climateRegs : TtyReader.ReadIo where
  setSlave := 0
  err := 2
  regs index := if index = 0 then 215 else 480
  nodes := [0]
  start := 2000
  stop := 2020

def quietPass (now : Int) : TtyReader.LoopIo where
  check := ⟨now, climateRegs, now + 20⟩
  poll := .ready false false true
  setup := .failed
  accept := some 5
  peers := []

def sendPass : TtyReader.LoopIo where
  check := ⟨2000, climateRegs, 2020⟩
  poll := .ready false false false
  setup := .failed
  accept := none
  peers := [⟨false, true, 0, 16⟩]

def headerReceived : List Input :=
  [.publisher TtyReader.startUp, .subscriber (.start ⟨true, true, true, true, true⟩),
    .publisher (.loop (quietPass 1000)), .publisher (.loop sendPass),
    .subscriber (.loop Influx.headerPass)]

theorem climateReader_sends :
    sentTo 0 ((TtyReader.Daemon.initial climateReader 0).run wideReference.toParseLib
      [TtyReader.startUp, .loop (quietPass 1000), .loop sendPass]).sys.trace =
        Influx.climateFrame.bytes := by
  decide +kernel

theorem headerReceived_ok : Runs.Admits (World.step wideReference Influx.twoDecimals) (KernelOk 0)
    (World.initial climateReader 0 .defaults) headerReceived := by
  refine ⟨trivial, ⟨trivial, trivial⟩, ⟨?_, ?_, rfl⟩, ⟨?_, ?_, rfl⟩, ⟨?_, ?_⟩, trivial⟩
  · intro sck _ peer member
    cases member
  · exact ⟨by decide, fun _ _ => rfl, by decide⟩
  · intro sck accepted
    cases accepted
  · exact ⟨by decide, fun _ _ => rfl, by decide⟩
  · exact Influx.freshNodes_none _
  · intro bytes recv
    cases recv
    refine ⟨by decide, ?_⟩
    show Influx.climateFrame.bytes.take 4 <+:
      sentTo 0 ((TtyReader.Daemon.initial climateReader 0).run wideReference.toParseLib
        [TtyReader.startUp, .loop (quietPass 1000), .loop sendPass]).sys.trace
    rw [climateReader_sends]
    exact List.take_prefix 4 _

theorem readings_requested_headerReceived :
    ∃ reads, readsFor 0
        ((World.initial climateReader 0 .defaults).run wideReference Influx.twoDecimals
          headerReceived).publisher.sys.trace = reads.map completedOf ∧
      Accounted Influx.twoDecimals (Offered .defaults headerReceived) reads
        ((World.initial climateReader 0 .defaults).run wideReference Influx.twoDecimals
          headerReceived) :=
  readings_requested wideReference Influx.twoDecimals climateReader 0 .defaults 0 headerReceived
    headerReceived_ok

end RenogyX10.Subscription
