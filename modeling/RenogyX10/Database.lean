import RenogyX10.Influx.Served
import RenogyX10.Subscription

set_option autoImplicit false

namespace RenogyX10.Database

open Blocks Publisher Subscription
open Influx (FloatText InfluxInfo Serves linksOf readingsOf)
open TtyClient (Read)

/-- In every run of the publisher and the subscriber, in any order of their steps, with
every cut of the streams: on each connection to the database the server reads whole posts,
of values that came one after the other from the reads that completed; no value is read on
two connections, and later connections have later values. -/
theorem readings_served (lib : Parse.WideLib) (fmt : FloatText) (reader : TtyReader.Config)
    (clock : Int) (influx : InfluxInfo) (index : Nat) (inputs : List Input)
    (ok : Runs.Admits (World.step lib fmt) (KernelOk index) (World.initial reader clock influx)
      inputs)
    (clean : ∀ config, Offered influx inputs config → config.target.Clean) :
    ∃ reads : List Read, readsFor index
        ((World.initial reader clock influx).run lib fmt inputs).publisher.sys.trace =
          reads.map completedOf ∧
      ∃ blocks, Scattered blocks (reads.flatMap readingsOf) ∧
        List.Forall₂ (Serves fmt (Offered influx inputs))
          (linksOf ((World.initial reader clock influx).run lib fmt inputs).subscriber.sys.host.trace)
          blocks := by
  have inv := run_inv lib reader clock influx ok
  obtain ⟨reads, known, accounted⟩ := inv.accounted
  exact ⟨reads, known, accounted.partly.served clean accounted.streamed⟩

theorem readings_served_headerReceived :
    ∃ reads : List Read, readsFor 0
        ((World.initial climateReader 0 .defaults).run Parse.wideReference Influx.twoDecimals
          headerReceived).publisher.sys.trace = reads.map completedOf ∧
      ∃ blocks, Scattered blocks (reads.flatMap readingsOf) ∧
        List.Forall₂ (Serves Influx.twoDecimals (Offered .defaults headerReceived))
          (linksOf ((World.initial climateReader 0 .defaults).run Parse.wideReference
            Influx.twoDecimals headerReceived).subscriber.sys.host.trace) blocks := by
  apply readings_served Parse.wideReference Influx.twoDecimals climateReader 0 .defaults 0
    headerReceived headerReceived_ok
  rintro config (rfl | ⟨io, member, setup⟩)
  · constructor <;> constructor <;> decide
  · have only : io = Influx.headerPass := by simpa [headerReceived] using member
    rw [only] at setup
    cases setup

end RenogyX10.Database
