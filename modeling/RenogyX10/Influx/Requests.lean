import RenogyX10.Influx.Stream
import RenogyX10.Readings
import RenogyX10.TtyClient.Pieces

set_option autoImplicit false

namespace RenogyX10.Influx

open Bytes Csck Messages Parse Proc
open TtyClient (Read)

/-- The values of a read that are for the database. -/
def readingsOf (read : Read) : List Reading :=
  (deviceOf read.message.toHeader).elim [] fun device =>
    (fieldsOf device).filterMap (Readings.readingOf device read.regs)

/-- A value in a request, with one of these configurations. -/
def IsRequest (fmt : FloatText) (configs : InfluxInfo → Prop) (reading : Reading)
    (request : List UInt8) : Prop :=
  ∃ config, configs config ∧ request = requestOf config (lineOf fmt config reading)

/-- The requests that were built are those for these values. -/
structure Requested (fmt : FloatText) (configs : InfluxInfo → Prop) (readings : List Reading)
    (h : Client) : Prop where
  built : List.Forall₂ (IsRequest fmt configs) readings (requestsOf h.trace)
  config : configs h.config

/-- They are those for the first of these values. -/
def Partly (fmt : FloatText) (configs : InfluxInfo → Prop) (readings : List Reading)
    (h : Client) : Prop :=
  ∃ first, first <+: readings ∧ Requested fmt configs first h

variable {fmt : FloatText} {configs : InfluxInfo → Prop} {readings : List Reading} {h t : Client}

theorem Requested.of_same (requested : Requested fmt configs readings h)
    (requests : requestsOf t.trace = requestsOf h.trace) (config : t.config = h.config) :
    Requested fmt configs readings t :=
  ⟨requests ▸ requested.built, config ▸ requested.config⟩

theorem Requested.partly (requested : Requested fmt configs readings h) :
    Partly fmt configs readings h :=
  ⟨readings, List.prefix_rfl, requested⟩

theorem Partly.append (partly : Partly fmt configs readings h) (more : List Reading) :
    Partly fmt configs (readings ++ more) h := by
  obtain ⟨first, isFirst, requested⟩ := partly
  exact ⟨first, isFirst.trans (List.prefix_append _ _), requested⟩

section Message

theorem processMsgTable_requests {alloc : Quantity → AllocIo} {reading : Reading}
    (requested : Requested fmt configs readings h) :
    (processMsgTable fmt alloc reading h).Meets (Requested fmt configs (readings ++ [reading]))
      (Requested fmt configs readings) (Requested fmt configs readings) := by
  unfold processMsgTable
  simp only [read_bind, id_eq]
  apply meets_guard_bind _ _ requested
  apply meets_guard_bind _ _ requested
  apply meets_orFail_bind _ requested
  intro node _
  apply meets_guard_bind _ _ requested
  refine ⟨?_, requested.config⟩
  exact List.rel_append requested.built (.cons ⟨h.config, requested.config, rfl⟩ .nil)

theorem publishFields_requests {alloc : Quantity → AllocIo} {device : Device}
    {regs : List UInt16} {fields : List Field}
    (inside : ∀ field ∈ fields, (field.raw regs).isSome = true)
    (requested : Requested fmt configs readings h) :
    (publishFields (processMsgTable fmt alloc) device (le16s regs) fields h).Meets
      (Requested fmt configs (readings ++ fields.filterMap (Readings.readingOf device regs)))
      (Partly fmt configs (readings ++ fields.filterMap (Readings.readingOf device regs)))
      (Partly fmt configs (readings ++ fields.filterMap (Readings.readingOf device regs))) := by
  induction fields generalizing readings h with
  | nil =>
      rw [List.filterMap_nil, List.append_nil]
      exact requested
  | cons field rest ih =>
      obtain ⟨raw, found⟩ := Option.isSome_iff_exists.mp (inside field List.mem_cons_self)
      have one : Readings.readingOf device regs field =
          some ⟨device, field.quantity, ⟨raw, field.divisor⟩⟩ := by
        rw [Readings.readingOf, found, Option.map_some]
      rw [publishFields_some (field.read_le16s regs ▸ found), List.filterMap_cons_some one,
        ← List.singleton_append, ← List.append_assoc]
      have unfinished (t : Client) (requested : Requested fmt configs readings t) :
          Partly fmt configs (readings ++ [⟨device, field.quantity, ⟨raw, field.divisor⟩⟩] ++
            rest.filterMap (Readings.readingOf device regs)) t :=
        (requested.partly.append _).append _
      apply meets_bind
      · exact meets_mono (processMsgTable_requests requested) (fun _ more => more)
          unfinished unfinished
      · exact fun _ t more => ih (fun other member => inside other (List.mem_cons_of_mem _ member)) more

theorem deliver_requests (lib : WideLib) {io : MsgIo} (read : Read)
    (requested : Requested fmt configs readings h) :
    (deliver lib fmt io (lib.createFromSlice read.message.payload) h).Meets
      (Requested fmt configs (readings ++ readingsOf read))
      (Partly fmt configs (readings ++ readingsOf read))
      (Partly fmt configs (readings ++ readingsOf read)) := by
  have unfinished := requested.partly.append (readingsOf read)
  unfold deliver
  apply meets_guard_bind _ _ unfinished
  rw [processMsg_run, lib.rem_createFromSlice, publishPayload_payload]
  unfold readingsOf
  cases known : deviceOf read.message.toHeader with
  | none =>
      rw [Option.elim_none, Option.elim_none, List.append_nil]
      exact requested
  | some device =>
      apply publishFields_requests _ requested
      intro field member
      apply Field.raw_isSome
      have count : read.regs.length = device.header.count.toNat := by
        rw [← deviceOf_eq_some.mp known]
        exact read.message.complete
      rw [count]
      exact Readings.fieldsOf_inside device field member

end Message

section Pass

theorem connectIsck_requests (io : ConnectIo) (logln : LogSite → Bool) :
    Keeps (Requested fmt configs readings) (connectIsck io logln) := by
  intro h requested
  apply meets_state
  apply connectIsck_meets
  · exact fun _ => requested
  · exact fun _ => ⟨requested, requested⟩
  · exact fun sck _ => ⟨requested.of_same rfl rfl, requested.of_same rfl rfl⟩

theorem dropIsck_requests (logged : Bool) :
    Keeps (Requested fmt configs readings) (dropIsck logged) := by
  refine .bind (.read _) fun h => .bind (.when fun _ => ?_) fun _ => .guard _ _
  exact .modify fun t requested => requested.of_same rfl rfl

theorem isckCanRecv_requests (io : LoopIo) :
    Keeps (Requested fmt configs readings) (isckCanRecv io) := by
  have received : Keeps (Requested fmt configs readings) (processIsckIn io.isckRecv io.logln) := by
    unfold processIsckIn
    cases io.isckRecv with
    | received count => exact .bind (.guard _ _) fun _ => .guard _ _
    | wouldBlock => exact .pure ()
    | failed => exact .fail _
  apply Keeps.rescue (.bind received fun _ => .pure true)
  intro _
  refine .bind (dropIsck_requests _) fun _ => .bind (.modify fun t requested => ?_) fun _ => .pure false
  exact requested.of_same rfl rfl

theorem advance_requests (address sent : Nat) (node : LinkedQueue.Node TtyReader.SendT)
    (requested : Requested fmt configs readings h) :
    Requested fmt configs readings (advance address sent node h) := by
  unfold advance
  dsimp only
  split <;> exact requested.of_same rfl rfl

theorem isckCanSend_requests (io : LoopIo) :
    Keeps (Requested fmt configs readings) (isckCanSend io) := by
  have sends : Keeps (Requested fmt configs readings) (processIsckOut io.isckSent) := by
    refine .bind (.read _) fun h => ?_
    cases h.send.head with
    | none => exact .pure ()
    | some address =>
        refine .bind (.orAbort _) fun node => .bind (.orAbort _) fun slice => .bind (.orFail _ _) ?_
        intro accepted
        apply Keeps.ite
        · intro _
          refine .bind (.modify fun t requested => ?_) fun _ => .modify fun t requested => ?_
          · exact requested.of_same rfl rfl
          · exact advance_requests address _ node requested
        · exact fun _ => .fail _
  refine .bind (.read _) fun h => .bind (.when fun _ => ?_) fun _ =>
    .rescue sends fun _ => dropIsck_requests _
  exact .bind (.modify fun t requested => requested.of_same rfl rfl) fun _ => .guard _ _

theorem serveIsck_requests (io : LoopIo) (polled isckIn isckOut : Bool) :
    Keeps (Requested fmt configs readings) (serveIsck io polled isckIn isckOut) := by
  refine .bind ?_ fun indexed => .when fun _ => isckCanSend_requests io
  exact .ite (fun _ => isckCanRecv_requests io) fun _ => .pure polled

theorem endPass_requests : Keeps (Requested fmt configs readings) endPass := by
  refine .bind (.read _) fun h => .when fun _ => .modify fun t requested => ?_
  exact requested.of_same rfl rfl

theorem reloadConfig_requests {setup : SetupResult} (logln : LogSite → Bool)
    (given : ∀ config, setup = .ok config → configs config) :
    Keeps (Requested fmt configs readings) (reloadConfig setup logln) := by
  refine .bind (.guard _ _) fun _ => ?_
  cases setup with
  | ok config =>
      refine .bind (.modify fun t requested => ?_) fun _ => .guard _ _
      exact ⟨requested.built, given config rfl⟩
  | failed => exact .guard _ _
  | panic => exact .abort

end Pass

end RenogyX10.Influx
