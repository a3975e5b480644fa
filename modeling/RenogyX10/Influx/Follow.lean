import RenogyX10.Influx.Requests

set_option autoImplicit false

namespace RenogyX10.Influx

open Csck Parse Proc
open TtyClient (Read)

/-- From the top of a pass to its recv on the connection to the publisher. -/
def beforeRecv (io : LoopIo) (hup : Bool) : SysAct Unit := do
  Proc.guard (io.logln .loop) .logFailed
  Proc.when hup (onHost (reloadConfig io.setup io.logln))
  onHost (Proc.rescue (connectIsck io.connect io.logln) fun _ =>
    dropIsck (io.logln .connectFailed))

/-- The bytes that a pass receives, if it gets there. -/
def LoopIo.received (io : LoopIo) (c : Sys) : List UInt8 :=
  match io.poll with
  | .ready false hup true _ _ =>
      match beforeRecv io hup c with
      | .ok _ _ => io.recv.getD []
      | _ => []
  | _ => []

def receivedIn (d : Daemon) : Input → List UInt8
  | .loop io => if d.ctl = .loop then io.received d.sys else []
  | _ => []

theorem LoopIo.received_cases (io : LoopIo) (c : Sys) :
    io.received c = [] ∨ io.received c = io.recv.getD [] := by
  unfold LoopIo.received
  split
  · split
    · exact .inr rfl
    · exact .inl rfl
  · exact .inl rfl

/-- These reads were received and their values requested; of the ones behind them the
first bytes are held. -/
structure Reached (fmt : FloatText) (configs : InfluxInfo → Prop) (done later : List Read)
    (held received : List UInt8) (c : Sys) : Prop where
  stream : received = streamOf (done.map Read.frame) ++ held
  holding : Holding c held
  awaits : Awaits held (later.map Read.frame)
  requested : Requested fmt configs (done.flatMap readingsOf) c.host

def Follows (fmt : FloatText) (configs : InfluxInfo → Prop) (reads : List Read)
    (received : List UInt8) (c : Sys) : Prop :=
  ∃ done later held, reads = done ++ later ∧ Reached fmt configs done later held received c

/-- What is left of it when the loop has ended. -/
def Stopped (fmt : FloatText) (configs : InfluxInfo → Prop) (reads : List Read) (c : Sys) : Prop :=
  Partly fmt configs (reads.flatMap readingsOf) c.host

variable {fmt : FloatText} {configs : InfluxInfo → Prop} {reads done later : List Read}
  {held received : List UInt8} {c : Sys}

theorem Reached.stopped (reached : Reached fmt configs done later held received c) :
    Stopped fmt configs (done ++ later) c := by
  unfold Stopped
  rw [List.flatMap_append]
  exact reached.requested.partly.append _

theorem Follows.stopped (follows : Follows fmt configs reads received c) :
    Stopped fmt configs reads c := by
  obtain ⟨done, later, held, rfl, reached⟩ := follows
  exact reached.stopped

theorem Follows.whole (follows : Follows fmt configs reads received c)
    (all : received = streamOf (reads.map Read.frame)) :
    Requested fmt configs (reads.flatMap readingsOf) c.host := by
  obtain ⟨done, later, held, rfl, reached⟩ := follows
  rw [reached.stream, List.map_append, streamOf_append] at all
  have rest : held = ((later.map Read.frame).map Frame.bytes).flatten := List.append_cancel_left all
  obtain ⟨none, -⟩ := reached.awaits.complete rest
  rw [List.map_eq_nil_iff.mp (List.map_eq_nil_iff.mp none), List.append_nil]
  exact reached.requested

theorem Reached.onHost {α : Type} {p : Act α}
    (keeps : Keeps (Requested fmt configs (done.flatMap readingsOf)) p)
    (reached : Reached fmt configs done later held received c) :
    (onHost p c).Meets (fun t => t.info = c.info ∧ Reached fmt configs done later held received t)
      (Stopped fmt configs (done ++ later)) (Stopped fmt configs (done ++ later)) := by
  have moved (host : Client) (requested : Requested fmt configs (done.flatMap readingsOf) host) :
      Reached fmt configs done later held received { c with host := host } :=
    ⟨reached.stream, reached.holding.withHost host, reached.awaits, requested⟩
  apply meets_focus
  apply meets_mono (meets_of_keeps keeps reached.requested)
  · exact fun host requested => ⟨rfl, moved host requested⟩
  · exact fun host requested => (moved host requested).stopped
  · exact fun host requested => (moved host requested).stopped

theorem Follows.onHost {α : Type} {p : Act α}
    (keeps : ∀ readings, Keeps (Requested fmt configs readings) p)
    (follows : Follows fmt configs reads received c) :
    (Csck.onHost p c).Meets (fun t => t.info = c.info ∧ Follows fmt configs reads received t)
      (Stopped fmt configs reads) (Stopped fmt configs reads) := by
  obtain ⟨done, later, held, rfl, reached⟩ := follows
  apply meets_mono (reached.onHost (keeps _))
  · exact fun t both => ⟨both.1, done, later, held, rfl, both.2⟩
  · exact fun t stopped => stopped
  · exact fun t stopped => stopped

theorem reload_follows {io : LoopIo} (hup : Bool)
    (given : ∀ config, io.setup = .ok config → configs config)
    (follows : Follows fmt configs reads received c) :
    (Proc.when hup (Csck.onHost (reloadConfig io.setup io.logln)) c).Meets
      (fun t => t.info = c.info ∧ Follows fmt configs reads received t)
      (Stopped fmt configs reads) (Stopped fmt configs reads) := by
  apply meets_when
  · exact fun _ => follows.onHost fun _ => reloadConfig_requests io.logln given
  · exact fun _ => ⟨rfl, follows⟩

theorem beforeRecv_follows {io : LoopIo} (hup : Bool)
    (given : ∀ config, io.setup = .ok config → configs config)
    (follows : Follows fmt configs reads received c) :
    (beforeRecv io hup c).Meets
      (fun t => t.info = c.info ∧ Follows fmt configs reads received t)
      (Stopped fmt configs reads) (Stopped fmt configs reads) := by
  unfold beforeRecv
  apply meets_guard_bind _ _ follows.stopped
  apply meets_bind (reload_follows hup given follows)
  rintro _ t ⟨same, still⟩
  rw [← same]
  apply still.onHost
  exact fun _ => .rescue (connectIsck_requests _ _) fun _ => dropIsck_requests _

theorem processCsckIn_follows (lib : WideLib) {io : MsgIo} {recv : Option (List UInt8)}
    (promised : ∀ bytes, recv = some bytes → bytes.length ≤ c.info.toRead - c.info.readed ∧
      received ++ bytes <+: streamOf (reads.map Read.frame))
    (follows : Follows fmt configs reads received c) :
    (processCsckIn lib fmt io recv c).Meets
      (Follows fmt configs reads (received ++ recv.getD []))
      (Stopped fmt configs reads) (Stopped fmt configs reads) := by
  have stopped := follows.stopped
  cases recv with
  | none =>
      unfold processCsckIn Csck.processCsckIn
      rw [read_bind, ite_run]
      split <;> exact stopped
  | some bytes =>
      by_cases some_byte : bytes = []
      · unfold processCsckIn Csck.processCsckIn
        rw [read_bind, ite_run, some_byte]
        split <;> exact stopped
      · obtain ⟨done, later, held, rfl, reached⟩ := follows
        obtain ⟨few, within⟩ := promised bytes rfl
        have onward : held ++ bytes <+: streamOf (later.map Read.frame) := by
          rw [reached.stream, List.map_append, streamOf_append, List.append_assoc] at within
          exact (List.prefix_append_right_inj _).mp within
        rw [Option.getD_some]
        rcases reached.holding.receives_next lib.toParseLib (deliver lib fmt io) reached.awaits
            ⟨some_byte, few⟩ onward with
          ⟨frame, rest, first, whole, others, next, buffer, ran⟩ | ⟨next, ran, host, holding, awaits⟩
        · obtain ⟨read, more, rfl, same, rfl⟩ := List.map_eq_cons_iff.mp first
          subst same
          have delivered : (handle lib.toParseLib (deliver lib fmt io) read.frame c.host).Meets
              (Requested fmt configs (done.flatMap readingsOf ++ readingsOf read))
              (Partly fmt configs (done.flatMap readingsOf ++ readingsOf read))
              (Partly fmt configs (done.flatMap readingsOf ++ readingsOf read)) := by
            have published : read.frame.code = 0 := rfl
            unfold handle
            rw [when_true _ published]
            exact deliver_requests lib read reached.requested
          have all : (done ++ read :: more).flatMap readingsOf =
              done.flatMap readingsOf ++ readingsOf read ++ more.flatMap readingsOf := by
            rw [List.flatMap_append, List.flatMap_cons, List.append_assoc]
          unfold processCsckIn
          rw [ran]
          apply meets_finish
          unfold Stopped
          rw [all]
          apply meets_mono delivered
          · intro host requested
            refine ⟨done ++ [read], more, [], ?_, ?_, .idle buffer rfl rfl, others, ?_⟩
            · rw [List.append_assoc, List.singleton_append]
            · rw [reached.stream, List.append_assoc, whole, List.map_append, streamOf_append,
                List.append_nil]
              simp [streamOf]
            · rw [List.flatMap_append, List.flatMap_singleton]
              exact requested
          · exact fun host partly => partly.append _
          · exact fun host partly => partly.append _
        · unfold processCsckIn
          rw [ran]
          refine ⟨done, later, held ++ bytes, rfl, ?_, holding, awaits, host ▸ reached.requested⟩
          rw [reached.stream, List.append_assoc]

theorem mainLoop_recv (lib : WideLib) {io : LoopIo} {hup isckIn isckOut : Bool}
    (poll : io.poll = .ready false hup true isckIn isckOut) (c : Sys) :
    mainLoop lib fmt io c = (beforeRecv io hup >>= fun _ =>
      processCsckIn lib fmt io.msg io.recv >>= fun _ =>
        Csck.onHost (serveIsck io (c.host.isck ≠ -1) isckIn isckOut) >>= fun _ =>
          Csck.onHost endPass >>= fun _ => pure false) c := by
  unfold mainLoop beforeRecv csckCanRecv
  rw [Proc.bind_assoc]
  cases io.logln .loop with
  | false => rfl
  | true =>
      rw [poll]
      simp only [Proc.guard_true, pure_then, read_bind, id_eq, Proc.bind_assoc, Bool.false_eq_true,
        ↓reduceIte, when_true]

theorem endPass_follows (follows : Follows fmt configs reads received c) :
    ((Csck.onHost endPass >>= fun _ => pure false : SysAct Bool) c).Meets
      (Follows fmt configs reads received) (Stopped fmt configs reads)
      (Stopped fmt configs reads) := by
  apply meets_bind (follows.onHost fun _ => endPass_requests)
  exact fun _ t both => both.2

/-- One pass: what was received is requested as far as it is whole, or the loop ends. -/
theorem mainLoop_follows (lib : WideLib) {io : LoopIo}
    (given : ∀ config, io.setup = .ok config → configs config)
    (promised : ∀ bytes, io.recv = some bytes →
      bytes.length ≤ c.info.toRead - c.info.readed ∧
        received ++ bytes <+: streamOf (reads.map Read.frame))
    (follows : Follows fmt configs reads received c) :
    (mainLoop lib fmt io c).Meets (Follows fmt configs reads (received ++ io.received c))
      (Stopped fmt configs reads) (Stopped fmt configs reads) := by
  have stopped := follows.stopped
  have served (hup isckIn isckOut : Bool) (t : Sys) {received : List UInt8}
      (follows : Follows fmt configs reads received t) :
      ((Csck.onHost (serveIsck io (c.host.isck ≠ -1) isckIn isckOut) >>= fun _ =>
        Csck.onHost endPass >>= fun _ => pure false : SysAct Bool) t).Meets
        (Follows fmt configs reads received) (Stopped fmt configs reads)
        (Stopped fmt configs reads) := by
    apply meets_bind (follows.onHost fun _ => serveIsck_requests io _ isckIn isckOut)
    exact fun _ u both => endPass_follows both.2
  cases poll : io.poll with
  | ready term hup csck isckIn isckOut =>
      cases term with
      | true =>
          have none : io.received c = [] := by
            unfold LoopIo.received
            rw [poll]
          unfold mainLoop
          apply meets_guard_bind _ _ stopped
          rw [read_bind, poll, none, List.append_nil]
          exact meets_guard_bind _ _ stopped follows
      | false =>
          cases csck with
          | true =>
              have before := beforeRecv_follows hup given follows
              rw [mainLoop_recv lib poll c]
              cases ran : beforeRecv io hup c with
              | error reason t =>
                  rw [ran] at before
                  rw [bind_of_error ran]
                  exact before
              | panic t =>
                  rw [ran] at before
                  rw [bind_of_panic ran]
                  exact before
              | ok value t =>
                  rw [ran] at before
                  obtain ⟨same, still⟩ := before
                  have taken : io.received c = io.recv.getD [] := by
                    unfold LoopIo.received
                    rw [poll]
                    dsimp only
                    rw [ran]
                  rw [bind_of_ok ran, taken]
                  apply meets_bind (processCsckIn_follows lib (same ▸ promised) still)
                  exact fun _ u onward => served hup isckIn isckOut u onward
          | false =>
              have none : io.received c = [] := by
                unfold LoopIo.received
                rw [poll]
              unfold mainLoop
              apply meets_guard_bind _ _ stopped
              rw [read_bind, poll, none, List.append_nil]
              apply meets_bind (reload_follows hup given follows)
              exact fun _ t both => served hup isckIn isckOut t both.2
  | failed =>
      unfold mainLoop
      apply meets_guard_bind _ _ stopped
      rw [read_bind, poll]
      exact stopped
  | timeout =>
      have none : io.received c = [] := by
        unfold LoopIo.received
        rw [poll]
      unfold mainLoop
      apply meets_guard_bind _ _ stopped
      rw [read_bind, poll, none, List.append_nil]
      exact endPass_follows follows

/-- What holds of the process in every state of a run. -/
structure Subscribed (fmt : FloatText) (configs : InfluxInfo → Prop) (reads : List Read)
    (received : List UInt8) (d : Daemon) : Prop where
  stopped : Stopped fmt configs reads d.sys
  follows : d.ctl.runs = true → Follows fmt configs reads received d.sys

/-- A configuration file sets one of these configurations. -/
def Configures (configs : InfluxInfo → Prop) : Input → Prop
  | .loop io => ∀ config, io.setup = .ok config → configs config
  | _ => True

/-- recv returns no more than it was asked for, and goes on with the stream. -/
def Continues (received stream : List UInt8) (d : Daemon) : Input → Prop
  | .loop io => ∀ bytes, io.recv = some bytes →
      bytes.length ≤ d.sys.info.toRead - d.sys.info.readed ∧ received ++ bytes <+: stream
  | _ => True

theorem Continues.within {stream : List UInt8} {d : Daemon} {input : Input}
    (continues : Continues received stream d input) (sofar : received <+: stream) :
    received ++ receivedIn d input <+: stream := by
  have nothing : received ++ [] <+: stream := by
    rw [List.append_nil]
    exact sofar
  cases input with
  | loop io =>
      show received ++ (if d.ctl = .loop then io.received d.sys else []) <+: stream
      by_cases inLoop : d.ctl = .loop
      · rw [if_pos inLoop]
        rcases io.received_cases d.sys with none | taken
        · rw [none]
          exact nothing
        · rw [taken]
          cases recv : io.recv with
          | none => exact nothing
          | some bytes => exact (continues bytes recv).2
      · rw [if_neg inLoop]
        exact nothing
  | _ => exact nothing

theorem start_requests (io : StartIo) {readings : List Reading} :
    Keeps (Requested fmt configs readings) (start io) := by
  refine .bind (.guard _ _) fun _ => .bind (.guard _ _) fun _ => .bind (.guard _ _) fun _ => ?_
  exact .bind (.guard _ _) fun _ => .guard _ _

theorem step_subscribed (lib : WideLib) {d : Daemon} {input : Input}
    (configures : Configures configs input)
    (continues : Continues received (streamOf (reads.map Read.frame)) d input)
    (subscribed : Subscribed fmt configs reads received d) :
    Subscribed fmt configs reads (received ++ receivedIn d input) (d.step lib fmt input) := by
  obtain ⟨sys, ctl⟩ := d
  have idle (rest : receivedIn ⟨sys, ctl⟩ input = [])
      (same : Subscribed fmt configs reads received (Daemon.step lib fmt ⟨sys, ctl⟩ input)) :
      Subscribed fmt configs reads (received ++ receivedIn ⟨sys, ctl⟩ input)
        (Daemon.step lib fmt ⟨sys, ctl⟩ input) := by
    rw [rest, List.append_nil]
    exact same
  cases ctl <;> cases input <;> try exact idle rfl subscribed
  case connect.start io =>
      have started := (subscribed.follows rfl).onHost fun _ => start_requests io
      apply idle rfl
      unfold Daemon.step
      dsimp only
      cases ended : Csck.onHost (start io) sys with
      | ok _ t =>
          rw [ended] at started
          exact ⟨started.2.stopped, fun _ => started.2⟩
      | error reason t =>
          rw [ended] at started
          exact ⟨started, fun runs => nomatch runs⟩
      | panic t =>
          rw [ended] at started
          exact ⟨started, fun runs => nomatch runs⟩
  case loop.loop io =>
      have passed := mainLoop_follows lib configures continues (subscribed.follows rfl)
      have avoids := mainLoop_avoids lib fmt io sys
      have here : receivedIn ⟨sys, .loop⟩ (.loop io) = io.received sys := rfl
      rw [here]
      unfold Daemon.step
      dsimp only
      cases ended : mainLoop lib fmt io sys with
      | ok left t =>
          rw [ended] at passed
          exact ⟨passed.stopped, fun _ => passed⟩
      | error reason t =>
          rw [ended] at passed
          have other : reason ≠ .reload := by
            rintro rfl
            exact avoids t ended
          refine ⟨passed, fun runs => ?_⟩
          have report : afterLoop (.error reason t) = .report := if_neg other
          dsimp only at runs
          rw [report] at runs
          cases runs
      | panic t =>
          rw [ended] at passed
          exact ⟨passed, fun runs => nomatch runs⟩
  case report.report logged =>
      apply idle rfl
      refine ⟨subscribed.stopped, fun runs => ?_⟩
      cases logged <;> cases runs
  case finish.finish =>
      obtain ⟨first, isFirst, requested⟩ := subscribed.stopped
      exact idle rfl ⟨⟨first, isFirst, requested.of_same rfl rfl⟩, fun runs => nomatch runs⟩

theorem Subscribed.more {d : Daemon} (subscribed : Subscribed fmt configs reads received d)
    (within : received <+: streamOf (reads.map Read.frame)) (more : List Read) :
    Subscribed fmt configs (reads ++ more) received d := by
  constructor
  · unfold Stopped
    rw [List.flatMap_append]
    exact subscribed.stopped.append _
  · intro runs
    obtain ⟨done, later, held, rfl, reached⟩ := subscribed.follows runs
    refine ⟨done, later ++ more, held, List.append_assoc _ _ _, reached.stream, reached.holding, ?_,
      reached.requested⟩
    rw [reached.stream, List.map_append, streamOf_append] at within
    rw [List.map_append]
    exact reached.awaits.more ((List.prefix_append_right_inj _).mp within) _

theorem initial_subscribed {config : InfluxInfo} (given : configs config) :
    Subscribed fmt configs [] [] (Daemon.initial config) := by
  have requested : Requested fmt configs [] (Sys.initial config).host := ⟨.nil, given⟩
  exact ⟨requested.partly, fun _ => ⟨[], [], [], rfl, rfl, initial_idle config, trivial, requested⟩⟩

end RenogyX10.Influx
