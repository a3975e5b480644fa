import RenogyX10.Influx.Links

set_option autoImplicit false

namespace RenogyX10.Influx

open Csck LinkedQueue Messages Parse Proc
open Toml (text)
open TtyReader (Backlog Cells SendT unsentBytes)

/-- What holds between the handlers of a pass. -/
structure Sound (h : Client) : Prop where
  flow : ∃ cells, Flow h cells
  connecting : h.connecting = true → h.isck ≠ -1

/-- What holds at the head of the loop: without a connection nothing is queued. -/
structure Ready (h : Client) : Prop where
  flow : ∃ cells, Flow h cells ∧ (h.isck = -1 → cells = [])
  connecting : h.connecting = true → h.isck ≠ -1

/-- What is left of it when the loop has ended. -/
def Lost (h : Client) : Prop := Streamed h.trace

theorem Ready.sound {h : Client} (ready : Ready h) : Sound h := by
  obtain ⟨cells, flow, _⟩ := ready.flow
  exact ⟨⟨cells, flow⟩, ready.connecting⟩

theorem Sound.lost {h : Client} (sound : Sound h) : Lost h := by
  obtain ⟨cells, flow⟩ := sound.flow
  exact flow.streamed

section Handlers

variable {h : Client} {cells : Cells} {good bad fallen : Client → Prop}

theorem beginConnect_meets {io : ConnectIo} {logln : LogSite → Bool}
    (begun : good (h.setConnecting true)) (failed : bad h) :
    (beginConnect io logln h).Meets good bad fallen := by
  unfold beginConnect
  apply meets_orFail_bind _ failed
  intro nonblock _
  have blocking : (Proc.when (nonblock = false) (Proc.guard io.setFl ClientError.fcntlFailed)
      h).Meets
      (fun t => t = h) bad fallen := by
    apply meets_when
    · exact fun _ => meets_guard _ _ rfl failed
    · exact fun _ => rfl
  apply meets_bind blocking
  rintro _ _ rfl
  apply meets_guard_bind _ _ failed
  exact meets_guard_bind _ _ failed begun

/-- Without a connection a socket may be opened, and then a connection begun. -/
theorem connectIsck_meets {io : ConnectIo} {logln : LogSite → Bool}
    (connected : h.isck ≠ -1 → good h) (refused : h.isck = -1 → bad h ∧ fallen h)
    (opened : ∀ sck, h.isck = -1 →
      bad (openIsck sck h) ∧ good ((openIsck sck h).setConnecting true)) :
    (connectIsck io logln h).Meets good bad fallen := by
  unfold connectIsck
  simp only [read_bind, id_eq]
  apply meets_when
  · intro closed
    apply meets_orAbort_bind (refused closed).2
    intro port _
    apply meets_orFail_bind _ (refused closed).1
    intro addresses _
    apply meets_guard_bind _ _ (refused closed).1
    apply meets_orFail_bind _ (refused closed).1
    intro sck _
    rw [modify_bind]
    exact beginConnect_meets (opened sck closed).2 (opened sck closed).1
  · exact connected

theorem dropIsck_meets {logged : Bool} (flow : Flow h cells)
    (dropped : ∀ t, Flow t cells → t.isck = -1 → t.connecting = h.connecting → t.heap = h.heap →
      good t ∧ bad t) :
    (dropIsck logged h).Meets good bad fallen := by
  unfold dropIsck
  simp only [read_bind, id_eq]
  by_cases closed : h.isck = -1
  · have kept := dropped h flow closed rfl rfl
    rw [when_false _ (not_not_intro closed), pure_then]
    exact meets_guard _ _ kept.1 kept.2
  · have gone := dropped (closeIsck h) (flow.closed closed) rfl rfl rfl
    rw [when_true _ closed, modify_bind]
    exact meets_guard _ _ gone.1 gone.2

/-- The subscriber's handler connects first. A connection that is there stays. -/
theorem connect_meets {io : ConnectIo} {logln : LogSite → Bool} {logged : Bool} (ready : Ready h) :
    (Proc.rescue (connectIsck io logln) (fun _ => dropIsck logged) h).Meets
      (fun t => Sound t ∧ t.heap = h.heap ∧ (h.isck ≠ -1 → t.isck ≠ -1))
      Lost Lost := by
  obtain ⟨cells, flow, idle⟩ := ready.flow
  have calm (closed : h.isck = -1) : h.connecting = false :=
    Bool.eq_false_iff.mpr fun begun => ready.connecting begun closed
  have attempt : (connectIsck io logln h).Meets
      (fun t => Sound t ∧ t.heap = h.heap ∧ (h.isck ≠ -1 → t.isck ≠ -1))
      (fun t => h.isck = -1 ∧ Flow t [] ∧ t.connecting = false ∧ t.heap = h.heap)
      Lost := by
    apply connectIsck_meets
    · exact fun connected => ⟨ready.sound, rfl, fun _ => connected⟩
    · intro closed
      rw [idle closed] at flow
      exact ⟨⟨closed, flow, calm closed, rfl⟩, flow.streamed⟩
    · intro sck closed
      rw [idle closed] at flow
      have begun := flow.opened sck
      have connected : (openIsck sck h).isck ≠ -1 := by
        show (sck : Int) ≠ -1
        omega
      exact ⟨⟨closed, begun, calm closed, rfl⟩,
        ⟨⟨[], begun.of_same rfl rfl rfl rfl⟩, fun _ => connected⟩, rfl, fun _ => connected⟩
  apply meets_rescue attempt
  rintro _ t ⟨closed, begun, idle, heap⟩
  apply dropIsck_meets begun
  intro u left _ same kept
  have quiet : u.connecting ≠ true := by
    rw [same, idle]
    decide
  exact ⟨⟨⟨⟨[], left⟩, fun begun => absurd begun quiet⟩, kept.trans heap,
    fun connected => absurd closed connected⟩, left.streamed⟩

/-- Sound, and the connection that was polled is still there. -/
structure Served (polled : Int) (h : Client) : Prop where
  sound : Sound h
  kept : polled ≠ -1 → h.isck ≠ -1

theorem requestOf_nonempty (config : InfluxInfo) (line : List UInt8) :
    0 < (requestOf config line).length := by
  have ended : 0 < (Toml.text "\r\n\r\n").length := by decide
  rw [requestOf, List.length_append, List.length_append]
  omega

/-- The addresses for the requests of a message are unused and different. -/
structure FreshNodes (alloc : Quantity → AllocIo) (heap : Heap SendT) : Prop where
  free : ∀ quantity node, (alloc quantity).node = some node → heap.lookup node = none
  apart : ∀ quantity other node, (alloc quantity).node = some node →
    (alloc other).node = some node → quantity = other

theorem processMsgTable_meets {fmt : FloatText} {alloc : Quantity → AllocIo} {reading : Reading}
    (failed : bad h)
    (built : ∀ node request, (alloc reading.quantity).node = some node → 0 < request.length →
      good (queueRequest node request h)) :
    (processMsgTable fmt alloc reading h).Meets good bad fallen := by
  unfold processMsgTable
  simp only [read_bind, id_eq]
  apply meets_guard_bind _ _ failed
  apply meets_guard_bind _ _ failed
  apply meets_orFail_bind _ failed
  intro node allocated
  exact meets_guard_bind _ _ failed (built node _ allocated (requestOf_nonempty _ _))

theorem queueRequest_spare (flow : Flow h cells) {node other : Nat} (request : List UInt8)
    (apart : other ≠ node) (free : h.heap.lookup other = none) :
    (queueRequest node request h).heap.lookup other = none := by
  have outside := flow.queue.chain.not_mem_of_free free
  have behind : h.send.tail ≠ some other := fun isTail => outside (flow.queue.tail_mem isTail)
  exact (push_lookup_ne h.heap h.send _ apart behind).trans free

theorem Served.queued {polled : Int} (served : Served polled h) {node : Nat}
    (free : h.heap.lookup node = none) {request : List UInt8} (nonempty : 0 < request.length) :
    Served polled (queueRequest node request h) := by
  obtain ⟨⟨⟨cells, flow⟩, connecting⟩, kept⟩ := served
  exact ⟨⟨⟨_, flow.queued free nonempty⟩, connecting⟩, kept⟩

theorem publishFields_meets {fmt : FloatText} {alloc : Quantity → AllocIo} {device : Device}
    {bytes : List UInt8} {polled : Int} {fields : List Field}
    (apart : ∀ quantity other node, (alloc quantity).node = some node →
      (alloc other).node = some node → quantity = other)
    (once : (fields.map Field.quantity).Nodup)
    (spare : ∀ field ∈ fields, ∀ node, (alloc field.quantity).node = some node →
      h.heap.lookup node = none)
    (served : Served polled h) :
    (publishFields (processMsgTable fmt alloc) device bytes fields h).Meets (Served polled)
      Lost Lost := by
  induction fields generalizing h with
  | nil => exact served
  | cons field rest ih =>
      obtain ⟨new, others⟩ := List.nodup_cons.mp once
      cases found : field.read bytes with
      | none =>
          rw [publishFields_none found]
          exact served.sound.lost
      | some raw =>
          rw [publishFields_some found]
          have queued : (processMsgTable fmt alloc
              ⟨device, field.quantity, ⟨raw, field.divisor⟩⟩ h).Meets
              (fun t => Served polled t ∧ ∀ other ∈ rest, ∀ node,
                (alloc other.quantity).node = some node → t.heap.lookup node = none)
              Lost Lost := by
            apply processMsgTable_meets served.sound.lost
            intro node request allocated nonempty
            have free := spare field List.mem_cons_self node allocated
            refine ⟨served.queued free nonempty, ?_⟩
            intro other member later theirs
            obtain ⟨cells, flow⟩ := served.sound.flow
            apply queueRequest_spare flow
            · rintro rfl
              have same : field.quantity = other.quantity := apart _ _ _ allocated theirs
              exact new (same ▸ List.mem_map_of_mem member)
            · exact spare other (List.mem_cons_of_mem field member) later theirs
          apply meets_bind queued
          exact fun _ t ⟨still, free⟩ => ih others free still

theorem fieldsOf_once (device : Device) : ((fieldsOf device).map Field.quantity).Nodup := by
  cases device <;> decide

theorem deliver_meets (lib : WideLib) {fmt : FloatText} {io : MsgIo} {s : ParseT} {polled : Int}
    (fresh : FreshNodes io.alloc h.heap) (served : Served polled h) :
    (deliver lib fmt io s h).Meets (Served polled)
      Lost Lost := by
  unfold deliver
  apply meets_guard_bind _ _ served.sound.lost
  rw [processMsg_run]
  rcases publishPayload_cases s.rem with short | other | ⟨device, bytes, known⟩
  · rw [short]
    exact served.sound.lost
  · rw [other]
    exact served
  · rw [known]
    exact publishFields_meets fresh.apart (fieldsOf_once device)
      (fun field _ => fresh.free field.quantity) served

theorem csckCanRecv_meets (lib : WideLib) {fmt : FloatText} {io : LoopIo} {c : Sys}
    (fresh : FreshNodes io.msg.alloc c.host.heap) (ready : Ready c.host) :
    (csckCanRecv lib fmt io c).Meets (fun t => Served c.host.isck t.host)
      (fun t => Lost t.host) fun t => Lost t.host := by
  unfold csckCanRecv
  apply meets_bind (meets_onHost (connect_meets ready))
  rintro _ t ⟨sound, heap, kept⟩
  have served : Served c.host.isck t.host := ⟨sound, kept⟩
  apply processCsckIn_host lib.toParseLib served sound.lost sound.lost
  intro s
  apply deliver_meets lib _ served
  rw [heap]
  exact fresh

/-- Nothing is read from the answers of the database but that there are some. -/
theorem processIsckIn_run (recv : IsckRecv) (logln : LogSite → Bool) (h : Client) :
    processIsckIn recv logln h = .ok () h ∨
      ∃ reason, processIsckIn recv logln h = .error reason h := by
  cases recv with
  | wouldBlock => exact .inl rfl
  | failed => exact .inr ⟨_, rfl⟩
  | received count =>
      unfold processIsckIn
      dsimp only
      cases logln .received with
      | false => exact .inr ⟨_, rfl⟩
      | true =>
          cases decide (0 < count) with
          | false => exact .inr ⟨_, rfl⟩
          | true => exact .inl rfl

theorem advance_isck (address sent : Nat) (node : Node SendT) (h : Client) :
    (advance address sent node h).isck = h.isck := by
  unfold advance
  dsimp only
  split <;> rfl

theorem advance_connecting (address sent : Nat) (node : Node SendT) (h : Client) :
    (advance address sent node h).connecting = h.connecting := by
  unfold advance
  dsimp only
  split <;> rfl

theorem processIsckOut_meets {taken : Option Nat} (flow : Flow h cells) (connected : h.isck ≠ -1) :
    (processIsckOut taken h).Meets
      (fun t => (∃ left, Flow t left) ∧ t.isck = h.isck ∧ t.connecting = h.connecting)
      (fun t => t = h) Lost := by
  unfold processIsckOut
  simp only [read_bind, id_eq]
  cases starts : h.send.head with
  | none => exact ⟨⟨cells, flow⟩, rfl, rfl⟩
  | some address =>
      dsimp only
      have sound : Lost h := flow.streamed
      apply meets_orAbort_bind sound
      intro node allocated
      apply meets_orAbort_bind sound
      intro slice isSlice
      apply meets_orFail_bind
      · rfl
      intro accepted _
      have unsent : slice = node.value.unsent := by
        unfold SendT.outSlice at isSlice
        split at isSlice
        · exact (Option.some.inj isSlice).symm
        · cases isSlice
      rw [ite_run]
      split
      · rw [modify_bind, unsent]
        obtain ⟨left, onward⟩ := flow.sent connected starts allocated
          (min accepted node.value.unsent.length)
        exact ⟨⟨left, onward⟩, advance_isck _ _ node _, advance_connecting _ _ node _⟩
      · rfl

/-- The answers of the database are received: the connection stays as it is, or
it is closed and the descriptor is not looked at again. -/
theorem isckCanRecv_bind (io : LoopIo) (next : Bool → Act Unit) (h : Client) :
    (isckCanRecv io >>= next) h = next true h ∨
      (isckCanRecv io >>= next) h = (dropIsck (io.logln .recvFailed) >>= fun _ =>
        Proc.modify (Client.setConnecting false) >>= fun _ => next false) h := by
  rcases processIsckIn_run io.isckRecv io.logln h with received | ⟨reason, failed⟩
  · have kept : isckCanRecv io h = .ok true h := rescue_of_ok (bind_of_ok received)
    exact .inl (bind_of_ok kept)
  · have dropped : isckCanRecv io h = (dropIsck (io.logln .recvFailed) >>= fun _ =>
        Proc.modify (Client.setConnecting false) >>= fun _ => pure false) h :=
      rescue_of_error (bind_of_error failed)
    right
    rw [bind_of_run dropped, Proc.bind_assoc]
    rfl

theorem isckCanSend_meets {io : LoopIo} (sound : Sound h) (connected : h.isck ≠ -1) :
    (isckCanSend io h).Meets Sound Lost Lost := by
  obtain ⟨cells, flow⟩ := sound.flow
  unfold isckCanSend
  simp only [read_bind, id_eq]
  have ready : (Proc.when (h.connecting = true) (do
      Proc.modify (Client.setConnecting false)
      Proc.guard (io.logln .connected) ClientError.logFailed) h).Meets
      (fun t => Flow t cells ∧ t.isck = h.isck ∧ t.connecting = false) Lost Lost := by
    apply meets_when
    · intro _
      have quiet : Flow (h.setConnecting false) cells := flow.of_same rfl rfl rfl rfl
      rw [modify_bind]
      exact meets_guard _ _ ⟨quiet, rfl, rfl⟩ flow.streamed
    · exact fun calm => ⟨flow, rfl, Bool.eq_false_iff.mpr calm⟩
  apply meets_bind ready
  rintro _ t ⟨still, same, calm⟩
  have here : t.isck ≠ -1 := same ▸ connected
  have sent : (processIsckOut io.isckSent t).Meets Sound (fun u => u = t) Lost := by
    apply meets_mono (processIsckOut_meets still here)
    · rintro u ⟨left, _, kept⟩
      refine ⟨left, fun begun => ?_⟩
      rw [kept, calm] at begun
      cases begun
    · exact fun _ same => same
    · exact fun _ lost => lost
  apply meets_rescue sent
  rintro _ _ rfl
  apply dropIsck_meets still
  intro u left _ kept _
  refine ⟨⟨⟨cells, left⟩, fun begun => ?_⟩, left.streamed⟩
  rw [kept, calm] at begun
  cases begun

/-- The handlers of the database descriptor. It is looked at only if it was polled,
and sent on only if it was not closed before. -/
theorem serveIsck_meets {io : LoopIo} {isckIn isckOut : Bool} {polled : Int}
    (served : Served polled h) :
    (serveIsck io (polled ≠ -1) isckIn isckOut h).Meets Sound Lost Lost := by
  have sends (indexed : Bool) (t : Client) (sound : Sound t)
      (connected : indexed = true → t.isck ≠ -1) :
      (Proc.when (indexed = true ∧ isckOut = true) (isckCanSend io) t).Meets Sound Lost Lost := by
    apply meets_when
    · exact fun both => isckCanSend_meets sound (connected both.1)
    · exact fun _ => sound
  have still : decide (polled ≠ -1) = true → h.isck ≠ -1 := fun open' =>
    served.kept (of_decide_eq_true open')
  unfold serveIsck receiveIsck
  by_cases readable : decide (polled ≠ -1) = true ∧ isckIn = true
  · rw [if_pos readable]
    rcases isckCanRecv_bind io _ h with received | closed
    · rw [received]
      exact sends true h served.sound fun _ => still readable.1
    · rw [closed]
      obtain ⟨cells, flow⟩ := served.sound.flow
      have dropped : (dropIsck (io.logln .recvFailed) h).Meets
          (fun t => Flow t cells) Lost Lost :=
        dropIsck_meets flow fun t left _ _ _ => ⟨left, left.streamed⟩
      apply meets_bind dropped
      intro _ t left
      rw [modify_bind]
      apply sends false
      · exact ⟨⟨cells, left.of_same rfl rfl rfl rfl⟩, fun begun => nomatch begun⟩
      · exact fun other => nomatch other
  · rw [if_neg readable]
    exact sends _ h served.sound still

theorem endPass_meets (sound : Sound h) : (endPass h).Meets Ready bad fallen := by
  obtain ⟨cells, flow⟩ := sound.flow
  unfold endPass
  simp only [read_bind, id_eq]
  apply meets_when
  · intro closed
    exact ⟨⟨[], flow.cleared closed, fun _ => rfl⟩, sound.connecting⟩
  · exact fun connected => ⟨⟨cells, flow, fun closed => absurd closed connected⟩, sound.connecting⟩

theorem reloadConfig_meets {setup : SetupResult} {logln : LogSite → Bool} (same : good h)
    (failed : bad h) (installed : ∀ config, good (h.install config) ∧ bad (h.install config))
    (panic : fallen h) :
    (reloadConfig setup logln h).Meets good bad fallen := by
  unfold reloadConfig
  apply meets_guard_bind _ _ failed
  cases setup with
  | ok config => exact meets_guard _ _ (installed config).1 (installed config).2
  | failed => exact meets_guard _ _ same failed
  | panic => exact panic

end Handlers

/-- Ready, with the connection and the memory of an earlier state. -/
structure Reloaded (before h : Client) : Prop where
  ready : Ready h
  heap : h.heap = before.heap
  isck : h.isck = before.isck

theorem reloadConfig_ready {setup : SetupResult} {logln : LogSite → Bool} {h : Client}
    (ready : Ready h) : (reloadConfig setup logln h).Meets (Reloaded h) Lost Lost := by
  have lost := ready.sound.lost
  apply reloadConfig_meets ⟨ready, rfl, rfl⟩ lost _ lost
  intro config
  obtain ⟨cells, flow, idle⟩ := ready.flow
  have kept : Flow (h.install config) cells := flow.of_same rfl rfl rfl rfl
  exact ⟨⟨⟨⟨cells, kept, idle⟩, ready.connecting⟩, rfl, rfl⟩, kept.streamed⟩

/-- One pass: whatever is ready and however the calls end, the head of the loop is
reached again as it was, or the loop has ended. -/
theorem mainLoop_meets (lib : WideLib) {fmt : FloatText} {io : LoopIo} {c : Sys}
    (fresh : FreshNodes io.msg.alloc c.host.heap) (ready : Ready c.host) :
    (mainLoop lib fmt io c).Meets (fun t => Ready t.host) (fun t => Lost t.host)
      fun t => Lost t.host := by
  have lost := ready.sound.lost
  have ending (t : Sys) (sound : Sound t.host) : ((do
      onHost endPass
      pure false : SysAct Bool) t).Meets (fun t => Ready t.host) (fun t => Lost t.host)
        fun t => Lost t.host :=
    meets_bind (meets_onHost (endPass_meets sound)) fun _ _ holds => holds
  unfold mainLoop
  apply meets_guard_bind
  · exact lost
  simp only [read_bind, id_eq]
  cases io.poll with
  | failed => exact lost
  | timeout => exact ending c ready.sound
  | ready term hup csck isckIn isckOut =>
      cases term with
      | true =>
          apply meets_guard_bind
          · exact lost
          · exact ready
      | false =>
          have reloaded : (Proc.when hup (onHost (reloadConfig io.setup io.logln)) c).Meets
              (fun t => Reloaded c.host t.host) (fun t => Lost t.host) fun t => Lost t.host := by
            apply meets_when
            · exact fun _ => meets_onHost (reloadConfig_ready ready)
            · exact fun _ => ⟨ready, rfl, rfl⟩
          apply meets_bind reloaded
          rintro _ t ⟨still, heap, isck⟩
          have received : (Proc.when csck (csckCanRecv lib fmt io) t).Meets
              (fun u => Served c.host.isck u.host) (fun u => Lost u.host)
              fun u => Lost u.host := by
            rw [← isck]
            apply meets_when
            · exact fun _ => csckCanRecv_meets lib (heap ▸ fresh) still
            · exact fun _ => ⟨still.sound, fun connected => connected⟩
          apply meets_bind received
          intro _ u served
          apply meets_bind (meets_onHost (serveIsck_meets served))
          exact fun _ v sound => ending v sound

section Avoids

theorem publishFields_avoids {σ : Type} {reason : ClientError}
    {publish : Reading → Proc ClientError σ Unit} (ended : .endOfBuffer ≠ reason)
    (each : ∀ reading, Avoids reason (publish reading)) (device : Device) (bytes : List UInt8)
    (fields : List Field) : Avoids reason (publishFields publish device bytes fields) := by
  induction fields with
  | nil => exact .pure ()
  | cons field rest ih =>
      cases found : field.read bytes with
      | none =>
          rw [publishFields_none found]
          exact .fail ended
      | some raw =>
          rw [publishFields_some found]
          exact .bind (each _) fun _ => ih

theorem deliver_avoids (lib : WideLib) (fmt : FloatText) (io : MsgIo) (s : ParseT) :
    Avoids .reload (deliver lib fmt io s) := by
  have each (reading : Reading) : Avoids .reload (processMsgTable fmt io.alloc reading) := by
    apply Avoids.bind (.read _)
    intro h
    apply Avoids.bind (.guard _ (by decide))
    intro _
    apply Avoids.bind (.guard _ (by decide))
    intro _
    apply Avoids.bind (.orFail _ (by decide))
    intro node
    exact .bind (.guard _ (by decide)) fun _ => .modify _
  apply Avoids.bind (.guard _ (by decide))
  intro _
  rw [processMsg_run]
  rcases publishPayload_cases s.rem with short | other | ⟨device, bytes, known⟩
  · rw [short]
    exact .fail (by decide)
  · rw [other]
    exact .pure ()
  · rw [known]
    exact publishFields_avoids (by decide) each device bytes _

theorem dropIsck_avoids (logged : Bool) : Avoids .reload (dropIsck logged) := by
  apply Avoids.bind (.read _)
  intro h
  exact .bind (.when (.modify _)) fun _ => .guard _ (by decide)

/-- The configuration is reloaded within the loop, which no error leaves for that. -/
theorem mainLoop_avoids (lib : WideLib) (fmt : FloatText) (io : LoopIo) :
    Avoids .reload (mainLoop lib fmt io) := by
  have reload : Avoids .reload (reloadConfig io.setup io.logln) := by
    apply Avoids.bind (.guard _ (by decide))
    intro _
    cases io.setup with
    | ok config => exact .bind (.modify _) fun _ => .guard _ (by decide)
    | failed => exact .guard _ (by decide)
    | panic => exact .abort
  have receive : Avoids .reload (csckCanRecv lib fmt io) := by
    apply Avoids.bind (.focus (.rescue fun _ => dropIsck_avoids _))
    intro _
    exact processCsckIn_avoids lib.toParseLib io.recv (by decide) (by decide) (by decide)
      (deliver_avoids lib fmt io.msg)
  have answers : Avoids .reload (isckCanRecv io) := by
    apply Avoids.rescue
    intro _
    apply Avoids.bind (dropIsck_avoids _)
    intro _
    exact .bind (.modify _) fun _ => .pure false
  have sends : Avoids .reload (isckCanSend io) := by
    apply Avoids.bind (.read _)
    intro h
    apply Avoids.bind (.when (.bind (.modify _) fun _ => .guard _ (by decide)))
    exact fun _ => .rescue fun _ => dropIsck_avoids _
  have serves (polled isckIn isckOut : Bool) :
      Avoids .reload (serveIsck io polled isckIn isckOut) := by
    have first : Avoids .reload (receiveIsck io polled isckIn) := .ite answers (.pure polled)
    apply Avoids.bind first
    exact fun _ => .when sends
  have ending : Avoids .reload (onHost endPass) := by
    apply Avoids.focus
    exact .bind (.read _) fun _ => .when (.modify _)
  apply Avoids.bind (.guard _ (by decide))
  intro _
  apply Avoids.bind (.read _)
  intro c
  cases io.poll with
  | failed => exact .fail (by decide)
  | timeout => exact .bind ending fun _ => .pure false
  | ready term hup csck isckIn isckOut =>
      apply Avoids.ite
      · exact .bind (.guard _ (by decide)) fun _ => .pure true
      · apply Avoids.bind (.when (.focus reload))
        intro _
        apply Avoids.bind (.when receive)
        intro _
        apply Avoids.bind (.focus (serves _ _ _))
        exact fun _ => .bind ending fun _ => .pure false

end Avoids

/-- The allocator hands out addresses that are not in use. -/
def KernelOk (d : Daemon) : Input → Prop
  | .loop io => FreshNodes io.msg.alloc d.sys.host.heap
  | _ => True

/-- The loop is still to come, or at its head. -/
def Ctl.runs : Ctl → Bool
  | .connect | .loop => true
  | _ => false

/-- What holds of the process in every state of a run. -/
structure Inv (d : Daemon) : Prop where
  lost : Lost d.sys.host
  ready : d.ctl.runs = true → Ready d.sys.host

theorem initial_ready (config : InfluxInfo) : Ready (Sys.initial config).host := by
  refine ⟨⟨[], ?_, fun _ => rfl⟩, fun begun => nomatch begun⟩
  exact ⟨empty_represents _, Backlog.nil, Streamed.nil, fun connected => absurd rfl connected,
    fun _ => idle_nil⟩

theorem start_meets {io : StartIo} {h : Client} {good bad fallen : Client → Prop} (started : good h)
    (failed : bad h) : (start io h).Meets good bad fallen := by
  unfold start
  apply meets_guard_bind _ _ failed
  apply meets_guard_bind _ _ failed
  apply meets_guard_bind _ _ failed
  apply meets_guard_bind _ _ failed
  exact meets_guard _ _ started failed

theorem step_inv (lib : WideLib) (fmt : FloatText) (d : Daemon) (input : Input)
    (ok : KernelOk d input) (inv : Inv d) : Inv (d.step lib fmt input) := by
  obtain ⟨sys, ctl⟩ := d
  cases ctl <;> cases input <;> try exact inv
  case connect.start io =>
      have ready := inv.ready rfl
      have started : (onHost (start io) sys).Meets (fun t => Ready t.host) (fun t => Lost t.host)
          fun t => Lost t.host := meets_onHost (start_meets ready inv.lost)
      unfold Daemon.step
      dsimp only
      cases ended : onHost (start io) sys with
      | ok _ t =>
          rw [ended] at started
          exact ⟨started.sound.lost, fun _ => started⟩
      | error reason t =>
          rw [ended] at started
          exact ⟨started, fun runs => nomatch runs⟩
      | panic t =>
          rw [ended] at started
          exact ⟨started, fun runs => nomatch runs⟩
  case loop.loop io =>
      have passed : (mainLoop lib fmt io sys).Meets (fun t => Ready t.host) (fun t => Lost t.host)
          fun t => Lost t.host := mainLoop_meets lib ok (inv.ready rfl)
      have avoids := mainLoop_avoids lib fmt io sys
      unfold Daemon.step
      dsimp only
      cases ended : mainLoop lib fmt io sys with
      | ok left t =>
          rw [ended] at passed
          exact ⟨passed.sound.lost, fun _ => passed⟩
      | error reason t =>
          rw [ended] at passed
          have other : reason ≠ .reload := by
            rintro rfl
            exact avoids t ended
          refine ⟨passed, fun runs => ?_⟩
          have report : afterLoop (.error reason t) = .report := if_neg other
          dsimp only at runs
          rw [report] at runs
          cases runs
      | panic t =>
          rw [ended] at passed
          exact ⟨passed, fun runs => nomatch runs⟩
  case report.report logged =>
      refine ⟨inv.lost, fun runs => ?_⟩
      cases logged <;> cases runs
  case finish.finish =>
      exact ⟨inv.lost, fun runs => nomatch runs⟩

/-- Every head of the loop: without a connection nothing is queued, only a
connection is being opened, and the pointers of the queue are null together. -/
structure LoopHead (h : Client) : Prop where
  closed : h.isck = -1 → h.send = empty
  connecting : h.connecting = true → h.isck ≠ -1
  ends : h.send.head = none ↔ h.send.tail = none

theorem Ready.loopHead {h : Client} (ready : Ready h) : LoopHead h := by
  obtain ⟨cells, flow, idle⟩ := ready.flow
  refine ⟨?_, ready.connecting, flow.queue.null_together⟩
  intro closed
  have head := flow.queue.head_eq_none_iff.mpr (idle closed)
  have tail := flow.queue.tail_eq_none_iff.mpr (idle closed)
  cases send : h.send with
  | mk first last =>
      rw [send] at head tail
      cases head
      cases tail
      rfl

/-- In every run each connection is sent the beginning of its requests, no two
connections share one, and the head of the loop is in order. -/
theorem requests_streamed (lib : WideLib) (fmt : FloatText) (config : InfluxInfo)
    (inputs : List Input)
    (kernel : Runs.Admits (Daemon.step lib fmt) KernelOk (Daemon.initial config) inputs) :
    Streamed ((Daemon.initial config).run lib fmt inputs).sys.host.trace ∧
      (((Daemon.initial config).run lib fmt inputs).ctl = .loop →
        LoopHead ((Daemon.initial config).run lib fmt inputs).sys.host) := by
  have start : Inv (Daemon.initial config) :=
    ⟨(initial_ready config).sound.lost, fun _ => initial_ready config⟩
  have inv := Runs.exec_keeps (step_inv lib fmt) kernel start
  refine ⟨inv.lost, fun atHead => Ready.loopHead (inv.ready ?_)⟩
  show Ctl.runs ((Daemon.initial config).run lib fmt inputs).ctl = true
  rw [atHead]
  rfl

/-- Two decimals of a value that has no more. -/
def twoDecimals (value : Scaled) : List UInt8 :=
  decimal (value.raw / value.divisor) ++ Toml.text "." ++
    (Nat.toDigits 10 (100 + value.raw * 100 / value.divisor % 100)).tail.map fun digit =>
      UInt8.ofNat digit.toNat

/-- 21.5 degrees, 48 percent. -/
def climate : Message := ⟨⟨1, 11, 1, 2⟩, [215, 480], rfl⟩

def climateFrame : Frame := ⟨0, climate.payload, by decide, by decide⟩

/-- A pass with these descriptors ready, in which connect would block and send
takes ten bytes. -/
def passOf (poll : PollIo) : LoopIo where
  poll := poll
  setup := .failed
  connect := ⟨some 1, some 5, some false, true, .wouldBlock⟩
  recv := none
  msg := ⟨true, fun _ => ⟨none, true⟩⟩
  isckRecv := .wouldBlock
  isckSent := some 10
  logln := fun _ => true

/-- The connection is begun and a header received. -/
def headerPass : LoopIo :=
  { passOf (.ready false false true false false) with recv := some (climateFrame.bytes.take 4) }

def twoNodes : Quantity → AllocIo
  | .temp => ⟨some 1, true⟩
  | .hum => ⟨some 2, true⟩
  | _ => ⟨none, true⟩

def payloadPass : LoopIo :=
  { passOf (.ready false false true false false) with
    recv := some climateFrame.payload, msg := ⟨true, twoNodes⟩ }

/-- The database closes the connection. -/
def closePass : LoopIo :=
  { passOf (.ready false false false true true) with isckRecv := .received 0 }

/-- Two requests are queued, ten bytes are sent, and the connection is lost. -/
def sentInPart : List Input :=
  [.start ⟨true, true, true, true, true⟩, .loop headerPass, .loop payloadPass,
    .loop (passOf (.ready false false false false true)), .loop closePass]

theorem freshNodes_none (heap : Heap SendT) : FreshNodes (fun _ => ⟨none, true⟩) heap := by
  constructor
  · intro quantity node given
    cases given
  · intro quantity other node given
    cases given

theorem freshNodes_twoNodes : FreshNodes twoNodes ∅ := by
  constructor
  · intro quantity node _
    rfl
  · intro quantity other node first second
    cases quantity <;> cases other <;> first | rfl | cases first <;> cases second

theorem headerPass_run {c : Sys} (idle : Holding c []) (host : c.host = { config := .defaults }) :
    ∃ next, mainLoop wideReference twoDecimals headerPass c = .ok false next ∧
      next.host.heap = ∅ := by
  have begun : Proc.rescue (connectIsck headerPass.connect headerPass.logln)
      (fun _ => dropIsck (headerPass.logln .connectFailed)) c.host =
        .ok () ((openIsck 5 c.host).setConnecting true) := by
    rw [host]
    rfl
  obtain ⟨next, ran, same, _⟩ := Holding.takes_header wideReference.toParseLib
    (deliver wideReference twoDecimals headerPass.msg)
    (idle.withHost ((openIsck 5 c.host).setConnecting true)) climateFrame
  have received : csckCanRecv wideReference twoDecimals headerPass c = .ok () next := by
    unfold csckCanRecv
    rw [bind_of_ok (onHost_of_ok begun)]
    exact ran
  have served : serveIsck headerPass (c.host.isck ≠ -1) false false next.host =
      .ok () next.host := by
    rw [host]
    rfl
  have ended : endPass next.host = .ok () next.host := by
    rw [same]
    rfl
  have steps : mainLoop wideReference twoDecimals headerPass c =
      (csckCanRecv wideReference twoDecimals headerPass >>= fun _ =>
        onHost (serveIsck headerPass (c.host.isck ≠ -1) false false) >>= fun _ =>
          onHost endPass >>= fun _ => pure false) c := rfl
  rw [steps, bind_of_ok received, bind_of_ok (onHost_of_ok served),
    bind_of_ok (onHost_of_ok ended)]
  refine ⟨_, rfl, ?_⟩
  show next.host.heap = ∅
  rw [same, host]
  rfl

theorem headerPass_heap {c : Sys} (idle : Holding c []) (host : c.host = { config := .defaults }) :
    (Daemon.step wideReference twoDecimals ⟨c, .loop⟩ (.loop headerPass)).sys.host.heap = ∅ := by
  obtain ⟨next, ran, heap⟩ := headerPass_run idle host
  unfold Daemon.step
  dsimp only
  rw [ran]
  exact heap

theorem initial_idle (config : InfluxInfo) : Holding (Sys.initial config) [] :=
  .idle List.length_replicate rfl rfl

theorem step_started {c : Sys} :
    Daemon.step wideReference twoDecimals ⟨c, .connect⟩ (.start ⟨true, true, true, true, true⟩) =
      ⟨c, .loop⟩ := rfl

theorem requests_streamed_sentInPart :
    (linksOf ((Daemon.initial .defaults).run wideReference twoDecimals sentInPart).sys.host.trace).map
        (fun link => (link.isOpen, link.requests.length, link.sent)) =
      [(false, 2, text "POST /api/")] ∧
      Streamed ((Daemon.initial .defaults).run wideReference twoDecimals sentInPart).sys.host.trace ∧
      (((Daemon.initial .defaults).run wideReference twoDecimals sentInPart).ctl = .loop →
        LoopHead ((Daemon.initial .defaults).run wideReference twoDecimals sentInPart).sys.host) := by
  have fresh : FreshNodes twoNodes (Daemon.step wideReference twoDecimals
      ⟨Sys.initial .defaults, .loop⟩ (.loop headerPass)).sys.host.heap := by
    rw [headerPass_heap (initial_idle .defaults) rfl]
    exact freshNodes_twoNodes
  refine ⟨by decide +kernel, ?_⟩
  apply requests_streamed wideReference twoDecimals .defaults sentInPart
  refine ⟨trivial, ?_⟩
  unfold Daemon.initial
  rw [step_started]
  exact ⟨freshNodes_none _, fresh, freshNodes_none _, freshNodes_none _, trivial⟩

end RenogyX10.Influx
