import RenogyX10.TtyReader.FanOut
import RenogyX10.TtyReader.Main

set_option autoImplicit false

namespace RenogyX10.TtyReader

open Keyed LinkedQueue Parse Proc

/-- Delivery with a fixed list of connections. -/
structure Serving (scks : List Int) (s : Sys) : Prop where
  delivery : DeliveryInv s
  scks : s.info.peerList.map TtyPeerInfo.sck = scks

variable {scks : List Int} {s t : Sys}

theorem Serving.of_same (serving : Serving scks s) (heap : t.heap = s.heap)
    (peers : t.info.peerList = s.info.peerList)
    (sent : ∀ sck, sentOn sck t.trace = sentOn sck s.trace)
    (frames : ∀ sck, framesSince sck t.trace = framesSince sck s.trace) : Serving scks t := by
  obtain ⟨cells, linked, delivered⟩ := serving.delivery
  refine ⟨⟨cells, ?_, ?_⟩, peers ▸ serving.scks⟩
  · rw [heap, peers]
    exact linked
  · intro peer member
    rw [peers] at member
    rw [sent, frames]
    exact delivered peer member

theorem keeps_quiet {f : Sys → Sys} (heap : ∀ s, (f s).heap = s.heap)
    (peers : ∀ s, (f s).info.peerList = s.info.peerList)
    (sent : ∀ s sck, sentOn sck (f s).trace = sentOn sck s.trace)
    (frames : ∀ s sck, framesSince sck (f s).trace = framesSince sck s.trace) :
    Keeps (Serving scks) (Proc.modify f : Act Unit) :=
  .modify fun s serving => serving.of_same (heap s) (peers s) (sent s) (frames s)

theorem castTimeout_keeps (value : Int) : Keeps (Serving scks) (castTimeout value) := by
  unfold castTimeout
  refine Keeps.bind ?_ fun _ => Keeps.bind (.orAbort _) fun _ => .pure _
  exact keeps_quiet (fun _ => rfl) (fun _ => rfl) (fun _ _ => rfl) fun _ _ => rfl

theorem setDue_keeps (time : Int) :
    Keeps (Serving scks) (Proc.modify (setDue time) : Act Unit) :=
  keeps_quiet (fun _ => rfl) (fun _ => rfl) (fun _ _ => rfl) fun _ _ => rfl

theorem setLast_keeps (time : Int) :
    Keeps (Serving scks) (Proc.modify (setLast time) : Act Unit) :=
  keeps_quiet (fun _ => rfl) (fun _ => rfl) (fun _ _ => rfl) fun _ _ => rfl

/-- A completed read reaches every queue, and counts for every connection. -/
theorem FannedOut.delivered {nodes : List Nat} {kind : Kind} {idInfo : TtyIdInfo}
    {regs : List UInt16} {before after : Int → Cells}
    (reached : FannedOut nodes (frameOf kind idInfo regs) s t before after s.info.peerList.length)
    (delivered : Delivered s before) :
    Delivered (t.emit (.read kind idInfo regs)) after := by
  intro peer member
  have sckMember : peer.sck ∈ s.info.peerList.map TtyPeerInfo.sck := by
    rw [← reached.scks]
    exact List.mem_map_of_mem member
  obtain ⟨old, isOld, same⟩ := List.mem_map.mp sckMember
  obtain ⟨index, found⟩ := List.mem_iff_getElem?.mp isOld
  have inside : index < s.info.peerList.length := (List.getElem?_eq_some_iff.mp found).1
  have queued := reached.queued index old found
  simp only [inside, ↓reduceIte] at queued
  have sofar := delivered old isOld
  show sentOn peer.sck t.trace ++ _ = (framesSince peer.sck t.trace ++ [_]).flatten
  rw [← same, reached.trace, queued, ← List.append_assoc, sofar, List.flatten_concat]

theorem readRegisters_keeps (lib : ParseLib) {io : ReadIo} (kind : Kind) (idInfo : TtyIdInfo)
    (fresh : Fresh io.nodes s) (serving : Serving scks s) :
    Serving scks (readRegisters lib io kind idInfo s).state := by
  have full : (io.buffer (idInfo.count kind)).length = (idInfo.count kind).toNat :=
    io.buffer_length _
  by_cases answered : io.err = (idInfo.count kind).toNat
  · by_cases small : (idInfo.count kind).toNat ≤ 121
    · obtain ⟨cells, linked, delivered⟩ := serving.delivery
      obtain ⟨t, after, ran, reached⟩ :=
        fanOut_frames lib full small linked fresh s.info.peerList.length (Nat.le_refl _)
      have ended : readRegisters lib io kind idInfo s =
          .ok () (t.emit (.read kind idInfo (io.buffer (idInfo.count kind)))) := by
        simp only [readRegisters, answered, decide_true, Proc.guard_true, pure_bind_run, read_bind]
        rw [bind_of_ok ran, modify_run]
      rw [ended]
      exact ⟨⟨after, reached.linked, reached.delivered delivered⟩,
        reached.scks.trans serving.scks⟩
    · cases peers : s.info.peerList with
      | nil =>
          have ended : readRegisters lib io kind idInfo s =
              .ok () (s.emit (.read kind idInfo (io.buffer (idInfo.count kind)))) := by
            simp only [readRegisters, answered, decide_true, Proc.guard_true, pure_bind_run, read_bind,
              peers]
            rfl
          obtain ⟨cells, linked, _⟩ := serving.delivery
          rw [ended]
          refine ⟨⟨cells, linked, ?_⟩, serving.scks⟩
          intro peer member
          have member : peer ∈ s.info.peerList := member
          rw [peers] at member
          cases member
      | cons first rest =>
          have ended : readRegisters lib io kind idInfo s = .panic s := by
            simp only [readRegisters, answered, decide_true, Proc.guard_true, pure_bind_run, read_bind,
              peers, List.length_cons]
            exact bind_of_panic (fanOut_overflow lib (by omega) _ _ _)
          rw [ended]
          exact serving
  · have ended : readRegisters lib io kind idInfo s = .error .modbusReadRegistersFailed s := by
      simp only [readRegisters, answered, decide_false, Proc.guard_false, fail_bind]
    rw [ended]
    exact serving

theorem processTtyIdInfo_keeps (lib : ParseLib) {io : ReadIo} (idInfo : TtyIdInfo)
    (fresh : Fresh io.nodes s) (serving : Serving scks s) :
    Serving scks (processTtyIdInfo lib io idInfo s).state := by
  have called : Serving scks (noteCall io idInfo s) :=
    serving.of_same rfl rfl (fun _ => rfl) fun _ => rfl
  have stillFresh : Fresh io.nodes (noteCall io idInfo s) :=
    ⟨fresh.distinct, fresh.free, fresh.enough⟩
  unfold processTtyIdInfo
  rw [modify_bind]
  by_cases selected : io.setSlave = 0
  · simp only [selected, decide_true, Proc.guard_true, pure_bind_run, read_bind]
    cases selectKind (noteCall io idInfo s).info.idListSubIndex with
    | none => exact called
    | some kind => exact readRegisters_keeps lib kind idInfo stillFresh called
  · simp only [selected, decide_false, Proc.guard_false, fail_bind]
    exact called

theorem checkModbus_keeps (lib : ParseLib) {io : CheckIo} (fresh : Fresh io.read.nodes s)
    (serving : Serving scks s) : Serving scks (checkModbus lib io s).state := by
  unfold checkModbus
  simp only [read_bind, ite_run]
  split
  · exact Keeps.bind (setDue_keeps _) (fun _ => castTimeout_keeps _) s serving
  · split
    · cases (getNextIdInfo s.info).1 with
      | some idInfo =>
          simp only [modify_bind]
          apply Keeps.bind_at
          · apply processTtyIdInfo_keeps
            · exact ⟨fresh.distinct, fresh.free, fresh.enough⟩
            · exact serving.of_same rfl rfl (fun _ => rfl) fun _ => rfl
          · intro _
            exact Keeps.bind (setLast_keeps _) fun _ => castTimeout_keeps _
      | none =>
          simp only [modify_bind]
          apply castTimeout_keeps
          exact serving.of_same rfl rfl (fun _ => rfl) fun _ => rfl
    · exact castTimeout_keeps _ s serving

theorem advance_linked {cells : Int → Cells} (linked : Linked s.heap s.info.peerList cells)
    {index address sent : Nat} {peer : TtyPeerInfo} {node : Node SendT}
    (found : s.info.peerList[index]? = some peer) (starts : peer.send.head = some address)
    (allocated : s.heap.lookup address = some node) :
    ∃ queue, Linked (advance index address sent node peer s).heap
        (advance index address sent node peer s).info.peerList
        (Function.update cells peer.sck queue) ∧
      node.value.unsent.take sent ++ unsentBytes queue = unsentBytes (cells peer.sck) := by
  have member := List.mem_of_getElem? found
  obtain ⟨rest, isQueue, finished, unfinished⟩ := (linked.backlog peer member).sent
    (linked.queue peer member) starts allocated sent rfl
  have apart : ∀ other ∈ s.info.peerList, other.sck ≠ peer.sck →
      ∀ a ∈ addresses (cells other.sck), a ≠ address ∧ a ∉ addresses rest := by
    intro other isOther differs a present
    have outside := linked.apart peer member other isOther differs a present
    rw [isQueue, addresses_cons, List.mem_cons, not_or] at outside
    exact outside
  unfold advance
  dsimp only
  split
  · rename_i whole
    obtain ⟨queue, backlog, bytes⟩ := finished whole
    refine ⟨rest, ?_, bytes⟩
    apply linked.set found (by rfl) queue backlog
    intro other isOther differs a present
    obtain ⟨notHead, notRest⟩ := apart other isOther differs a present
    exact ⟨AList.lookup_erase_ne notHead, notRest⟩
  · rename_i part
    obtain ⟨queue, backlog, bytes⟩ := unfinished (Nat.lt_of_not_le part)
    have same : s.info.peerList = s.info.peerList.set index peer := by
      obtain ⟨inside, rfl⟩ := List.getElem?_eq_some_iff.mp found
      exact (List.set_getElem_self inside).symm
    refine ⟨_, ?_, bytes⟩
    show Linked (setValue s.heap address _) s.info.peerList _
    rw [same]
    apply linked.set found rfl queue backlog
    intro other isOther differs a present
    obtain ⟨notHead, notRest⟩ := apart other isOther differs a present
    refine ⟨setValue_lookup_ne _ _ notHead, ?_⟩
    rw [addresses_cons, List.mem_cons, not_or]
    exact ⟨notHead, notRest⟩

theorem advance_trace (index address sent : Nat) (node : Node SendT) (peer : TtyPeerInfo)
    (s : Sys) : (advance index address sent node peer s).trace = s.trace := by
  unfold advance
  dsimp only
  split <;> rfl

theorem advance_member {index address sent : Nat} {node : Node SendT} {peer member : TtyPeerInfo}
    (isMember : member ∈ (advance index address sent node peer s).info.peerList) :
    member ∈ s.info.peerList ∨ member.sck = peer.sck := by
  unfold advance at isMember
  dsimp only at isMember
  split at isMember
  · rcases List.mem_or_eq_of_mem_set isMember with old | rfl
    · exact .inl old
    · exact .inr rfl
  · exact .inl isMember

theorem setDelme_keeps (index : Nat) :
    Keeps DeliveryInv (Proc.modify (setDelme index) : Act Unit) := by
  apply Keeps.modify
  intro s ⟨cells, linked, delivered⟩
  unfold setDelme
  split
  · exact ⟨cells, linked, delivered⟩
  · rename_i peer found
    refine ⟨cells, linked.set_same found rfl rfl, ?_⟩
    intro member isMember
    rcases mem_set linked.scks found isMember with rfl | ⟨old, _⟩
    · exact delivered peer (List.mem_of_getElem? found)
    · exact delivered member old

/-- A partial send moves bytes from the front of the queue to the connection. -/
theorem send_delivered {cells : Int → Cells} (linked : Linked s.heap s.info.peerList cells)
    (delivered : Delivered s cells) {index address sent : Nat} {peer : TtyPeerInfo}
    {node : Node SendT} (found : s.info.peerList[index]? = some peer)
    (starts : peer.send.head = some address) (allocated : s.heap.lookup address = some node) :
    DeliveryInv (advance index address sent node peer
      (s.emit (.send peer.sck (node.value.unsent.take sent)))) := by
  obtain ⟨queue, next, split⟩ : ∃ queue, Linked _ _ (Function.update cells peer.sck queue) ∧
      node.value.unsent.take sent ++ unsentBytes queue = unsentBytes (cells peer.sck) :=
    advance_linked (s := s.emit (.send peer.sck (node.value.unsent.take sent)))
      linked found starts allocated
  refine ⟨_, next, ?_⟩
  intro member isMember
  rw [advance_trace]
  by_cases same : member.sck = peer.sck
  · have sofar := delivered peer (List.mem_of_getElem? found)
    rw [same, Function.update_self]
    show (if peer.sck = peer.sck then _ else _) ++ _ = (framesSince peer.sck s.trace).flatten
    rw [if_pos rfl, List.append_assoc, split, sofar]
  · have isOld : member ∈ s.info.peerList := (advance_member isMember).resolve_right same
    have sofar := delivered member isOld
    rw [Function.update_of_ne same]
    show (if peer.sck = member.sck then _ else _) ++ _ = (framesSince member.sck s.trace).flatten
    rw [if_neg (Ne.symm same), sofar]

theorem sendHead_keeps (index taken : Nat) : Keeps DeliveryInv (sendHead index taken) := by
  intro s ⟨cells, linked, delivered⟩
  have unchanged : DeliveryInv s := ⟨cells, linked, delivered⟩
  unfold sendHead
  simp only [read_bind, id_eq]
  cases found : s.info.peerList[index]? with
  | none => exact unchanged
  | some peer =>
      simp only [orAbort_some, pure_bind_run]
      cases starts : peer.send.head with
      | none => exact unchanged
      | some address =>
          cases allocated : s.heap.lookup address with
          | none =>
              simp only [allocated, orAbort_none, abort_bind]
              exact unchanged
          | some node =>
              by_cases inside : node.value.sent ≤ node.value.outDataSlice.length
              · simp only [allocated, SendT.outSlice, inside, ↓reduceIte, orAbort_some,
                  pure_bind_run, ite_run]
                split
                · exact send_delivered linked delivered found starts allocated
                · exact setDelme_keeps index s unchanged
              · simp only [allocated, SendT.outSlice, inside, ↓reduceIte, orAbort_some,
                  orAbort_none, pure_bind_run, abort_bind]
                exact unchanged

theorem getPeerBySck_keeps (sck : Int) : Keeps DeliveryInv (getPeerBySck sck) := by
  intro s holds
  unfold getPeerBySck
  simp only [read_bind]
  cases s.info.peerList.findIdx? fun peer => peer.sck == sck with
  | none => exact holds
  | some index => exact holds

theorem checkPeer_keeps (sck : Int) (io : PeerIo) : Keeps DeliveryInv (checkPeer sck io) := by
  apply Keeps.bind
  · apply Keeps.when
    intro _
    exact .bind (getPeerBySck_keeps sck) fun index => .when fun _ => setDelme_keeps index
  · intro _
    apply Keeps.when
    intro _
    exact .bind (getPeerBySck_keeps sck) fun index => sendHead_keeps index io.sent

theorem checkPolled_keeps (polled : List (Int × PeerIo)) :
    Keeps DeliveryInv (checkPolled polled) := by
  induction polled with
  | nil => exact .pure ()
  | cons first rest ih => exact .bind (checkPeer_keeps first.1 first.2) fun _ => ih

theorem removeDelme_keeps (count : Nat) (s : Sys) (holds : DeliveryInv s) :
    DeliveryInv (removeDelme count s) := by
  induction count generalizing s with
  | zero => exact holds
  | succ index ih =>
      rw [removeDelme]
      split
      · exact ih s holds
      · rename_i peer found
        split
        · apply ih
          obtain ⟨cells, linked, delivered⟩ := holds
          refine ⟨cells, linked.remove found, ?_⟩
          intro member isMember
          exact delivered member (mem_swapRemove linked.scks found isMember).1
        · exact ih s holds

theorem checkPeers_keeps (polled : List (Int × PeerIo)) : Keeps DeliveryInv (checkPeers polled) :=
  .bind (checkPolled_keeps polled) fun _ => .modify fun s => removeDelme_keeps _ s

theorem acceptPeer_keeps (accept : Option Int)
    (unused : ∀ sck, accept = some sck → ∀ peer ∈ s.info.peerList, peer.sck ≠ sck)
    (holds : DeliveryInv s) : DeliveryInv (acceptPeer .whole accept s).state := by
  cases accept with
  | none => exact holds
  | some sck =>
      obtain ⟨cells, linked, delivered⟩ := holds
      have apart := unused sck rfl
      refine ⟨_, linked.append apart, ?_⟩
      intro peer member
      rcases List.mem_append.mp member with old | new
      · have differs := apart peer old
        have sofar := delivered peer old
        rw [Function.update_of_ne differs]
        show (if sck = peer.sck then _ else _) ++ _ =
          (if sck = peer.sck then _ else _ : List (List UInt8)).flatten
        rw [if_neg (Ne.symm differs), if_neg (Ne.symm differs), sofar]
      · have same : peer.sck = sck := by rw [List.mem_singleton.mp new]
        rw [same, Function.update_self]
        show (if sck = sck then _ else _) ++ _ =
          (if sck = sck then _ else _ : List (List UInt8)).flatten
        rw [if_pos rfl, if_pos rfl]
        rfl

/-- What the kernel and the allocator promise of one pass of the loop: a new
connection's descriptor is not in use, new nodes are not either, and there is memory
for all of them. -/
structure LoopOk (s : Sys) (io : LoopIo) : Prop where
  unused : ∀ sck, io.accept = some sck → ∀ peer ∈ s.info.peerList, peer.sck ≠ sck
  fresh : Fresh io.check.read.nodes s
  whole : io.alloc = .whole

theorem scheduleReads_keeps (lib : ParseLib) {io : CheckIo} (fresh : Fresh io.read.nodes s)
    (serving : Serving scks s) : Serving scks (scheduleReads lib io s).state := by
  unfold scheduleReads
  simp only [read_bind, ite_run]
  split
  · exact serving.of_same rfl rfl (fun _ => rfl) fun _ => rfl
  · apply Keeps.bind_at (checkModbus_keeps lib fresh serving)
    intro _
    exact .pure ()

theorem servePolled_keeps {io : LoopIo} (listen : Bool) (polled : List Int)
    (whole : io.alloc = .whole)
    (unused : ∀ sck, io.accept = some sck → ∀ peer ∈ s.info.peerList, peer.sck ≠ sck)
    (holds : DeliveryInv s) : DeliveryInv (servePolled io listen polled s).state := by
  apply Keeps.bind_at
  · cases listen with
    | false => exact holds
    | true =>
        rw [when_true _ rfl, whole]
        exact acceptPeer_keeps io.accept unused holds
  · intro _
    exact .when fun _ => checkPeers_keeps _

theorem ttyMainLoop_keeps (lib : ParseLib) {io : LoopIo} (ok : LoopOk s io)
    (holds : DeliveryInv s) : DeliveryInv (ttyMainLoop lib io s).state := by
  have scheduled : Leads (Serving (s.info.peerList.map TtyPeerInfo.sck)) DeliveryInv
      (scheduleReads lib io.check s) :=
    .of_state (fun _ serving => serving.delivery) (scheduleReads_keeps lib ok.fresh ⟨holds, rfl⟩)
  have passed : Leads DeliveryInv DeliveryInv (ttyMainLoop lib io s) := by
    apply ttyMainLoop_rule lib io scheduled
    · exact fun t serving => serving.delivery
    · exact fun t delivery => delivery
    · intro config _ t serving
      exact (serving.of_same rfl rfl (fun _ => rfl) fun _ => rfl).delivery
    · intro listen t serving
      apply servePolled_keeps listen _ ok.whole ?_ serving.delivery
      intro sck accepted peer member
      have sckMember : peer.sck ∈ s.info.peerList.map TtyPeerInfo.sck := by
        rw [← serving.scks]
        exact List.mem_map_of_mem member
      obtain ⟨old, isOld, same⟩ := List.mem_map.mp sckMember
      rw [← same]
      exact ok.unused sck accepted old isOld
  exact passed.state fun _ delivery => delivery

theorem processTtyInfo_keeps (io : StartIo) : Keeps (Serving scks) (processTtyInfo io) := by
  refine .bind (.guard _ _) fun _ => .bind (.guard _ _) fun _ => .bind (.orAbort _) fun millis => ?_
  refine .bind ?_ fun _ => .bind (.guard _ _) fun _ => .guard _ _
  exact keeps_quiet (fun _ => rfl) (fun _ => rfl) (fun _ _ => rfl) fun _ _ => rfl

/-- The promise, at the point of the run an input arrives. -/
def KernelOk (d : Daemon) : Input → Prop
  | .loop io => LoopOk d.sys io
  | _ => True

theorem step_delivery (lib : ParseLib) (d : Daemon) (input : Input) (ok : KernelOk d input)
    (holds : DeliveryInv d.sys) : DeliveryInv (d.step lib input).sys := by
  obtain ⟨s, ctl, clock⟩ := d
  cases ctl <;> cases input <;> try exact holds
  case restart.start io =>
    unfold Daemon.step
    simp only
    split
    · exact (processTtyInfo_keeps io s ⟨holds, rfl⟩).delivery
    · exact holds
  case loop.loop io => exact ttyMainLoop_keeps lib ok holds

theorem initial_delivery (config : Config) : DeliveryInv (Sys.initial config) := by
  refine ⟨fun _ => [], Linked.nil _ _, ?_⟩
  intro peer member
  cases member

/-- A connected peer's account: its pointers describe a list of nodes, both are
null or neither is, and what it was sent and what the list still holds are
together the frames of the reads since it was accepted. -/
def Receives (s : Sys) (peer : TtyPeerInfo) : Prop :=
  ∃ cells : Cells,
    Represents s.heap peer.send cells ∧
    (peer.send.head = none ↔ peer.send.tail = none) ∧
    sentOn peer.sck s.trace ++ unsentBytes cells = (framesSince peer.sck s.trace).flatten ∧
    framesSince peer.sck s.trace <:+ framesOf s.trace

/-- The account is right for every peer in every state that a run reaches. -/
theorem peers_receive_reads (lib : ParseLib) (config : Config) (clock : Int) (inputs : List Input)
    (ok : Runs.Admits (Daemon.step lib) KernelOk (Daemon.initial config clock) inputs) :
    ∀ peer ∈ ((Daemon.initial config clock).run lib inputs).sys.info.peerList,
      Receives ((Daemon.initial config clock).run lib inputs).sys peer := by
  intro peer member
  have holds := Runs.exec_keeps (step_delivery lib) ok (initial_delivery config)
  obtain ⟨cells, linked, delivered⟩ := holds
  have queue := linked.queue peer member
  exact ⟨cells peer.sck, queue, queue.null_together, delivered peer member,
    framesSince_suffix peer.sck _⟩

/-- A peer connects, a read completes, and the peer takes five of its bytes. -/
def partialSend : List Input :=
  [startUp,
    .loop { check := checkAt 1000, poll := .ready false false true, setup := .failed,
            accept := some 5, peers := [] },
    .loop { check := checkAt 2000, poll := .ready false false false, setup := .failed,
            accept := none, peers := [⟨false, true, 0, 5⟩] }]

theorem peers_receive_reads_partialSend :
    ((Daemon.initial oneDevice 0).run Parse.reference partialSend).sys.info.peerList.map
        TtyPeerInfo.sck = [5] ∧
      sentOn 5 ((Daemon.initial oneDevice 0).run Parse.reference partialSend).sys.trace =
        [0, 0, 14, 0, 0] ∧
      (((Daemon.initial oneDevice 0).run Parse.reference partialSend).sys.info.peerList.map
        fun peer => (peer.send.head.bind
          ((Daemon.initial oneDevice 0).run Parse.reference partialSend).sys.heap.lookup).map
            fun node => node.value.unsent) = [some [0, 1, 0, 0, 0, 1, 0, 7, 0]] ∧
      ∀ peer ∈ ((Daemon.initial oneDevice 0).run Parse.reference partialSend).sys.info.peerList,
        Receives ((Daemon.initial oneDevice 0).run Parse.reference partialSend).sys peer := by
  refine ⟨by decide +kernel, by decide +kernel, by decide +kernel,
    peers_receive_reads Parse.reference oneDevice 0 partialSend ?_⟩
  refine ⟨trivial, ⟨?_, ?_, rfl⟩, ⟨?_, ?_, rfl⟩, trivial⟩
  · intro sck _ peer member
    cases member
  · refine ⟨by decide, ?_, by decide⟩
    intro address _
    rfl
  · intro sck accepted
    cases accepted
  · refine ⟨by decide, ?_, by decide⟩
    intro address _
    rfl

end RenogyX10.TtyReader
