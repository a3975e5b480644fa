import RenogyX10.TtyReader.Connections

set_option autoImplicit false

namespace RenogyX10.TtyReader

open Keyed LinkedQueue Parse Proc

/-- Delivery to the peers, and the account of every connection so far. -/
structure Logged (before : List Event) (s : Sys) : Prop where
  delivery : DeliveryInv s
  noted : Noted before (s.info.peerList.map TtyPeerInfo.sck) s.trace

/-- What the trace says, as a property of the state. -/
def NotedIn (before : List Event) (scks : List Int) (s : Sys) : Prop := Noted before scks s.trace

variable {before : List Event} {scks : List Int} {s : Sys}

section Schedule

/-- A read that is queued for some peer fits a frame. -/
theorem readRegisters_noted (lib : ParseLib) (io : ReadIo) (kind : Kind) (idInfo : TtyIdInfo)
    (peers : s.info.peerList ≠ []) (noted : NotedIn before scks s) :
    NotedIn before scks (readRegisters lib io kind idInfo s).state := by
  by_cases answered : io.err = (idInfo.count kind).toNat
  · have queued := (fanOut_peered lib kind idInfo (io.buffer (idInfo.count kind)) io.nodes s
      s.info.peerList.length s (.refl s)).trace
    simp only [readRegisters, answered, decide_true, Proc.guard_true, pure_bind_run, read_bind]
    by_cases small : (idInfo.count kind).toNat ≤ 121
    · cases ended : fanOut lib kind idInfo (io.buffer (idInfo.count kind)) io.nodes
          s.info.peerList.length s with
      | ok _ t =>
          rw [ended] at queued
          rw [bind_of_ok ended]
          show Noted before scks (_ :: t.trace)
          rw [show t.trace = s.trace from queued]
          exact Noted.quiet noted ⟨io.buffer_length _, small⟩
      | error reason t =>
          rw [ended] at queued
          rw [bind_of_error ended]
          show Noted before scks t.trace
          rw [show t.trace = s.trace from queued]
          exact noted
      | panic t =>
          rw [ended] at queued
          rw [bind_of_panic ended]
          show Noted before scks t.trace
          rw [show t.trace = s.trace from queued]
          exact noted
    · obtain ⟨count, some⟩ := Nat.exists_eq_succ_of_ne_zero
        (Nat.ne_of_gt (List.length_pos_iff.mpr peers))
      rw [some, bind_of_panic (fanOut_overflow lib (Nat.lt_of_not_le small) io.nodes s count)]
      exact noted
  · simp only [readRegisters, answered, decide_false, Proc.guard_false, fail_bind]
    exact noted

theorem processTtyIdInfo_noted (lib : ParseLib) (io : ReadIo) (idInfo : TtyIdInfo)
    (peers : s.info.peerList ≠ []) (noted : NotedIn before scks s) :
    NotedIn before scks (processTtyIdInfo lib io idInfo s).state := by
  have called : NotedIn before scks (noteCall io idInfo s) := Noted.quiet noted trivial
  unfold processTtyIdInfo
  rw [modify_bind]
  by_cases selected : io.setSlave = 0
  · simp only [selected, decide_true, Proc.guard_true, pure_bind_run, read_bind]
    cases selectKind (noteCall io idInfo s).info.idListSubIndex with
    | none => exact called
    | some kind => exact readRegisters_noted lib io kind idInfo peers called
  · simp only [selected, decide_false, Proc.guard_false, fail_bind]
    exact called

theorem castTimeout_noted (value : Int) :
    Keeps (NotedIn before scks) (castTimeout value) := by
  unfold castTimeout
  refine Keeps.bind (.modify fun t noted => ?_) fun _ => Keeps.bind (.orAbort _) fun _ => .pure _
  exact Noted.quiet noted trivial

theorem checkModbus_noted (lib : ParseLib) (io : CheckIo) (peers : s.info.peerList ≠ [])
    (noted : NotedIn before scks s) : NotedIn before scks (checkModbus lib io s).state := by
  have taken : NotedIn before scks (takeNext s) := Noted.quiet noted trivial
  by_cases close : s.info.TooClose io.now
  · rw [checkModbus_tooClose lib close]
    exact castTimeout_noted _ _ noted
  · by_cases due : s.info.nmt io.now ≤ io.now
    · cases found : (getNextIdInfo s.info).1 with
      | none =>
          rw [checkModbus_passEnd lib close due found]
          exact castTimeout_noted _ _ taken
      | some idInfo =>
          have kept : (setNext (io.now + s.info.itemMstime) (takeNext s)).info.peerList =
              s.info.peerList := rfl
          rw [checkModbus_call lib close due found]
          apply Keeps.bind_at
          · exact processTtyIdInfo_noted lib io.read idInfo (kept ▸ peers) taken
          · intro _
            exact .bind (.modify fun _ noted => noted) fun _ => castTimeout_noted _
    · rw [checkModbus_idle lib due]
      exact castTimeout_noted _ _ noted

theorem scheduleReads_noted (lib : ParseLib) (io : CheckIo) (noted : NotedIn before scks s) :
    NotedIn before scks (scheduleReads lib io s).state := by
  unfold scheduleReads
  simp only [read_bind, ite_run]
  split
  · exact Noted.quiet noted trivial
  · rename_i some
    apply Keeps.bind_at
    · apply checkModbus_noted lib io _ noted
      exact fun none => some (congrArg List.length none)
    · exact fun _ => .pure ()

end Schedule

section Serve

theorem acceptPeer_logged (accept : Option Int)
    (unused : ∀ sck, accept = some sck → ∀ peer ∈ s.info.peerList, peer.sck ≠ sck)
    (logged : Logged before s) : Logged before (acceptPeer .whole accept s).state := by
  refine ⟨acceptPeer_keeps accept unused logged.delivery, ?_⟩
  cases accept with
  | none => exact logged.noted
  | some sck =>
      show Noted before ((s.info.peerList ++ [({ sck := sck } : TtyPeerInfo)]).map TtyPeerInfo.sck)
        (.accept sck :: s.trace)
      rw [List.map_append]
      apply logged.noted.accept
      intro member
      obtain ⟨peer, isPeer, same⟩ := List.mem_map.mp member
      exact unused sck rfl peer isPeer same

theorem setDelme_scks (index : Nat) (s : Sys) :
    (setDelme index s).info.peerList.map TtyPeerInfo.sck = s.info.peerList.map TtyPeerInfo.sck := by
  unfold setDelme
  split
  · rfl
  · rename_i peer found
    exact map_set found rfl

theorem setDelme_trace (index : Nat) (s : Sys) : (setDelme index s).trace = s.trace := by
  unfold setDelme
  split <;> rfl

theorem setDelme_logged (index : Nat) :
    Keeps (Logged before) (Proc.modify (setDelme index) : Act Unit) := by
  intro s logged
  refine ⟨setDelme_keeps index s logged.delivery, ?_⟩
  rw [modify_run]
  show Noted before ((setDelme index s).info.peerList.map TtyPeerInfo.sck) (setDelme index s).trace
  rw [setDelme_scks, setDelme_trace]
  exact logged.noted

theorem advance_scks {index address sent : Nat} {node : Node SendT} {peer : TtyPeerInfo}
    (found : s.info.peerList[index]? = some peer) :
    (advance index address sent node peer s).info.peerList.map TtyPeerInfo.sck =
      s.info.peerList.map TtyPeerInfo.sck := by
  unfold advance
  dsimp only
  split
  · exact map_set found rfl
  · rfl

/-- What is sent comes from the queue of the connection, so it goes on with its frames. -/
theorem send_noted {index address : Nat} (sent : Nat) {peer : TtyPeerInfo} {node : Node SendT}
    (logged : Logged before s) (found : s.info.peerList[index]? = some peer)
    (starts : peer.send.head = some address) (allocated : s.heap.lookup address = some node) :
    Noted before (s.info.peerList.map TtyPeerInfo.sck)
      (.send peer.sck (node.value.unsent.take sent) :: s.trace) := by
  obtain ⟨cells, linked, delivered⟩ := logged.delivery
  have member := List.mem_of_getElem? found
  obtain ⟨queue, -, split⟩ :=
    @advance_linked s cells linked index address sent peer node found starts allocated
  apply logged.noted.send (List.mem_map_of_mem member)
  refine ⟨unsentBytes queue, ?_⟩
  rw [List.append_assoc, split, delivered peer member]

theorem sendHead_rule {inv : Sys → Prop} {index taken : Nat} (same : inv s)
    (marked : inv (setDelme index s))
    (advanced : ∀ peer address node, s.info.peerList[index]? = some peer →
      peer.send.head = some address → s.heap.lookup address = some node →
      inv (advance index address (min taken node.value.unsent.length) node peer
        (s.emit (.send peer.sck (node.value.unsent.take (min taken node.value.unsent.length)))))) :
    inv (sendHead index taken s).state := by
  unfold sendHead
  simp only [read_bind, id_eq]
  cases found : s.info.peerList[index]? with
  | none => exact same
  | some peer =>
      simp only [orAbort_some, pure_bind_run]
      cases starts : peer.send.head with
      | none => exact same
      | some address =>
          cases allocated : s.heap.lookup address with
          | none =>
              simp only [allocated, orAbort_none, abort_bind]
              exact same
          | some node =>
              by_cases inside : node.value.sent ≤ node.value.outDataSlice.length
              · simp only [allocated, SendT.outSlice, inside, ↓reduceIte, orAbort_some,
                  pure_bind_run, ite_run]
                split
                · exact advanced peer address node found starts allocated
                · exact marked
              · simp only [allocated, SendT.outSlice, inside, ↓reduceIte, orAbort_some,
                  orAbort_none, pure_bind_run, abort_bind]
                exact same

theorem sendHead_logged (index taken : Nat) : Keeps (Logged before) (sendHead index taken) := by
  intro s logged
  apply sendHead_rule logged (setDelme_logged index s logged)
  intro peer address node found starts allocated
  obtain ⟨cells, linked, delivered⟩ := logged.delivery
  refine ⟨send_delivered linked delivered found starts allocated, ?_⟩
  rw [advance_trace, advance_scks (s := s.emit _) found]
  exact send_noted _ logged found starts allocated

theorem checkPeer_logged (sck : Int) (io : PeerIo) : Keeps (Logged before) (checkPeer sck io) := by
  apply Keeps.bind
  · apply Keeps.when
    intro _
    exact .bind (PeerBlind.getPeerBySck_keeps sck) fun index => .when fun _ => setDelme_logged index
  · intro _
    apply Keeps.when
    intro _
    exact .bind (PeerBlind.getPeerBySck_keeps sck) fun index => sendHead_logged index io.sent

theorem checkPolled_logged (polled : List (Int × PeerIo)) :
    Keeps (Logged before) (checkPolled polled) := by
  induction polled with
  | nil => exact .pure ()
  | cons first rest ih => exact .bind (checkPeer_logged first.1 first.2) fun _ => ih

theorem removeDelme_logged (count : Nat) {s : Sys} (logged : Logged before s) :
    Logged before (removeDelme count s) := by
  induction count generalizing s with
  | zero => exact logged
  | succ index ih =>
      rw [removeDelme]
      split
      · exact ih logged
      · rename_i peer found
        split
        · obtain ⟨cells, linked, delivered⟩ := logged.delivery
          apply ih
          refine ⟨⟨cells, linked.remove found, ?_⟩, ?_⟩
          · intro member isMember
            exact delivered member (mem_swapRemove linked.scks found isMember).1
          · have fewer : (swapRemove s.info.peerList index).map TtyPeerInfo.sck ⊆
                s.info.peerList.map TtyPeerInfo.sck := by
              intro sck member
              obtain ⟨other, isOther, rfl⟩ := List.mem_map.mp member
              exact List.mem_map_of_mem (mem_swapRemove linked.scks found isOther).1
            apply (logged.noted.subset fewer).close
            intro member
            obtain ⟨other, isOther, same⟩ := List.mem_map.mp member
            exact (mem_swapRemove linked.scks found isOther).2 same
        · exact ih logged

theorem servePolled_logged {io : LoopIo} (listen : Bool) (polled : List Int)
    (whole : io.alloc = .whole)
    (unused : ∀ sck, io.accept = some sck → ∀ peer ∈ s.info.peerList, peer.sck ≠ sck)
    (logged : Logged before s) : Logged before (servePolled io listen polled s).state := by
  apply Keeps.bind_at
  · cases listen with
    | false => exact logged
    | true =>
        rw [when_true _ rfl, whole]
        exact acceptPeer_logged io.accept unused logged
  · intro _
    apply Keeps.when
    intro _
    exact .bind (checkPolled_logged _) fun _ => .modify fun t => removeDelme_logged _

end Serve

theorem ttyMainLoop_logged (lib : ParseLib) {io : LoopIo} (ok : LoopOk s io)
    (logged : Logged before s) : Logged before (ttyMainLoop lib io s).state := by
  have merge {t : Sys} (serving : Serving (s.info.peerList.map TtyPeerInfo.sck) t)
      (noted : NotedIn before (s.info.peerList.map TtyPeerInfo.sck) t) : Logged before t :=
    ⟨serving.delivery, serving.scks ▸ noted⟩
  have scheduled : Leads (fun t => Serving (s.info.peerList.map TtyPeerInfo.sck) t ∧
      NotedIn before (s.info.peerList.map TtyPeerInfo.sck) t) (Logged before)
      (scheduleReads lib io.check s) := by
    apply Leads.of_state
    · exact fun t both => merge both.1 both.2
    · exact ⟨scheduleReads_keeps lib ok.fresh ⟨logged.delivery, rfl⟩,
        scheduleReads_noted lib io.check logged.noted⟩
  have passed : Leads (Logged before) (Logged before) (ttyMainLoop lib io s) := by
    apply ttyMainLoop_rule lib io scheduled
    · exact fun t both => merge both.1 both.2
    · exact fun t logged => logged
    · intro config _ t both
      have noted : Noted before _ t.trace := both.2
      exact merge (both.1.of_same rfl rfl (fun _ => rfl) fun _ => rfl) (noted.quiet trivial)
    · intro listen t both
      apply servePolled_logged listen _ ok.whole ?_ (merge both.1 both.2)
      intro sck accepted peer member
      have sckMember : peer.sck ∈ s.info.peerList.map TtyPeerInfo.sck := by
        rw [← both.1.scks]
        exact List.mem_map_of_mem member
      obtain ⟨old, isOld, same⟩ := List.mem_map.mp sckMember
      rw [← same]
      exact ok.unused sck accepted old isOld
  exact passed.state fun _ logged => logged

theorem processTtyInfo_logged (io : StartIo) (logged : Logged before s) :
    Logged before (processTtyInfo io s).state := by
  have serving := processTtyInfo_keeps io s ⟨logged.delivery, rfl⟩
  have noted : Keeps (NotedIn before (s.info.peerList.map TtyPeerInfo.sck)) (processTtyInfo io) := by
    refine .bind (.guard _ _) fun _ => .bind (.guard _ _) fun _ => .bind (.orAbort _) fun millis => ?_
    exact .bind (.modify fun _ noted => noted) fun _ => .bind (.guard _ _) fun _ => .guard _ _
  exact ⟨serving.delivery, serving.scks ▸ noted s logged.noted⟩

theorem step_logged (lib : ParseLib) (d : Daemon) (input : Input) (ok : KernelOk d input)
    (logged : Logged before d.sys) : Logged before (d.step lib input).sys := by
  obtain ⟨s, ctl, clock⟩ := d
  cases ctl <;> cases input <;> try exact logged
  case restart.start io =>
    unfold Daemon.step
    simp only
    split
    · exact processTtyInfo_logged io logged
    · exact logged
  case loop.loop io => exact ttyMainLoop_logged lib ok logged

theorem initial_logged (config : Config) : Logged [] (Sys.initial config) := by
  refine ⟨initial_delivery config, ?_, ⟨?_, ?_⟩, List.nil_suffix⟩ <;>
    exact fun _ none => nomatch none

theorem Logged.restart (logged : Logged before s) : Logged s.trace s :=
  ⟨logged.delivery, logged.noted.known, logged.noted.recorded, List.suffix_rfl⟩

end RenogyX10.TtyReader
