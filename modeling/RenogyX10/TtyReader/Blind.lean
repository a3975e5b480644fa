import RenogyX10.TtyReader.Main

set_option autoImplicit false

namespace RenogyX10.TtyReader

open Parse Proc

/-- The events of publishing frames and serving sockets, and where they stand: a read right
behind the call that selected it. -/
def Event.IsTraffic (trace : List Event) : Event → Prop
  | .read kind idInfo _ =>
      ∃ start stop minMstime older, trace = .call idInfo (some kind) start stop minMstime :: older
  | .accept _ | .send .. | .close _ => True
  | _ => False

/-- An invariant that the peers and their traffic cannot break. -/
structure PeerBlind (inv : Sys → Prop) : Prop where
  peers : ∀ s heap peers, inv s →
    inv { s with heap := heap, info := { s.info with peerList := peers } }
  traffic : ∀ s event, event.IsTraffic s.trace → inv s → inv (s.emit event)

namespace PeerBlind

variable {inv : Sys → Prop} (blind : PeerBlind inv)
include blind

theorem heap {s : Sys} (heap : LinkedQueue.Heap SendT) (holds : inv s) :
    inv { s with heap := heap } :=
  blind.peers s heap s.info.peerList holds

theorem peered {s t : Sys} (peered : Peered s t) (holds : inv s) : inv t := by
  obtain ⟨heap, peers, rfl⟩ := peered
  exact blind.peers s heap peers holds

theorem processTtyIdInfo (lib : ParseLib) (io : ReadIo) (idInfo : TtyIdInfo) {s : Sys}
    (noted : inv (noteCall io idInfo s)) : inv (processTtyIdInfo lib io idInfo s).state := by
  rcases processTtyIdInfo_state lib io idInfo s with same | ⟨t, kind, same, isKind, _, _, read⟩
  · exact blind.peered same noted
  · rw [read]
    apply blind.traffic
    · refine ⟨io.start, io.stop, s.info.minMstime, s.trace, ?_⟩
      rw [same.trace, ← isKind]
      rfl
    · exact blind.peered same noted

theorem setDelme (index : Nat) {s : Sys} (holds : inv s) : inv (setDelme index s) := by
  unfold TtyReader.setDelme
  split
  · exact holds
  · exact blind.peers s s.heap _ holds

theorem advance (index address sent : Nat) (node : LinkedQueue.Node SendT) (peer : TtyPeerInfo)
    {s : Sys} (holds : inv s) : inv (advance index address sent node peer s) := by
  unfold TtyReader.advance
  dsimp only
  split
  · exact blind.peers s _ _ holds
  · exact blind.heap _ holds

theorem sendHead (index taken : Nat) : Keeps inv (sendHead index taken) := by
  refine .bind (.read _) fun s => .bind (.orAbort _) fun peer => ?_
  cases peer.send.head with
  | none => exact .pure ()
  | some address =>
      refine .bind (.orAbort _) fun node => .bind (.orAbort _) fun outSlice => ?_
      apply Keeps.ite
      · intro _
        refine .bind ?_ fun _ => ?_
        · exact .modify fun t holds => blind.traffic t _ trivial holds
        · exact .modify fun t holds => blind.advance index address _ node peer holds
      · intro _
        exact .modify fun t holds => blind.setDelme index holds

omit blind in
theorem getPeerBySck_keeps (sck : Int) : Keeps inv (getPeerBySck sck) := by
  refine .bind (.read _) fun peers => ?_
  cases peers.findIdx? fun peer => peer.sck == sck with
  | none => exact .fail _
  | some index => exact .pure _

theorem checkPeer (sck : Int) (io : PeerIo) : Keeps inv (checkPeer sck io) := by
  refine .bind (.when fun _ => ?_) fun _ => .when fun _ => ?_
  · refine .bind (getPeerBySck_keeps sck) fun index => .when fun _ => ?_
    exact .modify fun s holds => blind.setDelme index holds
  · exact .bind (getPeerBySck_keeps sck) fun index => blind.sendHead index io.sent

theorem checkPolled (polled : List (Int × PeerIo)) : Keeps inv (checkPolled polled) := by
  induction polled with
  | nil => exact .pure ()
  | cons first rest ih => exact .bind (blind.checkPeer first.1 first.2) fun _ => ih

theorem removeDelme (count : Nat) {s : Sys} (holds : inv s) : inv (removeDelme count s) := by
  induction count generalizing s with
  | zero => exact holds
  | succ index ih =>
      rw [TtyReader.removeDelme]
      split
      · exact ih holds
      · rename_i peer found
        split
        · have closed : inv (s.emit (.close peer.sck)) := blind.traffic s _ trivial holds
          exact ih (blind.peers _ _ _ closed)
        · exact ih holds

theorem checkPeers (polled : List (Int × PeerIo)) : Keeps inv (checkPeers polled) :=
  .bind (blind.checkPolled polled) fun _ => .modify fun _ holds => blind.removeDelme _ holds

theorem acceptPeer (alloc : PeerAlloc) (accept : Option Int) :
    Keeps inv (acceptPeer alloc accept) := by
  cases accept with
  | none => exact .fail _
  | some sck =>
      cases alloc with
      | noPlace => exact .fail _
      | noBuffer => exact .bind (.modify fun s holds => blind.peers s s.heap _ holds) fun _ => .fail _
      | whole =>
          apply Keeps.modify
          intro s holds
          exact blind.peers _ s.heap _ (blind.traffic s (.accept sck) trivial holds)

theorem servePolled (io : LoopIo) (listen : Bool) (polled : List Int) :
    Keeps inv (servePolled io listen polled) :=
  .bind (.when fun _ => blind.acceptPeer io.alloc io.accept) fun _ =>
    .when fun _ => blind.checkPeers _

/-- A pass of the loop leads back to such an invariant when scheduling the
reads and a reload do. -/
theorem ttyMainLoop {bad : Sys → Prop} (weaken : ∀ t, inv t → bad t) (lib : ParseLib)
    (io : LoopIo) {s : Sys} (schedule : Leads inv bad (scheduleReads lib io.check s))
    (reload : ∀ config, io.setup = .ok config → ∀ t, inv t →
      inv (clearSchedule (installConfig config t))) :
    Leads inv bad (ttyMainLoop lib io s) := by
  apply ttyMainLoop_rule lib io schedule
  · exact fun t holds => holds
  · exact weaken
  · exact reload
  · exact fun listen t holds => blind.servePolled io listen _ t holds

end PeerBlind

theorem fanOut_avoids (lib : ParseLib) (kind : Kind) (idInfo : TtyIdInfo) (regs : List UInt16)
    (nodes : List Nat) (peers : Nat) : Avoids .reload (fanOut lib kind idInfo regs nodes peers) := by
  induction peers with
  | zero => exact .pure ()
  | succ peers ih =>
      refine .bind ih fun _ => .bind ?_ fun frame => ?_
      · refine .bind (.orAbort _) fun size => .bind (.guard _ (by decide)) fun _ => ?_
        exact .bind (.orAbort _) fun header => .bind (.orAbort _) fun body => .pure _
      · cases nodes[peers]? with
        | none => exact .fail (by decide)
        | some node => exact .modify _

theorem processTtyIdInfo_avoids (lib : ParseLib) (io : ReadIo) (idInfo : TtyIdInfo) :
    Avoids .reload (processTtyIdInfo lib io idInfo) := by
  refine .bind (.modify _) fun _ => .bind (.guard _ (by decide)) fun _ => ?_
  refine .bind (.read _) fun sub => ?_
  cases selectKind sub with
  | none => exact .pure ()
  | some kind =>
      refine .bind (.guard _ (by decide)) fun _ => .bind (.read _) fun peers => ?_
      exact .bind (fanOut_avoids lib kind idInfo _ _ peers) fun _ => .modify _

theorem castTimeout_leads {good bad : Sys → Prop} (weaken : ∀ t, good t → bad t) (value : Int)
    {s : Sys} (noted : good (s.emit (.cast value))) : Leads good bad (castTimeout value s) := by
  unfold castTimeout
  rw [modify_bind]
  cases Checked.intCastI32 value with
  | none => exact weaken _ noted
  | some timeout => exact noted

theorem checkModbus_tooClose (lib : ParseLib) {io : CheckIo} {s : Sys}
    (close : s.info.TooClose io.now) :
    checkModbus lib io s = castTimeout (s.info.lmt + s.info.minMstime - io.now)
      (setDue (s.info.lmt + s.info.minMstime) s) := by
  unfold checkModbus
  simp only [read_bind, close, ↓reduceIte, modify_bind]

/-- A read that is due; the timeout is computed only if it completes. -/
theorem checkModbus_call (lib : ParseLib) {io : CheckIo} {s : Sys} {idInfo : TtyIdInfo}
    (far : ¬ s.info.TooClose io.now) (due : s.info.nmt io.now ≤ io.now)
    (found : (getNextIdInfo s.info).1 = some idInfo) :
    checkModbus lib io s = (processTtyIdInfo lib io.read idInfo >>= fun _ => do
      Proc.modify (setLast io.done)
      castTimeout (s.info.nmt io.now - io.done))
        (setNext (io.now + s.info.itemMstime) (takeNext s)) := by
  unfold checkModbus
  simp only [read_bind, far, due, ↓reduceIte, modify_bind, found]

theorem checkModbus_passEnd (lib : ParseLib) {io : CheckIo} {s : Sys}
    (far : ¬ s.info.TooClose io.now) (due : s.info.nmt io.now ≤ io.now)
    (ended : (getNextIdInfo s.info).1 = none) :
    checkModbus lib io s = castTimeout (s.info.fmt io.now + s.info.listMstime - io.now)
      (setDue (s.info.fmt io.now + s.info.listMstime) (takeNext s)) := by
  unfold checkModbus
  simp only [read_bind, far, due, ↓reduceIte, modify_bind, ended]

theorem checkModbus_idle (lib : ParseLib) {io : CheckIo} {s : Sys}
    (idle : ¬ s.info.nmt io.now ≤ io.now) :
    checkModbus lib io s = castTimeout (s.info.nmt io.now - io.now) s := by
  have far : ¬ s.info.TooClose io.now := fun close => idle close.1
  unfold checkModbus
  simp only [read_bind, far, idle, ↓reduceIte]

/-- The four ways through `check_modbus`. A device read leads through states
that `mid` describes from its start to its end. -/
theorem checkModbus_rule {mid good bad : Sys → Prop} (lib : ParseLib) (io : CheckIo) {s : Sys}
    (blind : PeerBlind mid) (weaken : ∀ t, good t → bad t)
    (tooClose : s.info.TooClose io.now →
      good ((setDue (s.info.lmt + s.info.minMstime) s).emit
        (.cast (s.info.lmt + s.info.minMstime - io.now))))
    (call : ¬ s.info.TooClose io.now → s.info.nmt io.now ≤ io.now → ∀ idInfo,
      (getNextIdInfo s.info).1 = some idInfo →
      mid (noteCall io.read idInfo (setNext (io.now + s.info.itemMstime) (takeNext s))))
    (failed : ∀ t, mid t → bad t)
    (done : ¬ s.info.TooClose io.now → s.info.nmt io.now ≤ io.now → ∀ idInfo,
      (getNextIdInfo s.info).1 = some idInfo →
      ∀ t, mid t → processTtyIdInfo lib io.read idInfo
        (setNext (io.now + s.info.itemMstime) (takeNext s)) = .ok () t →
      good ((setLast io.done t).emit (.cast (s.info.nmt io.now - io.done))))
    (passEnd : ¬ s.info.TooClose io.now → s.info.nmt io.now ≤ io.now →
      (getNextIdInfo s.info).1 = none →
      good ((setDue (s.info.fmt io.now + s.info.listMstime) (takeNext s)).emit
        (.cast (s.info.fmt io.now + s.info.listMstime - io.now))))
    (idle : ¬ s.info.nmt io.now ≤ io.now →
      good (s.emit (.cast (s.info.nmt io.now - io.now)))) :
    Leads good bad (checkModbus lib io s) := by
  by_cases close : s.info.TooClose io.now
  · rw [checkModbus_tooClose lib close]
    exact castTimeout_leads weaken _ (tooClose close)
  · by_cases due : s.info.nmt io.now ≤ io.now
    · cases found : (getNextIdInfo s.info).1 with
      | none =>
          rw [checkModbus_passEnd lib close due found]
          exact castTimeout_leads weaken _ (passEnd close due found)
      | some idInfo =>
          have read := blind.processTtyIdInfo lib io.read idInfo (call close due idInfo found)
          rw [checkModbus_call lib close due found]
          cases ended : processTtyIdInfo lib io.read idInfo
              (setNext (io.now + s.info.itemMstime) (takeNext s)) with
          | error reason t =>
              have caught : reason ≠ .reload := by
                intro same
                subst same
                exact processTtyIdInfo_avoids lib io.read idInfo _ t ended
              rw [ended] at read
              rw [bind_of_error ended]
              simpa only [Leads, caught, ↓reduceIte] using failed t read
          | panic t =>
              rw [ended] at read
              rw [bind_of_panic ended]
              exact failed t read
          | ok value t =>
              cases value
              rw [ended] at read
              rw [bind_of_ok ended, modify_bind]
              exact castTimeout_leads weaken _ (done close due idInfo found t read ended)
    · rw [checkModbus_idle lib due]
      exact castTimeout_leads weaken _ (idle due)

/-- Scheduling the reads, from what the two branches at its top lead to. -/
theorem scheduleReads_rule {good bad : Sys → Prop} (lib : ParseLib) (io : CheckIo) {s : Sys}
    (alone : s.info.peerList = [] → good (clearSchedule s))
    (check : s.info.peerList ≠ [] → Leads good bad (checkModbus lib io s)) :
    Leads good bad (scheduleReads lib io s) := by
  unfold scheduleReads
  simp only [read_bind, ite_run]
  by_cases peers : s.info.peerList = []
  · simp only [peers, List.length_nil, ↓reduceIte]
    exact alone peers
  · have some_peer : ¬ s.info.peerList.length = 0 := by simpa using peers
    simp only [some_peer, ↓reduceIte]
    have checked := check peers
    cases ended : checkModbus lib io s with
    | ok value t =>
        rw [ended] at checked
        rw [bind_of_ok ended]
        exact checked
    | error reason t =>
        rw [ended] at checked
        rw [bind_of_error ended]
        exact checked
    | panic t =>
        rw [ended] at checked
        rw [bind_of_panic ended]
        exact checked

end RenogyX10.TtyReader
