import Mathlib.Data.List.Infix
import RenogyX10.TtyReader.Record
import RenogyX10.TtyReader.Round

set_option autoImplicit false

namespace RenogyX10.TtyReader

open Keyed LinkedQueue Parse Proc

/-- The connection that was last accepted on the descriptor was sent so many bytes, and
these frames were complete since. -/
structure Owes (sck : Int) (frames : List (List UInt8)) (sent : Nat) (s : Sys) : Prop where
  frames : frames <+: framesSince sck s.trace
  sent : sent ≤ (sentOn sck s.trace).length

/-- The socket can be written to and takes something, and the peer does not hang up. -/
structure PeerIo.Takes (io : PeerIo) : Prop where
  writable : io.pollOut = true
  taken : 0 < io.sent
  stays : io.pollIn = true → 1 ≤ io.recv

instance (io : PeerIo) : Decidable io.Takes :=
  decidable_of_iff (io.pollOut = true ∧ 0 < io.sent ∧ (io.pollIn = true → 1 ≤ io.recv))
    ⟨fun ⟨writable, taken, stays⟩ => ⟨writable, taken, stays⟩,
      fun takes => ⟨takes.writable, takes.taken, takes.stays⟩⟩

variable {sck : Int} {frames : List (List UInt8)} {sent : Nat} {s t : Sys}

namespace Owes

theorem of_trace (owes : Owes sck frames sent s) (same : t.trace = s.trace) :
    Owes sck frames sent t := by
  constructor
  · rw [same]
    exact owes.frames
  · rw [same]
    exact owes.sent

theorem emit (owes : Owes sck frames sent s) {event : Event} (other : event ≠ .accept sck) :
    Owes sck frames sent (s.emit event) := by
  obtain ⟨complete, already⟩ := owes
  cases event with
  | read kind idInfo regs => exact ⟨complete.trans (List.prefix_append _ _), already⟩
  | accept new =>
      have differs : new ≠ sck := fun same => other (same ▸ rfl)
      constructor
      · show frames <+: if new = sck then [] else framesSince sck s.trace
        rwa [if_neg differs]
      · show sent ≤ (if new = sck then [] else sentOn sck s.trace).length
        rwa [if_neg differs]
  | send on bytes =>
      refine ⟨complete, ?_⟩
      show sent ≤ (if on = sck then sentOn sck s.trace ++ bytes else sentOn sck s.trace).length
      split
      · rw [List.length_append]
        omega
      · exact already
  | _ => exact ⟨complete, already⟩

theorem le (owes : Owes sck frames sent s) {less : Nat} (fewer : less ≤ sent) :
    Owes sck frames less s :=
  ⟨owes.frames, Nat.le_trans fewer owes.sent⟩

theorem take_sent (owes : Owes sck frames (min sent frames.flatten.length) s)
    (delivery : DeliveryInv s) (member : sck ∈ s.info.peerList.map TtyPeerInfo.sck) :
    frames.flatten.take sent <+: sentOn sck s.trace := by
  obtain ⟨cells, _, delivered⟩ := delivery
  obtain ⟨peer, isPeer, rfl⟩ := List.mem_map.mp member
  have account : sentOn peer.sck s.trace <+: (framesSince peer.sck s.trace).flatten :=
    ⟨_, delivered peer isPeer⟩
  have front : frames.flatten.take sent <+: (framesSince peer.sck s.trace).flatten :=
    (List.take_prefix _ _).trans owes.frames.flatten
  apply List.prefix_of_prefix_length_le front account
  rw [List.length_take]
  exact owes.sent

end Owes

theorem keeps_unnoted {f : Sys → Sys} (same : ∀ s, (f s).trace = s.trace) :
    Keeps (Owes sck frames sent) (Proc.modify f : Act Unit) :=
  .modify fun s owes => owes.of_trace (same s)

theorem keeps_noted {f : Sys → Sys} {event : Sys → Event}
    (traced : ∀ s, (f s).trace = event s :: s.trace) (other : ∀ s, event s ≠ .accept sck) :
    Keeps (Owes sck frames sent) (Proc.modify f : Act Unit) :=
  .modify fun s owes => (owes.emit (other s)).of_trace (traced s)

section Schedule

theorem castTimeout_owes (value : Int) : Keeps (Owes sck frames sent) (castTimeout value) := by
  refine .bind (keeps_noted (fun _ => rfl) fun _ => nofun) fun _ => ?_
  exact .bind (.orAbort _) fun _ => .pure _

theorem processTtyIdInfo_owes (lib : ParseLib) (io : ReadIo) (idInfo : TtyIdInfo) :
    Keeps (Owes sck frames sent) (processTtyIdInfo lib io idInfo) := by
  intro s owes
  have called : Owes sck frames sent (noteCall io idInfo s) := owes.emit nofun
  rcases processTtyIdInfo_state lib io idInfo s with same | ⟨t, kind, same, _, _, _, read⟩
  · exact called.of_trace same.trace
  · rw [read]
    exact (called.of_trace same.trace).emit nofun

theorem checkModbus_owes (lib : ParseLib) (io : CheckIo) :
    Keeps (Owes sck frames sent) (checkModbus lib io) := by
  refine .bind (.read _) fun info => .ite (fun _ => ?_) fun _ => .ite (fun _ => ?_) fun _ =>
    castTimeout_owes _
  · exact .bind (keeps_unnoted fun _ => rfl) fun _ => castTimeout_owes _
  · refine .bind (keeps_noted (fun _ => rfl) fun _ => nofun) fun _ => ?_
    cases (getNextIdInfo info).1 with
    | none => exact .bind (keeps_unnoted fun _ => rfl) fun _ => castTimeout_owes _
    | some idInfo =>
        refine .bind (keeps_unnoted fun _ => rfl) fun _ => ?_
        refine .bind (processTtyIdInfo_owes lib io.read idInfo) fun _ => ?_
        exact .bind (keeps_unnoted fun _ => rfl) fun _ => castTimeout_owes _

theorem scheduleReads_owes (lib : ParseLib) (io : CheckIo) :
    Keeps (Owes sck frames sent) (scheduleReads lib io) := by
  refine .bind (.read _) fun peers => .ite (fun _ => ?_) fun _ => ?_
  · exact keeps_noted (fun _ => rfl) fun _ => nofun
  · exact .bind (checkModbus_owes lib io) fun _ => .pure ()

end Schedule

section Serve

theorem sendHead_owes (index taken : Nat) : Keeps (Owes sck frames sent) (sendHead index taken) := by
  refine .bind (.read _) fun s => .bind (.orAbort _) fun peer => ?_
  cases peer.send.head with
  | none => exact .pure ()
  | some address =>
      refine .bind (.orAbort _) fun node => .bind (.orAbort _) fun outSlice => ?_
      refine .ite (fun _ => .bind ?_ fun _ => ?_) fun _ => ?_
      · exact keeps_noted (fun _ => rfl) fun _ => nofun
      · exact keeps_unnoted fun s => (advance_trace _ _ _ _ _ s)
      · exact keeps_unnoted fun s => (setDelme_trace index s)

theorem checkPeer_owes (other : Int) (io : PeerIo) :
    Keeps (Owes sck frames sent) (checkPeer other io) := by
  refine .bind (.when fun _ => ?_) fun _ => .when fun _ => ?_
  · refine .bind (PeerBlind.getPeerBySck_keeps other) fun index => .when fun _ => ?_
    exact keeps_unnoted fun s => (setDelme_trace index s)
  · exact .bind (PeerBlind.getPeerBySck_keeps other) fun index => sendHead_owes index io.sent

theorem checkPolled_owes (polled : List (Int × PeerIo)) :
    Keeps (Owes sck frames sent) (checkPolled polled) := by
  induction polled with
  | nil => exact .pure ()
  | cons first rest ih => exact .bind (checkPeer_owes first.1 first.2) fun _ => ih

theorem removeDelme_owes (count : Nat) (s : Sys) (owes : Owes sck frames sent s) :
    Owes sck frames sent (removeDelme count s) := by
  induction count generalizing s with
  | zero => exact owes
  | succ index ih =>
      rw [removeDelme]
      split
      · exact ih s owes
      · rename_i peer _
        split
        · have closed : Owes sck frames sent (s.emit (.close peer.sck)) := by
            apply owes.emit
            intro same
            cases same
          exact ih _ (closed.of_trace rfl)
        · exact ih s owes

end Serve

section Entry

/-- At least one more byte of the frames is sent, if there is one. -/
theorem sendHead_takes {index taken : Nat} {peer : TtyPeerInfo} (takes : 0 < taken)
    (delivery : DeliveryInv s) (found : s.info.peerList[index]? = some peer)
    (isSck : peer.sck = sck) (owes : Owes sck frames sent s) :
    Owes sck frames (min (sent + 1) frames.flatten.length) (sendHead index taken s).state := by
  obtain ⟨cells, linked, delivered⟩ := delivery
  have member := List.mem_of_getElem? found
  have queue := linked.queue peer member
  have account := delivered peer member
  rw [isSck] at account
  unfold sendHead
  simp only [read_bind, id_eq, found, orAbort_some, pure_bind_run]
  cases starts : peer.send.head with
  | none =>
      -- nothing is queued: all frames were sent
      have empty := queue.head_eq_none_iff.mp starts
      rw [isSck] at empty
      rw [empty, unsentBytes, List.append_nil] at account
      refine ⟨owes.frames, Nat.le_trans (Nat.min_le_right _ _) ?_⟩
      show frames.flatten.length ≤ (sentOn sck s.trace).length
      rw [account]
      exact owes.frames.flatten.length_le
  | some address =>
      obtain ⟨value, next, rest, isQueue, allocated⟩ := queue.head_node starts
      have isOpen : value.sent < value.outDataSlice.length :=
        (linked.backlog peer member).open_nodes (address, value) (isQueue ▸ List.mem_cons_self)
      have width : value.unsent.length = value.outDataSlice.length - value.sent := List.length_drop
      have something : 0 < min taken value.unsent.length := by omega
      simp only [allocated, SendT.outSlice, Nat.le_of_lt isOpen, ↓reduceIte, orAbort_some,
        pure_bind_run, something, modify_bind, modify_run, Exit.state]
      have more : Owes sck frames (sent + 1)
          (s.emit (.send peer.sck (value.unsent.take (min taken value.unsent.length)))) := by
        refine ⟨owes.frames, ?_⟩
        show sent + 1 ≤ (if peer.sck = sck then _ else _ : List UInt8).length
        have already := owes.sent
        rw [if_pos isSck, List.length_append, List.length_take]
        omega
      exact (more.le (Nat.min_le_left _ _)).of_trace (advance_trace _ _ _ _ _ _)

theorem checkPeer_takes {io : PeerIo} (takes : io.Takes) (delivery : DeliveryInv s)
    (member : sck ∈ s.info.peerList.map TtyPeerInfo.sck) (owes : Owes sck frames sent s) :
    Owes sck frames (min (sent + 1) frames.flatten.length) (checkPeer sck io s).state := by
  obtain ⟨index, peer, looked, found, isSck⟩ := getPeerBySck_ok member
  have received : (Proc.when io.pollIn do
      let index ← getPeerBySck sck
      Proc.when (io.recv < 1) (Proc.modify (setDelme index)) : Act Unit) s = .ok () s := by
    cases pollIn : io.pollIn with
    | false => rfl
    | true =>
        have stays := takes.stays pollIn
        rw [when_true _ rfl, bind_of_ok looked, when_false _ (by omega)]
        rfl
  unfold checkPeer
  rw [bind_of_ok received, when_true _ takes.writable, bind_of_ok looked]
  exact sendHead_takes takes.taken delivery found isSck owes

/-- These are the descriptors of the peers. -/
def OnScks (scks : List Int) (s : Sys) : Prop := s.info.peerList.map TtyPeerInfo.sck = scks

theorem checkPeer_scks (other : Int) (io : PeerIo) (scks : List Int) :
    Keeps (OnScks scks) (checkPeer other io) := by
  refine .bind (.when fun _ => ?_) fun _ => .when fun _ => ?_
  · refine .bind (PeerBlind.getPeerBySck_keeps other) fun index => .when fun _ => ?_
    exact .modify fun s same => (setDelme_scks index s).trans same
  · refine .bind (PeerBlind.getPeerBySck_keeps other) fun index s same => ?_
    apply sendHead_rule same ((setDelme_scks index s).trans same)
    intro peer address node found _ _
    exact (advance_scks (s := s.emit _) found).trans same

theorem checkPolled_takes {io : PeerIo} (takes : io.Takes) {polled : List (Int × PeerIo)}
    (entry : (sck, io) ∈ polled) (delivery : DeliveryInv s)
    (member : sck ∈ s.info.peerList.map TtyPeerInfo.sck) (owes : Owes sck frames sent s)
    (ran : checkPolled polled s = .ok () t) :
    Owes sck frames (min (sent + 1) frames.flatten.length) t := by
  induction polled generalizing s with
  | nil => cases entry
  | cons first rest ih =>
      obtain ⟨_, u, served, later⟩ := of_bind_ok ran
      have stillDelivery := checkPeer_keeps first.1 first.2 s delivery
      have stillMember : OnScks (s.info.peerList.map TtyPeerInfo.sck)
          (checkPeer first.1 first.2 s).state := checkPeer_scks first.1 first.2 _ s rfl
      have stillOwes := checkPeer_owes first.1 first.2 s owes
      rw [served] at stillDelivery stillMember stillOwes
      rcases List.mem_cons.mp entry with rfl | behind
      · have more := checkPeer_takes takes delivery member owes
        rw [served] at more
        have last := checkPolled_owes rest u more
        rwa [later] at last
      · exact ih behind stillDelivery (stillMember ▸ member) stillOwes later

end Entry

section Pass

/-- The pass serves the peers that it polled, and the socket takes something. -/
def TakesIn (lib : ParseLib) (sck : Int) (d : Daemon) : Input → Prop
  | .loop io => ∃ s ∈ atPoll lib io d.sys, (atPeers io s).isSome = true ∧
      ∃ entry ∈ (s.info.peerList.map TtyPeerInfo.sck).zip io.peers, entry.1 = sck ∧ entry.2.Takes
  | _ => False

instance (lib : ParseLib) (sck : Int) (d : Daemon) : ∀ input, Decidable (TakesIn lib sck d input)
  | .start _ | .wake _ _ => .isFalse id
  | .loop io => inferInstanceAs (Decidable (∃ s ∈ atPoll lib io d.sys, _))

/-- The loop runs, and the peer is connected and owed the frames. -/
structure Lagging (sck : Int) (frames : List (List UInt8)) (sent : Nat) (d : Daemon) : Prop where
  running : d.ctl = .loop
  delivery : DeliveryInv d.sys
  orderly : Orderly d.sys
  member : sck ∈ d.sys.info.peerList.map TtyPeerInfo.sck
  owes : Owes sck frames sent d.sys

theorem mem_entriesOf {io : PeerIo} {scks : List Int} {peers : List TtyPeerInfo}
    {answers : List PeerIo} (polled : scks <+: peers.map TtyPeerInfo.sck)
    (entry : (sck, io) ∈ scks.zip answers) :
    ∃ peer, (peer, io) ∈ entriesOf peers (answers.take scks.length) ∧ peer.sck = sck := by
  induction scks generalizing peers answers with
  | nil => cases entry
  | cons first rest ih =>
      cases answers with
      | nil => cases entry
      | cons answer later =>
          cases peers with
          | nil => exact absurd (List.prefix_nil.mp polled) (List.cons_ne_nil _ _)
          | cons peer others =>
              obtain ⟨same, behind⟩ := List.cons_prefix_cons.mp polled
              rcases List.mem_cons.mp entry with here | there
              · obtain ⟨rfl, rfl⟩ := Prod.mk.inj here
                exact ⟨peer, List.mem_cons_self, same.symm⟩
              · obtain ⟨other, isEntry, isSck⟩ := ih behind there
                exact ⟨other, List.mem_cons_of_mem _ isEntry, isSck⟩

theorem PeerIo.Takes.stays_on {io : PeerIo} (takes : io.Takes) (peer : TtyPeerInfo) :
    io.fails peer = false := by
  have taken : io.sent ≠ 0 := Nat.ne_of_gt takes.taken
  cases pollIn : io.pollIn with
  | false => simp [PeerIo.fails, pollIn, taken]
  | true =>
      have stays := takes.stays pollIn
      simp [PeerIo.fails, pollIn, taken]
      omega

theorem Served.member {io : PeerIo} {scks : List Int} {answers : List PeerIo}
    (served : Served (entriesOf s.info.peerList (answers.take scks.length)) s t)
    (polled : scks <+: s.info.peerList.map TtyPeerInfo.sck) (takes : io.Takes)
    (entry : (sck, io) ∈ scks.zip answers) : sck ∈ t.info.peerList.map TtyPeerInfo.sck := by
  obtain ⟨peer, isEntry, rfl⟩ := mem_entriesOf polled entry
  have stays : io.serve s.heap peer ∈
      staying s.heap (entriesOf s.info.peerList (answers.take scks.length)) := by
    apply List.mem_map.mpr
    refine ⟨(peer, io), List.mem_filter.mpr ⟨isEntry, ?_⟩, rfl⟩
    rw [takes.stays_on peer]
    rfl
  exact List.mem_map.mpr ⟨_, served.stay.mem_iff.mpr stays, rfl⟩

theorem accepted_cases {listen : Bool} {accept : Option Int} {value : Unit}
    (ran : Proc.when listen (acceptPeer .whole accept) s = .ok value t) :
    t = s ∨ ∃ new ∈ accept, t = accepted new s := by
  cases listen with
  | false =>
      cases ran
      exact .inl rfl
  | true =>
      rw [when_true _ rfl] at ran
      cases accept with
      | none => cases ran
      | some new =>
          cases ran
          exact .inr ⟨new, rfl, rfl⟩

theorem accepted_owes {listen : Bool} {accept : Option Int} {value : Unit}
    (unused : ∀ new ∈ accept, new ∉ s.info.peerList.map TtyPeerInfo.sck)
    (member : sck ∈ s.info.peerList.map TtyPeerInfo.sck) (owes : Owes sck frames sent s)
    (ran : Proc.when listen (acceptPeer .whole accept) s = .ok value t) :
    Owes sck frames sent t ∧
      s.info.peerList.map TtyPeerInfo.sck <+: t.info.peerList.map TtyPeerInfo.sck := by
  rcases accepted_cases ran with rfl | ⟨new, isNew, rfl⟩
  · exact ⟨owes, List.prefix_rfl⟩
  · have differs : Event.accept new ≠ .accept sck :=
      fun same => unused new isNew (Event.accept.inj same ▸ member)
    refine ⟨(owes.emit differs).of_trace rfl, ?_⟩
    have appended : (accepted new s).info.peerList = s.info.peerList ++ [{ sck := new }] := rfl
    rw [appended, List.map_append]
    exact List.prefix_append _ _

theorem accepted_delivery {listen : Bool} {accept : Option Int} {value : Unit}
    (unused : ∀ new ∈ accept, new ∉ s.info.peerList.map TtyPeerInfo.sck)
    (delivery : DeliveryInv s)
    (ran : Proc.when listen (acceptPeer .whole accept) s = .ok value t) : DeliveryInv t := by
  rcases accepted_cases ran with rfl | ⟨new, isNew, rfl⟩
  · exact delivery
  · apply Serving.delivery
    apply Serving.accepted ⟨delivery, rfl⟩
    intro peer isPeer same
    exact unused new isNew (List.mem_map.mpr ⟨peer, isPeer, same⟩)

theorem checkPeers_takes {io : PeerIo} (takes : io.Takes) {polled : List (Int × PeerIo)}
    (entry : (sck, io) ∈ polled) (delivery : DeliveryInv s)
    (member : sck ∈ s.info.peerList.map TtyPeerInfo.sck) (owes : Owes sck frames sent s)
    (ran : checkPeers polled s = .ok () t) :
    Owes sck frames (min (sent + 1) frames.flatten.length) t := by
  obtain ⟨_, u, served, removed⟩ := of_bind_ok ran
  cases removed
  exact removeDelme_owes _ u (checkPolled_takes takes entry delivery member owes served)

theorem step_lagging (lib : ParseLib) {d : Daemon} {input : Input} (ok : KernelOk d input)
    (promised : Promised d input) (takes : TakesIn lib sck d input)
    (lagging : Lagging sck frames sent d) :
    Lagging sck frames (min (sent + 1) frames.flatten.length) (d.step lib input) := by
  cases input with
  | start io => exact takes.elim
  | wake time term => exact takes.elim
  | loop io =>
      obtain ⟨s, reached, some, ⟨polledSck, answer⟩, entry, isSck, takes⟩ := takes
      simp only at isSck takes
      subst polledSck
      obtain ⟨t, called⟩ := Option.isSome_iff_exists.mp some
      obtain ⟨running, delivery, orderly, member, owes⟩ := lagging
      obtain ⟨round, u, returned, stepped⟩ :=
        roundMade_of_orderly lib d (.loop io) promised orderly running s reached t called
      obtain ⟨_, scheduled⟩ := atPoll_eq_some.mp reached
      obtain ⟨_, _, listen, _, _, accepted⟩ := atPeers_eq_some called
      rw [ok.whole] at accepted
      have serving := scheduleReads_keeps lib ok.fresh ⟨delivery, rfl⟩
      have owing := scheduleReads_owes lib io.check d.sys owes
      rw [scheduled] at serving owing
      have unused : ∀ new ∈ io.accept, new ∉ s.info.peerList.map TtyPeerInfo.sck := by
        intro new isNew isPeer
        rw [show s.info.peerList.map TtyPeerInfo.sck = _ from serving.scks] at isPeer
        obtain ⟨peer, isOld, same⟩ := List.mem_map.mp isPeer
        exact ok.unused new isNew peer isOld same
      have polledMember : sck ∈ s.info.peerList.map TtyPeerInfo.sck := serving.scks ▸ member
      obtain ⟨stillOwes, polled⟩ := accepted_owes unused polledMember owing accepted
      have delivered := accepted_delivery unused serving.delivery accepted
      obtain ⟨v, made, served⟩ := round.returns
      obtain rfl : v = u := by
        rw [returned] at made
        cases made
        rfl
      refine ⟨?_, step_delivery lib d _ ok delivery, step_orderly lib d _ promised orderly, ?_, ?_⟩
      · rw [stepped]
      · rw [stepped]
        exact served.member polled takes entry
      · rw [stepped]
        exact checkPeers_takes takes entry delivered (polled.subset polledMember) stillOwes returned

/-- So many passes, so many bytes, until all are sent. -/
theorem passes_lagging (lib : ParseLib) {d : Daemon} {passes : List Input}
    (ok : Runs.Admits (Daemon.step lib)
      (fun d input => (KernelOk d input ∧ Promised d input) ∧ TakesIn lib sck d input) d passes)
    (lagging : Lagging sck frames sent d) :
    Lagging sck frames (min (sent + passes.length) frames.flatten.length) (d.run lib passes) := by
  induction passes generalizing d sent with
  | nil =>
      obtain ⟨running, delivery, orderly, member, owes⟩ := lagging
      exact ⟨running, delivery, orderly, member, owes.le (Nat.min_le_left _ _)⟩
  | cons input rest ih =>
      obtain ⟨⟨⟨kernel, promised⟩, takes⟩, later⟩ := ok
      obtain ⟨running, delivery, orderly, member, owes⟩ :=
        ih later (step_lagging lib kernel promised takes lagging)
      refine ⟨running, delivery, orderly, member, owes.le ?_⟩
      rw [List.length_cons]
      omega

end Pass

/-- The peer is still served, and it was sent so many bytes more of the frames that were
complete at the first of these points, or all of them. -/
structure Drained (sck : Int) (count : Nat) (d e : Daemon) : Prop where
  running : e.ctl = .loop
  connected : sck ∈ e.sys.info.peerList.map TtyPeerInfo.sck
  sent : (framesSince sck d.sys.trace).flatten.take ((sentOn sck d.sys.trace).length + count) <+:
    sentOn sck e.sys.trace

/-- From any state of a run in which the peer is served, every pass in which its socket
takes something brings at least one more byte of what it is owed. -/
theorem backlog_sent (lib : ParseLib) (config : Config) (clock : Int)
    (inputs passes : List Input) (sck : Int)
    (ok : Runs.Admits (Daemon.step lib) (fun d input => KernelOk d input ∧ Promised d input)
      (Daemon.initial config clock) (inputs ++ passes))
    (running : ((Daemon.initial config clock).run lib inputs).ctl = .loop)
    (connected : sck ∈ ((Daemon.initial config clock).run lib inputs).sys.info.peerList.map
      TtyPeerInfo.sck)
    (takes : Runs.Admits (Daemon.step lib) (TakesIn lib sck)
      ((Daemon.initial config clock).run lib inputs) passes) :
    Drained sck passes.length ((Daemon.initial config clock).run lib inputs)
      ((Daemon.initial config clock).run lib (inputs ++ passes)) := by
  rw [Runs.admits_append] at ok
  obtain ⟨before, later⟩ := ok
  have delivery : DeliveryInv ((Daemon.initial config clock).run lib inputs).sys :=
    Runs.exec_keeps (fun d input ok => step_delivery lib d input ok.1) before
      (initial_delivery config)
  have orderly : Orderly ((Daemon.initial config clock).run lib inputs).sys :=
    Runs.exec_keeps (fun d input ok => step_orderly lib d input ok.2) before
      (initial_orderly config)
  have last := passes_lagging lib (later.and takes)
    ⟨running, delivery, orderly, connected, List.prefix_rfl, Nat.le_refl _⟩
  rw [show (Daemon.initial config clock).run lib (inputs ++ passes) =
    ((Daemon.initial config clock).run lib inputs).run lib passes from Runs.exec_append _ _ _]
  exact ⟨last.running, last.member, last.owes.take_sent last.delivery last.member⟩

/-- The peer takes five bytes more. -/
def fiveMore : List Input :=
  [.loop { check := ⟨2100, { answered 2100 2120 with nodes := [1] }, 2120⟩,
           poll := .ready false false false, setup := .failed, accept := none,
           peers := [⟨false, true, 0, 5⟩] }]

theorem backlog_sent_fiveMore :
    Drained 5 1 ((Daemon.initial oneDevice 0).run Parse.reference partialSend)
      ((Daemon.initial oneDevice 0).run Parse.reference (partialSend ++ fiveMore)) := by
  apply backlog_sent Parse.reference oneDevice 0 partialSend fiveMore 5
  · decide +kernel
  · decide +kernel
  · decide +kernel
  · decide +kernel

end RenogyX10.TtyReader
