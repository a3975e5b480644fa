import RenogyX10.TtyReader.Delivery

set_option autoImplicit false

namespace RenogyX10.TtyReader

open Keyed LinkedQueue Parse Proc

/-- The entries of the table: terminate, hup, listen, and one for each peer. -/
def pollCount (s : Sys) : Nat := 3 + s.info.peerList.length

/-- A pass writes its entries inside the table. -/
def TableFits (lib : ParseLib) (d : Daemon) : Input → Prop
  | .loop io => d.ctl = .loop → ∀ t ∈ atPoll lib io d.sys, pollCount t ≤ maxPolls
  | _ => True

instance (lib : ParseLib) (d : Daemon) : ∀ input, Decidable (TableFits lib d input)
  | .start _ | .wake _ _ => .isTrue trivial
  | .loop _ => inferInstanceAs (Decidable (_ → _))

/-- The peer is gone: there is nothing to receive, or nothing can be sent. -/
def PeerIo.leaves (io : PeerIo) : Bool :=
  (io.pollIn && decide (io.recv < 1)) || (io.pollOut && decide (io.sent = 0))

/-- The pass accepts a connection. -/
def LoopIo.accepts (io : LoopIo) : Bool :=
  match io.poll with
  | .ready false false true => io.accept.isSome
  | _ => false

/-- How many peers the table has room for. -/
def maxPeers : Nat := maxPolls - 3

/-- A connection that is accepted while the table is full takes the place of a
peer that leaves. -/
def LeavesRoom (d : Daemon) : Input → Prop
  | .loop io => io.accepts = true → maxPeers ≤ d.sys.info.peerList.length →
      ∃ answer ∈ io.peers.take d.sys.info.peerList.length, answer.leaves = true
  | _ => True

instance (d : Daemon) : ∀ input, Decidable (LeavesRoom d input)
  | .start _ | .wake _ _ => .isTrue trivial
  | .loop _ => inferInstanceAs (Decidable (_ → _ → _))

/-- Poll reports a peer writable only where that was asked for. -/
def PollOk (lib : ParseLib) (d : Daemon) : Input → Prop
  | .loop io => ∀ t ∈ atPoll lib io d.sys, ∀ pair ∈ t.info.peerList.zip io.peers,
      pair.2.pollOut = true → pair.1.send.tail ≠ none
  | _ => True

instance (lib : ParseLib) (d : Daemon) : ∀ input, Decidable (PollOk lib d input)
  | .start _ | .wake _ _ => .isTrue trivial
  | .loop io => inferInstanceAs (Decidable (∀ t ∈ atPoll lib io d.sys,
      ∀ pair ∈ t.info.peerList.zip io.peers, pair.2.pollOut = true → pair.1.send.tail ≠ none))

/-- Some peer is to be removed. -/
def Marked (s : Sys) : Prop := true ∈ s.info.peerList.map TtyPeerInfo.delme

/-- The peer on this descriptor has something queued. -/
def Queued (sck : Int) (s : Sys) : Prop :=
  ∀ peer ∈ s.info.peerList, peer.sck = sck → peer.send.head ≠ none

def Within (count : Nat) (s : Sys) : Prop := s.info.peerList.length ≤ count

variable {scks : List Int} {s : Sys} {count : Nat}

theorem Serving.within (serving : Serving scks s) : Within scks.length s := by
  rw [Within, ← serving.scks, List.length_map]

/-- What an entry of the table does to the peers: the connections and the marks
stay, a peer that leaves is marked, and the other queues are left alone. -/
structure Polled (scks : List Int) (sck : Int) (leaves : Prop) (s t : Sys) : Prop where
  serving : Serving scks t
  marked : Marked s → Marked t
  left : leaves → Marked t
  others : ∀ other, other ≠ sck → Queued other s → Queued other t

section Entry

variable {index : Nat} {peer : TtyPeerInfo} {sck : Int}

theorem getPeerBySck_ok (member : sck ∈ s.info.peerList.map TtyPeerInfo.sck) :
    ∃ index peer, getPeerBySck sck s = .ok index s ∧ s.info.peerList[index]? = some peer ∧
      peer.sck = sck := by
  obtain ⟨peer, isPeer, isSck⟩ := List.mem_map.mp member
  unfold getPeerBySck
  rw [read_bind]
  cases found : s.info.peerList.findIdx? fun peer => peer.sck == sck with
  | none =>
      have absent := List.findIdx?_eq_none_iff.mp found peer isPeer
      rw [isSck, beq_self_eq_true] at absent
      cases absent
  | some index =>
      obtain ⟨inside, same, _⟩ := List.findIdx?_eq_some_iff_getElem.mp found
      exact ⟨index, s.info.peerList[index], rfl, List.getElem?_eq_getElem inside, eq_of_beq same⟩

theorem setDelme_eq (found : s.info.peerList[index]? = some peer) :
    setDelme index s = setPeer index { peer with delme := true } s := by
  simp only [setDelme, found]

theorem setDelme_queued (found : s.info.peerList[index]? = some peer) {other : Int}
    (queued : Queued other s) : Queued other (setDelme index s) := by
  intro member isMember same
  rw [setDelme_eq found] at isMember
  rcases List.mem_or_eq_of_mem_set isMember with old | rfl
  · exact queued member old same
  · exact queued peer (List.mem_of_getElem? found) same

theorem setDelme_polled {leaves : Prop} (serving : Serving scks s)
    (found : s.info.peerList[index]? = some peer) :
    Polled scks sck leaves s (setDelme index s) := by
  have inside : index < s.info.peerList.length := (List.getElem?_eq_some_iff.mp found).1
  have marks : Marked (setDelme index s) := by
    rw [setDelme_eq found]
    have stored : ({ peer with delme := true } : TtyPeerInfo) ∈
        s.info.peerList.set index { peer with delme := true } := List.mem_set inside _
    exact List.mem_map_of_mem stored
  refine ⟨⟨setDelme_keeps index s serving.delivery, ?_⟩, fun _ => marks, fun _ => marks, ?_⟩
  · rw [setDelme_eq found, ← serving.scks]
    exact map_set found rfl
  · exact fun other _ queued => setDelme_queued found queued

theorem Polled.same {leaves : Prop} (serving : Serving scks s) (stays : ¬ leaves) :
    Polled scks sck leaves s s :=
  ⟨serving, id, fun left => absurd left stays, fun _ _ queued => queued⟩

theorem Polled.trans {first second : Prop} {t u : Sys} (before : Polled scks sck first s t)
    (after : Polled scks sck second t u) : Polled scks sck (first ∨ second) s u := by
  refine ⟨after.serving, fun marked => after.marked (before.marked marked), ?_, ?_⟩
  · rintro (left | left)
    · exact after.marked (before.left left)
    · exact after.left left
  · exact fun other apart queued => after.others other apart (before.others other apart queued)

theorem advance_polled {address sent : Nat} {node : Node SendT} {event : Event} {leaves : Prop}
    (found : s.info.peerList[index]? = some peer) (isSck : peer.sck = sck)
    (served : s.info.peerList.map TtyPeerInfo.sck = scks)
    (delivery : DeliveryInv (advance index address sent node peer (s.emit event)))
    (stays : ¬ leaves) :
    Polled scks sck leaves s (advance index address sent node peer (s.emit event)) := by
  unfold advance at delivery ⊢
  dsimp only at delivery ⊢
  split at delivery
  case isTrue finished =>
    rw [if_pos finished]
    refine ⟨⟨delivery, ?_⟩, ?_, fun left => absurd left stays, ?_⟩
    · rw [← served]
      exact map_set found rfl
    · intro marked
      show true ∈ (s.info.peerList.set index _).map TtyPeerInfo.delme
      rw [map_set found (by rfl)]
      exact marked
    · intro other apart queued member isMember same
      rcases List.mem_or_eq_of_mem_set isMember with old | rfl
      · exact queued member old same
      · exact absurd (same.symm.trans isSck) apart
  case isFalse unfinished =>
    rw [if_neg unfinished]
    exact ⟨⟨delivery, served⟩, id, fun left => absurd left stays, fun _ _ queued => queued⟩

theorem sendHead_polled {taken : Nat} (serving : Serving scks s)
    (found : s.info.peerList[index]? = some peer) (isSck : peer.sck = sck) :
    (sendHead index taken s).Meets (Polled scks sck (taken = 0 ∧ Queued sck s) s)
      (fun _ => False) fun _ => True := by
  obtain ⟨cells, linked, delivered⟩ := serving.delivery
  unfold sendHead
  simp only [read_bind, id_eq, found, orAbort_some, pure_bind_run]
  cases starts : peer.send.head with
  | none =>
      apply Polled.same serving
      exact fun left => left.2 peer (List.mem_of_getElem? found) isSck starts
  | some address =>
      cases allocated : s.heap.lookup address with
      | none =>
          simp only [allocated, orAbort_none, abort_bind]
          exact trivial
      | some node =>
          by_cases inside : node.value.sent ≤ node.value.outDataSlice.length
          · simp only [allocated, SendT.outSlice, inside, ↓reduceIte, orAbort_some,
              pure_bind_run, ite_run]
            split
            case isTrue some_taken =>
              apply advance_polled found isSck serving.scks
              · exact send_delivered linked delivered found starts allocated
              · omega
            case isFalse => exact setDelme_polled serving found
          · simp only [allocated, SendT.outSlice, inside, ↓reduceIte, orAbort_some,
              orAbort_none, pure_bind_run, abort_bind]
            exact trivial

theorem checkPeer_polled {io : PeerIo} (serving : Serving scks s) (member : sck ∈ scks) :
    (checkPeer sck io s).Meets
      (Polled scks sck (io.leaves = true ∧ (io.pollOut = true → Queued sck s)) s)
      (fun _ => False) fun _ => True := by
  have received : (Proc.when io.pollIn (do
      let index ← getPeerBySck sck
      Proc.when (io.recv < 1) (Proc.modify (setDelme index))) s).Meets
      (fun t => Polled scks sck (io.pollIn = true ∧ io.recv < 1) s t ∧ (Queued sck s → Queued sck t))
      (fun _ => False) fun _ => True := by
    apply meets_when
    · intro readable
      obtain ⟨index, peer, ran, found, _⟩ := getPeerBySck_ok (by rwa [serving.scks])
      rw [bind_of_ok ran]
      apply meets_when
      · exact fun _ => ⟨setDelme_polled serving found, setDelme_queued found⟩
      · exact fun some_bytes => ⟨.same serving fun left => some_bytes left.2, id⟩
    · exact fun unreadable => ⟨.same serving fun left => unreadable left.1, id⟩
  unfold checkPeer
  apply meets_bind received
  intro _ t ⟨before, stillQueued⟩
  have sent : (Proc.when io.pollOut (do
      let index ← getPeerBySck sck
      sendHead index io.sent) t).Meets
      (Polled scks sck (io.pollOut = true ∧ io.sent = 0 ∧ Queued sck t) t)
      (fun _ => False) fun _ => True := by
    apply meets_when
    · intro writable
      obtain ⟨index, peer, ran, found, isSck⟩ := getPeerBySck_ok (by rwa [before.serving.scks])
      rw [bind_of_ok ran]
      apply meets_mono (sendHead_polled before.serving found isSck)
      · exact fun u polled => ⟨polled.serving, polled.marked, fun left => polled.left left.2,
          polled.others⟩
      · exact fun _ impossible => impossible
      · exact fun _ fallen => fallen
    · exact fun unwritable => .same before.serving fun left => unwritable left.1
  apply meets_mono sent
  · intro u after
    have both := before.trans after
    refine ⟨both.serving, both.marked, fun ⟨left, queued⟩ => both.left ?_, both.others⟩
    simp only [PeerIo.leaves, Bool.or_eq_true, Bool.and_eq_true, decide_eq_true_eq] at left
    rcases left with gone | ⟨writable, none⟩
    · exact .inl gone
    · exact .inr ⟨writable, none, stillQueued (queued writable)⟩
  · exact fun _ impossible => impossible
  · exact fun _ fallen => fallen

end Entry

/-- All entries: if one of the peers leaves, a peer is marked in the end. -/
theorem checkPolled_marks (polled : List (Int × PeerIo)) (distinct : (polled.map Prod.fst).Nodup)
    (known : ∀ entry ∈ polled, entry.1 ∈ scks) (serving : Serving scks s)
    (leaving : Marked s ∨ ∃ entry ∈ polled, entry.2.leaves = true ∧
      (entry.2.pollOut = true → Queued entry.1 s)) :
    (checkPolled polled s).Meets (fun t => Serving scks t ∧ Marked t) (fun _ => False)
      fun _ => True := by
  induction polled generalizing s with
  | nil =>
      rcases leaving with marked | ⟨entry, member, _⟩
      · exact ⟨serving, marked⟩
      · cases member
  | cons first rest ih =>
      rw [List.map_cons, List.nodup_cons] at distinct
      rw [checkPolled]
      apply meets_bind (checkPeer_polled serving (known first List.mem_cons_self))
      intro _ t polled
      apply ih distinct.2 (fun entry member => known entry (List.mem_cons_of_mem _ member))
        polled.serving
      rcases leaving with marked | ⟨entry, member, leaves, queued⟩
      · exact .inl (polled.marked marked)
      · rcases List.mem_cons.mp member with rfl | later
        · exact .inl (polled.left ⟨leaves, queued⟩)
        · right
          refine ⟨entry, later, leaves, fun writable => ?_⟩
          apply polled.others entry.1 _ (queued writable)
          intro same
          exact distinct.1 (same ▸ List.mem_map_of_mem later)

theorem Marked.removed (marked : Marked s) :
    (removeDelme s.info.peerList.length s).info.peerList.length < s.info.peerList.length := by
  obtain ⟨peer, member, isMarked⟩ := List.mem_map.mp marked
  rw [(removeDelme_peers s).length_eq, List.length_filter_lt_length_iff_exists]
  refine ⟨peer, member, ?_⟩
  rw [isMarked]
  exact Bool.false_ne_true

theorem checkPolled_within (polled : List (Int × PeerIo)) :
    Keeps (Within count) (checkPolled polled) := by
  have marks (index : Nat) : Keeps (Within count) (Proc.modify (setDelme index) : Act Unit) := by
    apply Keeps.modify
    intro s within
    unfold setDelme
    split
    · exact within
    · exact Nat.le_trans (Nat.le_of_eq List.length_set) within
  have looks (sck : Int) : Keeps (Within count) (getPeerBySck sck) := by
    refine .bind (.read _) fun peers => ?_
    cases peers.findIdx? fun peer => peer.sck == sck with
    | none => exact .fail _
    | some index => exact .pure _
  have sends (index taken : Nat) : Keeps (Within count) (sendHead index taken) := by
    refine .bind (.read _) fun s => .bind (.orAbort _) fun peer => ?_
    cases peer.send.head with
    | none => exact .pure ()
    | some address =>
        refine .bind (.orAbort _) fun node => .bind (.orAbort _) fun outSlice => ?_
        apply Keeps.ite
        · intro _
          refine .bind (.modify fun t within => within) fun _ => .modify fun t within => ?_
          unfold advance
          dsimp only
          split
          · exact Nat.le_trans (Nat.le_of_eq List.length_set) within
          · exact within
        · exact fun _ => marks index
  induction polled with
  | nil => exact .pure ()
  | cons first rest ih =>
      refine .bind ?_ fun _ => ih
      refine .bind (.when fun _ => ?_) fun _ => .when fun _ => ?_
      · exact .bind (looks _) fun index => .when fun _ => marks index
      · exact .bind (looks _) fun index => sends index _

theorem checkPeers_within (polled : List (Int × PeerIo)) :
    Keeps (Within count) (checkPeers polled) := by
  refine .bind (checkPolled_within polled) fun _ => .modify fun t within => ?_
  apply Nat.le_trans _ within
  rw [(removeDelme_peers t).length_eq]
  exact List.length_filter_le _ _

theorem checkPeers_frees (polled : List (Int × PeerIo)) (distinct : (polled.map Prod.fst).Nodup)
    (known : ∀ entry ∈ polled, entry.1 ∈ scks) (serving : Serving scks s)
    (leaving : ∃ entry ∈ polled, entry.2.leaves = true ∧
      (entry.2.pollOut = true → Queued entry.1 s)) :
    (checkPeers polled s).Meets (fun t => t.info.peerList.length < scks.length) (fun _ => False)
      fun _ => True := by
  apply meets_bind (checkPolled_marks polled distinct known serving (.inr leaving))
  intro _ t ⟨stillServing, marked⟩
  exact Nat.lt_of_lt_of_le marked.removed stillServing.within

theorem Serving.queued (serving : Serving scks s) {peer : TtyPeerInfo}
    (member : peer ∈ s.info.peerList) (behind : peer.send.tail ≠ none) : Queued peer.sck s := by
  obtain ⟨cells, linked, _⟩ := serving.delivery
  intro other isOther same
  obtain rfl := List.inj_on_of_nodup_map linked.scks isOther member same
  rw [Ne, (linked.queue other isOther).null_together]
  exact behind

/-- The state when a connection has been accepted. -/
def accepted (sck : Int) (s : Sys) : Sys :=
  { s with
    info := { s.info with peerList := s.info.peerList ++ [{ sck := sck }] }
    trace := .accept sck :: s.trace }

theorem Serving.accepted (serving : Serving scks s) {sck : Int}
    (unused : ∀ peer ∈ s.info.peerList, peer.sck ≠ sck) :
    Serving (scks ++ [sck]) (accepted sck s) := by
  constructor
  · apply acceptPeer_keeps (some sck) _ serving.delivery
    intro other isOther
    obtain rfl := Option.some.inj isOther
    exact unused
  · have appended : (TtyReader.accepted sck s).info.peerList =
        s.info.peerList ++ [{ sck := sck }] := rfl
    rw [appended, List.map_append, serving.scks]
    rfl

theorem Serving.leaving (serving : Serving scks s) {io : LoopIo} {sck : Int}
    (unused : ∀ peer ∈ s.info.peerList, peer.sck ≠ sck)
    (polls : ∀ pair ∈ s.info.peerList.zip io.peers,
      pair.2.pollOut = true → pair.1.send.tail ≠ none)
    (leaves : ∃ answer ∈ io.peers.take scks.length, answer.leaves = true) :
    ∃ entry ∈ scks.zip io.peers, entry.2.leaves = true ∧
      (entry.2.pollOut = true → Queued entry.1 (TtyReader.accepted sck s)) := by
  obtain ⟨answer, member, leaves⟩ := leaves
  obtain ⟨index, found⟩ := List.mem_iff_getElem?.mp member
  have same : scks.length = s.info.peerList.length := by rw [← serving.scks, List.length_map]
  have answered : index < scks.length ∧ io.peers[index]? = some answer := by
    rw [List.getElem?_take] at found
    split at found
    case isTrue inside => exact ⟨inside, found⟩
    case isFalse => cases found
  have inside : index < s.info.peerList.length := by omega
  have polled : s.info.peerList[index]? = some s.info.peerList[index] :=
    List.getElem?_eq_getElem inside
  have isPair : (s.info.peerList[index], answer) ∈ s.info.peerList.zip io.peers :=
    List.mem_of_getElem? (List.getElem?_zip_eq_some.mpr ⟨polled, answered.2⟩)
  refine ⟨(s.info.peerList[index].sck, answer), ?_, leaves, fun writable => ?_⟩
  · apply List.mem_of_getElem? (i := index)
    apply List.getElem?_zip_eq_some.mpr
    refine ⟨?_, answered.2⟩
    rw [← serving.scks, List.getElem?_map, polled]
    rfl
  · have queued := serving.queued (List.getElem_mem inside) (polls _ isPair writable)
    intro peer isPeer isSck
    rcases List.mem_append.mp isPeer with old | new
    · exact queued peer old isSck
    · rw [List.mem_singleton.mp new] at isSck
      exact absurd isSck.symm (unused _ (List.getElem_mem inside))

/-- Serving the connections leaves no more peers than the table has room for. -/
theorem servePolled_room {io : LoopIo} (listen : Bool) (serving : Serving scks s)
    (few : scks.length ≤ maxPeers) (whole : io.alloc = .whole)
    (unused : ∀ sck, io.accept = some sck → ∀ peer ∈ s.info.peerList, peer.sck ≠ sck)
    (polls : ∀ pair ∈ s.info.peerList.zip io.peers,
      pair.2.pollOut = true → pair.1.send.tail ≠ none)
    (room : listen = true → io.accept.isSome = true → maxPeers ≤ scks.length →
      ∃ answer ∈ io.peers.take scks.length, answer.leaves = true) :
    (servePolled io listen scks s).Meets (Within maxPeers) (Within maxPeers) fun _ => True := by
  have within : Within maxPeers s := Nat.le_trans serving.within few
  have served (t : Sys) (holds : Within maxPeers t) :
      (Proc.when (scks ≠ []) (checkPeers (scks.zip io.peers)) t).Meets (Within maxPeers)
        (Within maxPeers) fun _ => True := by
    apply meets_mono (meets_of_keeps (.when fun _ => checkPeers_within (scks.zip io.peers)) holds)
    · exact fun _ kept => kept
    · exact fun _ kept => kept
    · exact fun _ _ => trivial
  unfold servePolled
  cases listen with
  | false => exact served s within
  | true =>
      cases accept : io.accept with
      | none => exact within
      | some sck =>
          rw [whole]
          have fresh := unused sck accept
          have isAccepted := serving.accepted fresh
          have ran : Proc.when (true = true) (acceptPeer .whole (some sck)) s =
              .ok () (accepted sck s) := rfl
          rw [bind_of_ok ran]
          by_cases full : maxPeers ≤ scks.length
          · have some_peer : scks ≠ [] := by
              rintro rfl
              exact absurd full (by decide)
            have leaving := serving.leaving fresh polls
              (room rfl (by rw [accept]; rfl) full)
            have entries : ((scks.zip io.peers).map Prod.fst).Nodup := by
              obtain ⟨cells, linked, _⟩ := serving.delivery
              have distinct : scks.Nodup := by
                rw [← serving.scks]
                exact linked.scks
              exact distinct.sublist (zip_keys_sublist scks io.peers)
            have known : ∀ entry ∈ scks.zip io.peers, entry.1 ∈ scks ++ [sck] :=
              fun entry member => List.mem_append_left _ (List.of_mem_zip member).1
            rw [when_true _ some_peer]
            apply meets_mono (checkPeers_frees _ entries known isAccepted leaving)
            · intro t shorter
              rw [List.length_append, List.length_singleton] at shorter
              show t.info.peerList.length ≤ maxPeers
              omega
            · exact fun _ impossible => impossible.elim
            · exact fun _ fallen => fallen
          · apply served
            show (s.info.peerList ++ [_]).length ≤ maxPeers
            have same : s.info.peerList.length = scks.length := by
              rw [← serving.scks, List.length_map]
            rw [List.length_append, List.length_singleton]
            omega

/-- While `main` goes on, the table has room for all peers. -/
structure Roomy (d : Daemon) : Prop where
  delivery : DeliveryInv d.sys
  room : d.ctl ≠ .stopped → Within maxPeers d.sys

/-- One pass: the peers that are served have room, before and after it. -/
theorem ttyMainLoop_room (lib : ParseLib) {io : LoopIo} {clock : Int} (ok : LoopOk s io)
    (polls : PollOk lib ⟨s, .loop, clock⟩ (.loop io))
    (leaves : LeavesRoom ⟨s, .loop, clock⟩ (.loop io)) (holds : DeliveryInv s)
    (within : Within maxPeers s) :
    (ttyMainLoop lib io s).Meets (Within maxPeers) (Within maxPeers) fun _ => True := by
  have scheduled := scheduleReads_keeps lib ok.fresh ⟨holds, rfl⟩
  have width : (s.info.peerList.map TtyPeerInfo.sck).length = s.info.peerList.length :=
    List.length_map _
  have few : (s.info.peerList.map TtyPeerInfo.sck).length ≤ maxPeers := by
    rw [width]
    exact within
  have kept (t : Sys) (serving : Serving (s.info.peerList.map TtyPeerInfo.sck) t) :
      Within maxPeers t := Nat.le_trans serving.within few
  unfold ttyMainLoop
  cases ended : scheduleReads lib io.check s with
  | panic t =>
      rw [bind_of_panic ended]
      exact trivial
  | error reason t =>
      rw [ended] at scheduled
      rw [bind_of_error ended]
      exact kept t scheduled
  | ok _ t =>
      rw [ended] at scheduled
      rw [bind_of_ok ended]
      have serving : Serving (s.info.peerList.map TtyPeerInfo.sck) t := scheduled
      have fits : ¬ maxPolls < 3 + (s.info.peerList.map TtyPeerInfo.sck).length := by
        have limit : maxPeers + 3 = maxPolls := rfl
        omega
      simp only [read_bind, serving.scks, if_neg fits]
      cases poll : io.poll with
      | failed => exact kept t serving
      | timeout => exact kept t serving
      | ready term hup listen =>
          dsimp only
          cases term with
          | true => exact kept t serving
          | false =>
              cases hup with
              | true =>
                  cases io.setup with
                  | ok config => exact kept t ⟨serving.delivery, serving.scks⟩
                  | failed => exact kept t serving
                  | panic => exact trivial
              | false =>
                  have served := servePolled_room listen serving few ok.whole ?_
                    (polls t (atPoll_eq_some.mpr ⟨_, ended⟩)) ?_
                  · exact meets_bind served fun _ _ holds => holds
                  · intro sck accept peer member
                    have sckMember := List.mem_map_of_mem (f := TtyPeerInfo.sck) member
                    rw [serving.scks] at sckMember
                    obtain ⟨old, isOld, same⟩ := List.mem_map.mp sckMember
                    rw [← same]
                    exact ok.unused sck accept old isOld
                  · intro listens accepts full
                    rw [width] at full ⊢
                    apply leaves _ full
                    subst listens
                    simp only [LoopIo.accepts, poll, accepts]

theorem step_roomy (lib : ParseLib) (d : Daemon) (input : Input)
    (ok : (KernelOk d input ∧ PollOk lib d input) ∧ LeavesRoom d input) (roomy : Roomy d) :
    Roomy (d.step lib input) := by
  refine ⟨step_delivery lib d input ok.1.1 roomy.delivery, ?_⟩
  obtain ⟨s, ctl, clock⟩ := d
  cases ctl <;> cases input <;> try exact roomy.room
  case restart.start io =>
    have within : Within maxPeers s := roomy.room nofun
    intro _
    unfold Daemon.step
    dsimp only
    split
    · have kept := (processTtyInfo_keeps io s ⟨roomy.delivery, rfl⟩).within
      rw [List.length_map] at kept
      exact Nat.le_trans kept within
    · exact within
  case loop.loop io =>
    have within : Within maxPeers s := roomy.room nofun
    have passed := ttyMainLoop_room lib ok.1.1 ok.1.2 ok.2 roomy.delivery within
    unfold Daemon.step
    dsimp only
    cases ended : ttyMainLoop lib io s with
    | ok left t =>
        rw [ended] at passed
        exact fun _ => passed
    | error reason t =>
        rw [ended] at passed
        exact fun _ => passed
    | panic t => exact fun running => absurd rfl running
  case sleep.wake time term =>
    exact fun _ => roomy.room (by simp)

/-- Every pass of a run in which full tables are left before they are entered
writes its entries inside the table. -/
theorem polls_inside (lib : ParseLib) (config : Config) (clock : Int) (inputs : List Input)
    (kernel : Runs.Admits (Daemon.step lib) KernelOk (Daemon.initial config clock) inputs)
    (polls : Runs.Admits (Daemon.step lib) (PollOk lib) (Daemon.initial config clock) inputs)
    (room : Runs.Admits (Daemon.step lib) LeavesRoom (Daemon.initial config clock) inputs) :
    Runs.Admits (Daemon.step lib) (TableFits lib) (Daemon.initial config clock) inputs := by
  have start : Roomy (Daemon.initial config clock) :=
    ⟨initial_delivery config, fun _ => Nat.zero_le _⟩
  apply ((kernel.and polls).and room).derive (step_roomy lib) _ start
  intro d input ok roomy
  cases input with
  | start io => exact trivial
  | wake time term => exact trivial
  | loop io =>
      intro running t reached
      have within := roomy.room (by rw [running]; decide)
      have kept := scheduleReads_keeps lib ok.1.1.fresh ⟨roomy.delivery, rfl⟩
      obtain ⟨value, ended⟩ := atPoll_eq_some.mp reached
      rw [ended] at kept
      have same : Within _ t := Serving.within kept
      have limit : maxPeers + 3 = maxPolls := rfl
      rw [Within, List.length_map] at same
      rw [Within] at within
      rw [pollCount]
      omega

instance (nodes : List Nat) (s : Sys) : Decidable (Fresh nodes s) :=
  decidable_of_iff (nodes.Nodup ∧ (∀ address ∈ nodes, s.heap.lookup address = none) ∧
    s.info.peerList.length ≤ nodes.length)
    ⟨fun ⟨distinct, free, enough⟩ => ⟨distinct, free, enough⟩,
      fun fresh => ⟨fresh.distinct, fresh.free, fresh.enough⟩⟩

instance (s : Sys) (io : LoopIo) : Decidable (LoopOk s io) :=
  decidable_of_iff ((∀ sck ∈ io.accept, ∀ peer ∈ s.info.peerList, peer.sck ≠ sck) ∧
    Fresh io.check.read.nodes s ∧ io.alloc = .whole)
    ⟨fun ⟨unused, fresh, whole⟩ => ⟨unused, fresh, whole⟩,
      fun ok => ⟨ok.unused, ok.fresh, ok.whole⟩⟩

instance (d : Daemon) : ∀ input, Decidable (KernelOk d input)
  | .start _ | .wake _ _ => .isTrue trivial
  | .loop io => inferInstanceAs (Decidable (LoopOk d.sys io))

/-- No devices: nothing is ever read. -/
def noDevices : Config := { listMstime := 1000 }

/-- A pass in which a client connects, with these answers of the peers. -/
def acceptingFrom (peers : List PeerIo) (sck : Int) : Input :=
  .loop { check := { checkAt 1000 with read := { answered 1000 1020 with nodes := List.range 32 } },
          poll := .ready false false true, setup := .failed, accept := some sck, peers := peers }

def accepting (sck : Int) : Input := acceptingFrom [] sck

/-- So many clients connect, one after the other. -/
def crowd : Nat → List Input
  | 0 => [startUp]
  | count + 1 => crowd count ++ [accepting count]

/-- The table is full; then the second peer hangs up while one more client connects, and the
next pass polls a full table again. -/
def fullCrowd : List Input :=
  crowd 29 ++ [acceptingFrom [⟨false, false, 0, 0⟩, ⟨true, false, 0, 0⟩] 29,
    acceptingFrom [⟨true, false, 0, 0⟩] 30]

theorem polls_inside_crowd :
    Runs.Admits (Daemon.step Parse.reference) (TableFits Parse.reference)
        (Daemon.initial noDevices 0) fullCrowd ∧
      ((Daemon.initial noDevices 0).run Parse.reference (crowd 29)).sys.info.peerList.length = 29 ∧
      ((Daemon.initial noDevices 0).run Parse.reference fullCrowd).sys.info.peerList.map
        TtyPeerInfo.sck = 30 :: 29 :: (List.range 27).map fun sck => Int.ofNat (sck + 2) := by
  refine ⟨polls_inside _ _ _ _ ?_ ?_ ?_, ?_, ?_⟩
  · decide +kernel
  · decide +kernel
  · decide +kernel
  · decide +kernel
  · decide +kernel

/-- The pass after the thirtieth client would write a 33rd entry. -/
theorem polls_not_inside_crowd :
    Runs.Admits (Daemon.step Parse.reference) KernelOk (Daemon.initial noDevices 0) (crowd 31) ∧
      Runs.Admits (Daemon.step Parse.reference) (PollOk Parse.reference)
        (Daemon.initial noDevices 0) (crowd 31) ∧
      ¬ Runs.Admits (Daemon.step Parse.reference) (TableFits Parse.reference)
        (Daemon.initial noDevices 0) (crowd 31) := by
  decide +kernel

end RenogyX10.TtyReader
