import RenogyX10.TtyReader.PollTable
import RenogyX10.TtyReader.Rows

set_option autoImplicit false

namespace RenogyX10.TtyReader

open Keyed LinkedQueue Parse Proc

/-- Nothing is reported. -/
def PeerIo.silent : PeerIo := ⟨false, false, 0, 0⟩

/-- Each item with what poll, recv and send answer for it, as far as there are answers. -/
def entriesOf {α : Type} : List α → List PeerIo → List (α × PeerIo)
  | [], _ => []
  | item :: rest, [] => (item, .silent) :: entriesOf rest []
  | item :: rest, io :: later => (item, io) :: entriesOf rest later

/-- A recv from the peer returns less than 1, or an attempted send to it fails. -/
def PeerIo.fails (io : PeerIo) (peer : TtyPeerInfo) : Bool :=
  (io.pollIn && decide (io.recv < 1)) ||
    (io.pollOut && peer.send.head.isSome && decide (io.sent = 0))

/-- The pointers of a queue after a send: a head node is unlinked when all of it is taken. -/
def PeerIo.drain (io : PeerIo) (heap : Heap SendT) (ends : Ends) : Ends :=
  match ends.head with
  | none => ends
  | some address =>
      match heap.lookup address with
      | none => ends
      | some node =>
          if io.pollOut && decide (node.value.unsent.length ≤ io.sent) then
            (dropHead heap ends address node).2
          else ends

/-- The peer when its entry has been served. -/
def PeerIo.serve (io : PeerIo) (heap : Heap SendT) (peer : TtyPeerInfo) : TtyPeerInfo :=
  { peer with delme := peer.delme || io.fails peer, send := io.drain heap peer.send }

/-- The descriptors that were closed. -/
def closedIn : List Event → List Int
  | [] => []
  | .close sck :: older => sck :: closedIn older
  | _ :: older => closedIn older

theorem closedIn_append (later older : List Event) :
    closedIn (later ++ older) = closedIn later ++ closedIn older := by
  induction later with
  | nil => rfl
  | cons event later ih =>
      cases event with
      | close sck => exact congrArg (sck :: ·) ih
      | _ => exact ih

/-- The descriptors among the `sck` fields; a peer whose `init` failed has none. -/
def descriptors (scks : List Int) : List Int := scks.filter fun sck => decide (0 ≤ sck)

theorem descriptors_append (front back : List Int) :
    descriptors (front ++ back) = descriptors front ++ descriptors back :=
  List.filter_append _ _

theorem not_mem_of_descriptors {before after : List Int} {sck : Int} (isOpen : 0 ≤ sck)
    (distinct : (descriptors (before ++ sck :: after)).Nodup) : sck ∉ before := by
  rw [descriptors_append, List.nodup_append] at distinct
  intro earlier
  have first : sck ∈ descriptors before := List.mem_filter.mpr ⟨earlier, decide_eq_true isOpen⟩
  have again : sck ∈ descriptors (sck :: after) :=
    List.mem_filter.mpr ⟨List.mem_cons_self, decide_eq_true isOpen⟩
  exact distinct.2.2 sck first sck again rfl

theorem PeerIo.drain_quiet {io : PeerIo} (quiet : io.pollOut = false) (heap : Heap SendT)
    (ends : Ends) : io.drain heap ends = ends := by
  unfold PeerIo.drain
  split
  · rfl
  · split
    · rfl
    · rw [quiet, Bool.false_and, if_neg Bool.false_ne_true]

theorem PeerIo.drain_writable {io : PeerIo} {heap : Heap SendT} {ends : Ends} {address : Nat}
    {node : Node SendT} (writable : io.pollOut = true) (starts : ends.head = some address)
    (allocated : heap.lookup address = some node) :
    io.drain heap ends =
      if node.value.unsent.length ≤ io.sent then (dropHead heap ends address node).2 else ends := by
  simp only [PeerIo.drain, starts, allocated, writable, Bool.true_and, decide_eq_true_eq]

theorem PeerIo.serve_stays {io : PeerIo} {peer : TtyPeerInfo} (stays : io.fails peer = false)
    (heap : Heap SendT) : io.serve heap peer = { peer with send := io.drain heap peer.send } := by
  rw [PeerIo.serve, stays, Bool.or_false]

theorem PeerIo.serve_silent (heap : Heap SendT) (peer : TtyPeerInfo) :
    PeerIo.silent.serve heap peer = peer := by
  unfold PeerIo.serve
  rw [PeerIo.drain_quiet rfl]
  show { peer with delme := peer.delme || false } = peer
  rw [Bool.or_false]

theorem PeerIo.serve_congr (io : PeerIo) {heap other : Heap SendT} {peer : TtyPeerInfo}
    (same : ∀ address, peer.send.head = some address → other.lookup address = heap.lookup address) :
    io.serve other peer = io.serve heap peer := by
  unfold PeerIo.serve PeerIo.drain
  cases starts : peer.send.head with
  | none => rfl
  | some address =>
      dsimp only
      rw [same address starts]
      rfl

/-- What an entry does to the queue of its row. -/
structure Drew (heap other : Heap SendT) (entry : (TtyPeerInfo × Cells) × PeerIo)
    (next : TtyPeerInfo × Cells) : Prop where
  peer : next.1 = entry.2.serve heap entry.1.1
  inside : addresses next.2 ⊆ addresses entry.1.2
  freed : ∀ address ∈ addresses entry.1.2, address ∉ addresses next.2 → other.lookup address = none
  quiet : entry.2.pollOut = false → next.2 = entry.1.2

/-- What the entries of `table` lead to, for the peers between `front` and `back`. -/
structure Drawn (front back : Rows) (table : List ((TtyPeerInfo × Cells) × PeerIo)) (after : Rows)
    (s t : Sys) : Prop where
  peers : t.info.peerList = (front ++ after ++ back).map Prod.fst
  shelved : Shelved t.heap (front ++ after ++ back)
  rows : List.Forall₂ (Drew s.heap t.heap) table after
  frame : ∀ address ∉ nodesOf (table.map Prod.fst), t.heap.lookup address = s.heap.lookup address
  sends : ∃ sends, t.trace = sends ++ s.trace ∧ closedIn sends = []

variable {front back : Rows} {row : TtyPeerInfo × Cells} {s t : Sys}

theorem peer_at (peers : s.info.peerList = (front ++ row :: back).map Prod.fst) :
    s.info.peerList[front.length]? = some row.1 := by
  rw [peers, List.getElem?_map, List.getElem?_append_right (Nat.le_refl _), Nat.sub_self]
  rfl

theorem set_at (front back : Rows) (row next : TtyPeerInfo × Cells) :
    ((front ++ row :: back).map Prod.fst).set front.length next.1 =
      (front ++ next :: back).map Prod.fst := by
  rw [← List.map_set, List.set_append_right _ _ (Nat.le_refl _), Nat.sub_self]
  rfl

theorem getPeerBySck_at (peers : s.info.peerList = (front ++ row :: back).map Prod.fst)
    (first : ∀ other ∈ front, other.1.sck ≠ row.1.sck) :
    getPeerBySck row.1.sck s = .ok front.length s := by
  unfold getPeerBySck
  have absent : (front.map Prod.fst).findIdx? (fun peer => peer.sck == row.1.sck) = none := by
    apply List.findIdx?_eq_none_iff.mpr
    intro peer member
    obtain ⟨other, isOther, rfl⟩ := List.mem_map.mp member
    exact beq_false_of_ne (first other isOther)
  have found :
      s.info.peerList.findIdx? (fun peer => peer.sck == row.1.sck) = some front.length := by
    rw [peers, List.map_append, List.findIdx?_append, absent, List.map_cons, List.findIdx?_cons,
      beq_self_eq_true, if_pos rfl, List.length_map, Option.map_some, Option.none_or, Nat.zero_add]
  rw [read_bind, found]
  rfl

theorem setDelme_at (peers : s.info.peerList = (front ++ row :: back).map Prod.fst) :
    (setDelme front.length s).info.peerList =
      (front ++ ({ row.1 with delme := true }, row.2) :: back).map Prod.fst := by
  rw [setDelme_eq (peer_at peers)]
  show s.info.peerList.set front.length _ = _
  rw [peers]
  exact set_at front back row ({ row.1 with delme := true }, row.2)

/-- One entry, from what it makes of the queue of its row. -/
theorem Drawn.of_queue {io : PeerIo} {queue : Cells}
    (shelved : Shelved s.heap (front ++ row :: back))
    (peers : t.info.peerList = (front ++ (io.serve s.heap row.1, queue) :: back).map Prod.fst)
    (represents : Represents t.heap (io.drain s.heap row.1.send) queue) (backlog : Backlog queue)
    (inside : addresses queue ⊆ addresses row.2)
    (freed : ∀ address ∈ addresses row.2, address ∉ addresses queue → t.heap.lookup address = none)
    (frame : ∀ address ∉ addresses row.2, t.heap.lookup address = s.heap.lookup address)
    (quiet : io.pollOut = false → queue = row.2)
    (sends : ∃ sends, t.trace = sends ++ s.trace ∧ closedIn sends = []) :
    Drawn front back [(row, io)] [(io.serve s.heap row.1, queue)] s t := by
  refine ⟨?_, ?_, .cons ⟨rfl, inside, freed, quiet⟩ .nil, ?_, sends⟩
  · rw [peers, List.append_assoc, List.singleton_append]
  · rw [List.append_assoc, List.singleton_append]
    apply shelved.replace represents backlog
    intro address elsewhere
    have outside : address ∉ addresses row.2 := fun present => shelved.outside present elsewhere
    exact ⟨frame address outside, fun present => outside (inside present)⟩
  · intro address outside
    apply frame address
    intro present
    exact outside (mem_nodesOf (List.mem_singleton_self row) present)

theorem Drawn.of_mark {io : PeerIo} (shelved : Shelved s.heap (front ++ row :: back))
    (peers : t.info.peerList = (front ++ (io.serve s.heap row.1, row.2) :: back).map Prod.fst)
    (undrained : io.drain s.heap row.1.send = row.1.send) (heap : t.heap = s.heap)
    (trace : t.trace = s.trace) :
    Drawn front back [(row, io)] [(io.serve s.heap row.1, row.2)] s t := by
  have member : row ∈ front ++ row :: back := List.mem_append_right front List.mem_cons_self
  apply Drawn.of_queue shelved peers
  · rw [undrained, heap]
    exact shelved.queue row member
  · exact shelved.backlog row member
  · exact fun address present => present
  · exact fun address present gone => absurd present gone
  · exact fun address _ => by rw [heap]
  · exact fun _ => rfl
  · exact ⟨[], trace, rfl⟩

theorem advance_drawn {io : PeerIo} (peers : s.info.peerList = (front ++ row :: back).map Prod.fst)
    (shelved : Shelved s.heap (front ++ row :: back)) {address : Nat} {node : Node SendT}
    (starts : row.1.send.head = some address) (allocated : s.heap.lookup address = some node)
    (stays : io.fails row.1 = false) (writable : io.pollOut = true) (bytes : List UInt8) :
    ∃ next, Drawn front back [(row, io)] [next] s
      (advance front.length address (min io.sent node.value.unsent.length) node row.1
        (s.emit (.send row.1.sck bytes))) := by
  have member : row ∈ front ++ row :: back := List.mem_append_right front List.mem_cons_self
  obtain ⟨rest, isQueue, finished, unfinished⟩ := (shelved.backlog row member).sent
    (shelved.queue row member) starts allocated (min io.sent node.value.unsent.length) rfl
  have isOpen : node.value.sent < node.value.outDataSlice.length :=
    (shelved.backlog row member).open_nodes (address, node.value) (isQueue ▸ List.mem_cons_self)
  have width : node.value.unsent.length = node.value.outDataSlice.length - node.value.sent :=
    List.length_drop
  have drain := PeerIo.drain_writable writable starts allocated
  have unmarked := PeerIo.serve_stays stays s.heap
  unfold advance
  dsimp only
  split
  case isTrue whole =>
    obtain ⟨queue, backlog, _⟩ := finished whole
    have drained : io.drain s.heap row.1.send = (dropHead s.heap row.1.send address node).2 := by
      rw [drain, if_pos (by omega)]
    refine ⟨(_, rest), Drawn.of_queue shelved ?_ ?_ backlog ?_ ?_ ?_ ?_ ?_⟩
    · show s.info.peerList.set front.length _ = _
      rw [peers, unmarked, drained]
      exact set_at front back row ({ row.1 with send := _ }, rest)
    · rw [drained]
      exact queue
    · rw [isQueue]
      exact fun other later => List.mem_cons_of_mem address later
    · intro other present gone
      rw [isQueue, addresses_cons, List.mem_cons] at present
      rcases present with rfl | later
      · exact AList.lookup_erase _ _
      · exact absurd later gone
    · intro other outside
      rw [isQueue, addresses_cons, List.mem_cons, not_or] at outside
      exact AList.lookup_erase_ne outside.1
    · exact fun unwritable => absurd (writable.symm.trans unwritable) Bool.noConfusion
    · exact ⟨[.send row.1.sck bytes], rfl, rfl⟩
  case isFalse part =>
    obtain ⟨queue, backlog, _⟩ := unfinished (Nat.lt_of_not_le part)
    have undrained : io.drain s.heap row.1.send = row.1.send := by
      rw [drain, if_neg (by omega)]
    have sameNodes : addresses row.2 = address :: addresses rest := by rw [isQueue, addresses_cons]
    refine ⟨(_, (address, _) :: rest), Drawn.of_queue shelved ?_ ?_ backlog ?_ ?_ ?_ ?_ ?_⟩
    · show s.info.peerList = _
      rw [peers, unmarked, undrained, List.map_append, List.map_append]
      rfl
    · rw [undrained]
      exact queue
    · rw [sameNodes]
      exact fun other present => present
    · rw [sameNodes]
      exact fun other present gone => absurd present gone
    · intro other outside
      rw [sameNodes, List.mem_cons, not_or] at outside
      exact setValue_lookup_ne _ _ outside.1
    · exact fun unwritable => absurd (writable.symm.trans unwritable) Bool.noConfusion
    · exact ⟨[.send row.1.sck bytes], rfl, rfl⟩

theorem sendHead_drawn {io : PeerIo} (peers : s.info.peerList = (front ++ row :: back).map Prod.fst)
    (shelved : Shelved s.heap (front ++ row :: back)) (unread : io.pollIn = false)
    (writable : io.pollOut = true) :
    ∃ t next, sendHead front.length io.sent s = .ok () t ∧
      Drawn front back [(row, io)] [next] s t := by
  have member : row ∈ front ++ row :: back := List.mem_append_right front List.mem_cons_self
  unfold sendHead
  simp only [read_bind, id_eq, peer_at peers, orAbort_some, pure_bind_run]
  cases starts : row.1.send.head with
  | none =>
      have undrained : io.drain s.heap row.1.send = row.1.send := by
        simp only [PeerIo.drain, starts]
      have unmarked : io.serve s.heap row.1 = row.1 := by
        simp only [PeerIo.serve, PeerIo.fails, unread, starts, undrained, Option.isSome_none,
          Bool.false_and, Bool.and_false, Bool.or_false]
      refine ⟨s, _, rfl, Drawn.of_mark shelved ?_ undrained rfl rfl⟩
      rw [unmarked]
      exact peers
  | some address =>
      obtain ⟨value, behind, rest, isQueue, allocated⟩ :=
        (shelved.queue row member).head_node starts
      have isOpen : value.sent < value.outDataSlice.length :=
        (shelved.backlog row member).open_nodes (address, value) (isQueue ▸ List.mem_cons_self)
      have width : value.unsent.length = value.outDataSlice.length - value.sent := List.length_drop
      simp only [allocated, SendT.outSlice, Nat.le_of_lt isOpen, ↓reduceIte, orAbort_some,
        pure_bind_run, ite_run]
      by_cases taken : io.sent = 0
      · have nothing : ¬ 0 < min io.sent value.unsent.length := by omega
        have undrained : io.drain s.heap row.1.send = row.1.send := by
          have left : ¬ value.unsent.length ≤ io.sent := by omega
          simp only [PeerIo.drain, starts, allocated, left, decide_false, Bool.and_false,
            Bool.false_eq_true, ↓reduceIte]
        have marked : io.serve s.heap row.1 = { row.1 with delme := true } := by
          simp only [PeerIo.serve, PeerIo.fails, unread, writable, starts, taken, undrained,
            Option.isSome_some, decide_true, Bool.and_true, Bool.or_true]
        refine ⟨setDelme front.length s, _, if_neg nothing,
          Drawn.of_mark shelved ?_ undrained ?_ ?_⟩
        · rw [marked]
          exact setDelme_at peers
        · rw [setDelme_eq (peer_at peers)]
          rfl
        · rw [setDelme_eq (peer_at peers)]
          rfl
      · have something : 0 < min io.sent value.unsent.length := by omega
        have stays : io.fails row.1 = false := by
          simp only [PeerIo.fails, unread, taken, decide_false, Bool.and_false, Bool.false_and,
            Bool.or_false]
        obtain ⟨next, drawn⟩ := advance_drawn peers shelved starts allocated stays writable
          (value.unsent.take (min io.sent value.unsent.length))
        exact ⟨_, next, if_pos something, drawn⟩

/-- The peer of a row once its recv has returned. -/
def PeerIo.receive (io : PeerIo) (peer : TtyPeerInfo) : TtyPeerInfo :=
  { peer with delme := peer.delme || (io.pollIn && decide (io.recv < 1)) }

theorem receive_at {io : PeerIo} (peers : s.info.peerList = (front ++ row :: back).map Prod.fst)
    (first : io.pollIn = true → ∀ other ∈ front, other.1.sck ≠ row.1.sck) :
    ∃ t, Proc.when io.pollIn (do
        let index ← getPeerBySck row.1.sck
        Proc.when (io.recv < 1) (Proc.modify (setDelme index))) s = .ok () t ∧
      t.info.peerList = (front ++ (io.receive row.1, row.2) :: back).map Prod.fst ∧
      t.heap = s.heap ∧ t.trace = s.trace := by
  have untouched (fine : (io.pollIn && decide (io.recv < 1)) = false) :
      s.info.peerList = (front ++ (io.receive row.1, row.2) :: back).map Prod.fst := by
    rw [peers, PeerIo.receive, fine, Bool.or_false]
  by_cases readable : io.pollIn = true
  · rw [when_true _ readable, bind_of_ok (getPeerBySck_at peers (first readable))]
    by_cases gone : io.recv < 1
    · have marked : io.receive row.1 = { row.1 with delme := true } := by
        simp only [PeerIo.receive, readable, gone, decide_true, Bool.and_self, Bool.or_true]
      refine ⟨setDelme front.length s, ?_, ?_, ?_, ?_⟩
      · rw [when_true _ gone]
        rfl
      · rw [marked]
        exact setDelme_at peers
      · rw [setDelme_eq (peer_at peers)]
        rfl
      · rw [setDelme_eq (peer_at peers)]
        rfl
    · rw [when_false _ gone]
      exact ⟨s, rfl, untouched (by rw [decide_eq_false gone, Bool.and_false]), rfl, rfl⟩
  · rw [when_false _ readable]
    exact ⟨s, rfl, untouched (by rw [Bool.eq_false_iff.mpr readable, Bool.false_and]), rfl, rfl⟩

/-- One entry: its descriptor leads to the peer it was polled for. -/
theorem checkPeer_drawn {io : PeerIo}
    (peers : s.info.peerList = (front ++ row :: back).map Prod.fst)
    (shelved : Shelved s.heap (front ++ row :: back))
    (first : io.pollIn = true ∨ io.pollOut = true → ∀ other ∈ front, other.1.sck ≠ row.1.sck) :
    ∃ t next, checkPeer row.1.sck io s = .ok () t ∧ Drawn front back [(row, io)] [next] s t := by
  obtain ⟨u, ran, received, heap, trace⟩ := receive_at peers fun readable => first (.inl readable)
  unfold checkPeer
  rw [bind_of_ok ran]
  by_cases writable : io.pollOut = true
  · have stillShelved : Shelved u.heap (front ++ (io.receive row.1, row.2) :: back) := by
      rw [heap]
      exact shelved.replace_same rfl
    have unread : { io with pollIn := false }.pollIn = false := rfl
    obtain ⟨t, next, sent, drawn⟩ := sendHead_drawn received stillShelved unread writable
    refine ⟨t, next, ?_, ?_⟩
    · rw [when_true _ writable]
      have found := getPeerBySck_at received (first (.inr writable))
      have same : getPeerBySck row.1.sck u = .ok front.length u := found
      rw [bind_of_ok same]
      exact sent
    · cases drawn.rows with
      | cons drew rest =>
          cases rest
          refine ⟨drawn.peers, drawn.shelved, .cons ⟨?_, drew.inside, drew.freed, drew.quiet⟩ .nil,
            ?_, ?_⟩
          · rw [drew.peer, heap]
            simp only [PeerIo.serve, PeerIo.fails, PeerIo.receive, PeerIo.drain, Bool.false_and,
              Bool.false_or, Bool.or_assoc]
          · intro address outside
            rw [← heap]
            exact drawn.frame address outside
          · rw [← trace]
            exact drawn.sends
  · rw [when_false _ writable]
    have quiet : io.pollOut = false := Bool.eq_false_iff.mpr writable
    have undrained : io.drain s.heap row.1.send = row.1.send := PeerIo.drain_quiet quiet _ _
    have unsent : io.serve s.heap row.1 = io.receive row.1 := by
      simp only [PeerIo.serve, PeerIo.fails, PeerIo.receive, quiet, undrained, Bool.false_and,
        Bool.or_false]
    refine ⟨u, _, rfl, Drawn.of_mark shelved ?_ undrained heap trace⟩
    rw [unsent]
    exact received

/-- An entry has no effect on what the entries behind it do. -/
theorem Drawn.served_behind {io : PeerIo} {next : TtyPeerInfo × Cells} {u : Sys}
    {table : List ((TtyPeerInfo × Cells) × PeerIo)}
    (shelved : Shelved s.heap (front ++ row :: table.map Prod.fst))
    (one : Drawn front (table.map Prod.fst) [(row, io)] [next] s u) :
    ∀ entry ∈ table, entry.2.serve u.heap entry.1.1 = entry.2.serve s.heap entry.1.1 := by
  intro entry member
  have isRow : entry.1 ∈ table.map Prod.fst := List.mem_map_of_mem member
  apply PeerIo.serve_congr
  intro address starts
  apply one.frame
  have queue : Represents s.heap entry.1.1.send entry.1.2 := by
    apply shelved.queue
    apply List.mem_append_right front
    exact List.mem_cons_of_mem row isRow
  obtain ⟨_, _, _, isQueue, _⟩ := queue.head_node starts
  have present : address ∈ addresses entry.1.2 := by
    rw [isQueue]
    exact List.mem_cons_self
  intro elsewhere
  rw [List.map_singleton, nodesOf_cons, List.mem_append] at elsewhere
  rcases elsewhere with here | nowhere
  · apply shelved.outside here
    rw [nodesOf_append]
    exact List.mem_append_right _ (mem_nodesOf isRow present)
  · cases nowhere

theorem Drawn.cons {io : PeerIo} {next : TtyPeerInfo × Cells} {after : Rows} {u : Sys}
    {table : List ((TtyPeerInfo × Cells) × PeerIo)}
    (shelved : Shelved s.heap (front ++ row :: table.map Prod.fst))
    (one : Drawn front (table.map Prod.fst) [(row, io)] [next] s u)
    (others : Drawn (front ++ [next]) [] table after u t) :
    Drawn front [] ((row, io) :: table) (next :: after) s t := by
  have apart (address : Nat) (present : address ∈ addresses row.2) :
      address ∉ nodesOf (table.map Prod.fst) := by
    have outside := shelved.outside present
    rw [nodesOf_append, List.mem_append, not_or] at outside
    exact outside.2
  have served := one.served_behind shelved
  refine ⟨?_, ?_, ?_, ?_, ?_⟩
  · rw [others.peers, List.append_assoc, List.append_assoc, List.append_assoc]
    rfl
  · have later := others.shelved
    rwa [List.append_assoc front] at later
  · cases one.rows with
    | cons drew rest =>
        refine .cons ⟨drew.peer, drew.inside, ?_, drew.quiet⟩ ?_
        · intro address present gone
          rw [others.frame address (apart address present)]
          exact drew.freed address present gone
        · have both := (List.forall₂_and_left _ _).mpr ⟨served, others.rows⟩
          exact both.imp fun entry last ⟨same, drew⟩ =>
            ⟨drew.peer.trans same, drew.inside, drew.freed, drew.quiet⟩
  · intro address outside
    rw [List.map_cons, nodesOf_cons, List.mem_append, not_or] at outside
    rw [others.frame address outside.2]
    apply one.frame
    rw [List.map_singleton, nodesOf_cons, List.mem_append, not_or]
    exact ⟨outside.1, List.not_mem_nil⟩
  · obtain ⟨first, isFirst, firstOpen⟩ := one.sends
    obtain ⟨later, isLater, laterOpen⟩ := others.sends
    refine ⟨later ++ first, ?_, ?_⟩
    · rw [isLater, isFirst, List.append_assoc]
    · rw [closedIn_append, laterOpen, firstOpen]
      rfl

@[simp] theorem entriesOf_fst {α : Type} (items : List α) (answers : List PeerIo) :
    (entriesOf items answers).map Prod.fst = items := by
  induction items generalizing answers with
  | nil => rfl
  | cons item rest ih => cases answers <;> exact congrArg (item :: ·) (ih _)

theorem entriesOf_map {α β : Type} (f : α → β) (items : List α) (answers : List PeerIo) :
    entriesOf (items.map f) answers =
      (entriesOf items answers).map fun entry => (f entry.1, entry.2) := by
  induction items generalizing answers with
  | nil => rfl
  | cons item rest ih => cases answers <;> exact congrArg (_ :: ·) (ih _)

theorem Drawn.unanswered {rows : Rows} (peers : s.info.peerList = (front ++ rows).map Prod.fst)
    (shelved : Shelved s.heap (front ++ rows)) :
    Drawn front [] (entriesOf rows []) rows s s := by
  rw [← List.append_nil (front ++ rows)] at peers shelved
  refine ⟨peers, shelved, ?_, fun _ _ => rfl, ⟨[], rfl, rfl⟩⟩
  clear peers shelved
  induction rows with
  | nil => exact .nil
  | cons row rest ih =>
      refine .cons ⟨(PeerIo.serve_silent s.heap row.1).symm, ?_, ?_, fun _ => rfl⟩ ih
      · exact fun address present => present
      · exact fun address present gone => absurd present gone

/-- Poll reports nothing on what is no descriptor. -/
def Silent (polled : List (Int × PeerIo)) : Prop :=
  ∀ entry ∈ polled, entry.1 < 0 → entry.2.pollIn = false ∧ entry.2.pollOut = false

theorem first_of_distinct {io : PeerIo}
    (distinct : (descriptors ((front ++ row :: back).map fun row => row.1.sck)).Nodup)
    (quiet : row.1.sck < 0 → io.pollIn = false ∧ io.pollOut = false)
    (reported : io.pollIn = true ∨ io.pollOut = true) :
    ∀ other ∈ front, other.1.sck ≠ row.1.sck := by
  have isOpen : 0 ≤ row.1.sck := by
    by_contra negative
    obtain ⟨unread, unwritable⟩ := quiet (Int.not_le.mp negative)
    rw [unread, unwritable, or_self] at reported
    cases reported
  intro other member same
  rw [List.map_append, List.map_cons] at distinct
  exact not_mem_of_descriptors isOpen distinct (List.mem_map.mpr ⟨other, member, same⟩)

/-- The entries of the table, one after the other. -/
theorem checkPolled_drawn {rows : Rows} {answers : List PeerIo}
    (peers : s.info.peerList = (front ++ rows).map Prod.fst)
    (shelved : Shelved s.heap (front ++ rows))
    (distinct : (descriptors ((front ++ rows).map fun row => row.1.sck)).Nodup)
    (silent : Silent ((rows.map fun row => row.1.sck).zip answers)) :
    ∃ t after, checkPolled ((rows.map fun row => row.1.sck).zip answers) s = .ok () t ∧
      Drawn front [] (entriesOf rows answers) after s t := by
  induction rows generalizing front answers s with
  | nil => exact ⟨s, [], rfl, .unanswered peers shelved⟩
  | cons row rest ih =>
      cases answers with
      | nil => exact ⟨s, row :: rest, rfl, .unanswered peers shelved⟩
      | cons io later =>
          obtain ⟨u, next, ran, one⟩ := checkPeer_drawn peers shelved
            (first_of_distinct distinct (silent (row.1.sck, io) List.mem_cons_self))
          have sameSck : next.1.sck = row.1.sck := by
            cases one.rows with
            | cons drew _ => rw [drew.peer, PeerIo.serve]
          have scks : (front ++ [next] ++ rest).map (fun row => row.1.sck) =
              (front ++ row :: rest).map fun row => row.1.sck := by
            simp only [List.map_append, List.map_cons, List.append_assoc, List.cons_append,
              List.nil_append, sameSck]
          obtain ⟨t, after, finished, others⟩ := ih one.peers one.shelved (scks ▸ distinct)
            fun entry member => silent entry (List.mem_cons_of_mem _ member)
          refine ⟨t, next :: after, ?_, ?_⟩
          · show checkPolled ((row.1.sck, io) :: (rest.map fun row => row.1.sck).zip later) s = _
            rw [checkPolled, bind_of_ok ran]
            exact finished
          · apply Drawn.cons _ _ others
            · rw [entriesOf_fst]
              exact shelved
            · rw [entriesOf_fst]
              exact one

end RenogyX10.TtyReader
