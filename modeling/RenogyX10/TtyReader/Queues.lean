import RenogyX10.TtyReader.Peers

set_option autoImplicit false

/- The send queues of all peers at once: each peer's pointers describe its own
list of nodes, and no node is on two lists. Queues are named by the descriptor
of their peer, so they do not move when the peer list is reordered. -/
namespace RenogyX10.TtyReader

open Keyed LinkedQueue

abbrev Cells := List (Nat × SendT)

/-- The unsent part of the head node, then the nodes behind it. -/
def unsentBytes : Cells → List UInt8
  | [] => []
  | cell :: rest => cell.2.unsent ++ rest.flatMap fun later => later.2.outDataSlice

/-- Every node has bytes left, and only the head node has any sent. -/
structure Backlog (cells : Cells) : Prop where
  open_nodes : ∀ cell ∈ cells, cell.2.sent < cell.2.outDataSlice.length
  untouched : ∀ cell ∈ cells.tail, cell.2.sent = 0

structure Linked (heap : Heap SendT) (peers : List TtyPeerInfo) (cells : Int → Cells) : Prop where
  scks : (peers.map TtyPeerInfo.sck).Nodup
  queue : ∀ peer ∈ peers, Represents heap peer.send (cells peer.sck)
  apart : ∀ peer ∈ peers, ∀ other ∈ peers, other.sck ≠ peer.sck →
    ∀ address ∈ addresses (cells other.sck), address ∉ addresses (cells peer.sck)
  backlog : ∀ peer ∈ peers, Backlog (cells peer.sck)

theorem Backlog.nil : Backlog [] := by
  refine ⟨?_, ?_⟩ <;> intro cell member <;> cases member

theorem unsent_of_zero {node : SendT} (zero : node.sent = 0) : node.unsent = node.outDataSlice := by
  rw [SendT.unsent, zero, List.drop_zero]

theorem unsentBytes_append (cells : Cells) (address : Nat) (frame : List UInt8) :
    unsentBytes (cells ++ [(address, ⟨0, frame⟩)]) = unsentBytes cells ++ frame := by
  cases cells with
  | nil => simp [unsentBytes, SendT.unsent]
  | cons cell rest => simp [unsentBytes]

theorem Backlog.append {cells : Cells} (backlog : Backlog cells) (address : Nat)
    {frame : List UInt8} (nonempty : 0 < frame.length) :
    Backlog (cells ++ [(address, ⟨0, frame⟩)]) := by
  constructor
  · intro cell member
    rcases List.mem_append.mp member with old | new
    · exact backlog.open_nodes cell old
    · rw [List.mem_singleton.mp new]
      exact nonempty
  · intro cell member
    cases cells with
    | nil => cases member
    | cons first rest =>
        rw [List.cons_append, List.tail_cons] at member
        rcases List.mem_append.mp member with old | new
        · exact backlog.untouched cell old
        · rw [List.mem_singleton.mp new]

theorem Backlog.unsentBytes_tail {cell : Nat × SendT} {rest : Cells}
    (backlog : Backlog (cell :: rest)) :
    unsentBytes rest = rest.flatMap fun later => later.2.outDataSlice := by
  cases rest with
  | nil => rfl
  | cons next later =>
      have whole := unsent_of_zero (backlog.untouched next (by simp))
      rw [unsentBytes, whole, List.flatMap_cons]

theorem Backlog.tail {cell : Nat × SendT} {rest : Cells} (backlog : Backlog (cell :: rest)) :
    Backlog rest := by
  constructor
  · intro later member
    exact backlog.open_nodes later (List.mem_cons_of_mem _ member)
  · intro later member
    exact backlog.untouched later (List.mem_of_mem_tail member)

/-- What sending from the head node leaves of a queue: the node is unlinked when
all of it was sent, and is the first one still when not. -/
theorem Backlog.sent {heap : Heap SendT} {ends : Ends} {cells : Cells} {address : Nat}
    {node : Node SendT} (backlog : Backlog cells) (queue : Represents heap ends cells)
    (starts : ends.head = some address) (allocated : heap.lookup address = some node)
    (sent : Nat) {value : SendT}
    (counted : value = { node.value with sent := node.value.sent + sent }) :
    ∃ rest, cells = (address, node.value) :: rest ∧
      (value.outDataSlice.length ≤ value.sent →
        Represents (dropHead heap ends address node).1 (dropHead heap ends address node).2 rest ∧
        Backlog rest ∧ node.value.unsent.take sent ++ unsentBytes rest = unsentBytes cells) ∧
      (value.sent < value.outDataSlice.length →
        Represents (setValue heap address value) ends ((address, value) :: rest) ∧
        Backlog ((address, value) :: rest) ∧
        node.value.unsent.take sent ++ unsentBytes ((address, value) :: rest) =
          unsentBytes cells) := by
  obtain ⟨first, next, rest, isQueue, lookup⟩ := queue.head_node starts
  rw [allocated] at lookup
  obtain rfl := Option.some.inj lookup
  subst isQueue counted
  refine ⟨rest, rfl, ?_, ?_⟩
  · intro finished
    have whole : first.unsent.length = first.outDataSlice.length - first.sent := List.length_drop
    have all : first.unsent.take sent = first.unsent := by
      apply List.take_of_length_le
      dsimp only at finished
      omega
    refine ⟨dropHead_represents queue allocated, backlog.tail, ?_⟩
    rw [all, unsentBytes, backlog.unsentBytes_tail]
  · intro unfinished
    have rejoined : first.unsent.take sent ++ first.outDataSlice.drop (first.sent + sent) =
        first.unsent := by
      rw [← List.drop_drop]
      exact List.take_append_drop sent first.unsent
    refine ⟨setValue_represents queue _, ⟨?_, backlog.untouched⟩, ?_⟩
    · intro cell isCell
      rcases List.mem_cons.mp isCell with rfl | behind
      · exact unfinished
      · exact backlog.open_nodes cell (List.mem_cons_of_mem _ behind)
    · rw [unsentBytes, unsentBytes, ← List.append_assoc]
      exact congrArg (· ++ _) rejoined

namespace Linked

variable {heap other : Heap SendT} {peers : List TtyPeerInfo} {cells : Int → Cells}

theorem nil (heap : Heap SendT) (cells : Int → Cells) : Linked heap [] cells := by
  refine ⟨List.nodup_nil, ?_, ?_, ?_⟩ <;> intro peer member <;> cases member

/-- Replacing the queue of one peer: the other queues must be left alone, and
the new one must not use their nodes. -/
theorem set (linked : Linked heap peers cells) {index : Nat} {peer fresh : TtyPeerInfo}
    (found : peers[index]? = some peer) (same : fresh.sck = peer.sck) {queue : Cells}
    (represents : Represents other fresh.send queue) (backlog : Backlog queue)
    (frame : ∀ member ∈ peers, member.sck ≠ peer.sck →
      ∀ address ∈ addresses (cells member.sck),
        other.lookup address = heap.lookup address ∧ address ∉ addresses queue) :
    Linked other (peers.set index fresh) (Function.update cells peer.sck queue) := by
  have members : ∀ member ∈ peers.set index fresh,
      member = fresh ∨ (member ∈ peers ∧ member.sck ≠ peer.sck) :=
    fun member isMember => mem_set linked.scks found isMember
  have updated : Function.update cells peer.sck queue fresh.sck = queue := by
    rw [same, Function.update_self]
  have kept : ∀ member : TtyPeerInfo, member.sck ≠ peer.sck →
      Function.update cells peer.sck queue member.sck = cells member.sck :=
    fun member differs => Function.update_of_ne differs _ _
  refine ⟨?_, ?_, ?_, ?_⟩
  · rw [map_set found same]
    exact linked.scks
  · intro member isMember
    rcases members member isMember with rfl | ⟨old, differs⟩
    · rw [updated]
      exact represents
    · rw [kept member differs]
      exact (linked.queue member old).frame fun a present => (frame member old differs a present).1
  · intro first isFirst second isSecond differ address present
    rcases members first isFirst with rfl | ⟨oldFirst, firstDiffers⟩
    · rcases members second isSecond with rfl | ⟨oldSecond, secondDiffers⟩
      · exact absurd rfl differ
      · rw [updated]
        rw [kept second secondDiffers] at present
        exact (frame second oldSecond secondDiffers address present).2
    · rw [kept first firstDiffers]
      rcases members second isSecond with rfl | ⟨oldSecond, secondDiffers⟩
      · rw [updated] at present
        intro shared
        exact (frame first oldFirst firstDiffers address shared).2 present
      · rw [kept second secondDiffers] at present
        exact linked.apart first oldFirst second oldSecond differ address present
  · intro member isMember
    rcases members member isMember with rfl | ⟨old, differs⟩
    · rw [updated]
      exact backlog
    · rw [kept member differs]
      exact linked.backlog member old

theorem set_same (linked : Linked heap peers cells) {index : Nat} {peer fresh : TtyPeerInfo}
    (found : peers[index]? = some peer) (sameSck : fresh.sck = peer.sck)
    (sameSend : fresh.send = peer.send) : Linked heap (peers.set index fresh) cells := by
  have member := List.mem_of_getElem? found
  have next : Linked heap (peers.set index fresh)
      (Function.update cells peer.sck (cells peer.sck)) :=
    linked.set found sameSck (sameSend ▸ linked.queue peer member) (linked.backlog peer member)
    fun other isMember differs address present =>
      ⟨rfl, linked.apart peer member other isMember differs address present⟩
  rwa [Function.update_eq_self] at next

theorem append (linked : Linked heap peers cells) {sck : Int}
    (unused : ∀ peer ∈ peers, peer.sck ≠ sck) :
    Linked heap (peers ++ [{ sck := sck }]) (Function.update cells sck []) := by
  have kept : ∀ peer ∈ peers, Function.update cells sck [] peer.sck = cells peer.sck :=
    fun peer member => Function.update_of_ne (unused peer member) _ _
  refine ⟨?_, ?_, ?_, ?_⟩
  · rw [List.map_append]
    refine linked.scks.append (List.nodup_singleton sck) ?_
    intro used member equal
    obtain ⟨peer, isPeer, rfl⟩ := List.mem_map.mp member
    exact unused peer isPeer (List.mem_singleton.mp equal)
  · intro peer member
    rcases List.mem_append.mp member with old | new
    · rw [kept peer old]
      exact linked.queue peer old
    · rw [List.mem_singleton.mp new, Function.update_self]
      exact empty_represents heap
  · intro first isFirst second isSecond differ address present
    rcases List.mem_append.mp isSecond with oldSecond | newSecond
    · rw [kept second oldSecond] at present
      rcases List.mem_append.mp isFirst with oldFirst | newFirst
      · rw [kept first oldFirst]
        exact linked.apart first oldFirst second oldSecond differ address present
      · rw [List.mem_singleton.mp newFirst, Function.update_self]
        exact List.not_mem_nil
    · rw [List.mem_singleton.mp newSecond, Function.update_self] at present
      cases present
  · intro peer member
    rcases List.mem_append.mp member with old | new
    · rw [kept peer old]
      exact linked.backlog peer old
    · rw [List.mem_singleton.mp new, Function.update_self]
      exact Backlog.nil

theorem remove (linked : Linked heap peers cells) {index : Nat} {peer : TtyPeerInfo}
    (found : peers[index]? = some peer) :
    Linked (freeAll heap peer.send.head) (swapRemove peers index) cells := by
  have member := List.mem_of_getElem? found
  have stays : ∀ other ∈ swapRemove peers index, other ∈ peers ∧ other.sck ≠ peer.sck :=
    fun other isOther => mem_swapRemove linked.scks found isOther
  refine ⟨nodup_swapRemove linked.scks found, ?_, ?_, ?_⟩
  · intro other isOther
    obtain ⟨old, differs⟩ := stays other isOther
    have queue := linked.queue peer member
    refine (linked.queue other old).frame fun address present => ?_
    exact freeAll_lookup_ne queue.chain queue.distinct
      (linked.apart peer member other old differs address present)
  · intro first isFirst second isSecond
    exact linked.apart first (stays first isFirst).1 second (stays second isSecond).1
  · intro other isOther
    exact linked.backlog other (stays other isOther).1

end Linked

end RenogyX10.TtyReader
