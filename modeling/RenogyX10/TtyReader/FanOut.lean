import RenogyX10.TtyReader.Main
import RenogyX10.TtyReader.Queues

set_option autoImplicit false

namespace RenogyX10.TtyReader

open Keyed LinkedQueue Parse

/-- The bytes taken by the connection that was last accepted on a descriptor. -/
def sentOn (sck : Int) : List Event → List UInt8
  | [] => []
  | .send other bytes :: older =>
      if other = sck then sentOn sck older ++ bytes else sentOn sck older
  | .accept other :: older => if other = sck then [] else sentOn sck older
  | _ :: older => sentOn sck older

/-- The frames of all reads that completed, in order. -/
def framesOf : List Event → List (List UInt8)
  | [] => []
  | .read kind idInfo regs :: older => framesOf older ++ [frameOf kind idInfo regs]
  | _ :: older => framesOf older

/-- The frames of the reads that completed since the descriptor was accepted. -/
def framesSince (sck : Int) : List Event → List (List UInt8)
  | [] => []
  | .read kind idInfo regs :: older => framesSince sck older ++ [frameOf kind idInfo regs]
  | .accept other :: older => if other = sck then [] else framesSince sck older
  | _ :: older => framesSince sck older

/-- A subscriber's frames are a segment of the one published sequence. -/
theorem framesSince_suffix (sck : Int) (trace : List Event) :
    framesSince sck trace <:+ framesOf trace := by
  induction trace with
  | nil => exact List.suffix_rfl
  | cons event older ih =>
      cases event with
      | read kind idInfo regs =>
          obtain ⟨before, split⟩ := ih
          exact ⟨before, by rw [framesSince, framesOf, ← split, List.append_assoc]⟩
      | accept other =>
          simp only [framesSince, framesOf]
          split
          · exact List.nil_suffix
          · exact ih
      | _ => exact ih

/-- Every peer was sent its frames up to what its queue still holds. -/
def Delivered (s : Sys) (cells : Int → Cells) : Prop :=
  ∀ peer ∈ s.info.peerList,
    sentOn peer.sck s.trace ++ unsentBytes (cells peer.sck) =
      (framesSince peer.sck s.trace).flatten

def DeliveryInv (s : Sys) : Prop :=
  ∃ cells, Linked s.heap s.info.peerList cells ∧ Delivered s cells

/-- The addresses the allocator hands out are unused, different and enough. -/
structure Fresh (nodes : List Nat) (s : Sys) : Prop where
  distinct : nodes.Nodup
  free : ∀ address ∈ nodes, s.heap.lookup address = none
  enough : s.info.peerList.length ≤ nodes.length

theorem queueFrame_linked {s : Sys} {cells : Int → Cells} {index node : Nat} {peer : TtyPeerInfo}
    {frame : List UInt8} (linked : Linked s.heap s.info.peerList cells)
    (found : s.info.peerList[index]? = some peer) (free : s.heap.lookup node = none)
    (nonempty : 0 < frame.length) :
    Linked (queueFrame index node frame s).heap (queueFrame index node frame s).info.peerList
      (Function.update cells peer.sck (cells peer.sck ++ [(node, ⟨0, frame⟩)])) := by
  have member := List.mem_of_getElem? found
  have queue := linked.queue peer member
  simp only [queueFrame, found]
  refine linked.set found (by rfl) (push_represents queue _ free)
    ((linked.backlog peer member).append node nonempty) ?_
  intro other isOther differs address present
  have away : address ∉ addresses (cells peer.sck) :=
    linked.apart peer member other isOther differs address present
  have allocated := (linked.queue other isOther).chain.lookup_ne_none present
  have apart : address ≠ node := by
    intro same
    exact allocated (same ▸ free)
  refine ⟨push_lookup_ne _ _ _ apart fun isTail => away (queue.tail_mem isTail), ?_⟩
  · rw [addresses_append, List.mem_append]
    intro either
    rcases either with old | new
    · exact away old
    · exact apart (List.mem_singleton.mp new)

theorem queueFrame_info {index node : Nat} {peer : TtyPeerInfo} (frame : List UInt8) {s : Sys}
    (found : s.info.peerList[index]? = some peer) :
    (queueFrame index node frame s).info.peerList.map TtyPeerInfo.sck =
      s.info.peerList.map TtyPeerInfo.sck := by
  simp only [queueFrame, found]
  exact map_set found rfl

theorem queueFrame_trace (index node : Nat) (frame : List UInt8) (s : Sys) :
    (queueFrame index node frame s).trace = s.trace := by
  unfold queueFrame
  split <;> rfl

theorem queueFrame_free {s : Sys} {cells : Int → Cells} {index node other : Nat}
    {frame : List UInt8} (linked : Linked s.heap s.info.peerList cells) (apart : other ≠ node)
    (free : s.heap.lookup other = none) :
    (queueFrame index node frame s).heap.lookup other = none := by
  unfold queueFrame
  split
  · exact free
  · rename_i peer found
    have queue := linked.queue peer (List.mem_of_getElem? found)
    rw [push_lookup_ne _ _ _ apart fun isTail =>
      queue.chain.not_mem_of_free free (queue.tail_mem isTail)]
    exact free

/-- The fan-out loop after its first `count` peers, against the state it
started from. -/
structure FannedOut (nodes : List Nat) (frame : List UInt8) (s t : Sys)
    (before after : Int → Cells) (count : Nat) : Prop where
  linked : Linked t.heap t.info.peerList after
  scks : t.info.peerList.map TtyPeerInfo.sck = s.info.peerList.map TtyPeerInfo.sck
  trace : t.trace = s.trace
  queued : ∀ index peer, s.info.peerList[index]? = some peer →
    unsentBytes (after peer.sck) =
      unsentBytes (before peer.sck) ++ if index < count then frame else []
  free : ∀ index node, count ≤ index → nodes[index]? = some node → t.heap.lookup node = none

theorem FannedOut.start {nodes : List Nat} (frame : List UInt8) {s : Sys} {cells : Int → Cells}
    (linked : Linked s.heap s.info.peerList cells) (fresh : Fresh nodes s) :
    FannedOut nodes frame s s cells cells 0 := by
  refine ⟨linked, rfl, rfl, ?_, ?_⟩
  · intro index peer _
    simp
  · intro index node _ found
    exact fresh.free node (List.mem_of_getElem? found)

theorem FannedOut.next {nodes : List Nat} {frame : List UInt8} {s t : Sys}
    {before after : Int → Cells} {count node : Nat}
    (reached : FannedOut nodes frame s t before after count) (distinct : nodes.Nodup)
    (given : nodes[count]? = some node) (inside : count < s.info.peerList.length)
    (nonempty : 0 < frame.length) :
    ∃ later, FannedOut nodes frame s (queueFrame count node frame t) before later (count + 1) := by
  have length : t.info.peerList.length = s.info.peerList.length := by
    simpa only [List.length_map] using congrArg List.length reached.scks
  obtain ⟨peer, found⟩ : ∃ peer, t.info.peerList[count]? = some peer :=
    ⟨_, List.getElem?_eq_getElem (by rw [length]; exact inside)⟩
  have free := reached.free count node (Nat.le_refl _) given
  have sckAt : (s.info.peerList.map TtyPeerInfo.sck)[count]? = some peer.sck := by
    rw [← reached.scks, List.getElem?_map, found]
    rfl
  have scksDistinct : (s.info.peerList.map TtyPeerInfo.sck).Nodup := by
    rw [← reached.scks]
    exact reached.linked.scks
  refine ⟨_, queueFrame_linked reached.linked found free nonempty, ?_, ?_, ?_, ?_⟩
  · exact (queueFrame_info frame found).trans reached.scks
  · exact (queueFrame_trace count node frame t).trans reached.trace
  · intro index other isOther
    have otherAt : (s.info.peerList.map TtyPeerInfo.sck)[index]? = some other.sck := by
      rw [List.getElem?_map, isOther]
      rfl
    have old := reached.queued index other isOther
    by_cases same : index = count
    · subst index
      have sameSck : other.sck = peer.sck := Option.some.inj (otherAt.symm.trans sckAt)
      have unqueued : ¬ count < count := Nat.lt_irrefl count
      have queuedNow : count < count + 1 := Nat.lt_succ_self count
      simp only [unqueued, ↓reduceIte, List.append_nil] at old
      simp only [queuedNow, ↓reduceIte]
      rw [sameSck, Function.update_self, unsentBytes_append, ← sameSck, old]
    · have differs : other.sck ≠ peer.sck := by
        intro equal
        apply same
        apply (List.getElem?_inj ?_ scksDistinct).mp
        · rw [otherAt, sckAt, equal]
        · exact (List.getElem?_eq_some_iff.mp otherAt).1
      have sameSide : index < count + 1 ↔ index < count := by omega
      rw [Function.update_of_ne differs, old]
      simp only [sameSide]
  · intro index other beyond isOther
    apply queueFrame_free reached.linked ?_ (reached.free index other (by omega) isOther)
    intro equal
    have shared : index = count := by
      apply (List.getElem?_inj ?_ distinct).mp
      · rw [isOther, given, equal]
      · exact (List.getElem?_eq_some_iff.mp isOther).1
    omega

/-- The fan-out loop queues the frame once for every peer it has visited. -/
theorem fanOut_frames (lib : ParseLib) {kind : Kind} {idInfo : TtyIdInfo} {regs : List UInt16}
    (full : regs.length = (idInfo.count kind).toNat) (small : (idInfo.count kind).toNat ≤ 121)
    {nodes : List Nat} {s : Sys} {cells : Int → Cells}
    (linked : Linked s.heap s.info.peerList cells) (fresh : Fresh nodes s) (count : Nat)
    (bound : count ≤ s.info.peerList.length) :
    ∃ t after, fanOut lib kind idInfo regs nodes count s = .ok () t ∧
      FannedOut nodes (frameOf kind idInfo regs) s t cells after count := by
  induction count with
  | zero => exact ⟨s, cells, rfl, .start _ linked fresh⟩
  | succ count ih =>
      obtain ⟨t, after, ran, reached⟩ := ih (by omega)
      have enough := fresh.enough
      have given : nodes[count]? = some nodes[count] := List.getElem?_eq_getElem (by omega)
      have nonempty : 0 < (frameOf kind idInfo regs).length := by
        rw [frameOf_length]
        omega
      obtain ⟨later, next⟩ := reached.next fresh.distinct given (by omega) nonempty
      refine ⟨_, later, ?_, next⟩
      rw [fanOut, Proc.bind_of_ok ran, Proc.bind_of_ok (encodeFrame_of_le lib kind idInfo regs
        full small t), given]
      rfl

/-- A register count that overflows the size computation stops the process at
the first peer. -/
theorem fanOut_overflow (lib : ParseLib) {kind : Kind} {idInfo : TtyIdInfo} {regs : List UInt16}
    (large : 121 < (idInfo.count kind).toNat) (nodes : List Nat) (s : Sys) (count : Nat) :
    fanOut lib kind idInfo regs nodes (count + 1) s = .panic s := by
  induction count with
  | zero =>
      rw [fanOut, fanOut, Proc.pure_bind_run,
        Proc.bind_of_panic (encodeFrame_of_gt lib kind idInfo regs large s)]
  | succ count ih => rw [fanOut, Proc.bind_of_panic ih]

end RenogyX10.TtyReader
