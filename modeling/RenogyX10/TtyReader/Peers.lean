import RenogyX10.Lib.Keyed
import RenogyX10.TtyReader.Modbus

set_option autoImplicit false

namespace RenogyX10.TtyReader

open Keyed LinkedQueue

/-- What poll reported for one peer, and what its recv and send return; a
failed call counts as zero. -/
structure PeerIo where
  pollIn : Bool
  pollOut : Bool
  recv : Nat
  sent : Nat

def getPeerBySck (sck : Int) : Act Nat := do
  let peers ← Proc.read fun s => s.info.peerList
  match peers.findIdx? fun peer => peer.sck == sck with
  | some index => pure index
  | none => Proc.fail .peerNotFound

def setPeer (index : Nat) (peer : TtyPeerInfo) (s : Sys) : Sys :=
  { s with info := { s.info with peerList := s.info.peerList.set index peer } }

/-- Mark the peer at `index` for removal. -/
def setDelme (index : Nat) (s : Sys) : Sys :=
  match s.info.peerList[index]? with
  | none => s
  | some peer => setPeer index { peer with delme := true } s

/-- Count `sent` bytes of the head node as sent; a finished node is unlinked. -/
def advance (index address sent : Nat) (node : Node SendT) (peer : TtyPeerInfo) (s : Sys) : Sys :=
  let value : SendT := { node.value with sent := node.value.sent + sent }
  if value.outDataSlice.length ≤ value.sent then
    let dropped := dropHead s.heap peer.send address node
    setPeer index { peer with send := dropped.2 } { s with heap := dropped.1 }
  else { s with heap := setValue s.heap address value }

/-- The writable branch: offer the unsent bytes of the head node to the socket. -/
def sendHead (index : Nat) (taken : Nat) : Act Unit := do
  let s ← Proc.read id
  let peer ← Proc.orAbort s.info.peerList[index]?
  match peer.send.head with
  | none => pure ()
  | some address => do
      let node ← Proc.orAbort (s.heap.lookup address)
      let outSlice ← Proc.orAbort node.value.outSlice
      let sent := min taken outSlice.length
      if 0 < sent then do
        Proc.modify (Sys.emit (.send peer.sck (outSlice.take sent)))
        Proc.modify (advance index address sent node peer)
      else Proc.modify (setDelme index)

/-- One entry of the poll table. -/
def checkPeer (sck : Int) (io : PeerIo) : Act Unit := do
  Proc.when io.pollIn do
    let index ← getPeerBySck sck
    Proc.when (io.recv < 1) (Proc.modify (setDelme index))
  Proc.when io.pollOut do
    let index ← getPeerBySck sck
    sendHead index io.sent

def checkPolled : List (Int × PeerIo) → Act Unit
  | [] => pure ()
  | polled :: rest => do
      checkPeer polled.1 polled.2
      checkPolled rest

/-- `deinit` of a peer: free its nodes and close its socket. -/
def deinitPeer (peer : TtyPeerInfo) (s : Sys) : Sys :=
  { s with heap := freeAll s.heap peer.send.head, trace := .close peer.sck :: s.trace }

/-- The removal loop, over the first `count` peers from the back. -/
def removeDelme : Nat → Sys → Sys
  | 0, s => s
  | index + 1, s =>
      match s.info.peerList[index]? with
      | none => removeDelme index s
      | some peer =>
          if peer.delme then
            let freed := deinitPeer peer s
            removeDelme index
              { freed with info := { s.info with peerList := swapRemove s.info.peerList index } }
          else removeDelme index s

def checkPeers (polled : List (Int × PeerIo)) : Act Unit := do
  checkPolled polled
  Proc.modify fun s => removeDelme s.info.peerList.length s

def freePeers (heap : Heap SendT) (removed : List TtyPeerInfo) : Heap SendT :=
  removed.foldl (fun heap peer => freeAll heap peer.send.head) heap

/-- Closing their sockets; the trace is newest first. -/
def closes (removed : List TtyPeerInfo) : List Event :=
  (removed.map fun peer => Event.close peer.sck).reverse

theorem closes_cons (peer : TtyPeerInfo) (rest : List TtyPeerInfo) :
    closes (peer :: rest) = closes rest ++ [.close peer.sck] := by
  rw [closes, List.map_cons, List.reverse_cons]
  rfl

/-- The removal loop: `deinit` is called on the peers that the sweep removes, once for
each, and on no other. -/
theorem removeDelme_eq (count : Nat) (s : Sys) :
    removeDelme count s =
      ⟨{ s.info with peerList := (sweep TtyPeerInfo.delme count s.info.peerList).2 },
        freePeers s.heap (sweep TtyPeerInfo.delme count s.info.peerList).1,
        closes (sweep TtyPeerInfo.delme count s.info.peerList).1 ++ s.trace⟩ := by
  induction count generalizing s with
  | zero => rfl
  | succ index ih =>
      rw [removeDelme]
      cases found : s.info.peerList[index]? with
      | none => rw [sweep_absent found, ← ih]
      | some peer =>
          cases marked : peer.delme with
          | false =>
              rw [sweep_unmarked found marked, ← ih]
              dsimp only
              rw [marked, if_neg Bool.false_ne_true]
          | true =>
              rw [sweep_marked found marked, closes_cons, List.append_assoc]
              dsimp only
              rw [if_pos marked, ih]
              rfl

theorem removeDelme_peers (s : Sys) :
    (removeDelme s.info.peerList.length s).info.peerList.Perm
      (s.info.peerList.filter fun peer => !peer.delme) := by
  rw [removeDelme_eq]
  exact (sweep_length_perm TtyPeerInfo.delme s.info.peerList).2

end RenogyX10.TtyReader
