import RenogyX10.TtyClient.Pieces
import RenogyX10.TtyReader.Record

set_option autoImplicit false

namespace RenogyX10.Publisher

open Csck
open TtyClient (Read)
open TtyReader (Completed Connection Event connectionsOf)

/-- What the connection that was accepted at this place took. -/
def sentTo (index : Nat) (trace : List Event) : List UInt8 :=
  (connectionsOf trace).reverse[index]?.elim [] Connection.sent

/-- The reads that completed while it was open. -/
def readsFor (index : Nat) (trace : List Event) : List Completed :=
  (connectionsOf trace).reverse[index]?.elim [] Connection.reads

def completedOf (read : Read) : Completed := ⟨read.kind, read.idInfo, read.regs⟩

theorem exists_reads {reads : List Completed} (framed : ∀ read ∈ reads, read.Framed) :
    ∃ same : List Read, reads = same.map completedOf := by
  induction reads with
  | nil => exact ⟨[], rfl⟩
  | cons first rest ih =>
      obtain ⟨same, rfl⟩ := ih fun read member => framed read (List.mem_cons_of_mem first member)
      obtain ⟨full, small⟩ := framed first List.mem_cons_self
      exact ⟨⟨first.kind, first.idInfo, first.regs, full, small⟩ :: same, rfl⟩

theorem streamOf_reads (reads : List Read) :
    streamOf (reads.map Read.frame) =
      ((reads.map completedOf).map Completed.frame).flatten := by
  rw [streamOf, List.map_map, List.map_map]
  apply congrArg List.flatten
  apply List.map_congr_left
  exact fun read _ => read.frame_bytes

variable (index : Nat) {older trace : List Event}

theorem readsFor_later (later : older <:+ trace) : readsFor index older <+: readsFor index trace := by
  unfold readsFor
  cases found : (connectionsOf older).reverse[index]? with
  | none => exact List.nil_prefix
  | some c =>
      obtain ⟨d, there, extended⟩ := TtyReader.connectionsOf_later later found
      rw [there]
      exact extended.reads

theorem sentTo_later (later : older <:+ trace) : sentTo index older <+: sentTo index trace := by
  unfold sentTo
  cases found : (connectionsOf older).reverse[index]? with
  | none => exact List.nil_prefix
  | some c =>
      obtain ⟨d, there, extended⟩ := TtyReader.connectionsOf_later later found
      rw [there]
      exact extended.sent

theorem sentTo_within (recorded : TtyReader.Recorded trace) :
    sentTo index trace <+: ((readsFor index trace).map Completed.frame).flatten := by
  unfold sentTo readsFor
  cases found : (connectionsOf trace).reverse[index]? with
  | none => exact List.prefix_rfl
  | some c => exact recorded.sent c (List.mem_reverse.mp (List.mem_of_getElem? found))

theorem readsFor_framed (recorded : TtyReader.Recorded trace) :
    ∀ read ∈ readsFor index trace, read.Framed := by
  unfold readsFor
  cases found : (connectionsOf trace).reverse[index]? with
  | none => exact fun _ none => nomatch none
  | some c => exact recorded.framed c (List.mem_reverse.mp (List.mem_of_getElem? found))

end RenogyX10.Publisher
