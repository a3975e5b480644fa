import Mathlib.Data.List.AList
import Mathlib.Tactic.Common

set_option autoImplicit false

/- A singly linked queue in a heap: nodes are appended behind the tail pointer
and removed at the head pointer. Addresses may be reused once they are freed.
`Represents` is the abstraction to the list of queued values. -/
namespace RenogyX10.LinkedQueue

variable {α : Type}

structure Node (α : Type) where
  value : α
  next : Option Nat

abbrev Heap (α : Type) := AList (fun _ : Nat => Node α)

/-- The two pointers a queue's owner holds. -/
structure Ends where
  head : Option Nat
  tail : Option Nat
deriving DecidableEq

/-- Following `next` from `start` visits exactly these addresses, with these
values, and then a null pointer. -/
def Chain (heap : Heap α) : Option Nat → List (Nat × α) → Prop
  | start, [] => start = none
  | start, (address, value) :: rest =>
      start = some address ∧ ∃ next, heap.lookup address = some ⟨value, next⟩ ∧
        Chain heap next rest

def addresses (cells : List (Nat × α)) : List Nat := cells.map Prod.fst

@[simp] theorem addresses_cons (cell : Nat × α) (rest : List (Nat × α)) :
    addresses (cell :: rest) = cell.1 :: addresses rest := rfl

@[simp] theorem addresses_append (front back : List (Nat × α)) :
    addresses (front ++ back) = addresses front ++ addresses back :=
  List.map_append

/-- The queue's pointers describe `cells`: the head starts their chain and the
tail is the last of them. -/
structure Represents (heap : Heap α) (ends : Ends) (cells : List (Nat × α)) : Prop where
  chain : Chain heap ends.head cells
  last : ends.tail = cells.getLast?.map Prod.fst
  distinct : (addresses cells).Nodup

def empty : Ends := ⟨none, none⟩

theorem empty_represents (heap : Heap α) : Represents heap empty [] :=
  ⟨rfl, rfl, List.nodup_nil⟩

def setNext (heap : Heap α) (address : Nat) (next : Option Nat) : Heap α :=
  match heap.lookup address with
  | some node => heap.insert address { node with next := next }
  | none => heap

def setValue (heap : Heap α) (address : Nat) (value : α) : Heap α :=
  match heap.lookup address with
  | some node => heap.insert address { node with value := value }
  | none => heap

/-- Append a new node, allocated at `address`, behind the tail. -/
def push (heap : Heap α) (ends : Ends) (address : Nat) (value : α) : Heap α × Ends :=
  let heap := heap.insert address ⟨value, none⟩
  match ends.tail with
  | some last => (setNext heap last (some address), ⟨ends.head, some address⟩)
  | none => (heap, ⟨some address, some address⟩)

/-- Unlink the head node and free it; an emptied queue loses its tail too. -/
def dropHead (heap : Heap α) (ends : Ends) (address : Nat) (node : Node α) : Heap α × Ends :=
  (heap.erase address, ⟨node.next, if node.next = none then none else ends.tail⟩)

/-- Free every node reachable from a pointer. -/
def freeAll (heap : Heap α) : Option Nat → Heap α
  | none => heap
  | some address =>
      match _found : heap.lookup address with
      | none => heap
      | some node => freeAll (heap.erase address) node.next
termination_by heap.keys.length
decreasing_by
  have member : address ∈ heap.keys :=
    AList.mem_keys.mp (AList.lookup_isSome.mp (by simp only [_found, Option.isSome_some]))
  have positive := List.length_pos_of_mem member
  rw [AList.keys_erase, List.length_erase_of_mem member]
  omega

/-- A chain depends only on the nodes it visits. -/
theorem Chain.frame {heap other : Heap α} {start : Option Nat} {cells : List (Nat × α)}
    (chain : Chain heap start cells)
    (same : ∀ address ∈ addresses cells, other.lookup address = heap.lookup address) :
    Chain other start cells := by
  induction cells generalizing start with
  | nil => exact chain
  | cons cell rest ih =>
      obtain ⟨starts, next, found, tail⟩ := chain
      refine ⟨starts, next, ?_, ih tail fun address member => same address (by simp [member])⟩
      rw [same cell.1 (by simp)]
      exact found

theorem Chain.erase {heap : Heap α} {start : Option Nat} {cells : List (Nat × α)}
    (chain : Chain heap start cells) {address : Nat} (outside : address ∉ addresses cells) :
    Chain (heap.erase address) start cells := by
  apply chain.frame
  intro other member
  apply AList.lookup_erase_ne
  rintro rfl
  exact outside member

theorem Chain.lookup_ne_none {heap : Heap α} {start : Option Nat} {cells : List (Nat × α)}
    (chain : Chain heap start cells) {address : Nat} (member : address ∈ addresses cells) :
    heap.lookup address ≠ none := by
  induction cells generalizing start with
  | nil => cases member
  | cons cell rest ih =>
      obtain ⟨_, next, found, tail⟩ := chain
      rcases List.mem_cons.mp member with rfl | member
      · rw [found]
        exact Option.some_ne_none _
      · exact ih tail member

theorem Chain.not_mem_of_free {heap : Heap α} {start : Option Nat} {cells : List (Nat × α)}
    (chain : Chain heap start cells) {address : Nat} (free : heap.lookup address = none) :
    address ∉ addresses cells :=
  fun member => chain.lookup_ne_none member free

theorem Chain.unique {heap : Heap α} {start : Option Nat} {cells others : List (Nat × α)}
    (first : Chain heap start cells) (second : Chain heap start others) : cells = others := by
  induction cells generalizing start others with
  | nil =>
      cases first
      cases others with
      | nil => rfl
      | cons other rest => cases second.1
  | cons cell rest ih =>
      obtain ⟨rfl, next, found, tail⟩ := first
      cases others with
      | nil => cases second
      | cons other later =>
          obtain ⟨same, _, again, later'⟩ := second
          rw [← Option.some.inj same, found] at again
          obtain ⟨sameValue, rfl⟩ := Node.mk.inj (Option.some.inj again)
          rw [ih tail later', Prod.ext (Option.some.inj same) sameValue]

theorem Chain.last_node {heap : Heap α} {start : Option Nat} {front : List (Nat × α)}
    {last : Nat × α} (chain : Chain heap start (front ++ [last])) :
    heap.lookup last.1 = some ⟨last.2, none⟩ := by
  induction front generalizing start with
  | nil =>
      obtain ⟨_, next, found, ended⟩ := chain
      cases ended
      exact found
  | cons cell rest ih =>
      obtain ⟨_, _, _, tail⟩ := chain
      exact ih tail

/-- Linking a fresh node behind the last one extends the chain by it. -/
theorem Chain.snoc {heap other : Heap α} {start : Option Nat} {front : List (Nat × α)}
    {last : Nat × α} {address : Nat} {value : α}
    (chain : Chain heap start (front ++ [last]))
    (same : ∀ a ∈ addresses front, other.lookup a = heap.lookup a)
    (linked : other.lookup last.1 = some ⟨last.2, some address⟩)
    (fresh : other.lookup address = some ⟨value, none⟩) :
    Chain other start (front ++ [last] ++ [(address, value)]) := by
  induction front generalizing start with
  | nil =>
      obtain ⟨starts, _, _, _⟩ := chain
      exact ⟨starts, some address, linked, rfl, none, fresh, rfl⟩
  | cons cell rest ih =>
      obtain ⟨starts, next, found, tail⟩ := chain
      refine ⟨starts, next, ?_, ih tail fun a member => same a (by simp [member])⟩
      rw [same cell.1 (by simp)]
      exact found

theorem setNext_lookup_ne (heap : Heap α) {address other : Nat} (next : Option Nat)
    (apart : other ≠ address) : (setNext heap address next).lookup other = heap.lookup other := by
  unfold setNext
  split
  · exact AList.lookup_insert_ne apart
  · rfl

theorem setNext_lookup (heap : Heap α) {address : Nat} {node : Node α} (next : Option Nat)
    (found : heap.lookup address = some node) :
    (setNext heap address next).lookup address = some { node with next := next } := by
  simp only [setNext, found, AList.lookup_insert]

theorem setValue_lookup_ne (heap : Heap α) {address other : Nat} (value : α)
    (apart : other ≠ address) : (setValue heap address value).lookup other = heap.lookup other := by
  unfold setValue
  split
  · exact AList.lookup_insert_ne apart
  · rfl

theorem setValue_lookup (heap : Heap α) {address : Nat} {node : Node α} (value : α)
    (found : heap.lookup address = some node) :
    (setValue heap address value).lookup address = some { node with value := value } := by
  simp only [setValue, found, AList.lookup_insert]

namespace Represents

variable {heap other : Heap α} {ends : Ends} {cells : List (Nat × α)}

theorem frame (queue : Represents heap ends cells)
    (same : ∀ address ∈ addresses cells, other.lookup address = heap.lookup address) :
    Represents other ends cells :=
  ⟨queue.chain.frame same, queue.last, queue.distinct⟩

theorem head_eq_none_iff (queue : Represents heap ends cells) : ends.head = none ↔ cells = [] := by
  have chain := queue.chain
  cases cells with
  | nil => exact ⟨fun _ => rfl, fun _ => chain⟩
  | cons cell rest =>
      have starts : ends.head = some cell.1 := chain.1
      simp [starts]

theorem tail_eq_none_iff (queue : Represents heap ends cells) : ends.tail = none ↔ cells = [] := by
  rw [queue.last, Option.map_eq_none_iff, List.getLast?_eq_none_iff]

/-- The head pointer is null exactly when the tail pointer is. -/
theorem null_together (queue : Represents heap ends cells) :
    ends.head = none ↔ ends.tail = none := by
  rw [queue.head_eq_none_iff, queue.tail_eq_none_iff]

theorem tail_mem (queue : Represents heap ends cells) {address : Nat}
    (isTail : ends.tail = some address) : address ∈ addresses cells := by
  rw [queue.last] at isTail
  obtain ⟨last, lastOf, same⟩ := Option.map_eq_some_iff.mp isTail
  rw [← same]
  exact List.mem_map_of_mem (List.mem_of_getLast? lastOf)

theorem head_node (queue : Represents heap ends cells) {address : Nat}
    (starts : ends.head = some address) :
    ∃ value next rest, cells = (address, value) :: rest ∧
      heap.lookup address = some ⟨value, next⟩ := by
  have chain := queue.chain
  cases cells with
  | nil =>
      rw [starts] at chain
      cases chain
  | cons cell rest =>
      obtain ⟨begins, next, found, _⟩ := chain
      rw [starts] at begins
      cases begins
      exact ⟨cell.2, next, rest, rfl, found⟩

end Represents

theorem push_lookup_ne (heap : Heap α) (ends : Ends) {address other : Nat} (value : α)
    (apart : other ≠ address) (behind : ends.tail ≠ some other) :
    (push heap ends address value).1.lookup other = heap.lookup other := by
  unfold push
  cases tail : ends.tail with
  | none => exact AList.lookup_insert_ne apart
  | some last =>
      have differs : other ≠ last := by
        rintro rfl
        exact behind tail
      exact (setNext_lookup_ne _ _ differs).trans (AList.lookup_insert_ne apart)

/-- A push of a fresh node appends its value. -/
theorem push_represents {heap : Heap α} {ends : Ends} {cells : List (Nat × α)}
    (queue : Represents heap ends cells) {address : Nat} (value : α)
    (free : heap.lookup address = none) :
    Represents (push heap ends address value).1 (push heap ends address value).2
      (cells ++ [(address, value)]) := by
  have outside := queue.chain.not_mem_of_free free
  have apart : ∀ a ∈ addresses cells, a ≠ address := by
    rintro a member rfl
    exact outside member
  have distinct : (addresses (cells ++ [(address, value)])).Nodup := by
    rw [addresses_append]
    refine queue.distinct.append (List.nodup_singleton address) ?_
    intro a member same
    exact apart a member (List.mem_singleton.mp same)
  refine ⟨?_, ?_, distinct⟩
  · rcases List.eq_nil_or_concat' cells with rfl | ⟨front, last, rfl⟩
    · have tail : ends.tail = none := queue.last
      simp only [push, tail, List.nil_append]
      exact ⟨rfl, none, AList.lookup_insert _, rfl⟩
    · have tail : ends.tail = some last.1 := by simpa using queue.last
      have lastApart : last.1 ≠ address := apart last.1 (by simp)
      have lastOnce : ∀ a ∈ addresses front, a ≠ last.1 := by
        rintro a member rfl
        have split := queue.distinct
        rw [addresses_append] at split
        exact List.disjoint_of_nodup_append split member (by simp)
      have found : (heap.insert address ⟨value, none⟩).lookup last.1 = some ⟨last.2, none⟩ :=
        (AList.lookup_insert_ne lastApart).trans queue.chain.last_node
      simp only [push, tail]
      refine queue.chain.snoc ?_ (setNext_lookup _ _ found) ?_
      · intro a member
        rw [setNext_lookup_ne _ _ (lastOnce a member),
          AList.lookup_insert_ne (apart a (by simp [member]))]
      · rw [setNext_lookup_ne _ _ (Ne.symm lastApart), AList.lookup_insert]
  · unfold push
    cases ends.tail <;> simp

theorem setValue_represents {heap : Heap α} {ends : Ends} {address : Nat} {old : α}
    {rest : List (Nat × α)} (queue : Represents heap ends ((address, old) :: rest)) (value : α) :
    Represents (setValue heap address value) ends ((address, value) :: rest) := by
  obtain ⟨starts, next, found, tail⟩ := queue.chain
  have outside : address ∉ addresses rest := (List.nodup_cons.mp queue.distinct).1
  refine ⟨⟨starts, next, setValue_lookup heap value found, ?_⟩, ?_, queue.distinct⟩
  · apply tail.frame
    intro a member
    apply setValue_lookup_ne
    rintro rfl
    exact outside member
  · rw [queue.last]
    cases rest <;> rfl

theorem dropHead_represents {heap : Heap α} {ends : Ends} {address : Nat} {node : Node α}
    {value : α} {rest : List (Nat × α)} (queue : Represents heap ends ((address, value) :: rest))
    (found : heap.lookup address = some node) :
    Represents (dropHead heap ends address node).1 (dropHead heap ends address node).2 rest := by
  obtain ⟨_, next, first, tail⟩ := queue.chain
  obtain ⟨outside, distinct⟩ := List.nodup_cons.mp queue.distinct
  rw [found] at first
  cases first
  refine ⟨tail.erase outside, ?_, distinct⟩
  cases rest with
  | nil =>
      have ended : next = none := tail
      simp [dropHead, ended]
  | cons cell rest =>
      have continues : next = some cell.1 := tail.1
      simpa [dropHead, continues] using queue.last

@[simp] theorem freeAll_none (heap : Heap α) : freeAll heap none = heap := by
  rw [freeAll]

theorem freeAll_some {heap : Heap α} {address : Nat} {node : Node α}
    (found : heap.lookup address = some node) :
    freeAll heap (some address) = freeAll (heap.erase address) node.next := by
  rw [freeAll]
  split
  · rename_i absent
    rw [found] at absent
    cases absent
  · rename_i present
    rw [found] at present
    cases present
    rfl

theorem freeAll_lookup_ne {heap : Heap α} {start : Option Nat} {cells : List (Nat × α)}
    (chain : Chain heap start cells) (distinct : (addresses cells).Nodup) {other : Nat}
    (outside : other ∉ addresses cells) :
    (freeAll heap start).lookup other = heap.lookup other := by
  induction cells generalizing heap start with
  | nil =>
      cases chain
      rw [freeAll_none]
  | cons cell rest ih =>
      obtain ⟨rfl, next, found, tail⟩ := chain
      obtain ⟨absent, inner⟩ := List.nodup_cons.mp distinct
      simp only [addresses_cons, List.mem_cons, not_or] at outside
      obtain ⟨apart, beyond⟩ := outside
      rw [freeAll_some found, ih (tail.erase absent) inner beyond, AList.lookup_erase_ne apart]

theorem freeAll_lookup {heap : Heap α} {start : Option Nat} {cells : List (Nat × α)}
    (chain : Chain heap start cells) (distinct : (addresses cells).Nodup) {address : Nat}
    (member : address ∈ addresses cells) : (freeAll heap start).lookup address = none := by
  induction cells generalizing heap start with
  | nil => cases member
  | cons cell rest ih =>
      obtain ⟨rfl, next, found, tail⟩ := chain
      obtain ⟨absent, inner⟩ := List.nodup_cons.mp distinct
      rw [freeAll_some found]
      rcases List.mem_cons.mp member with rfl | later
      · rw [freeAll_lookup_ne (tail.erase absent) inner absent, AList.lookup_erase]
      · exact ih (tail.erase absent) inner later

end RenogyX10.LinkedQueue
