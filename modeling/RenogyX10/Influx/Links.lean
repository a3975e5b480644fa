import RenogyX10.Influx.Main

set_option autoImplicit false

namespace RenogyX10.Influx

open Csck LinkedQueue
open TtyReader (Backlog Cells SendT unsentBytes)

/-- One connection: the requests that were built while it was open, and the bytes
that were sent on it. -/
structure Link where
  sck : Int
  isOpen : Bool := true
  requests : List (List UInt8) := []
  sent : List UInt8 := []

def Link.build (request : List UInt8) (link : Link) : Link :=
  { link with requests := link.requests ++ [request] }

def Link.send (bytes : List UInt8) (link : Link) : Link := { link with sent := link.sent ++ bytes }

def Link.close (link : Link) : Link := { link with isOpen := false }

/-- What happens to the newest connection, if it is open. -/
def onOpen (change : Link → Link) : List Link → List Link
  | [] => []
  | link :: older => if link.isOpen then change link :: older else link :: older

/-- The connections of a trace, newest first. -/
def linksOf : List Event → List Link
  | [] => []
  | .socket sck :: older => { sck := sck } :: linksOf older
  | .build request :: older => onOpen (.build request) (linksOf older)
  | .send _ bytes :: older => onOpen (.send bytes) (linksOf older)
  | .close _ :: older => onOpen .close (linksOf older)

/-- All requests that were built, in order. -/
def requestsOf : List Event → List (List UInt8)
  | [] => []
  | .build request :: older => requestsOf older ++ [request]
  | _ :: older => requestsOf older

/-- The newest connection is open, and this is its descriptor. -/
def IsOpen (sck : Int) (links : List Link) : Prop :=
  ∃ link older, links = link :: older ∧ link.isOpen = true ∧ link.sck = sck

/-- Every connection was sent the beginning of its requests, nothing was sent but
on the open connection, and no request belongs to two connections. -/
structure Streamed (trace : List Event) : Prop where
  sent : ∀ link ∈ linksOf trace, link.sent <+: link.requests.flatten
  used : ∀ newer sck bytes older, trace = newer ++ .send sck bytes :: older →
    IsOpen sck (linksOf older)
  once : ((linksOf trace).reverse.flatMap Link.requests).Sublist (requestsOf trace)

/-- No connection is open. -/
def Idle (links : List Link) : Prop := ∀ change, onOpen change links = links

theorem onOpen_cons {link : Link} (isOpen : link.isOpen = true) (change : Link → Link)
    (older : List Link) : onOpen change (link :: older) = change link :: older := by
  rw [onOpen, if_pos isOpen]

theorem idle_nil : Idle [] := fun _ => rfl

theorem idle_closed {link : Link} (closed : link.isOpen = false) (older : List Link) :
    Idle (link :: older) := by
  intro change
  rw [onOpen, closed]
  rfl

theorem onOpen_requests (change : Link → Link)
    (kept : ∀ link, (change link).requests = link.requests) (links : List Link) :
    (onOpen change links).reverse.flatMap Link.requests =
      links.reverse.flatMap Link.requests := by
  cases links with
  | nil => rfl
  | cons link older =>
      rw [onOpen]
      split
      · simp [kept]
      · rfl

/-- Each connection has its own requests, in the order of the connections. -/
theorem requests_once (trace : List Event) :
    ((linksOf trace).reverse.flatMap Link.requests).Sublist (requestsOf trace) := by
  induction trace with
  | nil => exact List.Sublist.refl []
  | cons event older ih =>
      cases event with
      | socket sck => simpa [linksOf, requestsOf] using ih
      | send sck bytes =>
          rw [linksOf, onOpen_requests (.send bytes) fun _ => rfl]
          exact ih
      | close sck =>
          rw [linksOf, onOpen_requests .close fun _ => rfl]
          exact ih
      | build request =>
          rw [linksOf, requestsOf]
          cases links : linksOf older with
          | nil =>
              rw [onOpen]
              exact List.nil_sublist _
          | cons link others =>
              rw [links] at ih
              rw [onOpen]
              split
              · have longer := ih.append (List.Sublist.refl [request])
                simpa [Link.build] using longer
              · exact ih.trans (List.sublist_append_left _ _)

namespace Streamed

variable {trace : List Event}

theorem nil : Streamed [] := by
  refine ⟨?_, ?_, requests_once []⟩
  · intro link member
    cases member
  · intro newer sck bytes older split
    simp at split

theorem cons (streamed : Streamed trace) (event : Event)
    (sent : ∀ link ∈ linksOf (event :: trace), link.sent <+: link.requests.flatten)
    (used : ∀ sck bytes, event = .send sck bytes → IsOpen sck (linksOf trace)) :
    Streamed (event :: trace) := by
  refine ⟨sent, ?_, requests_once _⟩
  intro newer sck bytes older split
  cases newer with
  | nil =>
      obtain ⟨rfl, rfl⟩ := List.cons_eq_cons.mp split
      exact used sck bytes rfl
  | cons first newer =>
      obtain ⟨rfl, rest⟩ := List.cons_eq_cons.mp split
      exact streamed.used newer sck bytes older rest

end Streamed

/-- The open connection, with the bytes of its requests that are still to be sent. -/
def Pending (sck : Int) (bytes : List UInt8) (links : List Link) : Prop :=
  ∃ link older, links = link :: older ∧ link.isOpen = true ∧ link.sck = sck ∧
    link.sent ++ bytes = link.requests.flatten

/-- The queue accounts for what the open connection was not sent yet. -/
structure Flow (h : Client) (cells : Cells) : Prop where
  queue : Represents h.heap h.send cells
  backlog : Backlog cells
  streamed : Streamed h.trace
  live : h.isck ≠ -1 → Pending h.isck (unsentBytes cells) (linksOf h.trace)
  dead : h.isck = -1 → Idle (linksOf h.trace)

theorem Pending.isOpen {sck : Int} {bytes : List UInt8} {links : List Link}
    (pending : Pending sck bytes links) : IsOpen sck links := by
  obtain ⟨link, older, split, isOpen, same, _⟩ := pending
  exact ⟨link, older, split, isOpen, same⟩

theorem sent_onOpen {change : Link → Link} {link : Link} {older : List Link}
    (isOpen : link.isOpen = true)
    (before : ∀ other ∈ link :: older, other.sent <+: other.requests.flatten)
    (changed : (change link).sent <+: (change link).requests.flatten) :
    ∀ other ∈ onOpen change (link :: older), other.sent <+: other.requests.flatten := by
  rw [onOpen_cons isOpen]
  intro other member
  rcases List.mem_cons.mp member with rfl | old
  · exact changed
  · exact before other (List.mem_cons_of_mem link old)

namespace Flow

variable {h : Client} {cells : Cells}

theorem of_same {t : Client} (flow : Flow h cells) (heap : t.heap = h.heap)
    (send : t.send = h.send) (isck : t.isck = h.isck) (trace : t.trace = h.trace) :
    Flow t cells := by
  obtain ⟨queue, backlog, streamed, live, dead⟩ := flow
  refine ⟨?_, backlog, ?_, ?_, ?_⟩
  · rw [heap, send]
    exact queue
  · rw [trace]
    exact streamed
  · rw [isck, trace]
    exact live
  · rw [isck, trace]
    exact dead

theorem opened (flow : Flow h []) (sck : Nat) : Flow (openIsck sck h) [] := by
  have live : Pending sck [] ({ sck := sck } :: linksOf h.trace) := ⟨_, _, rfl, rfl, rfl, rfl⟩
  refine ⟨flow.queue, flow.backlog, ?_, fun _ => live, ?_⟩
  · apply flow.streamed.cons
    · intro link member
      rcases List.mem_cons.mp member with rfl | old
      · exact List.prefix_rfl
      · exact flow.streamed.sent link old
    · intro other bytes sends
      cases sends
  · intro closed
    have negative : (sck : Int) = -1 := closed
    omega

theorem closed (flow : Flow h cells) (connected : h.isck ≠ -1) :
    Flow (closeIsck h) cells := by
  obtain ⟨link, older, split, isOpen, _, accounted⟩ := flow.live connected
  have before := flow.streamed.sent
  rw [split] at before
  have links : linksOf (closeIsck h).trace = link.close :: older := by
    show onOpen .close (linksOf h.trace) = _
    rw [split, onOpen_cons isOpen]
  refine ⟨flow.queue, flow.backlog, ?_, fun other => absurd rfl other, ?_⟩
  · apply flow.streamed.cons
    · show ∀ other ∈ onOpen .close (linksOf h.trace), _
      rw [split]
      exact sent_onOpen isOpen before ⟨_, accounted⟩
    · intro other bytes sends
      cases sends
  · intro _
    rw [links]
    exact idle_closed rfl older

theorem queued (flow : Flow h cells) {node : Nat} (free : h.heap.lookup node = none)
    {request : List UInt8} (nonempty : 0 < request.length) :
    Flow (queueRequest node request h) (cells ++ [(node, ⟨0, request⟩)]) := by
  have queue := push_represents flow.queue (⟨0, request⟩ : SendT) free
  have backlog := flow.backlog.append node nonempty
  have before := flow.streamed.sent
  by_cases connected : h.isck = -1
  · have idle := flow.dead connected
    refine ⟨queue, backlog, ?_, fun other => absurd connected other, fun _ => ?_⟩
    · apply flow.streamed.cons
      · show ∀ link ∈ onOpen (.build request) (linksOf h.trace), _
        rw [idle]
        exact before
      · intro other bytes sends
        cases sends
    · show Idle (onOpen (.build request) (linksOf h.trace))
      rw [idle]
      exact idle
  · obtain ⟨link, older, split, isOpen, same, accounted⟩ := flow.live connected
    have longer : link.sent ++ (unsentBytes cells ++ request) =
        (link.build request).requests.flatten := by
      rw [← List.append_assoc, accounted]
      simp [Link.build]
    refine ⟨queue, backlog, ?_, fun _ => ?_, fun other => absurd other connected⟩
    · apply flow.streamed.cons
      · show ∀ link ∈ onOpen (.build request) (linksOf h.trace), _
        rw [split] at before ⊢
        exact sent_onOpen isOpen before ⟨_, longer⟩
      · intro other bytes sends
        cases sends
    · refine ⟨link.build request, older, ?_, isOpen, same, ?_⟩
      · show onOpen (.build request) (linksOf h.trace) = _
        rw [split, onOpen_cons isOpen]
      · rw [TtyReader.unsentBytes_append]
        exact longer

theorem sent (flow : Flow h cells) (connected : h.isck ≠ -1) {address : Nat}
    {node : Node SendT} (starts : h.send.head = some address)
    (allocated : h.heap.lookup address = some node) (count : Nat) :
    ∃ left, Flow (advance address count node
      (h.emit (.send h.isck (node.value.unsent.take count)))) left := by
  obtain ⟨link, older, split, isOpen, same, accounted⟩ := flow.live connected
  obtain ⟨rest, isQueue, finished, unfinished⟩ :=
    flow.backlog.sent flow.queue starts allocated count rfl
  have links : linksOf (.send h.isck (node.value.unsent.take count) :: h.trace) =
      link.send (node.value.unsent.take count) :: older := by
    rw [linksOf, split, onOpen_cons isOpen]
  have pending (left : Cells)
      (rejoined : node.value.unsent.take count ++ unsentBytes left = unsentBytes cells) :
      (link.send (node.value.unsent.take count)).sent ++ unsentBytes left =
        link.requests.flatten := by
    show link.sent ++ _ ++ _ = link.requests.flatten
    rw [List.append_assoc, rejoined, accounted]
  have streamed (left : Cells)
      (rejoined : node.value.unsent.take count ++ unsentBytes left = unsentBytes cells) :
      Streamed (.send h.isck (node.value.unsent.take count) :: h.trace) := by
    apply flow.streamed.cons
    · rw [linksOf]
      have before := flow.streamed.sent
      rw [split] at before ⊢
      exact sent_onOpen isOpen before ⟨_, pending left rejoined⟩
    · intro sck bytes sends
      cases sends
      exact (flow.live connected).isOpen
  unfold advance
  dsimp only
  split
  · rename_i all
    obtain ⟨queue, backlog, rejoined⟩ := finished all
    refine ⟨rest, queue, backlog, streamed rest rejoined, fun _ => ?_,
      fun other => absurd other connected⟩
    exact ⟨_, older, links, isOpen, same, pending rest rejoined⟩
  · rename_i part
    obtain ⟨queue, backlog, rejoined⟩ := unfinished (Nat.lt_of_not_le part)
    refine ⟨_, queue, backlog, streamed _ rejoined, fun _ => ?_,
      fun other => absurd other connected⟩
    exact ⟨_, older, links, isOpen, same, pending _ rejoined⟩

theorem cleared (flow : Flow h cells) (closed : h.isck = -1) : Flow (clearOutQueue h) [] :=
  ⟨empty_represents _, Backlog.nil, flow.streamed, fun connected => absurd closed connected,
    flow.dead⟩

end Flow

end RenogyX10.Influx
