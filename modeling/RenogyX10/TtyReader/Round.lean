import RenogyX10.TtyReader.Entries

set_option autoImplicit false

namespace RenogyX10.TtyReader

open Keyed LinkedQueue Parse Proc

theorem closedIn_closes (removed : List TtyPeerInfo) :
    closedIn (closes removed) = (removed.map TtyPeerInfo.sck).reverse := by
  induction removed with
  | nil => rfl
  | cons peer rest ih =>
      rw [closes_cons, closedIn_append, ih, List.map_cons, List.reverse_cons]
      rfl

theorem Shelved.freePeers {heap : Heap SendT} {gone left : Rows}
    (shelved : Shelved heap (gone ++ left)) :
    Shelved (freePeers heap (gone.map Prod.fst)) left ∧
      (∀ address ∈ nodesOf gone, (freePeers heap (gone.map Prod.fst)).lookup address = none) ∧
      ∀ address ∉ nodesOf gone,
        (freePeers heap (gone.map Prod.fst)).lookup address = heap.lookup address := by
  induction gone generalizing heap with
  | nil => exact ⟨shelved, nofun, fun _ _ => rfl⟩
  | cons row rest ih =>
      have queue := shelved.queue row List.mem_cons_self
      have frame (address : Nat) (outside : address ∉ addresses row.2) :
          (freeAll heap row.1.send.head).lookup address = heap.lookup address :=
        freeAll_lookup_ne queue.chain queue.distinct outside
      have apart (address : Nat) (present : address ∈ addresses row.2) :
          address ∉ nodesOf (rest ++ left) := by
        rw [List.cons_append, ← List.nil_append (row :: (rest ++ left))] at shelved
        exact shelved.outside present
      have others : Shelved (freeAll heap row.1.send.head) (rest ++ left) := by
        apply shelved.of_cons.frame
        exact fun address elsewhere => frame address fun present => apart address present elsewhere
      obtain ⟨stays, freed, same⟩ := ih others
      refine ⟨stays, ?_, ?_⟩
      · intro address member
        rw [nodesOf_cons, List.mem_append] at member
        by_cases later : address ∈ nodesOf rest
        · exact freed address later
        · have here := member.resolve_right later
          exact (same address later).trans (freeAll_lookup queue.chain queue.distinct here)
      · intro address outside
        rw [nodesOf_cons, List.mem_append, not_or] at outside
        exact (same address outside.2).trans (frame address outside.1)

/-- The peers that stay, after a round. -/
def staying (heap : Heap SendT) (table : List (TtyPeerInfo × PeerIo)) : List TtyPeerInfo :=
  (table.filter fun entry => !entry.2.fails entry.1).map fun entry => entry.2.serve heap entry.1

/-- The peers that are removed in a round. -/
def leaving (table : List (TtyPeerInfo × PeerIo)) : List TtyPeerInfo :=
  (table.filter fun entry => entry.2.fails entry.1).map Prod.fst

/-- What a round does. In `table` each peer is with its answers; the peers that leave
are closed once each, with all their nodes freed, and where no send was possible nothing
of the peer and its queue has changed. -/
structure Served (table : List (TtyPeerInfo × PeerIo)) (s t : Sys) : Prop where
  stay : t.info.peerList.Perm (staying s.heap table)
  closed : ∃ events, t.trace = events ++ s.trace ∧
    (closedIn events).Perm ((leaving table).map TtyPeerInfo.sck)
  freed : ∀ peer ∈ leaving table, ∀ cells, Represents s.heap peer.send cells →
    ∀ address ∈ addresses cells, t.heap.lookup address = none
  kept : ∀ entry ∈ table, entry.2.fails entry.1 = false → entry.2.pollOut = false →
    entry.1 ∈ t.info.peerList ∧
      ∀ cells, Represents s.heap entry.1.send cells → Represents t.heap entry.1.send cells

section Removal

variable {rows after : Rows} {answers : List PeerIo} {s u : Sys}

theorem Drawn.served (drawn : Drawn [] [] (entriesOf rows answers) after s u) :
    after.map Prod.fst = (entriesOf (rows.map Prod.fst) answers).map fun entry =>
      entry.2.serve s.heap entry.1 := by
  rw [entriesOf_map, List.map_map, ← List.forall₂_eq_eq_eq, List.forall₂_map_left_iff,
    List.forall₂_map_right_iff]
  exact drawn.rows.flip.imp fun _ _ drew => drew.peer

theorem Drawn.entry (drawn : Drawn [] [] (entriesOf rows answers) after s u)
    {entry : TtyPeerInfo × PeerIo} (member : entry ∈ entriesOf (rows.map Prod.fst) answers) :
    ∃ row ∈ rows, row.1 = entry.1 ∧ ∃ next ∈ after, Drew s.heap u.heap (row, entry.2) next := by
  rw [entriesOf_map] at member
  obtain ⟨whole, isEntry, rfl⟩ := List.mem_map.mp member
  have isRow := List.mem_map_of_mem (f := Prod.fst) isEntry
  rw [entriesOf_fst] at isRow
  obtain ⟨next, isNext, drew⟩ := exists_of_forall₂ drawn.rows isEntry
  exact ⟨whole.1, isRow, rfl, next, isNext, drew⟩

/-- What the peers that leave had queued is freed: a finished head node by its send, all
others when the peer is removed. -/
theorem Drawn.freed (drawn : Drawn [] [] (entriesOf rows answers) after s u)
    (shelved : Shelved s.heap rows) {gone : Rows} {heap : Heap SendT}
    (isGone : gone.Perm (after.filter fun row => row.1.delme))
    (freed : ∀ address ∈ nodesOf gone, heap.lookup address = none)
    (same : ∀ address ∉ nodesOf gone, heap.lookup address = u.heap.lookup address) :
    ∀ peer ∈ leaving (entriesOf (rows.map Prod.fst) answers), ∀ cells,
      Represents s.heap peer.send cells → ∀ address ∈ addresses cells,
        heap.lookup address = none := by
  intro peer member cells represents address present
  obtain ⟨entry, isEntry, rfl⟩ := List.mem_map.mp member
  obtain ⟨inTable, fails⟩ := List.mem_filter.mp isEntry
  obtain ⟨row, isRow, sameRow, next, isNext, drew⟩ := drawn.entry inTable
  have isQueue : cells = row.2 := shelved.queue_unique isRow (sameRow ▸ represents)
  have nextGone : next ∈ gone := by
    apply isGone.mem_iff.mpr
    refine List.mem_filter.mpr ⟨isNext, ?_⟩
    show next.1.delme = true
    rw [drew.peer, PeerIo.serve, sameRow, fails, Bool.or_true]
  by_cases last : address ∈ nodesOf gone
  · exact freed address last
  · refine (same address last).trans (drew.freed address (isQueue ▸ present) ?_)
    exact fun elsewhere => last (mem_nodesOf nextGone elsewhere)

variable (drawn : Drawn [] [] (entriesOf rows answers) after s u)
  (unmarked : ∀ row ∈ rows, row.1.delme = false)
include drawn unmarked

theorem Drawn.marks (p : Bool → Bool) :
    (after.filter fun row => p row.1.delme).map Prod.fst =
      ((entriesOf (rows.map Prod.fst) answers).filter fun entry =>
        p (entry.2.fails entry.1)).map fun entry => entry.2.serve s.heap entry.1 := by
  have mark : ∀ entry ∈ entriesOf (rows.map Prod.fst) answers,
      p (entry.2.serve s.heap entry.1).delme = p (entry.2.fails entry.1) := by
    intro entry member
    obtain ⟨row, isRow, same, _⟩ := drawn.entry member
    rw [PeerIo.serve, ← same, unmarked row isRow, Bool.false_or]
  calc (after.filter fun row => p row.1.delme).map Prod.fst
      = (after.map Prod.fst).filter fun peer => p peer.delme := by rw [List.filter_map]; rfl
    _ = ((entriesOf (rows.map Prod.fst) answers).filter fun entry =>
          p (entry.2.serve s.heap entry.1).delme).map fun entry =>
            entry.2.serve s.heap entry.1 := by rw [drawn.served, List.filter_map]; rfl
    _ = _ := by rw [List.filter_congr mark]

theorem Drawn.kept (shelved : Shelved s.heap rows) {left : Rows} {heap : Heap SendT}
    (isLeft : left.Perm (after.filter fun row => !row.1.delme)) (stays : Shelved heap left) :
    ∀ entry ∈ entriesOf (rows.map Prod.fst) answers, entry.2.fails entry.1 = false →
      entry.2.pollOut = false → entry.1 ∈ left.map Prod.fst ∧
        ∀ cells, Represents s.heap entry.1.send cells → Represents heap entry.1.send cells := by
  intro entry inTable stayed quiet
  obtain ⟨row, isRow, sameRow, next, isNext, drew⟩ := drawn.entry inTable
  have unchanged : next.1 = entry.1 := by
    rw [drew.peer, PeerIo.serve, sameRow, stayed, PeerIo.drain_quiet quiet, Bool.or_false]
  have nextLeft : next ∈ left := by
    apply isLeft.mem_iff.mpr
    refine List.mem_filter.mpr ⟨isNext, ?_⟩
    rw [unchanged, ← sameRow, unmarked row isRow]
    rfl
  refine ⟨unchanged ▸ List.mem_map_of_mem nextLeft, ?_⟩
  intro cells represents
  have isQueue : cells = next.2 := by
    rw [drew.quiet quiet]
    exact shelved.queue_unique isRow (sameRow ▸ represents)
  rw [isQueue, ← unchanged]
  exact stays.queue next nextLeft

theorem Drawn.removed (shelved : Shelved s.heap rows) :
    Served (entriesOf (rows.map Prod.fst) answers) s (removeDelme u.info.peerList.length u) ∧
      ∃ left : Rows, left.map Prod.fst = (removeDelme u.info.peerList.length u).info.peerList ∧
        Shelved (removeDelme u.info.peerList.length u).heap left := by
  have peers : u.info.peerList = after.map Prod.fst := by
    rw [drawn.peers, List.append_nil, List.nil_append]
  obtain ⟨goneMarked, leftUnmarked⟩ := sweep_length_perm (fun row => row.1.delme) after
  rw [removeDelme_eq, peers, sweep_map, List.length_map]
  generalize sweep (fun row => row.1.delme) after.length after = parts at goneMarked leftUnmarked ⊢
  obtain ⟨gone, left⟩ := parts
  have shelvedAfter : Shelved u.heap after := by
    have all := drawn.shelved
    rwa [List.append_nil, List.nil_append] at all
  have joined : (gone ++ left).Perm after :=
    (goneMarked.append leftUnmarked).trans (List.filter_append_perm _ after)
  obtain ⟨stays, freed, same⟩ := (shelvedAfter.perm joined.symm).freePeers
  refine ⟨⟨?_, ?_, drawn.freed shelved goneMarked freed same,
    drawn.kept unmarked shelved leftUnmarked stays⟩, left, rfl, stays⟩
  · exact (leftUnmarked.map Prod.fst).trans (.of_eq (drawn.marks unmarked fun mark => !mark))
  · obtain ⟨sends, isSends, unclosed⟩ := drawn.sends
    refine ⟨closes (gone.map Prod.fst) ++ sends, ?_, ?_⟩
    · rw [List.append_assoc, ← isSends]
    · rw [closedIn_append, unclosed, List.append_nil, closedIn_closes]
      have marked := (goneMarked.map Prod.fst).trans (.of_eq (drawn.marks unmarked id))
      refine (List.reverse_perm _).trans ((marked.map TtyPeerInfo.sck).trans (.of_eq ?_))
      rw [leaving, List.map_map, List.map_map]
      rfl

end Removal

/-- The peers are in order and no two have the same descriptor. -/
def Orderly (s : Sys) : Prop := ∃ scks, Tidy scks s ∧ (descriptors scks).Nodup

/-- The polled connections, and perhaps one that was accepted after them. -/
def Joined (polled : List Int) (s : Sys) : Prop :=
  ∃ accepted, Tidy (polled ++ accepted) s ∧ (descriptors (polled ++ accepted)).Nodup

/-- One round of `check_peers`, with the answers for the polled peers. -/
structure Round (polled : List Int) (answers : List PeerIo) (s : Sys) : Prop where
  distinct : (descriptors (s.info.peerList.map TtyPeerInfo.sck)).Nodup
  acts : ∃ t, checkPolled (polled.zip answers) s = .ok () t ∧
    t.info.peerList = (entriesOf s.info.peerList (answers.take polled.length)).map fun entry =>
      entry.2.serve s.heap entry.1
  returns : ∃ t, checkPeers (polled.zip answers) s = .ok () t ∧
    Served (entriesOf s.info.peerList (answers.take polled.length)) s t

variable {polled : List Int} {answers : List PeerIo} {s t : Sys}

theorem mem_staying {heap : Heap SendT} {table : List (TtyPeerInfo × PeerIo)}
    (unmarked : ∀ entry ∈ table, entry.1.delme = false) :
    ∀ peer ∈ staying heap table, peer.delme = false := by
  intro peer member
  obtain ⟨entry, isEntry, rfl⟩ := List.mem_map.mp member
  obtain ⟨inTable, stays⟩ := List.mem_filter.mp isEntry
  rw [PeerIo.serve, unmarked entry inTable, Bool.false_or]
  simpa only [Bool.not_eq_true'] using stays

theorem staying_scks (heap : Heap SendT) (table : List (TtyPeerInfo × PeerIo)) :
    ((staying heap table).map TtyPeerInfo.sck).Sublist
      ((table.map Prod.fst).map TtyPeerInfo.sck) := by
  rw [staying, List.map_map, List.map_map]
  exact List.filter_sublist.map _

theorem Served.orderly {table : List (TtyPeerInfo × PeerIo)} (served : Served table s t)
    (distinct : (descriptors ((table.map Prod.fst).map TtyPeerInfo.sck)).Nodup)
    (unmarked : ∀ entry ∈ table, entry.1.delme = false)
    {left : Rows} (isLeft : left.map Prod.fst = t.info.peerList) (shelved : Shelved t.heap left) :
    Orderly t := by
  refine ⟨t.info.peerList.map TtyPeerInfo.sck, ⟨⟨left, isLeft, shelved⟩, ?_, rfl⟩, ?_⟩
  · exact fun peer member => mem_staying unmarked peer (served.stay.mem_iff.mp member)
  · have kept := distinct.sublist ((staying_scks s.heap table).filter _)
    exact ((served.stay.map TtyPeerInfo.sck).filter _).nodup_iff.mpr kept

theorem zip_append_take {α β : Type} (front back : List α) (others : List β) :
    (front ++ back).zip (others.take front.length) = front.zip others := by
  induction front generalizing others with
  | nil => rw [List.length_nil, List.take_zero, List.zip_nil_right]; rfl
  | cons first rest ih =>
      cases others with
      | nil => rfl
      | cons other later => exact congrArg ((first, other) :: ·) (ih later)

theorem Joined.round (joined : Joined polled s) (silent : Silent (polled.zip answers)) :
    Round polled answers s ∧
      ∃ t, checkPeers (polled.zip answers) s = .ok () t ∧ Orderly t := by
  obtain ⟨accepted, tidy, distinct⟩ := joined
  obtain ⟨rows, isRows, shelved⟩ := tidy.rows
  have scks : (rows.map fun row => row.1.sck) = polled ++ accepted := by
    rw [← tidy.scks, ← isRows, List.map_map]
    rfl
  rw [← zip_append_take polled accepted, ← scks] at silent
  have peersNow : s.info.peerList = ([] ++ rows).map Prod.fst := isRows.symm
  obtain ⟨u, after, ran, drawn⟩ := checkPolled_drawn peersNow shelved (scks ▸ distinct) silent
  have unmarked : ∀ row ∈ rows, row.1.delme = false := by
    intro row member
    apply tidy.unmarked
    rw [← isRows]
    exact List.mem_map_of_mem member
  obtain ⟨served, left, isLeft, stillShelved⟩ := drawn.removed unmarked shelved
  have peers : u.info.peerList = after.map Prod.fst := by
    rw [drawn.peers, List.append_nil, List.nil_append]
  rw [scks, zip_append_take] at ran
  have returned : checkPeers (polled.zip answers) s =
      .ok () (removeDelme u.info.peerList.length u) := by
    rw [checkPeers, bind_of_ok ran, modify_run]
  rw [isRows] at served
  refine ⟨⟨?_, ⟨u, ran, ?_⟩, ⟨_, returned, served⟩⟩, _, returned, ?_⟩
  · rw [tidy.scks]
    exact distinct
  · rw [peers, drawn.served, isRows]
  · apply served.orderly _ _ isLeft stillShelved
    · rw [entriesOf_fst, tidy.scks]
      exact distinct
    · intro entry member
      have isPeer := List.mem_map_of_mem (f := Prod.fst) member
      rw [entriesOf_fst] at isPeer
      exact tidy.unmarked entry.1 isPeer

/-- What the kernel and the allocator promise of a pass, however little memory there is:
a new connection's descriptor is not open already, poll reports nothing on what is no
descriptor, and new nodes are not in use. -/
structure Promise (s : Sys) (io : LoopIo) : Prop where
  unused : ∀ sck ∈ io.accept, ∀ peer ∈ s.info.peerList, peer.sck ≠ sck
  silent : Silent ((s.info.peerList.map TtyPeerInfo.sck).zip io.peers)
  apart : io.check.read.nodes.Nodup
  free : Unused io.check.read.nodes s

instance (s : Sys) (io : LoopIo) : Decidable (Promise s io) :=
  decidable_of_iff ((∀ sck ∈ io.accept, ∀ peer ∈ s.info.peerList, peer.sck ≠ sck) ∧
    (∀ entry ∈ (s.info.peerList.map TtyPeerInfo.sck).zip io.peers, entry.1 < 0 →
      entry.2.pollIn = false ∧ entry.2.pollOut = false) ∧
    io.check.read.nodes.Nodup ∧ ∀ address ∈ io.check.read.nodes, s.heap.lookup address = none)
    ⟨fun ⟨unused, silent, apart, free⟩ => ⟨unused, silent, apart, free⟩,
      fun promise => ⟨promise.unused, promise.silent, promise.apart, promise.free⟩⟩

/-- The promise, at the point of the run an input arrives. -/
def Promised (d : Daemon) : Input → Prop
  | .loop io => Promise d.sys io
  | _ => True

instance (d : Daemon) : ∀ input, Decidable (Promised d input)
  | .start _ | .wake _ _ => .isTrue trivial
  | .loop io => inferInstanceAs (Decidable (Promise d.sys io))

/-- The state in which a pass calls `check_peers`, if it gets there from its poll. -/
def atPeers (io : LoopIo) (s : Sys) : Option Sys :=
  if maxPolls < pollCount s ∨ s.info.peerList = [] then none
  else
    match io.poll with
    | .ready false false listen =>
        match Proc.when listen (acceptPeer io.alloc io.accept) s with
        | .ok _ t => some t
        | _ => none
    | _ => none

/-- A pass that gets to `check_peers` makes a round of it, and then the loop goes on. -/
def RoundMade (lib : ParseLib) (d : Daemon) : Input → Prop
  | .loop io => d.ctl = .loop → ∀ s ∈ atPoll lib io d.sys, ∀ t ∈ atPeers io s,
      Round (s.info.peerList.map TtyPeerInfo.sck) io.peers t ∧
      ∃ u, checkPeers ((s.info.peerList.map TtyPeerInfo.sck).zip io.peers) t = .ok () u ∧
        d.step lib (.loop io) = ⟨u, .loop, io.check.done⟩
  | _ => True

variable {scks : List Int}

theorem atPeers_eq_some {io : LoopIo} (called : atPeers io s = some t) :
    ¬ maxPolls < pollCount s ∧ s.info.peerList ≠ [] ∧ ∃ listen value,
      io.poll = .ready false false listen ∧
        Proc.when listen (acceptPeer io.alloc io.accept) s = .ok value t := by
  unfold atPeers at called
  split at called
  · cases called
  · rename_i fits
    rw [not_or] at fits
    split at called
    · rename_i listen poll
      split at called
      · rename_i value u accepted
        cases called
        exact ⟨fits.1, fits.2, listen, value, poll, accepted⟩
      · cases called
    · cases called

theorem ttyMainLoop_atPeers {lib : ParseLib} {io : LoopIo} {start : Sys}
    (reached : atPoll lib io start = some s) (called : atPeers io s = some t) :
    ttyMainLoop lib io start =
      (checkPeers ((s.info.peerList.map TtyPeerInfo.sck).zip io.peers) >>= fun _ =>
        pure false) t := by
  obtain ⟨value, scheduled⟩ := atPoll_eq_some.mp reached
  obtain ⟨fits, some_peer, listen, accepted, poll, ran⟩ := atPeers_eq_some called
  have polled : s.info.peerList.map TtyPeerInfo.sck ≠ [] :=
    fun none => some_peer (List.map_eq_nil_iff.mp none)
  rw [pollCount, ← List.length_map (f := TtyPeerInfo.sck)] at fits
  unfold ttyMainLoop
  rw [bind_of_ok scheduled, read_bind, if_neg fits, poll]
  simp only [Bool.false_eq_true, ↓reduceIte, servePolled]
  rw [bind_assoc, bind_of_ok ran, when_true _ polled]

/-- A new connection, in every way accepting it can end. -/
theorem acceptPeer_joined {io : LoopIo} (listen : Bool) (tidy : Tidy scks s)
    (distinct : (descriptors scks).Nodup) (unused : ∀ sck ∈ io.accept, sck ∉ scks) :
    (Proc.when listen (acceptPeer io.alloc io.accept) s).Meets (Joined scks) Orderly
      fun _ => False := by
  have alone : Joined scks s := ⟨[], by rwa [List.append_nil], by rwa [List.append_nil]⟩
  have orderly : Orderly s := ⟨scks, tidy, distinct⟩
  cases listen with
  | false => exact alone
  | true =>
      rw [when_true _ rfl]
      cases accept : io.accept with
      | none => exact orderly
      | some sck =>
          cases io.alloc with
          | noPlace => exact orderly
          | noBuffer =>
              refine ⟨scks ++ [-1], tidy.concat rfl rfl, ?_⟩
              rw [descriptors_append]
              show (descriptors scks ++ []).Nodup
              rwa [List.append_nil]
          | whole =>
              refine ⟨[sck], tidy.concat rfl rfl, ?_⟩
              rw [descriptors_append]
              refine distinct.append ((List.nodup_singleton sck).filter _) ?_
              intro other old new
              obtain rfl := List.mem_singleton.mp (List.mem_filter.mp new).1
              exact unused other accept (List.mem_filter.mp old).1

theorem Joined.orderly (joined : Joined polled s) : Orderly s := by
  obtain ⟨accepted, tidy, distinct⟩ := joined
  exact ⟨polled ++ accepted, tidy, distinct⟩

theorem servePolled_orderly {io : LoopIo} (listen : Bool) (tidy : Tidy scks s)
    (distinct : (descriptors scks).Nodup) (unused : ∀ sck ∈ io.accept, sck ∉ scks)
    (silent : Silent (scks.zip io.peers)) :
    (servePolled io listen scks s).Meets Orderly Orderly Orderly := by
  unfold servePolled
  have accepted := acceptPeer_joined listen tidy distinct unused
  apply meets_bind (meets_mono accepted (fun _ joined => joined) (fun _ orderly => orderly) nofun)
  intro _ t joined
  apply meets_when
  · intro _
    obtain ⟨_, u, returned, orderly⟩ := joined.round silent
    rw [returned]
    exact orderly
  · exact fun _ => joined.orderly

theorem Promise.notPolled {io : LoopIo} (promise : Promise s io) (tidy : Tidy scks s) :
    ∀ sck ∈ io.accept, sck ∉ scks := by
  intro sck accepted isPolled
  rw [← tidy.scks] at isPolled
  obtain ⟨peer, member, same⟩ := List.mem_map.mp isPolled
  exact promise.unused sck accepted peer member same

theorem Promise.silentOn {io : LoopIo} (promise : Promise s io) (tidy : Tidy scks s) :
    Silent (scks.zip io.peers) := by
  rw [← tidy.scks]
  exact promise.silent

theorem ttyMainLoop_orderly (lib : ParseLib) {io : LoopIo} (promise : Promise s io)
    (orderly : Orderly s) : Orderly (ttyMainLoop lib io s).state := by
  obtain ⟨scks, tidy, distinct⟩ := orderly
  have scheduled : Leads (Tidy scks) Orderly (scheduleReads lib io.check s) :=
    .of_state (fun _ stillTidy => ⟨scks, stillTidy, distinct⟩)
      (scheduleReads_tidy lib promise.apart promise.free tidy)
  have passed : Leads Orderly Orderly (ttyMainLoop lib io s) := by
    apply ttyMainLoop_rule lib io scheduled
    · exact fun t stillTidy => ⟨scks, stillTidy, distinct⟩
    · exact fun t stays => stays
    · exact fun config _ t stillTidy => ⟨scks, stillTidy.of_same rfl rfl, distinct⟩
    · intro listen t stillTidy
      rw [stillTidy.scks]
      apply meets_state
      exact servePolled_orderly listen stillTidy distinct (promise.notPolled tidy)
        (promise.silentOn tidy)
  exact passed.state fun _ stays => stays

theorem processTtyInfo_tidy (io : StartIo) : Keeps (Tidy scks) (processTtyInfo io) := by
  refine .bind (.guard _ _) fun _ => .bind (.guard _ _) fun _ => .bind (.orAbort _) fun millis => ?_
  refine .bind ?_ fun _ => .bind (.guard _ _) fun _ => .guard _ _
  exact .modify fun s tidy => tidy.of_same rfl rfl

theorem step_orderly (lib : ParseLib) (d : Daemon) (input : Input) (promised : Promised d input)
    (orderly : Orderly d.sys) : Orderly (d.step lib input).sys := by
  obtain ⟨s, ctl, clock⟩ := d
  cases ctl <;> cases input <;> try exact orderly
  case restart.start io =>
    unfold Daemon.step
    dsimp only
    split
    · obtain ⟨scks, tidy, distinct⟩ := orderly
      exact ⟨scks, processTtyInfo_tidy io s tidy, distinct⟩
    · exact orderly
  case loop.loop io => exact ttyMainLoop_orderly lib promised orderly

theorem roundMade_of_orderly (lib : ParseLib) (d : Daemon) (input : Input)
    (promised : Promised d input) (orderly : Orderly d.sys) : RoundMade lib d input := by
  cases input with
  | start io => exact trivial
  | wake time term => exact trivial
  | loop io =>
      intro running s reached t called
      obtain ⟨start, ctl, clock⟩ := d
      obtain rfl : ctl = .loop := running
      obtain ⟨scks, tidy, distinct⟩ := orderly
      obtain ⟨value, scheduled⟩ := atPoll_eq_some.mp reached
      have stillTidy : Tidy scks s := by
        have kept := scheduleReads_tidy lib promised.apart promised.free tidy
        rwa [scheduled] at kept
      obtain ⟨_, _, listen, _, _, ran⟩ := atPeers_eq_some called
      have ended : (Proc.when listen (acceptPeer io.alloc io.accept) s).Meets (Joined scks)
          Orderly fun _ => False :=
        acceptPeer_joined listen stillTidy distinct (promised.notPolled tidy)
      rw [ran] at ended
      have joined : Joined scks t := ended
      obtain ⟨round, u, returned, _⟩ := joined.round (promised.silentOn tidy)
      have polled : s.info.peerList.map TtyPeerInfo.sck = scks := stillTidy.scks
      rw [polled]
      refine ⟨round, u, returned, ?_⟩
      have passed := ttyMainLoop_atPeers reached called
      rw [polled, bind_of_ok returned] at passed
      unfold Daemon.step
      dsimp only
      rw [passed]
      rfl

theorem initial_orderly (config : Config) : Orderly (Sys.initial config) := by
  refine ⟨[], ⟨⟨[], rfl, .nil _⟩, ?_, rfl⟩, List.nodup_nil⟩
  intro peer member
  cases member

/-- In every run every round is as it should be, and the descriptors are distinct in
every state. -/
theorem rounds_made (lib : ParseLib) (config : Config) (clock : Int) (inputs : List Input)
    (promised : Runs.Admits (Daemon.step lib) Promised (Daemon.initial config clock) inputs) :
    (descriptors (((Daemon.initial config clock).run lib inputs).sys.info.peerList.map
      TtyPeerInfo.sck)).Nodup ∧
      Runs.Admits (Daemon.step lib) (RoundMade lib) (Daemon.initial config clock) inputs := by
  constructor
  · obtain ⟨scks, tidy, distinct⟩ : Orderly ((Daemon.initial config clock).run lib inputs).sys :=
      Runs.exec_keeps (step_orderly lib) promised (initial_orderly config)
    rw [tidy.scks]
    exact distinct
  · apply promised.derive (step_orderly lib) (roundMade_of_orderly lib) (initial_orderly config)

/-- A pass in which a client connects. -/
def visited (sck : Int) (alloc : PeerAlloc) (peers : List PeerIo) : Input :=
  .loop { check := checkAt 1000, poll := .ready false false true, setup := .failed,
          accept := some sck, peers := peers, alloc := alloc }

/-- Two clients connect and a third finds no memory for its buffer; after the minute that
`main` sleeps the first client leaves, in a pass in which another one connects. -/
def oneLeaves : List Input :=
  [startUp, visited 5 .whole [], visited 6 .whole [], visited 7 .noBuffer [], .wake 61000 false,
    startUp, visited 8 .whole [⟨true, false, 0, 0⟩]]

/-- The last peer takes the place of the one that left. -/
theorem rounds_made_oneLeaves :
    ((Daemon.initial noDevices 0).run Parse.reference oneLeaves).sys.info.peerList.map
        TtyPeerInfo.sck = [8, 6, -1] ∧
      (descriptors (((Daemon.initial noDevices 0).run Parse.reference
        oneLeaves).sys.info.peerList.map TtyPeerInfo.sck)).Nodup ∧
      Runs.Admits (Daemon.step Parse.reference) (RoundMade Parse.reference)
        (Daemon.initial noDevices 0) oneLeaves := by
  refine ⟨by decide +kernel, rounds_made Parse.reference noDevices 0 oneLeaves ?_⟩
  decide +kernel

end RenogyX10.TtyReader
