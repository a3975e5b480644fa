import RenogyX10.TtyReader.Blind
import RenogyX10.TtyReader.FanOut

set_option autoImplicit false

namespace RenogyX10.TtyReader

open Keyed LinkedQueue Parse Proc

/-- Each peer with its queue. -/
abbrev Rows := List (TtyPeerInfo × Cells)

/-- The nodes of all queues. -/
def nodesOf (rows : Rows) : List Nat := rows.flatMap fun row => addresses row.2

structure Shelved (heap : Heap SendT) (rows : Rows) : Prop where
  queue : ∀ row ∈ rows, Represents heap row.1.send row.2
  backlog : ∀ row ∈ rows, Backlog row.2
  apart : (nodesOf rows).Nodup

theorem nodesOf_append (front back : Rows) :
    nodesOf (front ++ back) = nodesOf front ++ nodesOf back :=
  List.flatMap_append

theorem nodesOf_cons (row : TtyPeerInfo × Cells) (rest : Rows) :
    nodesOf (row :: rest) = addresses row.2 ++ nodesOf rest :=
  List.flatMap_cons

theorem mem_nodesOf {rows : Rows} {row : TtyPeerInfo × Cells} {address : Nat} (member : row ∈ rows)
    (present : address ∈ addresses row.2) : address ∈ nodesOf rows :=
  List.mem_flatMap.mpr ⟨row, member, present⟩

theorem nodesOf_perm {rows others : Rows} (perm : rows.Perm others) :
    (nodesOf rows).Perm (nodesOf others) :=
  perm.flatMap_right _

namespace Shelved

variable {heap other : Heap SendT} {rows front back : Rows} {row fresh : TtyPeerInfo × Cells}

theorem nil (heap : Heap SendT) : Shelved heap [] := by
  refine ⟨?_, ?_, List.nodup_nil⟩ <;> intro row member <;> cases member

theorem frame (shelved : Shelved heap rows)
    (same : ∀ address ∈ nodesOf rows, other.lookup address = heap.lookup address) :
    Shelved other rows := by
  refine ⟨?_, shelved.backlog, shelved.apart⟩
  intro row member
  apply (shelved.queue row member).frame
  exact fun address present => same address (mem_nodesOf member present)

theorem perm {others : Rows} (shelved : Shelved heap rows) (perm : rows.Perm others) :
    Shelved heap others := by
  refine ⟨?_, ?_, (nodesOf_perm perm).nodup_iff.mp shelved.apart⟩
  · exact fun row member => shelved.queue row (perm.mem_iff.mpr member)
  · exact fun row member => shelved.backlog row (perm.mem_iff.mpr member)

theorem of_cons (shelved : Shelved heap (row :: rows)) : Shelved heap rows := by
  have apart := shelved.apart
  rw [nodesOf_cons] at apart
  refine ⟨?_, ?_, (List.nodup_append.mp apart).2.1⟩
  · exact fun other member => shelved.queue other (List.mem_cons_of_mem row member)
  · exact fun other member => shelved.backlog other (List.mem_cons_of_mem row member)

theorem others (shelved : Shelved heap (front ++ row :: back)) : Shelved heap (front ++ back) :=
  (shelved.perm List.perm_middle).of_cons

theorem queue_unique (shelved : Shelved heap rows) (member : row ∈ rows) {cells : Cells}
    (represents : Represents heap row.1.send cells) : cells = row.2 :=
  represents.chain.unique (shelved.queue row member).chain

theorem allocated (shelved : Shelved heap rows) {address : Nat} (present : address ∈ nodesOf rows) :
    heap.lookup address ≠ none := by
  obtain ⟨row, member, inside⟩ := List.mem_flatMap.mp present
  exact (shelved.queue row member).chain.lookup_ne_none inside

theorem outside (shelved : Shelved heap (front ++ row :: back)) {address : Nat}
    (present : address ∈ addresses row.2) : address ∉ nodesOf (front ++ back) := by
  have first : Shelved heap (row :: (front ++ back)) := shelved.perm List.perm_middle
  have apart := first.apart
  rw [nodesOf_cons, List.nodup_append] at apart
  exact fun elsewhere => apart.2.2 address present address elsewhere rfl

theorem replace (shelved : Shelved heap (front ++ row :: back))
    (represents : Represents other fresh.1.send fresh.2) (backlog : Backlog fresh.2)
    (frame : ∀ address ∈ nodesOf (front ++ back),
      other.lookup address = heap.lookup address ∧ address ∉ addresses fresh.2) :
    Shelved other (front ++ fresh :: back) := by
  have others : Shelved other (front ++ back) :=
    shelved.others.frame fun address present => (frame address present).1
  suffices next : Shelved other (fresh :: (front ++ back)) from next.perm List.perm_middle.symm
  refine ⟨?_, ?_, ?_⟩
  · intro member isMember
    rcases List.mem_cons.mp isMember with rfl | old
    · exact represents
    · exact others.queue member old
  · intro member isMember
    rcases List.mem_cons.mp isMember with rfl | old
    · exact backlog
    · exact others.backlog member old
  · rw [nodesOf_cons, List.nodup_append]
    refine ⟨represents.distinct, others.apart, ?_⟩
    intro address present elsewhere isElsewhere same
    exact (frame elsewhere isElsewhere).2 (same ▸ present)

theorem replace_same (shelved : Shelved heap (front ++ row :: back)) {peer : TtyPeerInfo}
    (same : peer.send = row.1.send) : Shelved heap (front ++ (peer, row.2) :: back) := by
  have member : row ∈ front ++ row :: back := List.mem_append_right front List.mem_cons_self
  apply shelved.replace
  · rw [same]
    exact shelved.queue row member
  · exact shelved.backlog row member
  · intro address elsewhere
    exact ⟨rfl, fun present => shelved.outside present elsewhere⟩

theorem push (shelved : Shelved heap (front ++ row :: back)) {node : Nat} {frame : List UInt8}
    (free : heap.lookup node = none) (nonempty : 0 < frame.length) :
    Shelved (LinkedQueue.push heap row.1.send node ⟨0, frame⟩).1
      (front ++ ({ row.1 with send := (LinkedQueue.push heap row.1.send node ⟨0, frame⟩).2 },
        row.2 ++ [(node, ⟨0, frame⟩)]) :: back) := by
  have member : row ∈ front ++ row :: back := List.mem_append_right front List.mem_cons_self
  have queue := shelved.queue row member
  apply shelved.replace
  · exact push_represents queue _ free
  · exact (shelved.backlog row member).append node nonempty
  · intro address elsewhere
    have outside : address ∉ addresses row.2 := fun present => shelved.outside present elsewhere
    have apart : address ≠ node := by
      rintro rfl
      exact shelved.others.allocated elsewhere free
    refine ⟨push_lookup_ne _ _ _ apart fun isTail => outside (queue.tail_mem isTail), ?_⟩
    rw [addresses_append, List.mem_append, not_or]
    exact ⟨outside, fun last => apart (List.mem_singleton.mp last)⟩

theorem concat (shelved : Shelved heap rows) {peer : TtyPeerInfo} (unqueued : peer.send = empty) :
    Shelved heap (rows ++ [(peer, [])]) := by
  suffices next : Shelved heap ((peer, []) :: rows) from
    next.perm (List.perm_append_singleton _ _).symm
  refine ⟨?_, ?_, shelved.apart⟩
  · intro row member
    rcases List.mem_cons.mp member with rfl | old
    · rw [unqueued]
      exact empty_represents heap
    · exact shelved.queue row old
  · intro row member
    rcases List.mem_cons.mp member with rfl | old
    · exact Backlog.nil
    · exact shelved.backlog row old

end Shelved

/-- The queues are in order, no peer is marked, and these are the descriptors. -/
structure Tidy (scks : List Int) (s : Sys) : Prop where
  rows : ∃ rows : Rows, rows.map Prod.fst = s.info.peerList ∧ Shelved s.heap rows
  unmarked : ∀ peer ∈ s.info.peerList, peer.delme = false
  scks : s.info.peerList.map TtyPeerInfo.sck = scks

/-- Addresses the allocator may hand out. -/
def Unused (nodes : List Nat) (s : Sys) : Prop := ∀ address ∈ nodes, s.heap.lookup address = none

variable {scks : List Int} {nodes : List Nat} {s t : Sys}

theorem Tidy.of_same (tidy : Tidy scks s) (heap : t.heap = s.heap)
    (peers : t.info.peerList = s.info.peerList) : Tidy scks t := by
  obtain ⟨rows, isRows, shelved⟩ := tidy.rows
  refine ⟨⟨rows, isRows.trans peers.symm, ?_⟩, ?_, ?_⟩
  · rw [heap]
    exact shelved
  · rw [peers]
    exact tidy.unmarked
  · rw [peers]
    exact tidy.scks

theorem Tidy.concat (tidy : Tidy scks s) {sck : Int} (heap : t.heap = s.heap)
    (peers : t.info.peerList = s.info.peerList ++ [{ sck := sck }]) : Tidy (scks ++ [sck]) t := by
  obtain ⟨rows, isRows, shelved⟩ := tidy.rows
  refine ⟨⟨rows ++ [({ sck := sck }, [])], ?_, ?_⟩, ?_, ?_⟩
  · rw [List.map_append, isRows, peers]
    rfl
  · rw [heap]
    exact shelved.concat rfl
  · intro peer member
    rw [peers] at member
    rcases List.mem_append.mp member with old | new
    · exact tidy.unmarked peer old
    · rw [List.mem_singleton.mp new]
  · rw [peers, List.map_append, tidy.scks]
    rfl

theorem queueFrame_tidy (tidy : Tidy scks s) {index node : Nat} {frame : List UInt8}
    (free : s.heap.lookup node = none) (nonempty : 0 < frame.length) :
    Tidy scks (queueFrame index node frame s) ∧ ∀ other, other ≠ node →
      s.heap.lookup other = none → (queueFrame index node frame s).heap.lookup other = none := by
  unfold queueFrame
  cases found : s.info.peerList[index]? with
  | none => exact ⟨tidy, fun other _ unused => unused⟩
  | some peer =>
      obtain ⟨rows, isRows, shelved⟩ := tidy.rows
      have atIndex := found
      rw [← isRows, List.getElem?_map] at atIndex
      obtain ⟨⟨owner, cells⟩, isRow, same⟩ := Option.map_eq_some_iff.mp atIndex
      obtain rfl : owner = peer := same
      obtain ⟨inside, isAt⟩ := List.getElem?_eq_some_iff.mp isRow
      have member : (owner, cells) ∈ rows := List.mem_of_getElem? isRow
      have queue := shelved.queue _ member
      have next : Shelved (push s.heap owner.send node ⟨0, frame⟩).1 (rows.set index
          ({ owner with send := (push s.heap owner.send node ⟨0, frame⟩).2 },
            cells ++ [(node, ⟨0, frame⟩)])) := by
        rw [List.set_eq_take_append_cons_drop, if_pos inside]
        have split : rows = rows.take index ++ (owner, cells) :: rows.drop (index + 1) := by
          rw [← isAt, ← List.drop_eq_getElem_cons inside, List.take_append_drop]
        rw [split] at shelved
        exact shelved.push free nonempty
      refine ⟨⟨⟨_, ?_, next⟩, ?_, ?_⟩, ?_⟩
      · rw [List.map_set, isRows]
      · intro other isOther
        rcases List.mem_or_eq_of_mem_set isOther with old | rfl
        · exact tidy.unmarked other old
        · exact tidy.unmarked owner (List.mem_of_getElem? found)
      · rw [← tidy.scks]
        exact map_set found rfl
      · intro other apart unused
        have outside := queue.chain.not_mem_of_free unused
        rw [← unused]
        exact push_lookup_ne _ _ _ apart fun isTail => outside (queue.tail_mem isTail)

/-- Publishing a frame, whether or not there is memory for all peers. -/
theorem fanOut_tidy (lib : ParseLib) {kind : Kind} {idInfo : TtyIdInfo} {regs : List UInt16}
    (full : regs.length = (idInfo.count kind).toNat) (distinct : nodes.Nodup)
    (unused : Unused nodes s) (tidy : Tidy scks s) (count : Nat) :
    (fanOut lib kind idInfo regs nodes count s).Meets
      (fun t => Tidy scks t ∧ Unused (nodes.drop count) t) (Tidy scks) (Tidy scks) := by
  by_cases small : (idInfo.count kind).toNat ≤ 121
  · induction count with
    | zero => exact ⟨tidy, unused⟩
    | succ count ih =>
        rw [fanOut]
        apply meets_bind ih
        intro _ t reached
        have stillTidy : Tidy scks t := reached.1
        have stillUnused : Unused (nodes.drop count) t := reached.2
        rw [bind_of_ok (encodeFrame_of_le lib kind idInfo regs full small t)]
        cases given : nodes[count]? with
        | none => exact stillTidy
        | some node =>
            obtain ⟨inside, isNode⟩ := List.getElem?_eq_some_iff.mp given
            have split : nodes.drop count = node :: nodes.drop (count + 1) := by
              rw [← isNode]
              exact List.drop_eq_getElem_cons inside
            have apart := distinct.sublist (List.drop_sublist count nodes)
            rw [split, List.nodup_cons] at apart
            have nonempty : 0 < (frameOf kind idInfo regs).length := by
              rw [frameOf_length]
              omega
            have free : t.heap.lookup node = none :=
              stillUnused node (split ▸ List.mem_cons_self)
            refine ⟨(queueFrame_tidy stillTidy free nonempty).1, fun address later => ?_⟩
            apply (queueFrame_tidy stillTidy free nonempty).2 address
            · rintro rfl
              exact apart.1 later
            · exact stillUnused address (split ▸ List.mem_cons_of_mem node later)
  · cases count with
    | zero => exact ⟨tidy, unused⟩
    | succ count =>
        rw [fanOut_overflow lib (Nat.lt_of_not_le small)]
        exact tidy

theorem processTtyIdInfo_tidy (lib : ParseLib) {io : ReadIo} (idInfo : TtyIdInfo)
    (distinct : io.nodes.Nodup) (unused : Unused io.nodes s) (tidy : Tidy scks s) :
    (processTtyIdInfo lib io idInfo s).Meets (Tidy scks) (Tidy scks) (Tidy scks) := by
  have called : Tidy scks (noteCall io idInfo s) := tidy.of_same rfl rfl
  have stillUnused : Unused io.nodes (noteCall io idInfo s) := unused
  unfold processTtyIdInfo
  rw [modify_bind]
  apply meets_guard_bind
  · exact called
  · rw [read_bind]
    cases selectKind (noteCall io idInfo s).info.idListSubIndex with
    | none => exact called
    | some kind =>
        unfold readRegisters
        apply meets_guard_bind
        · exact called
        · rw [read_bind]
          apply meets_bind (fanOut_tidy lib (io.buffer_length _) distinct stillUnused called _)
          intro _ t ⟨stillTidy, _⟩
          exact stillTidy.of_same rfl rfl

theorem castTimeout_tidy (value : Int) : Keeps (Tidy scks) (castTimeout value) := by
  unfold castTimeout
  refine .bind ?_ fun _ => .bind (.orAbort _) fun _ => .pure _
  exact .modify fun s tidy => tidy.of_same rfl rfl

theorem checkModbus_tidy (lib : ParseLib) {io : CheckIo} (distinct : io.read.nodes.Nodup)
    (unused : Unused io.read.nodes s) (tidy : Tidy scks s) :
    Tidy scks (checkModbus lib io s).state := by
  by_cases close : s.info.TooClose io.now
  · rw [checkModbus_tooClose lib close]
    exact castTimeout_tidy _ _ (tidy.of_same rfl rfl)
  · by_cases due : s.info.nmt io.now ≤ io.now
    · cases found : (getNextIdInfo s.info).1 with
      | none =>
          rw [checkModbus_passEnd lib close due found]
          exact castTimeout_tidy _ _ (tidy.of_same rfl rfl)
      | some idInfo =>
          rw [checkModbus_call lib close due found]
          have begun : Tidy scks (setNext (io.now + s.info.itemMstime) (takeNext s)) :=
            tidy.of_same rfl rfl
          have stillUnused : Unused io.read.nodes
              (setNext (io.now + s.info.itemMstime) (takeNext s)) := unused
          have read := processTtyIdInfo_tidy lib idInfo distinct stillUnused begun
          apply Keeps.bind_at (meets_state read)
          intro _
          exact .bind (.modify fun t read => read.of_same rfl rfl) fun _ => castTimeout_tidy _
    · rw [checkModbus_idle lib due]
      exact castTimeout_tidy _ _ tidy

theorem scheduleReads_tidy (lib : ParseLib) {io : CheckIo} (distinct : io.read.nodes.Nodup)
    (unused : Unused io.read.nodes s) (tidy : Tidy scks s) :
    Tidy scks (scheduleReads lib io s).state := by
  unfold scheduleReads
  simp only [read_bind, ite_run]
  split
  · exact tidy.of_same rfl rfl
  · exact Keeps.bind_at (checkModbus_tidy lib distinct unused tidy) fun _ => .pure ()

end RenogyX10.TtyReader
