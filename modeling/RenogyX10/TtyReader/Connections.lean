import RenogyX10.TtyReader.Blind
import RenogyX10.TtyReader.Delivery

set_option autoImplicit false

namespace RenogyX10.TtyReader

open Keyed LinkedQueue Parse Proc

/-- A read that completed. -/
structure Completed where
  kind : Kind
  idInfo : TtyIdInfo
  regs : List UInt16

def Completed.frame (read : Completed) : List UInt8 := frameOf read.kind read.idInfo read.regs

/-- All registers that were asked for are there, and they fit a frame. -/
structure Completed.Framed (read : Completed) : Prop where
  full : read.regs.length = (read.idInfo.count read.kind).toNat
  small : (read.idInfo.count read.kind).toNat ≤ 121

structure Connection where
  sck : Int
  isOpen : Bool := true
  reads : List Completed := []
  sent : List UInt8 := []

namespace Connection

def read (read : Completed) (c : Connection) : Connection :=
  if c.isOpen then { c with reads := c.reads ++ [read] } else c

def send (bytes : List UInt8) (c : Connection) : Connection := { c with sent := c.sent ++ bytes }

def close (c : Connection) : Connection := { c with isOpen := false }

/-- The frames of its reads. -/
def owed (c : Connection) : List UInt8 := (c.reads.map Completed.frame).flatten

/-- The same connection, later. -/
structure Extends (c d : Connection) : Prop where
  reads : c.reads <+: d.reads
  sent : c.sent <+: d.sent

theorem Extends.refl (c : Connection) : Extends c c := ⟨List.prefix_rfl, List.prefix_rfl⟩

theorem Extends.trans {c d e : Connection} (first : Extends c d) (second : Extends d e) :
    Extends c e :=
  ⟨first.reads.trans second.reads, first.sent.trans second.sent⟩

theorem extends_read (completed : Completed) (c : Connection) :
    Extends c (c.read completed) := by
  unfold read
  split
  · exact ⟨List.prefix_append _ _, List.prefix_rfl⟩
  · exact .refl c

theorem extends_send (bytes : List UInt8) (c : Connection) : Extends c (c.send bytes) :=
  ⟨List.prefix_rfl, List.prefix_append _ _⟩

theorem extends_close (c : Connection) : Extends c c.close :=
  ⟨List.prefix_rfl, List.prefix_rfl⟩

end Connection

/-- A change of the connection that was last accepted on a descriptor. -/
def onNewest (sck : Int) (change : Connection → Connection) : List Connection → List Connection
  | [] => []
  | c :: older => if c.sck = sck then change c :: older else c :: onNewest sck change older

def newest (sck : Int) (connections : List Connection) : Option Connection :=
  connections.find? fun c => c.sck = sck

/-- The connections of a trace, newest first. -/
def connectionsOf : List Event → List Connection
  | [] => []
  | .accept sck :: older => { sck := sck } :: connectionsOf older
  | .read kind idInfo regs :: older => (connectionsOf older).map (.read ⟨kind, idInfo, regs⟩)
  | .send sck bytes :: older => onNewest sck (.send bytes) (connectionsOf older)
  | .close sck :: older => onNewest sck .close (connectionsOf older)
  | _ :: older => connectionsOf older

section Lists

variable {sck other : Int} {change : Connection → Connection} {connections : List Connection}
  {c : Connection}

theorem newest_onNewest (same : ∀ c, (change c).sck = c.sck) :
    newest sck (onNewest sck change connections) = (newest sck connections).map change := by
  induction connections with
  | nil => rfl
  | cons first older ih =>
      rw [onNewest]
      by_cases here : first.sck = sck
      · rw [if_pos here, newest, newest, List.find?_cons_of_pos (by simp [same, here]),
          List.find?_cons_of_pos (by simp [here]), Option.map_some]
      · rw [if_neg here, newest, newest, List.find?_cons_of_neg (by simp [here]),
          List.find?_cons_of_neg (by simp [here])]
        exact ih

theorem newest_onNewest_ne (same : ∀ c, (change c).sck = c.sck) (differs : sck ≠ other) :
    newest sck (onNewest other change connections) = newest sck connections := by
  induction connections with
  | nil => rfl
  | cons first older ih =>
      rw [onNewest]
      by_cases here : first.sck = other
      · have away : first.sck ≠ sck := fun there => differs (there.symm.trans here)
        rw [if_pos here, newest, newest, List.find?_cons_of_neg (by simp [same, away]),
          List.find?_cons_of_neg (by simp [away])]
      · rw [if_neg here, newest, newest, List.find?_cons, List.find?_cons]
        unfold newest at ih
        rw [ih]

theorem newest_map (same : ∀ c, (change c).sck = c.sck) :
    newest sck (connections.map change) = (newest sck connections).map change := by
  rw [newest, List.find?_map, newest]
  congr 1
  apply congrArg (List.find? · connections)
  funext c
  simp [same]

theorem mem_onNewest (member : c ∈ onNewest sck change connections) :
    c ∈ connections ∨ ∃ old, newest sck connections = some old ∧ c = change old := by
  induction connections with
  | nil => cases member
  | cons first older ih =>
      rw [onNewest] at member
      by_cases here : first.sck = sck
      · rw [if_pos here] at member
        rcases List.mem_cons.mp member with changed | old
        · exact .inr ⟨first, List.find?_cons_of_pos (by simp [here]), changed⟩
        · exact .inl (List.mem_cons_of_mem first old)
      · rw [if_neg here] at member
        rcases List.mem_cons.mp member with same | old
        · exact .inl (same ▸ List.mem_cons_self)
        · rcases ih old with kept | ⟨changed, found, is⟩
          · exact .inl (List.mem_cons_of_mem first kept)
          · exact .inr ⟨changed, (List.find?_cons_of_neg (by simp [here])).trans found, is⟩

theorem onNewest_extends (extend : ∀ c, Connection.Extends c (change c)) :
    List.Forall₂ Connection.Extends connections (onNewest sck change connections) := by
  induction connections with
  | nil => exact .nil
  | cons first older ih =>
      rw [onNewest]
      split
      · exact .cons (extend first) (List.forall₂_same.mpr fun c _ => .refl c)
      · exact .cons (.refl first) ih

theorem Connection.Extends.at_index {later : List Connection} {index : Nat}
    (each : List.Forall₂ Connection.Extends connections later)
    (found : connections.reverse[index]? = some c) :
    ∃ d, later.reverse[index]? = some d ∧ c.Extends d := by
  obtain ⟨inside, rfl⟩ := List.getElem?_eq_some_iff.mp found
  have all := List.forall₂_iff_get.mp (List.forall₂_reverse_iff.mpr each)
  have reached : index < later.reverse.length := all.1 ▸ inside
  exact ⟨_, List.getElem?_eq_getElem reached, all.2 index inside reached⟩

end Lists

/-- A connection that was accepted keeps its place among them, and what it has. -/
theorem connectionsOf_later {older trace : List Event} (later : older <:+ trace) {index : Nat}
    {c : Connection} (found : (connectionsOf older).reverse[index]? = some c) :
    ∃ d, (connectionsOf trace).reverse[index]? = some d ∧ c.Extends d := by
  obtain ⟨newer, rfl⟩ := later
  induction newer with
  | nil => exact ⟨c, found, .refl c⟩
  | cons event newer ih =>
      obtain ⟨d, here, sofar⟩ := ih
      have onward : ∀ {connections : List Connection},
          List.Forall₂ Connection.Extends (connectionsOf (newer ++ older)) connections →
          ∃ e, connections.reverse[index]? = some e ∧ c.Extends e := by
        intro connections each
        obtain ⟨e, found, extended⟩ := Connection.Extends.at_index each here
        exact ⟨e, found, sofar.trans extended⟩
      cases event with
      | accept sck =>
          refine ⟨d, ?_, sofar⟩
          show (({ sck := sck } : Connection) :: connectionsOf (newer ++ older)).reverse[index]? = _
          rw [List.reverse_cons, List.getElem?_append_left]
          · exact here
          · exact (List.getElem?_eq_some_iff.mp here).1
      | read kind idInfo regs =>
          apply onward
          exact List.forall₂_map_right_iff.mpr
            (List.forall₂_same.mpr fun d _ => d.extends_read ⟨kind, idInfo, regs⟩)
      | send sck bytes => exact onward (onNewest_extends (Connection.extends_send bytes))
      | close sck => exact onward (onNewest_extends Connection.extends_close)
      | _ => exact ⟨d, here, sofar⟩

/-- The newest connection on a descriptor is open, and has what was seen of it. -/
def Known (sck : Int) (trace : List Event) : Prop :=
  ∃ c, newest sck (connectionsOf trace) = some c ∧ c.isOpen = true ∧ c.sent = sentOn sck trace ∧
    c.owed = (framesSince sck trace).flatten

/-- Every connection took the beginning of its frames. -/
structure Recorded (trace : List Event) : Prop where
  sent : ∀ c ∈ connectionsOf trace, c.sent <+: c.owed
  framed : ∀ c ∈ connectionsOf trace, ∀ read ∈ c.reads, read.Framed

/-- What a trace says of these descriptors, and of all that was before. -/
structure Noted (before : List Event) (scks : List Int) (trace : List Event) : Prop where
  known : ∀ sck ∈ scks, Known sck trace
  recorded : Recorded trace
  later : before <:+ trace

/-- No connection changes by an event but for a new read. -/
def Event.Quiet : Event → Prop
  | .read kind idInfo regs => (Completed.mk kind idInfo regs).Framed
  | .accept _ | .send .. | .close _ => False
  | _ => True

theorem Connection.read_sck (completed : Completed) (c : Connection) :
    (c.read completed).sck = c.sck := by
  unfold Connection.read
  split <;> rfl

theorem Connection.read_open (completed : Completed) {c : Connection} (isOpen : c.isOpen = true) :
    c.read completed = { c with reads := c.reads ++ [completed] } := by
  rw [Connection.read, if_pos isOpen]

theorem Known.read {sck : Int} {trace : List Event} (known : Known sck trace) (kind : Kind)
    (idInfo : TtyIdInfo) (regs : List UInt16) : Known sck (.read kind idInfo regs :: trace) := by
  obtain ⟨c, found, isOpen, sent, owed⟩ := known
  refine ⟨c.read ⟨kind, idInfo, regs⟩, ?_, ?_, ?_, ?_⟩
  · rw [connectionsOf, newest_map (Connection.read_sck _), found, Option.map_some]
  · rw [Connection.read_open _ isOpen]
    exact isOpen
  · rw [Connection.read_open _ isOpen]
    exact sent
  · rw [Connection.read_open _ isOpen, Connection.owed, List.map_append, List.flatten_append,
      framesSince, List.flatten_append]
    exact congrArg (· ++ _) owed

theorem Recorded.read {trace : List Event} (recorded : Recorded trace) {kind : Kind}
    {idInfo : TtyIdInfo} {regs : List UInt16}
    (framed : (Completed.mk kind idInfo regs).Framed) :
    Recorded (.read kind idInfo regs :: trace) := by
  constructor
  · intro c member
    obtain ⟨old, isOld, rfl⟩ := List.mem_map.mp member
    have sent := recorded.sent old isOld
    unfold Connection.read
    split
    · apply sent.trans
      rw [Connection.owed, Connection.owed, List.map_append, List.flatten_append]
      exact List.prefix_append _ _
    · exact sent
  · intro c member completed isRead
    obtain ⟨old, isOld, rfl⟩ := List.mem_map.mp member
    have before := recorded.framed old isOld
    unfold Connection.read at isRead
    split at isRead
    · rcases List.mem_append.mp isRead with kept | new
      · exact before completed kept
      · rw [List.mem_singleton.mp new]
        exact framed
    · exact before completed isRead

namespace Noted

variable {before trace : List Event} {scks : List Int}

theorem quiet (noted : Noted before scks trace) {event : Event} (quiet : event.Quiet) :
    Noted before scks (event :: trace) := by
  have later := noted.later.trans (List.suffix_cons event trace)
  cases event with
  | read kind idInfo regs =>
      exact ⟨fun sck member => (noted.known sck member).read kind idInfo regs,
        noted.recorded.read quiet, later⟩
  | accept sck => exact quiet.elim
  | send sck bytes => exact quiet.elim
  | close sck => exact quiet.elim
  | _ => exact ⟨noted.known, ⟨noted.recorded.sent, noted.recorded.framed⟩, later⟩

theorem subset {fewer : List Int} (noted : Noted before scks trace) (some : fewer ⊆ scks) :
    Noted before fewer trace :=
  ⟨fun sck member => noted.known sck (some member), noted.recorded, noted.later⟩

theorem accept (noted : Noted before scks trace) {sck : Int} (unused : sck ∉ scks) :
    Noted before (scks ++ [sck]) (.accept sck :: trace) := by
  refine ⟨?_, ⟨?_, ?_⟩, noted.later.trans (List.suffix_cons _ trace)⟩
  · intro other member
    rcases List.mem_append.mp member with old | new
    · have differs : sck ≠ other := fun same => unused (same ▸ old)
      obtain ⟨c, found, isOpen, sent, owed⟩ := noted.known other old
      refine ⟨c, ?_, isOpen, ?_, ?_⟩
      · rw [connectionsOf, newest, List.find?_cons_of_neg (by simp [differs])]
        exact found
      · rw [sentOn, if_neg differs]
        exact sent
      · rw [framesSince, if_neg differs]
        exact owed
    · rw [List.mem_singleton.mp new]
      refine ⟨{ sck := sck }, ?_, rfl, ?_, ?_⟩
      · rw [connectionsOf, newest, List.find?_cons_of_pos (by simp)]
      · rw [sentOn, if_pos rfl]
      · rw [framesSince, if_pos rfl]
        rfl
  · intro c member
    rcases List.mem_cons.mp member with rfl | old
    · exact List.prefix_rfl
    · exact noted.recorded.sent c old
  · intro c member
    rcases List.mem_cons.mp member with rfl | old
    · intro read none
      exact absurd none (List.not_mem_nil)
    · exact noted.recorded.framed c old

theorem send (noted : Noted before scks trace) {sck : Int} (member : sck ∈ scks)
    {bytes : List UInt8} (within : sentOn sck trace ++ bytes <+: (framesSince sck trace).flatten) :
    Noted before scks (.send sck bytes :: trace) := by
  obtain ⟨c, found, isOpen, sent, owed⟩ := noted.known sck member
  have same : ∀ c, (Connection.send bytes c).sck = c.sck := fun _ => rfl
  refine ⟨?_, ⟨?_, ?_⟩, noted.later.trans (List.suffix_cons _ trace)⟩
  · intro other isOther
    by_cases differs : sck = other
    · subst differs
      refine ⟨c.send bytes, ?_, isOpen, ?_, owed⟩
      · rw [connectionsOf, newest_onNewest same, found, Option.map_some]
      · rw [sentOn, if_pos rfl, ← sent]
        rfl
    · obtain ⟨d, foundOther, othersOpen, sentOther, owedOther⟩ := noted.known other isOther
      refine ⟨d, ?_, othersOpen, ?_, owedOther⟩
      · rw [connectionsOf, newest_onNewest_ne same (Ne.symm differs), foundOther]
      · rw [sentOn, if_neg differs]
        exact sentOther
  · intro d isConnection
    rcases mem_onNewest isConnection with old | ⟨old, isNewest, rfl⟩
    · exact noted.recorded.sent d old
    · rw [found] at isNewest
      cases isNewest
      show c.sent ++ bytes <+: c.owed
      rw [sent, owed]
      exact within
  · intro d isConnection
    rcases mem_onNewest isConnection with old | ⟨old, isNewest, rfl⟩
    · exact noted.recorded.framed d old
    · exact noted.recorded.framed old (List.mem_of_find?_eq_some isNewest)

theorem close (noted : Noted before scks trace) {sck : Int} (absent : sck ∉ scks) :
    Noted before scks (.close sck :: trace) := by
  have same : ∀ c, (Connection.close c).sck = c.sck := fun _ => rfl
  refine ⟨?_, ⟨?_, ?_⟩, noted.later.trans (List.suffix_cons _ trace)⟩
  · intro other isOther
    have differs : other ≠ sck := fun same => absent (same ▸ isOther)
    obtain ⟨d, found, known⟩ := noted.known other isOther
    exact ⟨d, (newest_onNewest_ne same differs).trans found, known⟩
  · intro d isConnection
    rcases mem_onNewest isConnection with old | ⟨old, isNewest, rfl⟩
    · exact noted.recorded.sent d old
    · exact noted.recorded.sent old (List.mem_of_find?_eq_some isNewest)
  · intro d isConnection
    rcases mem_onNewest isConnection with old | ⟨old, isNewest, rfl⟩
    · exact noted.recorded.framed d old
    · exact noted.recorded.framed old (List.mem_of_find?_eq_some isNewest)

end Noted

end RenogyX10.TtyReader
