import RenogyX10.Cm11a.Steps

set_option autoImplicit false

namespace RenogyX10.Cm11a

/-- What `libcm11a_get_wait_objs_rw` adds to the descriptors select waits for. -/
def getWaitObjsRw (fd : Int) (s : LibCm11a) (robjs wobjs : List Int) : List Int × List Int :=
  (robjs ++ [fd], if s.data ≠ none then wobjs ++ [fd] else wobjs)

/-- The callback for an interface byte, if it is a known one. -/
def interfaceCallback (app : App) (byte : UInt8) : Option Callback :=
  if byte = 0x55 then some app.interfaceReady
  else if byte = 0x5A then some app.interfacePoll
  else if byte = 0xA5 then some app.timeRequest
  else none

/-- The callback that a received byte leads to, and the state it is entered in. -/
def readEntry (io : CheckIo) (s : LibCm11a) : Option (Callback × LibCm11a) :=
  if io.canRead then
    match io.read with
    | none => none
    | some byte =>
        if s.wantCrc then
          let ok := byte.toUInt32 == s.crc
          some (if ok then io.app.crcOk else io.app.crcNotOk, s.emit (.checksum byte ok))
        else
          (interfaceCallback io.app byte).map fun callback =>
            (callback, s.emit (.dispatched byte s.wantCrc))
  else none

/-- The bytes that the writing half offers, and the port's answer, if it offers any. -/
def portWrite (io : CheckIo) (s : LibCm11a) : Option (List UInt8 × Int) :=
  match s.data with
  | none => none
  | some data =>
      if io.canWrite then some (data, io.port.answer (s.dataBytes - s.dataSent)) else none

/-- The state in which the writing half enters `done_write`, if it does. -/
def doneEntry (io : CheckIo) (s : LibCm11a) : Option LibCm11a :=
  match portWrite io s with
  | none => none
  | some (data, written) =>
      if 0 < written ∧ s.dataBytes ≤ s.dataSent + written.toNat then
        some (notePiece data written.toNat s).release
      else none

/-- The state the writing half starts from, if the reading half lets it. -/
def writeStart (io : CheckIo) (s : LibCm11a) : Option LibCm11a :=
  if (checkRead io s).1 = 0 then some (checkRead io s).2 else none

/-- The states a callback sees: the one it is entered in, and one after each write. -/
def seenBy : List Write → LibCm11a → List LibCm11a
  | [], s => [s]
  | write :: rest, s => s :: seenBy rest (write.call s)

/-- The states the application sees in a step, with the ones before and after it. -/
def Seen (s : LibCm11a) (input : Input) (t : LibCm11a) : Prop :=
  t = s ∨ t = step s input ∨ ∃ io, input = .check io ∧
    ((∃ callback u, readEntry io s = some (callback, u) ∧ t ∈ seenBy callback.writes u) ∨
      ∃ u v, writeStart io s = some u ∧ doneEntry io u = some v ∧
        t ∈ seenBy io.app.doneWrite.writes v)

/-- `data` is NULL, and the counters are 0, or some bytes of a message are not sent. -/
structure SlotOk (s : LibCm11a) : Prop where
  free : s.data = none ↔ s.dataSent = 0 ∧ s.dataBytes = 0
  partly : s.data ≠ none → s.dataSent < s.dataBytes

/-- Was a message accepted that is not done? The trace is newest first. -/
def pending : List Event → Bool
  | [] => false
  | .queued _ _ :: _ => true
  | .doneWrite :: _ => false
  | _ :: older => pending older

/-- Messages are accepted and done in turn. -/
def InTurn : List Event → Prop
  | [] => True
  | .queued _ _ :: older => pending older = false ∧ InTurn older
  | .doneWrite :: older => pending older = true ∧ InTurn older
  | _ :: older => InTurn older

def Event.isQueued : Event → Bool
  | .queued _ _ => true
  | _ => false

/-- Between two messages that were accepted one after the other `done_write` was
called exactly once. -/
def DoneOnce (trace : List Event) : Prop :=
  ∀ newer between older first second, Event.isQueued first = true →
    Event.isQueued second = true →
    trace = newer ++ second :: (between ++ first :: older) →
    (∀ event ∈ between, event.isQueued = false) → between.count .doneWrite = 1

def Write.Nonempty (write : Write) : Prop := write.bytes ≠ []

def App.callbacks (app : App) : List Callback :=
  [app.interfaceReady, app.interfacePoll, app.timeRequest, app.crcOk, app.crcNotOk, app.doneWrite]

def App.Nonempty (app : App) : Prop :=
  ∀ callback ∈ app.callbacks, ∀ write ∈ callback.writes, write.Nonempty

def Input.Nonempty : Input → Prop
  | .write message => message.Nonempty
  | .check io => io.app.Nonempty

/-- A callback that the reading half enters after this event, and what it leaves. -/
structure ReadCall (io : CheckIo) (s : LibCm11a) (callback : Callback) (event : Event) : Prop where
  entry : readEntry io s = some (callback, s.emit event)
  queued : event.isQueued = false
  done : event ≠ .doneWrite
  isCallback : callback ∈ io.app.callbacks
  left : (checkRead io s).2 = (callback.call (s.emit event)).2 ∨
    (checkRead io s).2 = { (callback.call (s.emit event)).2 with wantCrc := false }

theorem App.doneWrite_mem (app : App) : app.doneWrite ∈ app.callbacks := by
  simp [App.callbacks]

theorem readCall_compare {io : CheckIo} {s : LibCm11a} {byte : UInt8} (ready : io.canRead = true)
    (read : io.read = some byte) (wants : s.wantCrc = true) :
    ∃ callback event, ReadCall io s callback event := by
  have isCallback (ok : Bool) :
      (if ok then io.app.crcOk else io.app.crcNotOk) ∈ io.app.callbacks := by
    cases ok <;> simp [App.callbacks]
  refine ⟨_, .checksum byte (byte.toUInt32 == s.crc), ?_, rfl, Event.noConfusion,
    isCallback (byte.toUInt32 == s.crc), .inr ?_⟩
  · simp only [readEntry, ready, read, wants, ↓reduceIte]
  · simp only [checkRead, compareCrc, ready, read, wants, ↓reduceIte]

theorem interfaceCallback_mem {app : App} {byte : UInt8} {callback : Callback}
    (known : interfaceCallback app byte = some callback) : callback ∈ app.callbacks := by
  unfold interfaceCallback at known
  split at known
  · cases known
    simp [App.callbacks]
  split at known
  · cases known
    simp [App.callbacks]
  split at known
  · cases known
    simp [App.callbacks]
  · cases known

theorem readCall_dispatch {io : CheckIo} {s : LibCm11a} {byte : UInt8} (ready : io.canRead = true)
    (read : io.read = some byte) (idle : s.wantCrc ≠ true) :
    (readEntry io s = none ∧ (checkRead io s).2 = s.emit (.dispatched byte s.wantCrc)) ∨
      ∃ callback event, ReadCall io s callback event := by
  have entry : readEntry io s = (interfaceCallback io.app byte).map fun callback =>
      (callback, s.emit (.dispatched byte s.wantCrc)) := by
    unfold readEntry
    rw [if_pos ready, read]
    dsimp only
    rw [if_neg idle]
  have left : (checkRead io s).2 = (((interfaceCallback io.app byte).getD {}).call
      (s.emit (.dispatched byte s.wantCrc))).2 := by
    unfold checkRead dispatchByte interfaceCallback
    rw [if_pos ready, read]
    dsimp only
    rw [if_neg idle]
    split
    · rfl
    split
    · rfl
    split
    · rfl
    · rfl
  cases known : interfaceCallback io.app byte with
  | none =>
      rw [known] at entry left
      exact .inl ⟨entry, left⟩
  | some callback =>
      rw [known] at entry left
      have isCallback := interfaceCallback_mem known
      exact .inr ⟨callback, _, entry, rfl, Event.noConfusion, isCallback, .inl left⟩

theorem checkRead_cases (io : CheckIo) (s : LibCm11a) :
    (readEntry io s = none ∧ ((checkRead io s).2 = s ∨
      ∃ byte, (checkRead io s).2 = s.emit (.dispatched byte s.wantCrc))) ∨
    ∃ callback event, ReadCall io s callback event := by
  by_cases ready : io.canRead = true
  · cases read : io.read with
    | none =>
        left
        simp only [readEntry, checkRead, ready, read, ↓reduceIte, true_and]
        exact .inl trivial
    | some byte =>
        by_cases wants : s.wantCrc = true
        · exact .inr (readCall_compare ready read wants)
        · rcases readCall_dispatch ready read wants with ⟨none, noted⟩ | called
          · exact .inl ⟨none, .inr ⟨byte, noted⟩⟩
          · exact .inr called
  · left
    constructor
    · simp only [readEntry, ready, Bool.false_eq_true, ↓reduceIte]
    · left
      simp only [checkRead, ready, Bool.false_eq_true, ↓reduceIte]

theorem doneEntry_spec {io : CheckIo} {s t : LibCm11a} (entry : doneEntry io s = some t) :
    ∃ data written, s.data = some data ∧ t = (notePiece data written s).release := by
  cases slot : s.data with
  | none =>
      simp only [doneEntry, portWrite, slot] at entry
      cases entry
  | some data =>
      simp only [doneEntry, portWrite, slot] at entry
      by_cases ready : io.canWrite = true
      · simp only [ready, ↓reduceIte, Option.ite_none_right_eq_some, Option.some.injEq] at entry
        exact ⟨data, _, rfl, entry.2.symm⟩
      · simp only [ready, Bool.false_eq_true, ↓reduceIte] at entry
        cases entry

/-- The writing half: nothing, a piece that is not the last one, or `done_write`. -/
theorem checkWrite_cases (io : CheckIo) (s : LibCm11a) :
    (doneEntry io s = none ∧ (checkWrite io s).2 = s) ∨
    (∃ data written, s.data = some data ∧ s.dataSent + written < s.dataBytes ∧
      (checkWrite io s).2 = notePiece data written s) ∨
    ∃ t, doneEntry io s = some t ∧ (checkWrite io s).2 = (io.app.doneWrite.call t).2 := by
  unfold checkWrite doneEntry portWrite
  cases slot : s.data with
  | none => exact .inl ⟨rfl, rfl⟩
  | some data =>
      dsimp only
      by_cases ready : io.canWrite = true
      · simp only [if_pos ready]
        by_cases wrote : 0 < io.port.answer (s.dataBytes - s.dataSent)
        · right
          simp only [wrote, true_and, ↓reduceIte, checkSent]
          split
          case isTrue all => exact .inr ⟨_, if_pos all, rfl⟩
          case isFalse more => exact .inl ⟨data, _, rfl, Nat.lt_of_not_le more, rfl⟩
        · left
          simp only [wrote, false_and, ↓reduceIte, and_self]
      · left
        simp only [if_neg ready, and_self]

/-- The driver knows whether a message waits. -/
structure Kept (s : LibCm11a) : Prop where
  ok : SlotOk s
  known : pending s.trace = true ↔ s.data ≠ none
  inTurn : InTurn s.trace

namespace Kept

variable {s t : LibCm11a} {io : CheckIo}

theorem initial : Kept initial := by
  constructor
  · exact ⟨⟨fun _ => ⟨rfl, rfl⟩, fun _ => rfl⟩, fun waits => absurd rfl waits⟩
  · simp [Cm11a.initial, pending]
  · trivial

theorem emit (kept : Kept s) {event : Event} (queued : event.isQueued = false)
    (done : event ≠ .doneWrite) : Kept (s.emit event) := by
  obtain ⟨ok, known, inTurn⟩ := kept
  cases event with
  | queued crc bytes => cases queued
  | doneWrite => exact absurd rfl done
  | wrote offset bytes => exact ⟨⟨ok.free, ok.partly⟩, known, inTurn⟩
  | checksum byte ok' => exact ⟨⟨ok.free, ok.partly⟩, known, inTurn⟩
  | dispatched byte armed => exact ⟨⟨ok.free, ok.partly⟩, known, inTurn⟩

theorem not_pending (kept : Kept s) (free : s.data = none) : pending s.trace = false := by
  cases waits : pending s.trace with
  | false => rfl
  | true => exact absurd free (kept.known.mp waits)

theorem call (kept : Kept s) {write : Write} (nonempty : write.Nonempty) :
    Kept (write.call s) := by
  by_cases free : s.data = none
  · have length : 0 < write.bytes.length := List.length_pos_iff.mpr nonempty
    have last := kept.not_pending free
    rw [write.call_free free]
    constructor
    · constructor
      · constructor
        · exact fun isNone => absurd isNone (Option.some_ne_none write.bytes)
        · intro ⟨_, empty⟩
          exact absurd empty (Nat.ne_of_gt length)
      · exact fun _ => length
    · exact ⟨fun _ => Option.some_ne_none write.bytes, fun _ => rfl⟩
    · exact ⟨last, kept.inTurn⟩
  · rw [write.call_busy free]
    exact kept

theorem seenBy {writes : List Write} (kept : Kept s) (nonempty : ∀ write ∈ writes, write.Nonempty)
    (seen : t ∈ Cm11a.seenBy writes s) : Kept t := by
  induction writes generalizing s with
  | nil =>
      rw [List.mem_singleton.mp seen]
      exact kept
  | cons write rest ih =>
      rcases List.mem_cons.mp seen with same | later
      · rw [same]
        exact kept
      · have first := kept.call (nonempty write List.mem_cons_self)
        exact ih first (fun other isLater => nonempty other (List.mem_cons_of_mem _ isLater)) later

theorem foldl_seenBy (writes : List Write) (s : LibCm11a) :
    writes.foldl (fun s write => write.call s) s ∈ Cm11a.seenBy writes s := by
  induction writes generalizing s with
  | nil => exact List.mem_singleton.mpr rfl
  | cons write rest ih => exact List.mem_cons_of_mem _ (ih (write.call s))

theorem callback (kept : Kept s) {callback : Callback}
    (nonempty : ∀ write ∈ callback.writes, write.Nonempty) : Kept (callback.call s).2 :=
  kept.seenBy nonempty (foldl_seenBy callback.writes s)

theorem checkRead (kept : Kept s) (nonempty : io.app.Nonempty) : Kept (checkRead io s).2 := by
  rcases checkRead_cases io s with ⟨_, same | ⟨byte, noted⟩⟩ | ⟨callback, event, ends⟩
  · rw [same]
    exact kept
  · rw [noted]
    exact kept.emit rfl Event.noConfusion
  · have called : Kept (callback.call (s.emit event)).2 :=
      (kept.emit ends.queued ends.done).callback (nonempty callback ends.isCallback)
    rcases ends.left with left | left
    · rw [left]
      exact called
    · rw [left]
      exact ⟨⟨called.ok.free, called.ok.partly⟩, called.known, called.inTurn⟩

theorem piece (kept : Kept s) {data : List UInt8} {written : Nat} (slot : s.data = some data)
    (more : s.dataSent + written < s.dataBytes) : Kept (notePiece data written s) := by
  have waits : s.data ≠ none := Option.ne_none_iff_exists'.mpr ⟨data, slot⟩
  constructor
  · constructor
    · constructor
      · exact fun isNone => absurd isNone waits
      · intro ⟨_, empty⟩
        have bytes : s.dataBytes = 0 := empty
        omega
    · exact fun _ => more
  · exact kept.known
  · exact kept.inTurn

theorem release (kept : Kept s) {data : List UInt8} (written : Nat) (slot : s.data = some data) :
    Kept (notePiece data written s).release := by
  have waits : s.data ≠ none := Option.ne_none_iff_exists'.mpr ⟨data, slot⟩
  constructor
  · exact ⟨⟨fun _ => ⟨rfl, rfl⟩, fun _ => rfl⟩, fun occupied => absurd rfl occupied⟩
  · constructor
    · exact fun done => Bool.noConfusion done
    · exact fun occupied => absurd rfl occupied
  · exact ⟨kept.known.mpr waits, kept.inTurn⟩

theorem doneEntry (kept : Kept s) (entry : Cm11a.doneEntry io s = some t) : Kept t := by
  obtain ⟨data, written, slot, rfl⟩ := doneEntry_spec entry
  exact kept.release written slot

theorem checkWrite (kept : Kept s) (nonempty : io.app.Nonempty) : Kept (checkWrite io s).2 := by
  rcases checkWrite_cases io s with ⟨_, same⟩ | ⟨data, written, slot, more, left⟩ | ⟨t, entry, left⟩
  · rw [same]
    exact kept
  · rw [left]
    exact kept.piece slot more
  · rw [left]
    exact (kept.doneEntry entry).callback (nonempty _ io.app.doneWrite_mem)

theorem step (kept : Kept s) {input : Input} (nonempty : input.Nonempty) :
    Kept (step s input) := by
  cases input with
  | write message => exact kept.call nonempty
  | check io =>
      have reading := kept.checkRead nonempty
      show Kept (checkWaitObjs io s).2
      unfold checkWaitObjs
      dsimp only
      split
      · exact reading.checkWrite nonempty
      · exact reading

theorem seen (kept : Kept s) {input : Input} (nonempty : input.Nonempty) (seen : Seen s input t) :
    Kept t := by
  rcases seen with rfl | rfl |
    ⟨io, rfl, ⟨callback, u, entry, inside⟩ | ⟨u, v, start, entry, inside⟩⟩
  · exact kept
  · exact kept.step nonempty
  · rcases checkRead_cases io s with ⟨none, _⟩ | ⟨other, event, ends⟩
    · rw [none] at entry
      cases entry
    · obtain ⟨rfl, rfl⟩ := Prod.mk.inj (Option.some.inj (ends.entry.symm.trans entry))
      exact (kept.emit ends.queued ends.done).seenBy (nonempty _ ends.isCallback) inside
  · have reading := kept.checkRead nonempty
    unfold writeStart at start
    split at start
    · cases start
      exact (reading.doneEntry entry).seenBy (nonempty _ io.app.doneWrite_mem) inside
    · cases start

end Kept

theorem inTurn_of_append {newer older : List Event} (inTurn : InTurn (newer ++ older)) :
    InTurn older := by
  induction newer with
  | nil => exact inTurn
  | cons event rest ih =>
      cases event with
      | queued crc bytes => exact ih inTurn.2
      | doneWrite => exact ih inTurn.2
      | wrote offset bytes => exact ih inTurn
      | checksum byte ok => exact ih inTurn
      | dispatched byte armed => exact ih inTurn

/-- After a message was accepted `done_write` is called once, or not yet. -/
theorem count_doneWrite {between older : List Event} (waits : pending older = true)
    (inTurn : InTurn (between ++ older)) (none : ∀ event ∈ between, event.isQueued = false) :
    between.count .doneWrite = if pending (between ++ older) then 0 else 1 := by
  induction between with
  | nil => simp [waits]
  | cons event rest ih =>
      have later : ∀ other ∈ rest, other.isQueued = false :=
        fun other isLater => none other (List.mem_cons_of_mem _ isLater)
      cases event with
      | queued crc bytes => cases none _ List.mem_cons_self
      | doneWrite =>
          have first := ih inTurn.2 later
          have open_slot : pending (rest ++ older) = true := inTurn.1
          rw [open_slot] at first
          simpa [pending] using first
      | wrote offset bytes => simpa [pending] using ih inTurn later
      | checksum byte ok => simpa [pending] using ih inTurn later
      | dispatched byte armed => simpa [pending] using ih inTurn later

theorem doneOnce_of_inTurn {trace : List Event} (inTurn : InTurn trace) : DoneOnce trace := by
  intro newer between older first second isFirst isSecond split none
  rw [split] at inTurn
  have tail := inTurn_of_append inTurn
  cases second with
  | queued crc bytes =>
      cases first with
      | queued crc' bytes' =>
          have waits : pending (.queued crc' bytes' :: older) = true := rfl
          have once := count_doneWrite waits tail.2 none
          rw [tail.1] at once
          exact once
      | _ => cases isFirst
  | _ => cases isSecond

def SameSlot (s t : LibCm11a) : Prop :=
  t.data = s.data ∧ t.dataSent = s.dataSent ∧ t.dataBytes = s.dataBytes

theorem checkRead_sameSlot (io : CheckIo) {s : LibCm11a} (waits : s.data ≠ none) :
    SameSlot s (checkRead io s).2 := by
  apply checkRead_rule
  · exact ⟨rfl, rfl, rfl⟩
  · exact fun _ _ _ _ _ => ⟨rfl, rfl, rfl⟩
  · exact fun _ _ _ _ => ⟨rfl, rfl, rfl⟩
  · intro t write same
    have busy : t.data ≠ none := by rwa [same.1]
    rwa [write.call_busy busy]
  · exact fun _ same => same

/-- The port is offered bytes in this step, and takes none. -/
def PortFails (io : CheckIo) (s : LibCm11a) : Prop :=
  ∃ t data written, writeStart io s = some t ∧ portWrite io t = some (data, written) ∧ written ≤ 0

/-- A failed write leaves what the reading half left. -/
theorem checkWaitObjs_fails {io : CheckIo} {s : LibCm11a} (fails : PortFails io s) :
    checkWaitObjs io s = (1, (checkRead io s).2) := by
  obtain ⟨t, data, written, start, offered, failed⟩ := fails
  unfold writeStart at start
  split at start
  case isFalse => cases start
  case isTrue returned =>
    cases start
    unfold checkWaitObjs
    dsimp only
    rw [if_pos returned]
    unfold portWrite at offered
    unfold checkWrite
    cases slot : (checkRead io s).2.data with
    | none =>
        rw [slot] at offered
        cases offered
    | some bytes =>
        rw [slot] at offered
        dsimp only at offered ⊢
        split at offered
        case isFalse => cases offered
        case isTrue ready =>
          obtain ⟨rfl, rfl⟩ := Prod.mk.inj (Option.some.inj offered)
          rw [if_pos ready, if_neg (Int.not_lt.mpr failed)]

/-- The slot in one step, from a state of a run. -/
structure Disciplined (s : LibCm11a) (input : Input) : Prop where
  slot : ∀ t, Seen s input t → SlotOk t
  refused : ∀ t, Seen s input t → t.data ≠ none →
    ∀ bytes, writeDataCrc bytes t = (1, t) ∧ writeData bytes t = (1, t)
  doneOnce : DoneOnce (step s input).trace
  doneFree : ∀ io t u, input = .check io → writeStart io s = some t → doneEntry io t = some u →
    u.data = none ∧ ∀ bytes, (writeDataCrc bytes u).1 = 0 ∧ (writeData bytes u).1 = 0
  writable : ∀ t, Seen s input t → ∀ fd robjs wobjs,
    ((getWaitObjsRw fd t robjs wobjs).2 = wobjs ++ [fd] ↔ t.data ≠ none) ∧
      ((getWaitObjsRw fd t robjs wobjs).2 = wobjs ↔ t.data = none)
  failed : ∀ io, input = .check io → PortFails io s →
    SameSlot (checkRead io s).2 (step s input) ∧ (s.data ≠ none → SameSlot s (step s input))

theorem getWaitObjsRw_writable (fd : Int) (s : LibCm11a) (robjs wobjs : List Int) :
    ((getWaitObjsRw fd s robjs wobjs).2 = wobjs ++ [fd] ↔ s.data ≠ none) ∧
      ((getWaitObjsRw fd s robjs wobjs).2 = wobjs ↔ s.data = none) := by
  unfold getWaitObjsRw
  by_cases free : s.data = none <;> simp [free]

/-- In every run, whatever the callbacks write, the slot takes one message at a time. -/
theorem slot_discipline (inputs : List Input) (input : Input)
    (nonempty : ∀ earlier ∈ inputs, earlier.Nonempty) (next : input.Nonempty) :
    Disciplined (Runs.exec step initial inputs) input := by
  have kept : Kept (Runs.exec step initial inputs) :=
    Runs.exec_keeps (fun _ _ nonempty kept => kept.step nonempty)
      (Runs.admits_of_forall nonempty) Kept.initial
  constructor
  · exact fun t seen => (kept.seen next seen).ok
  · intro t _ busy bytes
    exact ⟨if_pos busy, if_pos busy⟩
  · exact doneOnce_of_inTurn (kept.step next).inTurn
  · intro io t u _ _ entry
    obtain ⟨data, written, _, rfl⟩ := doneEntry_spec entry
    exact ⟨rfl, fun _ => ⟨rfl, rfl⟩⟩
  · exact fun t _ fd robjs wobjs => getWaitObjsRw_writable fd t robjs wobjs
  · rintro io rfl fails
    have left : step (Runs.exec step initial inputs) (.check io) =
        (checkRead io (Runs.exec step initial inputs)).2 := by
      show (checkWaitObjs io _).2 = _
      rw [checkWaitObjs_fails fails]
    rw [left]
    exact ⟨⟨rfl, rfl, rfl⟩, checkRead_sameSlot io⟩

/-- A message is sent at once, and `done_write` queues the next one. -/
theorem slot_discipline_doneWrite :
    Disciplined (Runs.exec step initial [.write ⟨true, [0x04, 0x66]⟩])
      (.check ⟨false, none, true, wholePort, { doneWrite := ⟨[⟨false, [0x00]⟩], 0⟩ }⟩) := by
  apply slot_discipline
  · simp [Input.Nonempty, Write.Nonempty]
  · simp [Input.Nonempty, App.Nonempty, App.callbacks, Write.Nonempty]

/-- The interface becomes ready, the application queues a message, and the port fails. -/
def queuedThenFailed : CheckIo :=
  ⟨true, some 0x55, true, ⟨fun _ => -1, fun _ => by omega⟩,
    { interfaceReady := ⟨[⟨false, [0x00]⟩], 0⟩ }⟩

/-- Then the slot is not what it was before the step. -/
theorem slot_filled_in_failed_step :
    (Input.check queuedThenFailed).Nonempty ∧
      PortFails queuedThenFailed (Runs.exec step initial []) ∧
      ¬ SameSlot (Runs.exec step initial [])
        (step (Runs.exec step initial []) (.check queuedThenFailed)) := by
  constructor
  · simp [Input.Nonempty, App.Nonempty, App.callbacks, Write.Nonempty, queuedThenFailed]
  constructor
  · exact ⟨_, [0x00], -1, rfl, rfl, by decide⟩
  · intro same
    cases same.1

end RenogyX10.Cm11a
