import RenogyX10.TtyReader.Frame

set_option autoImplicit false

namespace RenogyX10.TtyReader

open Checked LinkedQueue Parse

/-- What the bus and the allocator answer to one `process_tty_id_info` call. -/
structure ReadIo where
  setSlave : Int
  /-- the result of the register read -/
  err : Int
  /-- what the read left in the register buffer -/
  regs : Nat → UInt16
  /-- addresses for the new send nodes, one for each peer in turn -/
  nodes : List Nat
  start : Int
  stop : Int

/-- The register buffer of the call, which has `count` entries. -/
def ReadIo.buffer (io : ReadIo) (count : UInt8) : List UInt16 :=
  (List.range count.toNat).map io.regs

theorem ReadIo.buffer_length (io : ReadIo) (count : UInt8) :
    (io.buffer count).length = count.toNat := by
  rw [ReadIo.buffer, List.length_map, List.length_range]

/-- Link a frame behind the send queue of the peer at `index`. -/
def queueFrame (index node : Nat) (frame : List UInt8) (s : Sys) : Sys :=
  match s.info.peerList[index]? with
  | none => s
  | some peer =>
      let pushed := push s.heap peer.send node ⟨0, frame⟩
      { s with
        heap := pushed.1
        info := { s.info with peerList := s.info.peerList.set index { peer with send := pushed.2 } } }

/-- The fan-out loop over the first `peers` peers, in list order. -/
def fanOut (lib : ParseLib) (kind : Kind) (idInfo : TtyIdInfo) (regs : List UInt16)
    (nodes : List Nat) : Nat → Act Unit
  | 0 => pure ()
  | peers + 1 => do
      fanOut lib kind idInfo regs nodes peers
      let frame ← encodeFrame lib kind idInfo regs
      match nodes[peers]? with
      | none => Proc.fail .outOfMemory
      | some node => Proc.modify (queueFrame peers node frame)

/-- One branch of `process_tty_id_info`: read the registers, queue the frame. -/
def readRegisters (lib : ParseLib) (io : ReadIo) (kind : Kind) (idInfo : TtyIdInfo) :
    Act Unit := do
  let count := idInfo.count kind
  let regs := io.buffer count
  Proc.guard (io.err = count.toNat) .modbusReadRegistersFailed
  let peers ← Proc.read fun s => s.info.peerList.length
  fanOut lib kind idInfo regs io.nodes peers
  Proc.modify (Sys.emit (.read kind idInfo regs))

/-- Note a call and what it is about to select. -/
def noteCall (io : ReadIo) (idInfo : TtyIdInfo) (s : Sys) : Sys :=
  s.emit (.call idInfo (selectKind s.info.idListSubIndex) io.start io.stop s.info.minMstime)

def processTtyIdInfo (lib : ParseLib) (io : ReadIo) (idInfo : TtyIdInfo) : Act Unit := do
  Proc.modify (noteCall io idInfo)
  Proc.guard (io.setSlave = 0) .modbusSetSlaveFailed
  let sub ← Proc.read fun s => s.info.idListSubIndex
  match selectKind sub with
  | some kind => readRegisters lib io kind idInfo
  | none => pure ()

/-- The two clock readings of a `check_modbus` call around the device read. -/
structure CheckIo where
  now : Int
  read : ReadIo
  done : Int

/-- The times `check_modbus` works with when a field is null. -/
def TtyInfo.nmt (info : TtyInfo) (now : Int) : Int := info.nextModbusTime.getD now

def TtyInfo.fmt (info : TtyInfo) (now : Int) : Int := info.firstModbusTime.getD now

def TtyInfo.lmt (info : TtyInfo) : Int := info.lastModbusTime.getD 0

/-- The safety check: a read is due but the last one is too recent. -/
def TtyInfo.TooClose (info : TtyInfo) (now : Int) : Prop :=
  info.nmt now ≤ now ∧ now - info.lmt < info.minMstime

instance (info : TtyInfo) (now : Int) : Decidable (info.TooClose now) :=
  inferInstanceAs (Decidable (_ ∧ _))

/-- Store the time of the next read and the start of the pass it begins. -/
def setDue (time : Int) (s : Sys) : Sys :=
  { s with info := { s.info with nextModbusTime := some time, firstModbusTime := some time } }

def setNext (time : Int) (s : Sys) : Sys :=
  { s with info := { s.info with nextModbusTime := some time } }

def setLast (time : Int) (s : Sys) : Sys :=
  { s with info := { s.info with lastModbusTime := some time } }

/-- Advance the iterator and note what it returned. -/
def takeNext (s : Sys) : Sys :=
  let found := getNextIdInfo s.info
  { s with info := found.2, trace := .next found.1 found.2.idListSubIndex :: s.trace }

/-- `timeout.* = @intCast(nmt - now)`, then the maximum with zero. -/
def castTimeout (value : Int) : Act Int := do
  Proc.modify (Sys.emit (.cast value))
  let timeout ← Proc.orAbort (intCastI32 value)
  pure (max timeout 0)

def checkModbus (lib : ParseLib) (io : CheckIo) : Act Int := do
  let info ← Proc.read Sys.info
  let now := io.now
  let nmt := info.nmt now
  if info.TooClose now then
    let nmt := info.lmt + info.minMstime
    Proc.modify (setDue nmt)
    castTimeout (nmt - now)
  else if nmt ≤ now then
    Proc.modify takeNext
    match (getNextIdInfo info).1 with
    | some idInfo =>
        Proc.modify (setNext (now + info.itemMstime))
        processTtyIdInfo lib io.read idInfo
        Proc.modify (setLast io.done)
        castTimeout (nmt - io.done)
    | none =>
        let nmt := info.fmt now + info.listMstime
        Proc.modify (setDue nmt)
        castTimeout (nmt - now)
  else castTimeout (nmt - now)

theorem queueFrame_shape (index node : Nat) (frame : List UInt8) (s : Sys) :
    ∃ heap peers, queueFrame index node frame s =
      { s with heap := heap, info := { s.info with peerList := peers } } ∧
      peers.length = s.info.peerList.length := by
  unfold queueFrame
  split
  · exact ⟨s.heap, s.info.peerList, rfl, rfl⟩
  · exact ⟨_, _, rfl, List.length_set⟩

section Answer

/-- The peers and their queues may change. -/
def Peered (s t : Sys) : Prop :=
  ∃ heap peers, t = { s with heap := heap, info := { s.info with peerList := peers } }

theorem Peered.refl (s : Sys) : Peered s s := ⟨s.heap, s.info.peerList, rfl⟩

theorem Peered.trace {s t : Sys} (peered : Peered s t) : t.trace = s.trace := by
  obtain ⟨heap, peers, rfl⟩ := peered
  rfl

theorem encodeFrame_keeps {inv : Sys → Prop} (lib : ParseLib) (kind : Kind) (idInfo : TtyIdInfo)
    (regs : List UInt16) : Proc.Keeps inv (encodeFrame lib kind idInfo regs) := by
  refine .bind (.orAbort _) fun size => .bind (.guard _ _) fun _ => ?_
  exact .bind (.orAbort _) fun header => .bind (.orAbort _) fun body => .pure _

theorem fanOut_peered (lib : ParseLib) (kind : Kind) (idInfo : TtyIdInfo) (regs : List UInt16)
    (nodes : List Nat) (s : Sys) (peers : Nat) :
    Proc.Keeps (Peered s) (fanOut lib kind idInfo regs nodes peers) := by
  induction peers with
  | zero => exact .pure ()
  | succ peers ih =>
      refine .bind ih fun _ => .bind (encodeFrame_keeps lib kind idInfo regs) fun frame => ?_
      cases nodes[peers]? with
      | none => exact .fail _
      | some node =>
          apply Proc.Keeps.modify
          rintro _ ⟨heap, queued, rfl⟩
          obtain ⟨later, others, shape, _⟩ := queueFrame_shape peers node frame
            { s with heap := heap, info := { s.info with peerList := queued } }
          exact ⟨later, others, shape⟩

/-- The registers are noted only when the bus has answered with as many as were asked for, and
they are what it left in the buffer. -/
theorem readRegisters_state (lib : ParseLib) (io : ReadIo) (kind : Kind) (idInfo : TtyIdInfo)
    (s : Sys) :
    Peered s (readRegisters lib io kind idInfo s).state ∨
      ∃ t, Peered s t ∧ io.err = (idInfo.count kind).toNat ∧
        (readRegisters lib io kind idInfo s).state =
          t.emit (.read kind idInfo (io.buffer (idInfo.count kind))) := by
  by_cases answered : io.err = (idInfo.count kind).toNat
  · have queued := fanOut_peered lib kind idInfo (io.buffer (idInfo.count kind)) io.nodes s
      s.info.peerList.length s (.refl s)
    simp only [readRegisters, answered, decide_true, Proc.guard_true, Proc.pure_bind_run,
      Proc.read_bind]
    cases ended : fanOut lib kind idInfo (io.buffer (idInfo.count kind)) io.nodes
        s.info.peerList.length s with
    | ok _ t =>
        rw [ended] at queued
        rw [Proc.bind_of_ok ended]
        exact .inr ⟨t, queued, trivial, rfl⟩
    | error reason t =>
        rw [ended] at queued
        rw [Proc.bind_of_error ended]
        exact .inl queued
    | panic t =>
        rw [ended] at queued
        rw [Proc.bind_of_panic ended]
        exact .inl queued
  · left
    simp only [readRegisters, answered, decide_false, Proc.guard_false, Proc.fail_bind]
    exact .refl s

/-- A call notes itself, and behind that the registers that the bus has answered with, of the
kind that the call selected. -/
theorem processTtyIdInfo_state (lib : ParseLib) (io : ReadIo) (idInfo : TtyIdInfo) (s : Sys) :
    Peered (noteCall io idInfo s) (processTtyIdInfo lib io idInfo s).state ∨
      ∃ t kind, Peered (noteCall io idInfo s) t ∧ selectKind s.info.idListSubIndex = some kind ∧
        io.setSlave = 0 ∧ io.err = (idInfo.count kind).toNat ∧
        (processTtyIdInfo lib io idInfo s).state =
          t.emit (.read kind idInfo (io.buffer (idInfo.count kind))) := by
  have sub : (noteCall io idInfo s).info.idListSubIndex = s.info.idListSubIndex := rfl
  unfold processTtyIdInfo
  rw [Proc.modify_bind]
  by_cases selected : io.setSlave = 0
  · simp only [selected, decide_true, Proc.guard_true, Proc.pure_bind_run, Proc.read_bind, sub]
    cases isKind : selectKind s.info.idListSubIndex with
    | none => exact .inl (.refl _)
    | some kind =>
        rcases readRegisters_state lib io kind idInfo (noteCall io idInfo s) with
          same | ⟨t, peered, answered, noted⟩
        · exact .inl same
        · exact .inr ⟨t, kind, peered, rfl, trivial, answered, noted⟩
  · simp only [selected, decide_false, Proc.guard_false, Proc.fail_bind]
    exact .inl (.refl _)

end Answer

theorem fanOut_ok (lib : ParseLib) {kind : Kind} {idInfo : TtyIdInfo} {regs : List UInt16}
    (full : regs.length = (idInfo.count kind).toNat) (small : (idInfo.count kind).toNat ≤ 121)
    {nodes : List Nat} (s : Sys) (count : Nat) (enough : count ≤ nodes.length) :
    ∃ heap peers, fanOut lib kind idInfo regs nodes count s =
      .ok () { s with heap := heap, info := { s.info with peerList := peers } } ∧
      peers.length = s.info.peerList.length := by
  induction count with
  | zero => exact ⟨s.heap, s.info.peerList, rfl, rfl⟩
  | succ count ih =>
      obtain ⟨heap, peers, ran, same⟩ := ih (by omega)
      have given : nodes[count]? = some nodes[count] := List.getElem?_eq_getElem (by omega)
      rw [fanOut, Proc.bind_of_ok ran, Proc.bind_of_ok (encodeFrame_of_le lib kind idInfo regs
        full small _), given]
      obtain ⟨later, others, shape, length⟩ :=
        queueFrame_shape count nodes[count] (frameOf kind idInfo regs)
          { s with heap := heap, info := { s.info with peerList := peers } }
      refine ⟨later, others, ?_, length.trans same⟩
      exact congrArg (Exit.ok ()) shape

theorem processTtyIdInfo_ok (lib : ParseLib) (io : ReadIo) (idInfo : TtyIdInfo) {kind : Kind}
    (s : Sys) (selected : io.setSlave = 0) (isKind : selectKind s.info.idListSubIndex = some kind)
    (answered : io.err = (idInfo.count kind).toNat) (small : (idInfo.count kind).toNat ≤ 121)
    (enough : s.info.peerList.length ≤ io.nodes.length) :
    ∃ heap peers trace, processTtyIdInfo lib io idInfo s =
      .ok () { info := { s.info with peerList := peers }, heap := heap, trace := trace } ∧
      peers.length = s.info.peerList.length := by
  obtain ⟨heap, peers, ran, same⟩ := fanOut_ok lib (io.buffer_length (idInfo.count kind)) small
    (noteCall io idInfo s) s.info.peerList.length enough
  refine ⟨heap, peers, .read kind idInfo (io.buffer (idInfo.count kind)) ::
    (noteCall io idInfo s).trace, ?_, same⟩
  unfold processTtyIdInfo
  have sub : (noteCall io idInfo s).info = s.info := rfl
  simp only [Proc.modify_bind, selected, decide_true, Proc.guard_true, Proc.pure_bind_run,
    Proc.read_bind, sub, isKind, readRegisters, answered]
  rw [Proc.bind_of_ok ran]
  rfl

end RenogyX10.TtyReader
