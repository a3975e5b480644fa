import Mathlib.Algebra.Group.Nat.Defs
import RenogyX10.Lib.Framing
import RenogyX10.Lib.Proc
import RenogyX10.Lib.Runs
import RenogyX10.Parse

set_option autoImplicit false

/- The receiver `process_csck_in`, which `tty_reader_influx.zig` and
`tty_reader_heyu.zig` share word for word. It reads a frame in two phases and
knows the header phase by `to_read` being four. -/
namespace RenogyX10.Csck

open Bytes Framing Parse Proc

inductive ClientError where
  | initLog
  | logFailed
  | addressFailed
  | socketFailed
  | connectFailed
  | pollFailed
  | reload
  | recvFailed
  | invalidParam
  | endOfBuffer
  | outOfMemory
  | spawnFailed
  | fcntlFailed
  | sendFailed
  | noSpaceLeft
deriving DecidableEq

/-- The fields of `info_t` that belong to the receiver. -/
structure Info where
  code : UInt16 := 0
  size : UInt16 := 0
  toRead : Nat := 4
  readed : Nat := 0
deriving DecidableEq

/-- The receiver, its buffer, and the rest of the client. -/
structure Conn (σ : Type) where
  info : Info
  ins : ParseT
  host : σ

variable {σ : Type}

def onHost {α : Type} (p : Proc ClientError σ α) : Proc ClientError (Conn σ) α :=
  focus Conn.host (fun host c => { c with host := host }) p

/-- Received bytes are stored behind the ones that are held. -/
def store (bytes : List UInt8) (c : Conn σ) : Conn σ :=
  { c with
    ins := { c.ins with data := overwrite c.ins.data c.info.readed bytes }
    info := { c.info with readed := c.info.readed + bytes.length } }

/-- The header is complete: go on to the payload it announces. -/
def readHeader (lib : ParseLib) : Proc ClientError (Conn σ) Unit := do
  Proc.modify fun c => { c with ins := lib.reset c.ins 0 }
  let c ← Proc.read id
  Proc.guard (lib.checkRem c.ins 4) .endOfBuffer
  let code ← Proc.orAbort (lib.inU16Le c.ins)
  let size ← Proc.orAbort (lib.inU16Le code.2)
  Proc.modify fun c =>
    { c with ins := size.2, info := { c.info with code := code.1, size := size.1 } }
  Proc.guard (4 < size.1) .invalidParam
  Proc.modify fun c => { c with info := { c.info with toRead := size.1.toNat } }

/-- The frame is complete: hand over its payload and wait for the next header. -/
def readPayload (lib : ParseLib) (processMsg : ParseT → Proc ClientError σ Unit) :
    Proc ClientError (Conn σ) Unit := do
  let c ← Proc.read id
  Proc.when (c.info.code = 0)
    (onHost (processMsg (lib.createFromSlice ((c.ins.data.take c.info.readed).drop 4))))
  Proc.modify fun c => { c with info := { c.info with readed := 0, toRead := 4 } }

/-- One call, with what recv returns: `none` is an error, no bytes is the end of
the stream. The slice it reads into is bounds checked. -/
def processCsckIn (lib : ParseLib) (processMsg : ParseT → Proc ClientError σ Unit)
    (recv : Option (List UInt8)) : Proc ClientError (Conn σ) Unit := do
  let c ← Proc.read id
  if c.info.toRead < c.info.readed ∨ c.ins.data.length < c.info.toRead then Proc.abort
  else
    match recv with
    | none => Proc.fail .recvFailed
    | some bytes => do
        Proc.guard (bytes ≠ []) .invalidParam
        Proc.modify (store bytes)
        let c ← Proc.read id
        Proc.when (c.info.readed = c.info.toRead)
          (if c.info.toRead = 4 then readHeader lib else readPayload lib processMsg)

/-- The buffer both clients create. -/
def insSize : Nat := 64 * 1024

/-- A frame on the wire. -/
structure Frame where
  code : UInt16
  payload : List UInt8
  nonempty : 0 < payload.length
  fits : payload.length + 4 < 2 ^ 16
deriving DecidableEq

def Frame.size (frame : Frame) : UInt16 := UInt16.ofNat (frame.payload.length + 4)

def Frame.bytes (frame : Frame) : List UInt8 := le16 frame.code ++ le16 frame.size ++ frame.payload

def codeOf : List UInt8 → UInt16
  | low :: high :: _ => readLe16 low high
  | _ => 0

def sizeOf : List UInt8 → UInt16
  | _ :: _ :: low :: high :: _ => readLe16 low high
  | _ => 0

def wire : Layout UInt8 := ⟨4, fun header => (sizeOf header).toNat⟩

theorem Frame.size_toNat (frame : Frame) : frame.size.toNat = frame.payload.length + 4 := by
  rw [Frame.size, UInt16.toNat_ofNat', Nat.mod_eq_of_lt frame.fits]

theorem Frame.bytes_length (frame : Frame) : frame.bytes.length = frame.payload.length + 4 := by
  simp only [Frame.bytes, List.length_append, le16_length]
  omega

theorem Frame.codeOf_bytes (frame : Frame) : codeOf frame.bytes = frame.code :=
  readLe16_le16 frame.code

theorem Frame.sizeOf_bytes (frame : Frame) : sizeOf frame.bytes = frame.size :=
  readLe16_le16 frame.size

theorem Frame.drop_bytes (frame : Frame) : frame.bytes.drop 4 = frame.payload :=
  List.drop_left' rfl

theorem Frame.framed (frame : Frame) : wire.Frame frame.bytes := by
  constructor
  · rw [frame.bytes_length]
    have nonempty := frame.nonempty
    show 4 < _
    omega
  · rw [frame.bytes_length, ← frame.size_toNat]
    exact congrArg UInt16.toNat (readLe16_le16 frame.size)

theorem codeOf_append {held : List UInt8} (headed : 4 ≤ held.length) (more : List UInt8) :
    codeOf (held ++ more) = codeOf held := by
  match held with
  | [] | [_] | [_, _] | [_, _, _] => simp at headed
  | _ :: _ :: _ :: _ :: _ => rfl

theorem sizeOf_append {held : List UInt8} (headed : 4 ≤ held.length) (more : List UInt8) :
    sizeOf (held ++ more) = sizeOf held := by
  match held with
  | [] | [_] | [_, _] | [_, _, _] => simp at headed
  | _ :: _ :: _ :: _ :: _ => rfl

/-- The receiver holds the first bytes of a frame. -/
structure Holding (c : Conn σ) (held : List UInt8) : Prop where
  buffer : c.ins.data.length = insSize
  front : c.ins.data.take held.length = held
  readed : c.info.readed = held.length
  toRead : c.info.toRead = wire.target held
  code : 4 ≤ held.length → c.info.code = codeOf held

theorem wire_target_short {held : List UInt8} (short : held.length < 4) : wire.target held = 4 :=
  Layout.target_of_short short

theorem wire_target_headed {held : List UInt8} (headed : 4 ≤ held.length) :
    wire.target held = (sizeOf held).toNat := by
  have long : ¬ held.length < wire.width := Nat.not_lt.mpr headed
  have header : 4 ≤ (held.take 4).length := by
    rw [List.length_take]
    omega
  have same := sizeOf_append header (held.drop 4)
  rw [List.take_append_drop] at same
  rw [Layout.target, if_neg long, same]
  rfl

/-- The receiver never asks for more than its buffer holds. -/
theorem wire_target_lt (held : List UInt8) : wire.target held < insSize := by
  by_cases short : held.length < 4
  · rw [wire_target_short short]
    decide
  · rw [wire_target_headed (Nat.not_lt.mp short)]
    exact (sizeOf held).toNat_lt

/-- The receiver after it has read these two words of a header. -/
def tookHeader (code size : UInt16) (c : Conn σ) : Conn σ :=
  { c with ins := ⟨c.ins.data, 4⟩, info := { c.info with code := code, size := size } }

theorem readHeader_run (lib : ParseLib) {c : Conn σ} {first second third fourth : UInt8}
    (taken : c.ins.data.take 4 = [first, second, third, fourth]) :
    readHeader lib c =
      let next := tookHeader (readLe16 first second) (readLe16 third fourth) c
      if 4 < readLe16 third fourth then
        .ok () { next with info := { next.info with toRead := (readLe16 third fourth).toNat } }
      else .error .invalidParam next := by
  have rewound := lib.reset_zero c.ins
  have left : (lib.reset c.ins 0).rem =
      first :: second :: third :: fourth :: c.ins.data.drop 4 := by
    have whole := List.take_append_drop 4 c.ins.data
    rw [taken] at whole
    rw [rewound, ParseT.rem, List.drop_zero]
    exact whole.symm
  have room : lib.checkRem (lib.reset c.ins 0) 4 = true := by
    rw [lib.checkRem_iff, left]
    simp
  have code := lib.inU16Le_cons _ _ _ _ left
  have size := lib.inU16Le_cons _ _ _ _ (ParseLib.rem_of_offset _ 2
    (show _ = [first, second] ++ _ from left) rfl)
  have offset : (lib.reset c.ins 0).offset = 0 := by rw [rewound]
  have data : (lib.reset c.ins 0).data = c.ins.data := by rw [rewound]
  unfold readHeader
  simp only [modify_bind, read_bind, id_eq, room, Proc.guard_true, pure_bind_run, code, size,
    orAbort_some]
  by_cases large : 4 < readLe16 third fourth
  · simp only [large, decide_true, Proc.guard_true, pure_bind_run, modify_run, ↓reduceIte,
      tookHeader, offset, data]
  · simp only [large, decide_false, Proc.guard_false, fail_bind, ↓reduceIte, tookHeader, offset,
      data]

namespace Holding

variable (lib : ParseLib) (processMsg : ParseT → Proc ClientError σ Unit) {c : Conn σ}
  {held bytes : List UInt8}

theorem stored (holding : Holding c held)
    (bounded : held.length + bytes.length ≤ wire.target held) :
    (store bytes c).ins.data.length = insSize ∧
      (store bytes c).ins.data.take (held ++ bytes).length = held ++ bytes ∧
      (store bytes c).info.readed = (held ++ bytes).length := by
  have limit := wire_target_lt held
  have buffer := holding.buffer
  refine ⟨?_, ?_, ?_⟩
  · show (overwrite c.ins.data c.info.readed bytes).length = insSize
    rw [overwrite_length _ _ _ (by rw [holding.readed]; omega), buffer]
  · show (overwrite c.ins.data c.info.readed bytes).take _ = held ++ bytes
    have taken := overwrite_take c.ins.data c.info.readed bytes (by rw [holding.readed]; omega)
    rw [holding.readed, holding.front] at taken
    rw [holding.readed, List.length_append, taken]
  · rw [List.length_append, ← holding.readed]
    rfl

theorem receives (holding : Holding c held) (nonempty : bytes ≠ [])
    (inside : held.length ≤ wire.target held) :
    processCsckIn lib processMsg (some bytes) c =
      Proc.when (held.length + bytes.length = wire.target held)
        (if wire.target held = 4 then readHeader lib else readPayload lib processMsg)
        (store bytes c) := by
  have limit := wire_target_lt held
  have buffer := holding.buffer
  have fits : ¬ (c.info.toRead < c.info.readed ∨ c.ins.data.length < c.info.toRead) := by
    rw [holding.toRead, holding.readed]
    omega
  have readed : (store bytes c).info.readed = held.length + bytes.length := by
    rw [← holding.readed]
    rfl
  have toRead : (store bytes c).info.toRead = wire.target held := holding.toRead
  unfold processCsckIn
  simp only [read_bind, id_eq, fits, ↓reduceIte, nonempty, ne_eq, not_false_eq_true, decide_true,
    Proc.guard_true, pure_bind_run, modify_bind, readed, toRead]

/-- Bytes that do not reach what is asked for are held. -/
theorem short (holding : Holding c held) (nonempty : bytes ≠ [])
    (unfinished : held.length + bytes.length < wire.target held) :
    processCsckIn lib processMsg (some bytes) c = .ok () (store bytes c) ∧
      Holding (store bytes c) (held ++ bytes) := by
  obtain ⟨buffer, front, readed⟩ := holding.stored (Nat.le_of_lt unfinished)
  have waiting : ¬ held.length + bytes.length = wire.target held := by omega
  refine ⟨?_, buffer, front, readed, ?_, ?_⟩
  · rw [holding.receives lib processMsg nonempty (by omega), when_false _ waiting, pure_run]
  · show c.info.toRead = _
    rw [holding.toRead]
    by_cases headless : held.length < 4
    · rw [wire_target_short headless] at unfinished ⊢
      rw [wire_target_short (by rw [List.length_append]; exact unfinished)]
    · have headed : 4 ≤ held.length := Nat.not_lt.mp headless
      have longer : 4 ≤ (held ++ bytes).length := by
        rw [List.length_append]
        omega
      rw [wire_target_headed headed, wire_target_headed longer, sizeOf_append headed]
  · intro headed
    rw [List.length_append] at headed
    have before : 4 ≤ held.length := by
      by_contra headless
      rw [wire_target_short (Nat.not_le.mp headless)] at unfinished
      omega
    rw [codeOf_append before]
    exact holding.code before

theorem header (holding : Holding c held) (nonempty : bytes ≠ [])
    (complete : held.length + bytes.length = 4) :
    (¬ 4 < sizeOf (held ++ bytes) ∧
      processCsckIn lib processMsg (some bytes) c =
        .error .invalidParam (tookHeader (codeOf (held ++ bytes)) (sizeOf (held ++ bytes))
          (store bytes c))) ∨
    (4 < sizeOf (held ++ bytes) ∧
      ∃ next, processCsckIn lib processMsg (some bytes) c = .ok () next ∧
        next.host = c.host ∧ Holding next (held ++ bytes)) := by
  have some_byte : 0 < bytes.length := List.length_pos_iff.mpr nonempty
  have target : wire.target held = 4 := wire_target_short (by omega)
  obtain ⟨buffer, front, readed⟩ := holding.stored (Nat.le_of_eq (by rw [complete, target]))
  have width : (held ++ bytes).length = 4 := by rw [List.length_append, complete]
  obtain ⟨first, second, third, fourth, four⟩ := List.length_eq_four.mp width
  have ran : processCsckIn lib processMsg (some bytes) c = readHeader lib (store bytes c) := by
    rw [holding.receives lib processMsg nonempty (by omega),
      when_true _ (by rw [complete, target]), if_pos target]
  have code : codeOf (held ++ bytes) = readLe16 first second := by rw [four]; rfl
  have size : sizeOf (held ++ bytes) = readLe16 third fourth := by rw [four]; rfl
  have taken : (store bytes c).ins.data.take 4 = [first, second, third, fourth] := by
    rw [← width, front, four]
  rw [ran, readHeader_run lib taken]
  by_cases large : 4 < readLe16 third fourth
  · right
    rw [size]
    refine ⟨large, _, if_pos large, rfl, buffer, front, readed, ?_, fun _ => code.symm⟩
    rw [wire_target_headed (Nat.le_of_eq width.symm), size]
  · left
    rw [size, code]
    exact ⟨large, if_neg large⟩

theorem whole (holding : Holding c held) (headed : 4 ≤ held.length) (nonempty : bytes ≠ [])
    (complete : held.length + bytes.length = wire.target held) (large : 4 < wire.target held) :
    processCsckIn lib processMsg (some bytes) c =
        readPayload lib processMsg (store bytes c) ∧
      (store bytes c).info.code = codeOf (held ++ bytes) ∧
      (store bytes c).ins.data.length = insSize ∧
      (store bytes c).ins.data.take (store bytes c).info.readed = held ++ bytes := by
  obtain ⟨buffer, front, readed⟩ := holding.stored (Nat.le_of_eq complete)
  refine ⟨?_, ?_, buffer, by rw [readed, front]⟩
  · rw [holding.receives lib processMsg nonempty (by omega), when_true _ complete,
      if_neg (Nat.ne_of_gt large)]
  · rw [codeOf_append headed, ← holding.code headed]
    rfl

end Holding

/-- What one frame means for the rest of the client. -/
def handle (lib : ParseLib) (processMsg : ParseT → Proc ClientError σ Unit) (frame : Frame) :
    Proc ClientError σ Unit :=
  Proc.when (frame.code = 0) (processMsg (lib.createFromSlice frame.payload))

/-- `process_msg` once for every frame with code zero, in order. -/
def handleAll (lib : ParseLib) (processMsg : ParseT → Proc ClientError σ Unit) :
    List Frame → Proc ClientError σ Unit
  | [] => pure ()
  | frame :: rest => do
      handle lib processMsg frame
      handleAll lib processMsg rest

/-- The receiver when the call for a frame has ended. -/
def finish (c : Conn σ) : Exit ClientError σ Unit → Exit ClientError (Conn σ) Unit
  | .ok _ host => .ok () { c with host := host, info := { c.info with readed := 0, toRead := 4 } }
  | .error reason host => .error reason { c with host := host }
  | .panic host => .panic { c with host := host }

/-- What the end of the call for a frame means for the receiver. -/
theorem meets_finish {good bad fallen : Conn σ → Prop} {c : Conn σ}
    {ended : Exit ClientError σ Unit}
    (inner : ended.Meets
      (fun host => good { c with host := host, info := { c.info with readed := 0, toRead := 4 } })
      (fun host => bad { c with host := host }) fun host => fallen { c with host := host }) :
    (finish c ended).Meets good bad fallen := by
  cases ended <;> exact inner

theorem readPayload_run (lib : ParseLib) (processMsg : ParseT → Proc ClientError σ Unit)
    {c : Conn σ} {frame : Frame} (code : c.info.code = frame.code)
    (taken : c.ins.data.take c.info.readed = frame.bytes) :
    readPayload lib processMsg c = finish c (handle lib processMsg frame c.host) := by
  unfold readPayload handle
  simp only [read_bind, id_eq, taken, frame.drop_bytes]
  by_cases zero : frame.code = 0
  · rw [when_true _ (code.trans zero), when_true _ zero, bind_run, onHost, focus_run]
    cases processMsg (lib.createFromSlice frame.payload) c.host with
    | ok value host => rfl
    | error reason host => rfl
    | panic host => rfl
  · rw [when_false _ fun same => zero (code.symm.trans same), when_false _ zero]
    rfl

def streamOf (frames : List Frame) : List UInt8 := (frames.map Frame.bytes).flatten

/-- What is held belongs to the first of the frames still to come. -/
def Awaits (held : List UInt8) (frames : List Frame) : Prop :=
  Layout.Pending held (frames.map Frame.bytes)

theorem framed_all (frames : List Frame) : ∀ bytes ∈ frames.map Frame.bytes, wire.Frame bytes := by
  intro bytes member
  obtain ⟨frame, _, rfl⟩ := List.mem_map.mp member
  exact frame.framed

/-- The bytes recv may return: some, and no more than were asked for. -/
def Asked (c : Conn σ) (bytes : List UInt8) : Prop :=
  bytes ≠ [] ∧ bytes.length ≤ c.info.toRead - c.info.readed

namespace Holding

variable (lib : ParseLib) (processMsg : ParseT → Proc ClientError σ Unit) {c : Conn σ}
  {held bytes more tail : List UInt8} {frame : Frame} {rest : List Frame}

theorem idle (buffer : c.ins.data.length = insSize) (readed : c.info.readed = 0)
    (toRead : c.info.toRead = 4) : Holding c [] :=
  ⟨buffer, rfl, readed, toRead, fun headed => absurd headed (by decide)⟩

/-- The receiver always asks for something, within its buffer. -/
theorem asks (holding : Holding c held) (awaits : Awaits held (frame :: rest)) :
    c.info.readed < c.info.toRead ∧ c.info.toRead ≤ 65535 ∧ 65535 ≤ c.ins.data.length := by
  have below := wire_target_lt held
  have more := Layout.length_lt_target frame.framed awaits.1 awaits.2
  have size : insSize = 65536 := rfl
  rw [holding.readed, holding.toRead, holding.buffer]
  omega

/-- One call with bytes of a frame: the frame is handled, or they are held. -/
theorem step (holding : Holding c held) (awaits : Awaits held (frame :: rest))
    (asked : Asked c bytes) (stream : held ++ bytes ++ more = streamOf (frame :: rest) ++ tail) :
    (∃ next : Conn σ, processCsckIn lib processMsg (some bytes) c =
        finish next (handle lib processMsg frame c.host) ∧ next.ins.data.length = insSize ∧
      held ++ bytes = frame.bytes ∧ Awaits [] rest ∧ more = streamOf rest ++ tail) ∨
    ∃ next, processCsckIn lib processMsg (some bytes) c = .ok () next ∧ next.host = c.host ∧
      Holding next (held ++ bytes) ∧ Awaits (held ++ bytes) (frame :: rest) := by
  obtain ⟨nonempty, asked⟩ := asked
  rw [holding.toRead, holding.readed] at asked
  have some_byte : 0 < bytes.length := List.length_pos_iff.mpr nonempty
  have bounded : held.length + bytes.length ≤ wire.target held := by omega
  have size := frame.size_toNat
  have length := frame.bytes_length
  have positive := frame.nonempty
  rcases Layout.Pending.step (framed_all (frame :: rest)) awaits bounded stream with
    ⟨complete, others, onward⟩ | inside
  · left
    have total : held.length + bytes.length = frame.bytes.length := by
      rw [← complete, List.length_append]
    have headed : 4 ≤ held.length := by
      by_contra headless
      rw [wire_target_short (Nat.not_le.mp headless)] at bounded
      omega
    have reached : wire.target held = frame.bytes.length :=
      Layout.target_of_begun frame.framed awaits.1 headed
    obtain ⟨ran, code, buffer, taken⟩ :=
      holding.whole lib processMsg headed nonempty (by omega) (by omega)
    refine ⟨store bytes c, ?_, buffer, complete, others, onward⟩
    rw [ran, readPayload_run lib processMsg (code.trans ?_) (taken.trans complete)]
    · rfl
    · rw [complete, frame.codeOf_bytes]
  · right
    by_cases waiting : held.length + bytes.length = wire.target held
    · have shorter : (held ++ bytes).length < frame.bytes.length := inside.2
      rw [List.length_append] at shorter
      have headless : held.length < 4 := by
        by_contra headed
        have reached := Layout.target_of_begun frame.framed awaits.1 (Nat.not_lt.mp headed)
        omega
      rw [wire_target_short headless] at waiting
      have announced : sizeOf (held ++ bytes) = frame.size := by
        obtain ⟨later, split⟩ := inside.1
        have headed : 4 ≤ (held ++ bytes).length := by
          rw [List.length_append]
          omega
        have same := sizeOf_append headed later
        rw [split, frame.sizeOf_bytes] at same
        exact same.symm
      have large : 4 < sizeOf (held ++ bytes) := by
        rw [announced, UInt16.lt_iff_toNat_lt, size]
        show 4 < _
        omega
      rcases holding.header lib processMsg nonempty waiting with
        ⟨small, _⟩ | ⟨_, next, ran, host, after⟩
      · exact absurd large small
      · exact ⟨next, ran, host, after, inside⟩
    · obtain ⟨ran, after⟩ := holding.short lib processMsg nonempty
        (by omega)
      exact ⟨_, ran, rfl, after, inside⟩

end Holding

theorem Holding.withHost {c : Conn σ} {held : List UInt8} (holding : Holding c held) (host : σ) :
    Holding { c with host := host } held :=
  ⟨holding.buffer, holding.front, holding.readed, holding.toRead, holding.code⟩

theorem streamOf_append (front back : List Frame) :
    streamOf (front ++ back) = streamOf front ++ streamOf back := by
  rw [streamOf, List.map_append, List.flatten_append]
  rfl

theorem Awaits.more {held : List UInt8} {later : List Frame} (awaits : Awaits held later)
    (within : held <+: streamOf later) (more : List Frame) : Awaits held (later ++ more) := by
  cases later with
  | nil =>
      rw [List.prefix_nil.mp within]
      exact Layout.pending_nil (framed_all more)
  | cons frame rest => exact awaits

/-- Bytes that go on with the frames to come complete the first one or are held. -/
theorem Holding.receives_next (lib : ParseLib) (processMsg : ParseT → Proc ClientError σ Unit)
    {c : Conn σ} {held bytes : List UInt8} {later : List Frame} (holding : Holding c held)
    (awaits : Awaits held later) (asked : Asked c bytes)
    (within : held ++ bytes <+: streamOf later) :
    (∃ frame rest, later = frame :: rest ∧ held ++ bytes = frame.bytes ∧ Awaits [] rest ∧
      ∃ next : Conn σ, next.ins.data.length = insSize ∧
        processCsckIn lib processMsg (some bytes) c =
          finish next (handle lib processMsg frame c.host)) ∨
    ∃ next, processCsckIn lib processMsg (some bytes) c = .ok () next ∧ next.host = c.host ∧
      Holding next (held ++ bytes) ∧ Awaits (held ++ bytes) later := by
  cases later with
  | nil =>
      have none := List.prefix_nil.mp within
      exact absurd (List.append_eq_nil_iff.mp none).2 asked.1
  | cons frame rest =>
      obtain ⟨more, stream⟩ := within
      rw [← List.append_nil (streamOf _)] at stream
      rcases holding.step lib processMsg awaits asked stream with
        ⟨next, ran, buffer, whole, others, _⟩ | held
      · exact .inl ⟨frame, rest, rfl, whole, others, next, buffer, ran⟩
      · exact .inr held

theorem Holding.takes_header (lib : ParseLib) (processMsg : ParseT → Proc ClientError σ Unit)
    {c : Conn σ} (idle : Holding c []) (frame : Frame) :
    ∃ next, processCsckIn lib processMsg (some (frame.bytes.take 4)) c = .ok () next ∧
      next.host = c.host ∧ Holding next (frame.bytes.take 4) := by
  have width : (frame.bytes.take 4).length = 4 := rfl
  have asked : Asked c (frame.bytes.take 4) := by
    refine ⟨List.ne_nil_of_length_pos (by omega), ?_⟩
    rw [width, idle.readed, idle.toRead]
    decide
  have stream : [] ++ frame.bytes.take 4 ++ frame.payload = streamOf [frame] ++ [] := by
    simp only [streamOf, List.map_cons, List.map_nil, List.flatten_cons, List.flatten_nil,
      List.append_nil, List.nil_append]
    exact List.take_append_drop 4 frame.bytes
  have awaits : Awaits [] [frame] := Layout.pending_nil (framed_all [frame])
  rcases idle.step lib processMsg awaits asked stream with ⟨_, _, _, whole, _⟩ | taken
  · have same := congrArg List.length whole
    rw [List.nil_append, width, frame.bytes_length] at same
    have positive := frame.nonempty
    omega
  · obtain ⟨next, ran, host, holding, _⟩ := taken
    exact ⟨next, ran, host, holding⟩

theorem Holding.takes_payload (lib : ParseLib) (processMsg : ParseT → Proc ClientError σ Unit)
    {c : Conn σ} {frame : Frame} (holding : Holding c (frame.bytes.take 4)) :
    ∃ next : Conn σ, processCsckIn lib processMsg (some frame.payload) c =
      finish next (handle lib processMsg frame c.host) ∧ next.ins.data.length = insSize := by
  have width : (frame.bytes.take 4).length = 4 := rfl
  have positive := frame.nonempty
  have length := frame.bytes_length
  have begun : frame.bytes.take 4 <+: frame.bytes := List.take_prefix 4 frame.bytes
  have target : wire.target (frame.bytes.take 4) = frame.bytes.length :=
    Layout.target_of_begun frame.framed begun (Nat.le_of_eq width.symm)
  have asked : Asked c frame.payload := by
    refine ⟨List.ne_nil_of_length_pos positive, ?_⟩
    rw [holding.toRead, holding.readed, target, width]
    omega
  have whole : frame.bytes.take 4 ++ frame.payload = frame.bytes :=
    List.take_append_drop 4 frame.bytes
  have stream : frame.bytes.take 4 ++ frame.payload ++ [] = streamOf [frame] ++ [] := by
    rw [whole]
    simp [streamOf]
  have awaits : Awaits (frame.bytes.take 4) [frame] := ⟨begun, by omega⟩
  rcases holding.step lib processMsg awaits asked stream with ⟨next, ran, buffer, _⟩ | held
  · exact ⟨next, ran, buffer⟩
  · obtain ⟨_, _, _, _, proper⟩ := held
    have short : (frame.bytes.take 4 ++ frame.payload).length < frame.bytes.length := proper.2
    rw [whole] at short
    omega

/-- The client after a call that received these bytes. -/
def receive (lib : ParseLib) (processMsg : ParseT → Proc ClientError σ Unit) (c : Conn σ)
    (bytes : List UInt8) : Conn σ :=
  (processCsckIn lib processMsg (some bytes) c).state

/-- A call that asks for something within the buffer, and returns. -/
def Fine (lib : ParseLib) (processMsg : ParseT → Proc ClientError σ Unit) (c : Conn σ)
    (bytes : List UInt8) : Prop :=
  (c.info.readed < c.info.toRead ∧ c.info.toRead ≤ 65535 ∧ 65535 ≤ c.ins.data.length) ∧
    ∃ next, processCsckIn lib processMsg (some bytes) c = .ok () next

/-- In the middle of a stream: the frames still to come lead to this host, and
the bytes still to come complete them and go on with `tail`. -/
def Underway (lib : ParseLib) (processMsg : ParseT → Proc ClientError σ Unit) (host : σ)
    (c : Conn σ) (more tail : List UInt8) : Prop :=
  ∃ held frames, Holding c held ∧ Awaits held frames ∧ held ++ more = streamOf frames ++ tail ∧
    handleAll lib processMsg frames c.host = .ok () host

section Streams

variable (lib : ParseLib) (processMsg : ParseT → Proc ClientError σ Unit) {host : σ} {c : Conn σ}
  {bytes more tail : List UInt8}

theorem handleAll_cons {frame : Frame} {rest : List Frame} {start : σ}
    (handled : handleAll lib processMsg (frame :: rest) start = .ok () host) :
    ∃ middle, handle lib processMsg frame start = .ok () middle ∧
      handleAll lib processMsg rest middle = .ok () host := by
  rw [handleAll] at handled
  obtain ⟨_, middle, first, later⟩ := of_bind_ok handled
  exact ⟨middle, first, later⟩

theorem Underway.step (underway : Underway lib processMsg host c (bytes ++ more) tail)
    (asked : Asked c bytes) (beyond : tail = [] ∨ (tail.length = 4 ∧ more ≠ [])) :
    Fine lib processMsg c bytes ∧
      Underway lib processMsg host (receive lib processMsg c bytes) more tail := by
  obtain ⟨held, frames, holding, awaits, stream, handled⟩ := underway
  rw [← List.append_assoc] at stream
  have some_byte : 0 < bytes.length := List.length_pos_iff.mpr asked.1
  cases frames with
  | nil =>
      have total := congrArg List.length stream
      simp only [List.length_append, streamOf, List.map_nil, List.flatten_nil, List.length_nil]
        at total
      rcases beyond with empty | ⟨four, unfinished⟩
      · rw [empty, List.length_nil] at total
        omega
      · have left : 0 < more.length := List.length_pos_iff.mpr unfinished
        have target : wire.target held = 4 := wire_target_short (by omega)
        obtain ⟨ran, after⟩ := holding.short lib processMsg asked.1 (by omega)
        refine ⟨⟨?_, _, ran⟩, held ++ bytes, [], ?_, trivial, stream, ?_⟩
        · rw [holding.readed, holding.toRead, holding.buffer, target]
          exact ⟨by omega, by omega, by decide⟩
        · rw [receive, ran]
          exact after
        · rw [receive, ran]
          exact handled
  | cons frame rest =>
      have asks := holding.asks awaits
      rcases holding.step lib processMsg awaits asked stream with
        ⟨next, ran, buffer, _, others, onward⟩ | ⟨next, ran, same, after, inside⟩
      · obtain ⟨middle, one, others_handled⟩ := handleAll_cons lib processMsg handled
        rw [one] at ran
        refine ⟨⟨asks, _, ran⟩, [], rest, ?_, others, onward, ?_⟩
        · rw [receive, ran]
          exact Holding.idle buffer rfl rfl
        · rw [receive, ran]
          exact others_handled
      · refine ⟨⟨asks, _, ran⟩, held ++ bytes, frame :: rest, ?_, inside, stream, ?_⟩
        · rw [receive, ran]
          exact after
        · rw [receive, ran]
          show handleAll lib processMsg (frame :: rest) next.host = _
          rw [same]
          exact handled

/-- What one call keeps is kept by a sequence of calls. -/
theorem Underway.run (chunks : List (List UInt8))
    (underway : Underway lib processMsg host c (chunks.flatten ++ more) tail)
    (asked : Runs.Admits (receive lib processMsg) Asked c chunks)
    (beyond : tail = [] ∨ (tail.length = 4 ∧ more ≠ [])) :
    Runs.Admits (receive lib processMsg) (Fine lib processMsg) c chunks ∧
      Underway lib processMsg host (Runs.exec (receive lib processMsg) c chunks) more tail := by
  induction chunks generalizing c with
  | nil => exact ⟨trivial, underway⟩
  | cons bytes rest ih =>
      rw [List.flatten_cons, List.append_assoc] at underway
      have later : tail = [] ∨ (tail.length = 4 ∧ rest.flatten ++ more ≠ []) := by
        rcases beyond with empty | ⟨four, unfinished⟩
        · exact .inl empty
        · exact .inr ⟨four, fun none => unfinished (List.append_eq_nil_iff.mp none).2⟩
      obtain ⟨fine, next⟩ := underway.step lib processMsg asked.1 later
      obtain ⟨others, final⟩ := ih next asked.2
      exact ⟨⟨fine, others⟩, final⟩

end Streams

/-- However a stream of these frames is cut, every call returns, the rest of the
client ends as `host`, and the receiver waits for a header again. A header after
them that leaves no payload ends in an error, with `host` reached and unchanged. -/
def Reassembles (lib : ParseLib) (processMsg : ParseT → Proc ClientError σ Unit) (c : Conn σ)
    (frames : List Frame) (host : σ) : Prop :=
  (∀ chunks, Runs.Admits (receive lib processMsg) Asked c chunks →
    chunks.flatten = streamOf frames →
    Runs.Admits (receive lib processMsg) (Fine lib processMsg) c chunks ∧
    (Runs.exec (receive lib processMsg) c chunks).host = host ∧
    (Runs.exec (receive lib processMsg) c chunks).info.readed = 0 ∧
    (Runs.exec (receive lib processMsg) c chunks).info.toRead = 4) ∧
  ∀ code size, size ≤ 4 → ∀ front last,
    Runs.Admits (receive lib processMsg) Asked c (front ++ [last]) →
    (front ++ [last]).flatten = streamOf frames ++ (le16 code ++ le16 size) →
    Runs.Admits (receive lib processMsg) (Fine lib processMsg) c front ∧
    ∃ next, processCsckIn lib processMsg (some last)
        (Runs.exec (receive lib processMsg) c front) = .error .invalidParam next ∧
      next.host = host

/-- `process_msg` is called for the payloads of the frames with code zero, once
each and in order, and for nothing else: whatever these calls make of the rest of
the client, the receiver does. -/
theorem frames_reassembled (lib : ParseLib) (processMsg : ParseT → Proc ClientError σ Unit)
    (c : Conn σ) (buffer : c.ins.data.length = insSize) (readed : c.info.readed = 0)
    (toRead : c.info.toRead = 4) (frames : List Frame) (host : σ)
    (handled : handleAll lib processMsg frames c.host = .ok () host) :
    Reassembles lib processMsg c frames host := by
  have idle : Holding c [] := Holding.idle buffer readed toRead
  have awaits : Awaits [] frames := Layout.pending_nil (framed_all frames)
  constructor
  · intro chunks asked stream
    have start : Underway lib processMsg host c (chunks.flatten ++ []) [] :=
      ⟨[], frames, idle, awaits, by simp [stream], handled⟩
    obtain ⟨fine, held, left, holding, pending, rest, done⟩ :=
      start.run lib processMsg chunks asked (.inl rfl)
    rw [List.append_nil, List.append_nil] at rest
    obtain ⟨none, empty⟩ := Layout.Pending.complete pending rest
    obtain rfl := List.map_eq_nil_iff.mp none
    subst empty
    have final : Exit.ok () _ = Exit.ok () host := done
    exact ⟨fine, (Exit.ok.inj final).2, holding.readed, holding.toRead⟩
  · intro code size small front last asked stream
    obtain ⟨askedFront, askedLast, _⟩ := (Runs.admits_append c front [last]).mp asked
    have start : Underway lib processMsg host c (front.flatten ++ last) (le16 code ++ le16 size) := by
      refine ⟨[], frames, idle, awaits, ?_, handled⟩
      rw [List.nil_append, ← stream, List.flatten_append, List.flatten_singleton]
    obtain ⟨fine, held, left, holding, pending, rest, done⟩ :=
      start.run lib processMsg front askedFront (.inr ⟨rfl, askedLast.1⟩)
    refine ⟨fine, ?_⟩
    cases left with
    | cons frame others =>
        -- the last piece cannot reach past the first frame, let alone to the header
        have limit : wire.target held ≤ frame.bytes.length :=
          Layout.target_le frame.framed pending.1
        have piece : last.length ≤ wire.target held - held.length := by
          rw [← holding.toRead, ← holding.readed]
          exact askedLast.2
        have short : held.length < frame.bytes.length := pending.2
        have total := congrArg List.length rest
        simp only [streamOf, List.map_cons, List.flatten_cons, List.length_append, le16_length]
          at total
        omega
    | nil =>
        have whole : held ++ last = le16 code ++ le16 size := rest
        have total := congrArg List.length whole
        simp only [List.length_append, le16_length] at total
        have announced : sizeOf (held ++ last) = size := by
          rw [whole]
          exact readLe16_le16 size
        rcases holding.header lib processMsg askedLast.1 total with ⟨_, ran⟩ | ⟨large, _⟩
        · have final : Exit.ok () _ = Exit.ok () host := done
          exact ⟨_, ran, (Exit.ok.inj final).2⟩
        · rw [announced] at large
          exact absurd large (UInt16.not_lt.mpr small)

/-- The slice that recv stores to lies within the buffer. -/
structure InBounds (c : Conn σ) : Prop where
  buffer : c.ins.data.length = insSize
  readed : c.info.readed ≤ c.info.toRead
  toRead : c.info.toRead < insSize

/-- recv returns no more than it is asked for. -/
def RecvFits (c : Conn σ) : Option (List UInt8) → Prop
  | some bytes => bytes.length ≤ c.info.toRead - c.info.readed
  | none => True

instance (c : Conn σ) : ∀ recv, Decidable (RecvFits c recv)
  | some _ => inferInstanceAs (Decidable (_ ≤ _))
  | none => .isTrue trivial

theorem Holding.recvFits {c : Conn σ} {held bytes : List UInt8} (holding : Holding c held)
    (bounded : held.length + bytes.length ≤ wire.target held) : RecvFits c (some bytes) := by
  show bytes.length ≤ c.info.toRead - c.info.readed
  rw [holding.toRead, holding.readed]
  omega

theorem Holding.inBounds {c : Conn σ} {held : List UInt8} (holding : Holding c held)
    (inside : held.length ≤ wire.target held) : InBounds c := by
  refine ⟨holding.buffer, ?_, ?_⟩
  · rw [holding.readed, holding.toRead]
    exact inside
  · rw [holding.toRead]
    exact wire_target_lt held

namespace InBounds

variable {c : Conn σ} {good bad fallen : σ → Prop}

theorem withHost (bounds : InBounds c) (host : σ) : InBounds { c with host := host } :=
  ⟨bounds.buffer, bounds.readed, bounds.toRead⟩

theorem onHost {α : Type} {p : Proc ClientError σ α} (bounds : InBounds c)
    (inner : (p c.host).Meets good bad fallen) :
    (onHost p c).Meets (fun t => InBounds t ∧ good t.host) (fun t => InBounds t ∧ bad t.host)
      fun t => fallen t.host := by
  apply meets_focus
  exact meets_mono inner (fun host holds => ⟨bounds.withHost host, holds⟩)
    (fun host holds => ⟨bounds.withHost host, holds⟩) fun _ holds => holds

theorem store {bytes : List UInt8} (bounds : InBounds c) (fits : RecvFits c (some bytes)) :
    InBounds (store bytes c) := by
  obtain ⟨buffer, readed, toRead⟩ := bounds
  have room : c.info.readed + bytes.length ≤ c.info.toRead := by
    have asked : bytes.length ≤ c.info.toRead - c.info.readed := fits
    omega
  have length := overwrite_length c.ins.data c.info.readed bytes (by omega)
  exact ⟨length.trans buffer, room, toRead⟩

theorem readHeader (lib : ParseLib) (bounds : InBounds c) (four : c.info.readed = 4)
    (same : good c.host) (failed : bad c.host) :
    (readHeader lib c).Meets (fun t => InBounds t ∧ good t.host)
      (fun t => InBounds t ∧ bad t.host) fun t => fallen t.host := by
  obtain ⟨buffer, readed, toRead⟩ := bounds
  have size : insSize = 65536 := rfl
  have width : (c.ins.data.take 4).length = 4 := by
    rw [List.length_take]
    omega
  obtain ⟨first, second, third, fourth, taken⟩ := List.length_eq_four.mp width
  rw [readHeader_run lib taken]
  by_cases large : 4 < readLe16 third fourth
  · rw [if_pos large]
    have above : 4 < (readLe16 third fourth).toNat := UInt16.lt_iff_toNat_lt.mp large
    have below := (readLe16 third fourth).toNat_lt
    refine ⟨⟨buffer, ?_, ?_⟩, same⟩
    · show c.info.readed ≤ (readLe16 third fourth).toNat
      omega
    · show (readLe16 third fourth).toNat < insSize
      omega
  · rw [if_neg large]
    exact ⟨⟨buffer, readed, toRead⟩, failed⟩

theorem readPayload (lib : ParseLib) {processMsg : ParseT → Proc ClientError σ Unit}
    (bounds : InBounds c) (same : good c.host)
    (msg : ∀ s, (processMsg s c.host).Meets good bad fallen) :
    (readPayload lib processMsg c).Meets (fun t => InBounds t ∧ good t.host)
      (fun t => InBounds t ∧ bad t.host) fun t => fallen t.host := by
  unfold Csck.readPayload
  rw [read_bind]
  apply meets_bind (meets_when (fun _ => bounds.onHost (msg _)) fun _ => ⟨bounds, same⟩)
  intro _ t holds
  refine ⟨⟨holds.1.buffer, Nat.zero_le 4, ?_⟩, holds.2⟩
  show 4 < insSize
  decide

theorem inside (bounds : InBounds c) :
    ¬ (c.info.toRead < c.info.readed ∨ c.ins.data.length < c.info.toRead) := by
  have readed := bounds.readed
  have toRead := bounds.toRead
  rw [bounds.buffer]
  omega

/-- One call, on whatever the receiver holds: its own checks never fail. -/
theorem processCsckIn (lib : ParseLib) {processMsg : ParseT → Proc ClientError σ Unit}
    {recv : Option (List UInt8)} (bounds : InBounds c) (fits : RecvFits c recv)
    (same : good c.host) (failed : bad c.host)
    (msg : ∀ s, (processMsg s c.host).Meets good bad fallen) :
    (processCsckIn lib processMsg recv c).Meets (fun t => InBounds t ∧ good t.host)
      (fun t => InBounds t ∧ bad t.host) fun t => fallen t.host := by
  unfold Csck.processCsckIn
  simp only [read_bind, id_eq, if_neg bounds.inside]
  cases recv with
  | none => exact ⟨bounds, failed⟩
  | some bytes =>
      have stored := bounds.store fits
      dsimp only
      apply meets_guard_bind _ _ ⟨bounds, failed⟩
      simp only [modify_bind, read_bind, id_eq]
      apply meets_when
      · intro complete
        by_cases header : (Csck.store bytes c).info.toRead = 4
        · rw [if_pos header]
          exact readHeader lib stored (complete.trans header) same failed
        · rw [if_neg header]
          exact readPayload lib stored same msg
      · exact fun _ => ⟨stored, same⟩

theorem processCsckIn_ended (lib : ParseLib) (processMsg : ParseT → Proc ClientError σ Unit)
    {recv : Option (List UInt8)} (bounds : InBounds c) (nothing : recv.getD [] = []) :
    ∃ reason, Csck.processCsckIn lib processMsg recv c = .error reason c := by
  unfold Csck.processCsckIn
  simp only [read_bind, id_eq, if_neg bounds.inside]
  cases recv with
  | none => exact ⟨_, rfl⟩
  | some bytes =>
      obtain rfl : bytes = [] := nothing
      exact ⟨_, rfl⟩

end InBounds

section Host

variable (lib : ParseLib) {processMsg : ParseT → Proc ClientError σ Unit} {c : Conn σ}
  {good bad fallen : σ → Prop}

theorem meets_onHost {α : Type} {p : Proc ClientError σ α}
    (inner : (p c.host).Meets good bad fallen) :
    (onHost p c).Meets (fun t => good t.host) (fun t => bad t.host) fun t => fallen t.host :=
  meets_focus inner

theorem onHost_of_ok {α : Type} {p : Proc ClientError σ α} {value : α} {host : σ}
    (returned : p c.host = .ok value host) : onHost p c = .ok value { c with host := host } := by
  rw [onHost, focus_run, returned]

theorem readHeader_host (same : good c.host) (failed : bad c.host) (aborted : fallen c.host) :
    (readHeader lib c).Meets (fun t => good t.host) (fun t => bad t.host)
      fun t => fallen t.host := by
  unfold readHeader
  rw [modify_bind, read_bind]
  apply meets_guard_bind
  · exact failed
  apply meets_orAbort_bind
  · exact aborted
  intro code _
  apply meets_orAbort_bind
  · exact aborted
  intro size _
  rw [modify_bind]
  apply meets_guard_bind
  · exact failed
  · exact same

theorem readPayload_host (same : good c.host)
    (msg : ∀ s, (processMsg s c.host).Meets good bad fallen) :
    (readPayload lib processMsg c).Meets (fun t => good t.host) (fun t => bad t.host)
      fun t => fallen t.host := by
  unfold readPayload
  rw [read_bind]
  apply meets_bind (meets_when (fun _ => meets_onHost (msg _)) fun _ => same)
  exact fun _ t holds => holds

/-- Whatever the receiver holds, a call changes the rest of the client by
`process_msg` only. -/
theorem processCsckIn_host {recv : Option (List UInt8)} (same : good c.host) (failed : bad c.host)
    (aborted : fallen c.host) (msg : ∀ s, (processMsg s c.host).Meets good bad fallen) :
    (processCsckIn lib processMsg recv c).Meets (fun t => good t.host) (fun t => bad t.host)
      fun t => fallen t.host := by
  unfold processCsckIn
  rw [read_bind, ite_run]
  split
  · exact aborted
  · cases recv with
    | none => exact failed
    | some bytes =>
        dsimp only
        apply meets_guard_bind
        · exact failed
        rw [modify_bind, read_bind]
        apply meets_when
        · intro _
          rw [ite_run]
          split
          · exact readHeader_host lib same failed aborted
          · exact readPayload_host lib same msg
        · exact fun _ => same

theorem processCsckIn_avoids {reason : ClientError} (recv : Option (List UInt8))
    (received : .recvFailed ≠ reason) (rejected : .invalidParam ≠ reason)
    (ended : .endOfBuffer ≠ reason) (msg : ∀ s, Avoids reason (processMsg s)) :
    Avoids reason (processCsckIn lib processMsg recv) := by
  have header : Avoids reason (readHeader lib : Proc ClientError (Conn σ) Unit) := by
    apply Avoids.bind (.modify _)
    intro _
    apply Avoids.bind (.read _)
    intro _
    apply Avoids.bind (.guard _ ended)
    intro _
    apply Avoids.bind (.orAbort _)
    intro _
    apply Avoids.bind (.orAbort _)
    intro _
    apply Avoids.bind (.modify _)
    intro _
    exact Avoids.bind (.guard _ rejected) fun _ => .modify _
  have payload : Avoids reason (readPayload lib processMsg) := by
    apply Avoids.bind (.read _)
    intro _
    exact Avoids.bind (.when (.focus (msg _))) fun _ => .modify _
  apply Avoids.bind (.read _)
  intro c
  apply Avoids.ite .abort
  cases recv with
  | none => exact .fail received
  | some bytes =>
      apply Avoids.bind (.guard _ rejected)
      intro _
      apply Avoids.bind (.modify _)
      intro _
      apply Avoids.bind (.read _)
      intro _
      exact .when (.ite header payload)

end Host

/-- A client that notes what `process_msg` is called with. -/
def record (s : ParseT) : Proc ClientError (List (List UInt8)) Unit :=
  Proc.modify fun payloads => payloads ++ [s.rem]

/-- A receiver as `main` creates it, in front of such a client. -/
def recorder : Conn (List (List UInt8)) := ⟨{}, ⟨List.replicate insSize 0, 0⟩, []⟩

/-- Two frames with code zero around one with another code. -/
def threeFrames : List Frame :=
  [⟨0, [1, 2], by decide, by decide⟩, ⟨7, [3], by decide, by decide⟩,
    ⟨0, [4, 5, 6], by decide, by decide⟩]

theorem frames_reassembled_recorder :
    Reassembles reference record recorder threeFrames [[1, 2], [4, 5, 6]] :=
  frames_reassembled reference record recorder List.length_replicate rfl rfl threeFrames _ rfl

end RenogyX10.Csck
