import RenogyX10.Parse
import RenogyX10.TtyReader.Types
import RenogyX10.TtyReader.IdList

set_option autoImplicit false

namespace RenogyX10.TtyReader

open Bytes Checked Parse

variable {σ : Type}

/-- The type field of a frame. -/
def Kind.code : Kind → UInt16
  | .holding => 0
  | .input => 1

/-- `2 + 2 + 2 + 2 + 2 + 2 + count * 2`, every step in `u8`. -/
def msgSize (count : UInt8) : Option Nat :=
  (unsigned 8 (count.toNat * 2)).bind fun payload => unsigned 8 (2 + 2 + 2 + 2 + 2 + 2 + payload)

/-- The six words in front of the registers. -/
def headerWords (kind : Kind) (idInfo : TtyIdInfo) (size : Nat) : List UInt16 :=
  [0, UInt16.ofNat size, kind.code, idInfo.id.toUInt16, idInfo.address kind,
    (idInfo.count kind).toUInt16]

/-- The frame built for one peer, as both copies of the fan-out loop build it. -/
def encodeFrame (lib : ParseLib) (kind : Kind) (idInfo : TtyIdInfo) (regs : List UInt16) :
    Proc TtyError σ (List UInt8) := do
  let size ← Proc.orAbort (msgSize (idInfo.count kind))
  let s := lib.create size
  Proc.guard (lib.checkRem s size) .endOfBuffer
  let s ← Proc.orAbort (lib.outAll s (headerWords kind idInfo size))
  let s ← Proc.orAbort (lib.outAll s regs)
  pure (lib.getOutSlice s)

/-- The wire format: size, kind, device, address, count and the registers. -/
def frameOf (kind : Kind) (idInfo : TtyIdInfo) (regs : List UInt16) : List UInt8 :=
  le16s (headerWords kind idInfo (12 + 2 * regs.length) ++ regs)

structure Frame where
  code : UInt16
  size : UInt16
  type : UInt16
  id : UInt16
  address : UInt16
  count : UInt16
  regs : List UInt16
deriving DecidableEq

/-- Read a frame back, word by word. -/
def parseFrame (lib : ParseLib) (bytes : List UInt8) : Option Frame :=
  (lib.inAll (lib.createFromSlice bytes) 6).bind fun header =>
    match header.1 with
    | [code, size, type, id, address, count] =>
        (lib.inAll header.2 count.toNat).map fun body =>
          ⟨code, size, type, id, address, count, body.1⟩
    | _ => none

@[simp] theorem headerWords_length (kind : Kind) (idInfo : TtyIdInfo) (size : Nat) :
    (headerWords kind idInfo size).length = 6 := rfl

theorem frameOf_length (kind : Kind) (idInfo : TtyIdInfo) (regs : List UInt16) :
    (frameOf kind idInfo regs).length = 12 + 2 * regs.length := by
  rw [frameOf, le16s_length, List.length_append, headerWords_length]
  omega

theorem msgSize_of_le {count : UInt8} (small : count.toNat ≤ 121) :
    msgSize count = some (12 + 2 * count.toNat) := by
  rw [msgSize, unsigned_of_lt (show count.toNat * 2 < 2 ^ 8 by omega), Option.bind_some,
    unsigned_of_lt (by omega), Nat.mul_comm]

theorem msgSize_of_gt {count : UInt8} (large : 121 < count.toNat) : msgSize count = none := by
  unfold msgSize
  by_cases product : count.toNat * 2 < 2 ^ 8
  · rw [unsigned_of_lt product, Option.bind_some, unsigned_of_le (by omega)]
  · rw [unsigned_of_le (Nat.not_lt.mp product), Option.bind_none]

/-- A size that fits gives the wire format, and every store is in the buffer. -/
theorem encodeFrame_of_le (lib : ParseLib) (kind : Kind) (idInfo : TtyIdInfo)
    (regs : List UInt16) (full : regs.length = (idInfo.count kind).toNat)
    (small : (idInfo.count kind).toNat ≤ 121) (s : σ) :
    encodeFrame lib kind idInfo regs s = .ok (frameOf kind idInfo regs) s := by
  have size := msgSize_of_le small
  rw [← full] at size
  have width := lib.create_length (12 + 2 * regs.length)
  have start := lib.create_offset (12 + 2 * regs.length)
  have room : lib.checkRem (lib.create (12 + 2 * regs.length)) (12 + 2 * regs.length) = true := by
    rw [lib.checkRem_iff, ParseT.rem, start, List.drop_zero, width]
  obtain ⟨header, stored, offset, headerWidth, written⟩ :=
    lib.outAll_inside (headerWords kind idInfo (12 + 2 * regs.length))
      (lib.create (12 + 2 * regs.length)) (by rw [start, width, headerWords_length]; omega)
  obtain ⟨final, body, _, _, total⟩ :=
    lib.outAll_inside regs header
      (by rw [offset, headerWidth, start, width, headerWords_length])
  have empty : lib.getOutSlice (lib.create (12 + 2 * regs.length)) = [] := by
    rw [lib.getOutSlice_eq, start, List.take_zero]
  simp only [encodeFrame, size, Proc.orAbort_some, Proc.pure_bind_run, room, Proc.guard_true,
    stored, body, Proc.pure_run, total, written, empty, frameOf, le16s, List.nil_append,
    List.flatMap_append]

theorem encodeFrame_of_gt (lib : ParseLib) (kind : Kind) (idInfo : TtyIdInfo)
    (regs : List UInt16) (large : 121 < (idInfo.count kind).toNat) (s : σ) :
    encodeFrame lib kind idInfo regs s = .panic s := by
  simp only [encodeFrame, msgSize_of_gt large, Proc.orAbort_none, Proc.abort_bind]

/-- Reading the wire format back gives every field and register. -/
theorem parseFrame_frameOf (lib : ParseLib) (kind : Kind) (idInfo : TtyIdInfo)
    (regs : List UInt16) (full : regs.length = (idInfo.count kind).toNat) :
    parseFrame lib (frameOf kind idInfo regs) = some
      { code := 0, size := UInt16.ofNat (12 + 2 * regs.length), type := kind.code,
        id := idInfo.id.toUInt16, address := idInfo.address kind,
        count := (idInfo.count kind).toUInt16, regs := regs } := by
  have left : (lib.createFromSlice (frameOf kind idInfo regs)).rem =
      le16s (headerWords kind idInfo (12 + 2 * regs.length)) ++ le16s regs := by
    rw [lib.createFromSlice_eq, ParseT.rem, List.drop_zero, frameOf, le16s, List.flatMap_append]
    rfl
  obtain ⟨header, read, rest⟩ := lib.inAll_le16s _ _ _ left
  rw [← List.append_nil (le16s regs)] at rest
  obtain ⟨final, body, _⟩ := lib.inAll_le16s regs header [] rest
  rw [headerWords_length] at read
  have count : (idInfo.count kind).toUInt16.toNat = regs.length := by
    rw [UInt8.toNat_toUInt16, full]
  simp only [parseFrame, read, Option.bind_some, headerWords, count, body, Option.map_some]

/-- Building the frame of a read succeeds, the frame has its announced length,
and reading it back gives the read it came from. -/
def RoundTrips (lib : ParseLib) (kind : Kind) (idInfo : TtyIdInfo) (regs : List UInt16)
    (s : Sys) : Prop :=
  ∃ frame size, encodeFrame lib kind idInfo regs s = .ok frame s ∧
    frame.length = 12 + 2 * (idInfo.count kind).toNat ∧ size.toNat = frame.length ∧
    parseFrame lib frame = some
      { code := 0, size := size, type := kind.code, id := idInfo.id.toUInt16,
        address := idInfo.address kind, count := (idInfo.count kind).toUInt16, regs := regs }

/-- Frames round trip exactly up to 121 registers. -/
theorem frame_roundtrip_iff (lib : ParseLib) (kind : Kind) (idInfo : TtyIdInfo)
    (regs : List UInt16) (full : regs.length = (idInfo.count kind).toNat) (s : Sys) :
    RoundTrips lib kind idInfo regs s ↔ (idInfo.count kind).toNat ≤ 121 := by
  constructor
  · intro ⟨frame, size, built, _⟩
    by_contra large
    rw [encodeFrame_of_gt lib kind idInfo regs (Nat.not_le.mp large)] at built
    cases built
  · intro small
    refine ⟨frameOf kind idInfo regs, UInt16.ofNat (12 + 2 * regs.length),
      encodeFrame_of_le lib kind idInfo regs full small s, ?_, ?_,
      parseFrame_frameOf lib kind idInfo regs full⟩
    · rw [frameOf_length, full]
    · rw [frameOf_length, UInt16.toNat_ofNat', Nat.mod_eq_of_lt (by omega)]

theorem frame_roundtrip_iff_two :
    RoundTrips Parse.reference .input { id := 1, readInputCount := 2 } [17, 4660]
      (Sys.initial {}) ↔ 2 ≤ 121 :=
  frame_roundtrip_iff Parse.reference .input { id := 1, readInputCount := 2 } [17, 4660] rfl _

/-- A device configured for 122 registers, which the bus can read at once. -/
theorem frame_of_122_registers :
    ¬ RoundTrips Parse.reference .holding { id := 1, readCount := 122 } (List.replicate 122 0)
      (Sys.initial {}) := by
  intro ⟨frame, size, built, _⟩
  rw [encodeFrame_of_gt _ _ _ _ (by decide)] at built
  cases built

end RenogyX10.TtyReader
