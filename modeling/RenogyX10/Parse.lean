import RenogyX10.Lib.Bytes

set_option autoImplicit false

/- The byte buffers of `parse.zig`. That file is in the `common` submodule, which
the repository does not contain: its functions are parameters here, with the
behaviour their callers rely on. A read or store outside the buffer is a failed
safety check. -/
namespace RenogyX10.Parse

open Bytes

/-- The two fields the callers reach into. -/
structure ParseT where
  data : List UInt8
  offset : Nat

def ParseT.rem (s : ParseT) : List UInt8 := s.data.drop s.offset

structure ParseLib where
  create : Nat → ParseT
  createFromSlice : List UInt8 → ParseT
  reset : ParseT → Nat → ParseT
  checkRem : ParseT → Nat → Bool
  inU16Le : ParseT → Option (UInt16 × ParseT)
  inU8Skip : ParseT → Nat → Option ParseT
  outU16Le : ParseT → UInt16 → Option ParseT
  getOutSlice : ParseT → List UInt8
  create_length : ∀ size, (create size).data.length = size
  create_offset : ∀ size, (create size).offset = 0
  createFromSlice_eq : ∀ slice, createFromSlice slice = ⟨slice, 0⟩
  reset_zero : ∀ s, reset s 0 = { s with offset := 0 }
  checkRem_iff : ∀ s size, checkRem s size = true ↔ size ≤ s.rem.length
  inU16Le_cons : ∀ s low high rest, s.rem = low :: high :: rest →
    inU16Le s = some (readLe16 low high, { s with offset := s.offset + 2 })
  inU16Le_short : ∀ s, s.rem.length < 2 → inU16Le s = none
  inU8Skip_inside : ∀ s size, size ≤ s.rem.length →
    inU8Skip s size = some { s with offset := s.offset + size }
  outU16Le_inside : ∀ s word, s.offset + 2 ≤ s.data.length →
    outU16Le s word = some ⟨overwrite s.data s.offset (le16 word), s.offset + 2⟩
  outU16Le_outside : ∀ s word, s.data.length < s.offset + 2 → outU16Le s word = none
  getOutSlice_eq : ∀ s, getOutSlice s = s.data.take s.offset

namespace ParseLib

variable (lib : ParseLib)

def outAll (s : ParseT) : List UInt16 → Option ParseT
  | [] => some s
  | word :: rest => (lib.outU16Le s word).bind fun next => outAll next rest

def inAll (s : ParseT) : Nat → Option (List UInt16 × ParseT)
  | 0 => some ([], s)
  | count + 1 =>
      (lib.inU16Le s).bind fun first =>
        (inAll first.2 count).map fun later => (first.1 :: later.1, later.2)

theorem rem_of_offset (s : ParseT) {front back : List UInt8} (size : Nat)
    (left : s.rem = front ++ back) (width : front.length = size) :
    ({ s with offset := s.offset + size } : ParseT).rem = back := by
  have moved : s.data.drop (s.offset + size) = s.rem.drop size := by
    simp only [ParseT.rem, List.drop_drop]
  change s.data.drop (s.offset + size) = back
  rw [moved, left, ← width]
  exact List.drop_left

theorem rem_createFromSlice (slice : List UInt8) : (lib.createFromSlice slice).rem = slice := by
  rw [lib.createFromSlice_eq]
  rfl

theorem checkRem_short {s : ParseT} {size : Nat} (short : s.rem.length < size) :
    lib.checkRem s size = false := by
  rw [Bool.eq_false_iff, Ne, lib.checkRem_iff]
  omega

theorem inU16Le_run {s : ParseT} {low high : UInt8} {rest : List UInt8}
    (left : s.rem = low :: high :: rest) :
    ∃ next, lib.inU16Le s = some (readLe16 low high, next) ∧ next.rem = rest := by
  refine ⟨_, lib.inU16Le_cons s low high rest left, ?_⟩
  exact rem_of_offset s 2 (show s.rem = [low, high] ++ rest from left) rfl

theorem inU16Le_le16 (s : ParseT) (word : UInt16) (rest : List UInt8)
    (left : s.rem = le16 word ++ rest) :
    ∃ next, lib.inU16Le s = some (word, next) ∧ next.rem = rest := by
  obtain ⟨next, read, behind⟩ := inU16Le_run lib left
  rw [readLe16_le16] at read
  exact ⟨next, read, behind⟩

theorem inAll_le16s (words : List UInt16) (s : ParseT) (rest : List UInt8)
    (left : s.rem = le16s words ++ rest) :
    ∃ next, lib.inAll s words.length = some (words, next) ∧ next.rem = rest := by
  induction words generalizing s with
  | nil => exact ⟨s, rfl, left⟩
  | cons word words ih =>
      rw [le16s_cons, List.append_assoc] at left
      obtain ⟨first, one, after⟩ := inU16Le_le16 lib s word _ left
      obtain ⟨next, others, final⟩ := ih first after
      exact ⟨next, by simp [inAll, one, others], final⟩

/-- Stores that fit append their bytes to what was written. -/
theorem outAll_inside (words : List UInt16) (s : ParseT)
    (fits : s.offset + 2 * words.length ≤ s.data.length) :
    ∃ next, lib.outAll s words = some next ∧
      next.offset = s.offset + 2 * words.length ∧ next.data.length = s.data.length ∧
      lib.getOutSlice next = lib.getOutSlice s ++ le16s words := by
  induction words generalizing s with
  | nil => exact ⟨s, rfl, rfl, rfl, by simp⟩
  | cons word rest ih =>
      rw [List.length_cons] at fits
      have stored := lib.outU16Le_inside s word (by omega)
      have width := overwrite_length s.data s.offset (le16 word) (by rw [le16_length]; omega)
      obtain ⟨next, done, offset, size, written⟩ :=
        ih ⟨overwrite s.data s.offset (le16 word), s.offset + 2⟩ (by dsimp only; omega)
      refine ⟨next, by simp only [outAll, stored, Option.bind_some, done], ?_, ?_, ?_⟩
      · rw [offset, List.length_cons]
        dsimp only
        omega
      · exact size.trans width
      · have front := overwrite_take s.data s.offset (le16 word) (by omega)
        rw [le16_length] at front
        rw [written, lib.getOutSlice_eq, lib.getOutSlice_eq, front, le16s_cons, List.append_assoc]

end ParseLib

/-- A buffer library that behaves as the callers assume. -/
def reference : ParseLib where
  create size := ⟨List.replicate size 0, 0⟩
  createFromSlice slice := ⟨slice, 0⟩
  reset s _ := { s with offset := 0 }
  checkRem s size := decide (size ≤ s.rem.length)
  inU16Le s := match s.rem with
    | low :: high :: _ => some (readLe16 low high, { s with offset := s.offset + 2 })
    | _ => none
  inU8Skip s size :=
    if size ≤ s.rem.length then some { s with offset := s.offset + size } else none
  outU16Le s word :=
    if s.offset + 2 ≤ s.data.length then
      some ⟨overwrite s.data s.offset (le16 word), s.offset + 2⟩
    else none
  getOutSlice s := s.data.take s.offset
  create_length size := List.length_replicate
  create_offset _ := rfl
  createFromSlice_eq _ := rfl
  reset_zero _ := rfl
  checkRem_iff s size := decide_eq_true_iff
  inU16Le_cons s low high rest left := by simp only [left]
  inU16Le_short s short := by
    match left : s.rem with
    | [] => rfl
    | [_] => rfl
    | _ :: _ :: _ =>
        rw [left] at short
        simp only [List.length_cons] at short
        omega
  inU8Skip_inside s size inside := by simp only [inside, ↓reduceIte]
  outU16Le_inside s word inside := by simp only [inside, ↓reduceIte]
  outU16Le_outside s word outside := by
    have beyond : ¬ s.offset + 2 ≤ s.data.length := by omega
    simp only [beyond, ↓reduceIte]
  getOutSlice_eq _ := rfl

/-- The library with the two reads that only the decoders use. -/
structure WideLib extends ParseLib where
  inU32Le : ParseT → Option (UInt32 × ParseT)
  inI16Le : ParseT → Option (Int16 × ParseT)
  inU32Le_cons : ∀ s b0 b1 b2 b3 rest, s.rem = b0 :: b1 :: b2 :: b3 :: rest →
    inU32Le s = some (wide (readLe16 b0 b1) (readLe16 b2 b3), { s with offset := s.offset + 4 })
  inU32Le_short : ∀ s, s.rem.length < 4 → inU32Le s = none
  inI16Le_eq : ∀ s, inI16Le s = (inU16Le s).map fun read => (read.1.toInt16, read.2)

theorem WideLib.inU32Le_run (lib : WideLib) {s : ParseT} {b0 b1 b2 b3 : UInt8} {rest : List UInt8}
    (left : s.rem = b0 :: b1 :: b2 :: b3 :: rest) :
    ∃ next, lib.inU32Le s = some (wide (readLe16 b0 b1) (readLe16 b2 b3), next) ∧
      next.rem = rest := by
  refine ⟨_, lib.inU32Le_cons s b0 b1 b2 b3 rest left, ?_⟩
  exact ParseLib.rem_of_offset s 4 (show s.rem = [b0, b1, b2, b3] ++ rest from left) rfl

def wideReference : WideLib where
  toParseLib := reference
  inU32Le s := match s.rem with
    | b0 :: b1 :: b2 :: b3 :: _ =>
        some (wide (readLe16 b0 b1) (readLe16 b2 b3), { s with offset := s.offset + 4 })
    | _ => none
  inI16Le s := (reference.inU16Le s).map fun read => (read.1.toInt16, read.2)
  inU32Le_cons s b0 b1 b2 b3 rest left := by simp only [left]
  inU32Le_short s short := by
    match left : s.rem with
    | [] | [_] | [_, _] | [_, _, _] => rfl
    | _ :: _ :: _ :: _ :: _ =>
        rw [left] at short
        simp only [List.length_cons] at short
        omega
  inI16Le_eq _ := rfl

end RenogyX10.Parse
