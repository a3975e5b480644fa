import Mathlib.Tactic.Common

set_option autoImplicit false

namespace RenogyX10.Bytes

variable {α : Type}

/-- The two little-endian bytes of a word. -/
def le16 (word : UInt16) : List UInt8 :=
  [UInt8.ofNat word.toNat, UInt8.ofNat (word.toNat / 256)]

def readLe16 (low high : UInt8) : UInt16 := UInt16.ofNat (low.toNat + 256 * high.toNat)

@[simp] theorem le16_length (word : UInt16) : (le16 word).length = 2 := rfl

theorem readLe16_toNat (low high : UInt8) :
    (readLe16 low high).toNat = low.toNat + 256 * high.toNat := by
  have lowLt := low.toNat_lt
  have highLt := high.toNat_lt
  simp only [readLe16, UInt16.toNat_ofNat']
  omega

@[simp] theorem readLe16_le16 (word : UInt16) :
    readLe16 (UInt8.ofNat word.toNat) (UInt8.ofNat (word.toNat / 256)) = word := by
  have wordLt := word.toNat_lt
  apply UInt16.toNat_inj.mp
  rw [readLe16_toNat]
  simp only [UInt8.toNat_ofNat']
  omega

/-- Two words as one value, the low word first. -/
def wide (low high : UInt16) : UInt32 := UInt32.ofNat (low.toNat + 65536 * high.toNat)

theorem wide_toNat (low high : UInt16) :
    (wide low high).toNat = low.toNat + 65536 * high.toNat := by
  have lowLt := low.toNat_lt
  have highLt := high.toNat_lt
  simp only [wide, UInt32.toNat_ofNat']
  omega

theorem wide_low (low high : UInt16) : (wide low high).toUInt16 = low := by
  have lowLt := low.toNat_lt
  apply UInt16.toNat_inj.mp
  rw [UInt32.toNat_toUInt16, wide_toNat]
  omega

theorem wide_high (low high : UInt16) : UInt16.ofNat ((wide low high).toNat / 65536) = high := by
  have lowLt := low.toNat_lt
  have highLt := high.toNat_lt
  apply UInt16.toNat_inj.mp
  rw [wide_toNat, UInt16.toNat_ofNat']
  omega

/-- The words of a register array, one after the other. -/
def le16s (words : List UInt16) : List UInt8 := words.flatMap le16

@[simp] theorem le16s_nil : le16s [] = [] := rfl

@[simp] theorem le16s_cons (word : UInt16) (rest : List UInt16) :
    le16s (word :: rest) = le16 word ++ le16s rest := rfl

theorem le16s_length (words : List UInt16) : (le16s words).length = 2 * words.length := by
  induction words with
  | nil => rfl
  | cons word rest ih =>
      simp only [le16s_cons, List.length_append, le16_length, ih, List.length_cons]
      omega

theorem exists_two {list : List α} (long : 2 ≤ list.length) :
    ∃ first second rest, list = first :: second :: rest := by
  cases list with
  | nil => simp at long
  | cons first rest =>
      cases rest with
      | nil => simp at long
      | cons second rest => exact ⟨first, second, rest, rfl⟩

theorem exists_four {list : List α} (long : 4 ≤ list.length) :
    ∃ first second third fourth rest, list = first :: second :: third :: fourth :: rest := by
  obtain ⟨first, second, rest, rfl⟩ := exists_two (Nat.le_trans (by decide) long)
  have later : 2 ≤ rest.length := by
    simp only [List.length_cons] at long
    omega
  obtain ⟨third, fourth, rest, rfl⟩ := exists_two later
  exact ⟨first, second, third, fourth, rest, rfl⟩

theorem exists_eight {list : List α} (long : 8 ≤ list.length) :
    ∃ a b c d e f g h rest, list = a :: b :: c :: d :: e :: f :: g :: h :: rest := by
  obtain ⟨a, b, c, d, rest, rfl⟩ := exists_four (Nat.le_trans (by decide) long)
  have later : 4 ≤ rest.length := by
    simp only [List.length_cons] at long
    omega
  obtain ⟨e, f, g, h, rest, rfl⟩ := exists_four later
  exact ⟨a, b, c, d, e, f, g, h, rest, rfl⟩

/-- Store `bytes` into a buffer from `offset` on. -/
def overwrite (data : List α) (offset : Nat) (bytes : List α) : List α :=
  data.take offset ++ bytes ++ data.drop (offset + bytes.length)

theorem overwrite_length (data : List α) (offset : Nat) (bytes : List α)
    (inside : offset + bytes.length ≤ data.length) :
    (overwrite data offset bytes).length = data.length := by
  simp only [overwrite, List.length_append, List.length_take, List.length_drop]
  omega

theorem overwrite_take (data : List α) (offset : Nat) (bytes : List α)
    (inside : offset ≤ data.length) :
    (overwrite data offset bytes).take (offset + bytes.length) = data.take offset ++ bytes := by
  have exact : offset + bytes.length = (data.take offset ++ bytes).length := by
    simp only [List.length_append, List.length_take]
    omega
  unfold overwrite
  rw [exact, List.take_left' rfl]

end RenogyX10.Bytes
