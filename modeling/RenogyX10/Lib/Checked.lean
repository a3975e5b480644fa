import Mathlib.Algebra.Group.Int.Defs
import Mathlib.Algebra.Group.Nat.Defs
import Mathlib.Tactic.Common

set_option autoImplicit false

/- Arithmetic and conversions with a range check: `none` is a value that does
not fit the result type. A conversion that wraps has no check. -/
namespace RenogyX10.Checked

/-- An unsigned result of the given width. -/
def unsigned (bits value : Nat) : Option Nat :=
  if value < 2 ^ bits then some value else none

def FitsI64 (value : Int) : Prop := -2 ^ 63 ≤ value ∧ value ≤ 2 ^ 63 - 1

instance (value : Int) : Decidable (FitsI64 value) :=
  inferInstanceAs (Decidable (_ ∧ _))

def addI64 (left right : Int) : Option Int :=
  if FitsI64 (left + right) then some (left + right) else none

def FitsI32 (value : Int) : Prop := -2 ^ 31 ≤ value ∧ value ≤ 2 ^ 31 - 1

instance (value : Int) : Decidable (FitsI32 value) :=
  inferInstanceAs (Decidable (_ ∧ _))

def intCastI32 (value : Int) : Option Int :=
  if FitsI32 value then some value else none

/-- Sums, differences and products of 32-bit values. -/
def addI32 (left right : Int) : Option Int := intCastI32 (left + right)

def subI32 (left right : Int) : Option Int := intCastI32 (left - right)

def mulI32 (left right : Int) : Option Int := intCastI32 (left * right)

/-- A conversion to 32 bits that wraps. -/
def wrapI32 (value : Int) : Int := (value + 2 ^ 31) % 2 ^ 32 - 2 ^ 31

def intCastU16 (value : Int) : Option Nat :=
  if 0 ≤ value ∧ value < 2 ^ 16 then some value.toNat else none

theorem unsigned_of_lt {bits value : Nat} (fits : value < 2 ^ bits) :
    unsigned bits value = some value := by
  simp only [unsigned, fits, ↓reduceIte]

theorem unsigned_of_le {bits value : Nat} (outside : 2 ^ bits ≤ value) :
    unsigned bits value = none := by
  have large : ¬ value < 2 ^ bits := Nat.not_lt.mpr outside
  simp only [unsigned, large, ↓reduceIte]

theorem unsigned_eq_some {bits value result : Nat} :
    unsigned bits value = some result ↔ value < 2 ^ bits ∧ value = result := by
  unfold unsigned
  split
  case isTrue fits => simp [fits]
  case isFalse outside => simp [outside]

theorem addI64_of_fits {left right : Int} (fits : FitsI64 (left + right)) :
    addI64 left right = some (left + right) := by
  simp only [addI64, fits, ↓reduceIte]

theorem addI64_of_not_fits {left right : Int} (outside : ¬ FitsI64 (left + right)) :
    addI64 left right = none := by
  simp only [addI64, outside, ↓reduceIte]

theorem intCastI32_of_fits {value : Int} (fits : FitsI32 value) :
    intCastI32 value = some value := by
  simp only [intCastI32, fits, ↓reduceIte]

theorem intCastI32_eq_some {value result : Int} :
    intCastI32 value = some result ↔ FitsI32 value ∧ value = result := by
  unfold intCastI32
  split
  case isTrue fits => simp [fits]
  case isFalse outside => simp [outside]

theorem intCastI32_of_not_fits {value : Int} (outside : ¬ FitsI32 value) :
    intCastI32 value = none := by
  simp only [intCastI32, outside, ↓reduceIte]

/-- A value and one after it are as far apart after the conversion, unless it wraps
between them. -/
theorem wrapI32_add_eq_iff (value : Int) {elapsed : Int} (later : 0 ≤ elapsed) :
    wrapI32 (value + elapsed) - wrapI32 value = elapsed ↔
      (value + 2 ^ 31) % 2 ^ 32 + elapsed < 2 ^ 32 := by
  unfold wrapI32
  omega

end RenogyX10.Checked
