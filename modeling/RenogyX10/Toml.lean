import Mathlib.Tactic.Common

set_option autoImplicit false

/- A parsed TOML document as the calls of `toml.h` show it. Keys come in the order
of `toml_key_in`; a value that a call was not asked for in its own type is
answered with `ok = 0`. -/
namespace RenogyX10.Toml

inductive Value where
  | string (bytes : List UInt8)
  | bool (value : Bool)
  | int (value : Int64)
  /-- a float, a time, an array or a table -/
  | other
deriving DecidableEq

abbrev Key := List UInt8

abbrev Table := List (Key × Value)

/-- The keys at the top, with the table of each that has one. -/
abbrev Document := List (Key × Option Table)

/-- The bytes of a literal. -/
def text (literal : String) : List UInt8 := literal.toByteArray.data.toList

def tableIn (doc : Document) (key : Key) : Option Table := (doc.lookup key).join

def stringIn (table : Table) (key : Key) : Option (List UInt8) :=
  match table.lookup key with
  | some (.string bytes) => some bytes
  | _ => none

def boolIn (table : Table) (key : Key) : Option Bool :=
  match table.lookup key with
  | some (.bool value) => some value
  | _ => none

def intIn (table : Table) (key : Key) : Option Int64 :=
  match table.lookup key with
  | some (.int value) => some value
  | _ => none

/-- `std.mem.sliceTo(s, 0)` -/
def sliceTo (bytes : List UInt8) : List UInt8 := bytes.takeWhile fun byte => byte ≠ 0

variable {table : Table} {key : Key}

theorem lookup_none (missing : key ∉ table.map Prod.fst) : table.lookup key = none := by
  rw [List.lookup_eq_none_iff]
  intro entry member
  have differs : key ≠ entry.1 := by
    rintro rfl
    exact missing (List.mem_map_of_mem member)
  simpa using differs

theorem stringIn_none (missing : key ∉ table.map Prod.fst) : stringIn table key = none := by
  rw [stringIn, lookup_none missing]

theorem boolIn_none (missing : key ∉ table.map Prod.fst) : boolIn table key = none := by
  rw [boolIn, lookup_none missing]

theorem intIn_none (missing : key ∉ table.map Prod.fst) : intIn table key = none := by
  rw [intIn, lookup_none missing]

theorem mem_of_stringIn {s : List UInt8} (found : s ∈ stringIn table key) :
    key ∈ table.map Prod.fst := by
  by_contra missing
  rw [stringIn_none missing] at found
  cases found

theorem mem_of_intIn {i : Int64} (found : i ∈ intIn table key) : key ∈ table.map Prod.fst := by
  by_contra missing
  rw [intIn_none missing] at found
  cases found

theorem sliceTo_eq_iff {bytes : List UInt8} : sliceTo bytes = bytes ↔ 0 ∉ bytes := by
  induction bytes with
  | nil => simp [sliceTo]
  | cons byte rest ih =>
      by_cases zero : byte = 0
      · simp [sliceTo, zero]
      · have differs : (0 : UInt8) ≠ byte := fun same => zero same.symm
        simp only [sliceTo, ne_eq, decide_not] at ih
        simp [sliceTo, zero, differs, ih]

end RenogyX10.Toml
