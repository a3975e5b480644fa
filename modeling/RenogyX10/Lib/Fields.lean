import Mathlib.Tactic.Common

set_option autoImplicit false

namespace RenogyX10.Fields

variable {κ ρ β : Type} {step : κ → ρ → ρ → Prop}

/-- The keys fill in one record to give another. -/
def Fills (step : κ → ρ → ρ → Prop) : List κ → ρ → ρ → Prop
  | [], r, t => t = r
  | key :: rest, r, t => ∃ next, step key r next ∧ Fills step rest next t

theorem Fills.field [DecidableEq κ] (field : ρ → β) (name : κ) (value : β → β)
    (own : ∀ r t, step name r t → field t = value (field r))
    (others : ∀ key r t, key ≠ name → step key r t → field t = field r)
    (again : ∀ b, value (value b) = value b) {keys : List κ} {r t : ρ}
    (fills : Fills step keys r t) :
    field t = if name ∈ keys then value (field r) else field r := by
  induction keys generalizing r with
  | nil =>
      obtain rfl : t = r := fills
      rfl
  | cons key rest ih =>
      obtain ⟨next, taken, later⟩ := fills
      rw [ih later]
      by_cases isName : key = name
      · subst isName
        have written : field next = value (field r) := own r next taken
        simp [written, again]
      · have kept : field next = field r := others key r next isName taken
        have other : name ≠ key := fun same => isName same.symm
        simp [kept, other]

theorem Fills.kept (field : ρ → β) (each : ∀ key r t, step key r t → field t = field r)
    {keys : List κ} {r t : ρ} (fills : Fills step keys r t) : field t = field r := by
  induction keys generalizing r with
  | nil =>
      obtain rfl : t = r := fills
      rfl
  | cons key rest ih =>
      obtain ⟨next, taken, later⟩ := fills
      rw [ih later, each key r next taken]

variable {set : ρ → κ → Option ρ}

theorem fills_of_foldlM {keys : List κ} {r t : ρ} (filled : keys.foldlM set r = some t) :
    Fills (fun key r t => set r key = some t) keys r t := by
  induction keys generalizing r with
  | nil =>
      obtain rfl : r = t := by simpa using filled
      rfl
  | cons key rest ih =>
      rw [List.foldlM_cons] at filled
      obtain ⟨next, taken, later⟩ := Option.bind_eq_some_iff.mp filled
      exact ⟨next, taken, ih later⟩

/-- Nothing is refused exactly when every key is one that can be taken. -/
theorem foldlM_isSome_iff {fits : κ → Prop} (taken : ∀ r key, (set r key).isSome ↔ fits key)
    (keys : List κ) (r : ρ) : (keys.foldlM set r).isSome ↔ ∀ key ∈ keys, fits key := by
  induction keys generalizing r with
  | nil => simp
  | cons key rest ih =>
      rw [List.foldlM_cons, List.forall_mem_cons, ← taken r key]
      cases set r key with
      | none => simp
      | some next => simpa using ih next

end RenogyX10.Fields
