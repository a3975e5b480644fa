import RenogyX10.Lib.Proc

set_option autoImplicit false

namespace RenogyX10

namespace Exit

variable {ε σ α : Type}

/-- How a call ends; there is no description of an abort. -/
def Ends (good : α → σ → Prop) (bad : ε → σ → Prop) : Exit ε σ α → Prop
  | ok value s => good value s
  | error reason s => bad reason s
  | panic _ => False

variable {good other : α → σ → Prop} {bad worse : ε → σ → Prop} {ended : Exit ε σ α}

theorem Ends.mono (ends : ended.Ends good bad) (isGood : ∀ a s, good a s → other a s)
    (isBad : ∀ reason s, bad reason s → worse reason s) : ended.Ends other worse := by
  cases ended with
  | ok value s => exact isGood value s ends
  | error reason s => exact isBad reason s ends
  | panic s => exact ends

theorem Ends.and (first : ended.Ends good bad) (second : ended.Ends other worse) :
    ended.Ends (fun a s => good a s ∧ other a s) fun reason s => bad reason s ∧ worse reason s := by
  cases ended with
  | ok value s => exact ⟨first, second⟩
  | error reason s => exact ⟨first, second⟩
  | panic s => exact first

theorem Ends.ok_or_error (ends : ended.Ends good bad) :
    (∃ value s, ended = .ok value s ∧ good value s) ∨
      ∃ reason s, ended = .error reason s ∧ bad reason s := by
  cases ended with
  | ok value s => exact .inl ⟨value, s, rfl, ends⟩
  | error reason s => exact .inr ⟨reason, s, rfl, ends⟩
  | panic s => exact ends.elim

end Exit

namespace Proc

variable {ε σ α β : Type} {good : β → σ → Prop} {bad : ε → σ → Prop} {s : σ}

theorem ends_bind {mid : α → σ → Prop} {first : Proc ε σ α} {next : α → Proc ε σ β}
    (ends : (first s).Ends mid bad) (rest : ∀ a t, mid a t → (next a t).Ends good bad) :
    ((first >>= next) s).Ends good bad := by
  rw [bind_run]
  cases ended : first s with
  | ok value t =>
      rw [ended] at ends
      exact rest value t ends
  | error reason t =>
      rw [ended] at ends
      exact ends
  | panic t =>
      rw [ended] at ends
      exact ends

theorem ends_ite {c : Prop} [Decidable c] {p q : Proc ε σ β} (yes : c → (p s).Ends good bad)
    (no : ¬c → (q s).Ends good bad) : ((if c then p else q) s).Ends good bad := by
  by_cases h : c
  · rw [if_pos h]
    exact yes h
  · rw [if_neg h]
    exact no h

end Proc

end RenogyX10
