import Mathlib.Tactic.Common

set_option autoImplicit false

/- Calls that change a state, may fail with an error their caller can catch,
and may abort on a safety check. The state written so far survives every exit:
an error is not a rollback, and an abort still leaves its visible effects. -/
namespace RenogyX10

/-- How a call ends, with the state it leaves. -/
inductive Exit (ε σ α : Type) where
  | ok (value : α) (state : σ)
  | error (reason : ε) (state : σ)
  | panic (state : σ)

namespace Exit

variable {ε σ α β : Type}

@[simp] def state : Exit ε σ α → σ
  | ok _ s => s
  | error _ s => s
  | panic s => s

/-- One postcondition for each way a call can end. -/
def Meets (good bad fallen : σ → Prop) : Exit ε σ α → Prop
  | ok _ s => good s
  | error _ s => bad s
  | panic s => fallen s

end Exit

/-- A call, as a function of the state it starts from. -/
def Proc (ε σ α : Type) : Type := σ → Exit ε σ α

namespace Proc

variable {ε σ α β : Type}

/-- Sequencing: only a normal return reaches the next call. -/
def andThen (first : Proc ε σ α) (next : α → Proc ε σ β) : Proc ε σ β := fun s =>
  match first s with
  | .ok value t => next value t
  | .error reason t => .error reason t
  | .panic t => .panic t

instance : Monad (Proc ε σ) where
  pure value := fun s => .ok value s
  bind := andThen

def read (f : σ → α) : Proc ε σ α := fun s => .ok (f s) s

def modify (f : σ → σ) : Proc ε σ Unit := fun s => .ok () (f s)

def fail (reason : ε) : Proc ε σ α := fun s => .error reason s

/-- A failed safety check: nothing after it runs and no caller sees an error. -/
def abort : Proc ε σ α := fun s => .panic s

/-- A fallible step whose success the environment decides. -/
def guard (succeeds : Bool) (reason : ε) : Proc ε σ Unit :=
  if succeeds then pure () else fail reason

/-- A checked access: `none` is a failed safety check. -/
def orAbort : Option α → Proc ε σ α
  | some value => pure value
  | none => abort

/-- A fallible call that returns something. -/
def orFail (reason : ε) : Option α → Proc ε σ α
  | some value => pure value
  | none => fail reason

/-- A call whose errors the caller handles. -/
def rescue (p : Proc ε σ α) (handler : ε → Proc ε σ α) : Proc ε σ α := fun s =>
  match p s with
  | .ok value t => .ok value t
  | .error reason t => handler reason t
  | .panic t => .panic t

/-- A call that is made under a condition only. -/
def when (c : Prop) [Decidable c] (p : Proc ε σ Unit) : Proc ε σ Unit := if c then p else pure ()

/-- A call on a part of the state. -/
def focus {τ : Type} (view : σ → τ) (put : τ → σ → σ) (p : Proc ε τ α) : Proc ε σ α := fun s =>
  match p (view s) with
  | .ok value t => .ok value (put t s)
  | .error reason t => .error reason (put t s)
  | .panic t => .panic (put t s)

@[simp] theorem pure_run (value : α) (s : σ) : (pure value : Proc ε σ α) s = .ok value s := rfl

@[simp] theorem modify_run (f : σ → σ) (s : σ) : (modify f : Proc ε σ Unit) s = .ok () (f s) := rfl

@[simp] theorem guard_true (reason : ε) : (guard true reason : Proc ε σ Unit) = pure () := rfl

@[simp] theorem guard_false (reason : ε) : (guard false reason : Proc ε σ Unit) = fail reason := rfl

@[simp] theorem orAbort_some (value : α) : (orAbort (some value) : Proc ε σ α) = pure value := rfl

@[simp] theorem orAbort_none : (orAbort none : Proc ε σ α) = abort := rfl

@[simp] theorem orFail_some (reason : ε) (value : α) :
    (orFail reason (some value) : Proc ε σ α) = pure value := rfl

theorem when_true {c : Prop} [Decidable c] (p : Proc ε σ Unit) (holds : c) : when c p = p :=
  if_pos holds

theorem when_false {c : Prop} [Decidable c] (p : Proc ε σ Unit) (fails : ¬c) :
    when c p = pure () :=
  if_neg fails

theorem bind_run (first : Proc ε σ α) (next : α → Proc ε σ β) (s : σ) :
    (first >>= next) s = match first s with
      | .ok value t => next value t
      | .error reason t => .error reason t
      | .panic t => .panic t := rfl

theorem bind_of_ok {first : Proc ε σ α} {next : α → Proc ε σ β} {s t : σ} {value : α}
    (returned : first s = .ok value t) : (first >>= next) s = next value t := by
  rw [bind_run, returned]

theorem bind_of_error {first : Proc ε σ α} {next : α → Proc ε σ β} {s t : σ} {reason : ε}
    (failed : first s = .error reason t) : (first >>= next) s = .error reason t := by
  rw [bind_run, failed]

theorem bind_of_panic {first : Proc ε σ α} {next : α → Proc ε σ β} {s t : σ}
    (aborted : first s = .panic t) : (first >>= next) s = .panic t := by
  rw [bind_run, aborted]

theorem of_bind_ok {first : Proc ε σ α} {next : α → Proc ε σ β} {s t : σ} {value : β}
    (returned : (first >>= next) s = .ok value t) :
    ∃ middle u, first s = .ok middle u ∧ next middle u = .ok value t := by
  rw [bind_run] at returned
  cases ran : first s with
  | ok middle u =>
      rw [ran] at returned
      exact ⟨middle, u, rfl, returned⟩
  | error reason u =>
      rw [ran] at returned
      cases returned
  | panic u =>
      rw [ran] at returned
      cases returned

theorem of_bind_error {first : Proc ε σ α} {next : α → Proc ε σ β} {s t : σ} {reason : ε}
    (failed : (first >>= next) s = .error reason t) :
    first s = .error reason t ∨ ∃ middle u, first s = .ok middle u ∧
      next middle u = .error reason t := by
  rw [bind_run] at failed
  cases ran : first s with
  | ok middle u =>
      rw [ran] at failed
      exact .inr ⟨middle, u, rfl, failed⟩
  | error cause u =>
      rw [ran] at failed
      cases failed
      exact .inl rfl
  | panic u =>
      rw [ran] at failed
      cases failed

theorem of_when_error {c : Prop} [Decidable c] {p : Proc ε σ Unit} {s t : σ} {reason : ε}
    (failed : when c p s = .error reason t) : p s = .error reason t := by
  by_cases holds : c
  · rwa [when_true p holds] at failed
  · rw [when_false p holds] at failed
    cases failed

theorem bind_of_run {first other : Proc ε σ α} {next : α → Proc ε σ β} {s : σ}
    (same : first s = other s) : (first >>= next) s = (other >>= next) s := by
  rw [bind_run, bind_run, same]

theorem rescue_of_ok {p : Proc ε σ α} {handler : ε → Proc ε σ α} {s t : σ} {value : α}
    (returned : p s = .ok value t) : rescue p handler s = .ok value t := by
  rw [rescue, returned]

theorem rescue_of_error {p : Proc ε σ α} {handler : ε → Proc ε σ α} {s t : σ} {reason : ε}
    (failed : p s = .error reason t) : rescue p handler s = handler reason t := by
  rw [rescue, failed]

theorem pure_then (value : α) (next : α → Proc ε σ β) :
    ((pure value : Proc ε σ α) >>= next) = next value := rfl

theorem bind_assoc {γ : Type} (first : Proc ε σ α) (second : α → Proc ε σ β)
    (third : β → Proc ε σ γ) :
    ((first >>= second) >>= third) = (first >>= fun value => second value >>= third) := by
  funext s
  simp only [bind_run]
  cases first s <;> rfl

theorem focus_run {τ : Type} (view : σ → τ) (put : τ → σ → σ) (p : Proc ε τ α) (s : σ) :
    focus view put p s = match p (view s) with
      | .ok value t => .ok value (put t s)
      | .error reason t => .error reason (put t s)
      | .panic t => .panic (put t s) := rfl

@[simp] theorem read_bind (f : σ → α) (next : α → Proc ε σ β) (s : σ) :
    (read f >>= next) s = next (f s) s := rfl

@[simp] theorem modify_bind (f : σ → σ) (next : Unit → Proc ε σ β) (s : σ) :
    (modify f >>= next) s = next () (f s) := rfl

@[simp] theorem pure_bind_run (value : α) (next : α → Proc ε σ β) (s : σ) :
    ((pure value : Proc ε σ α) >>= next) s = next value s := rfl

@[simp] theorem fail_bind (reason : ε) (next : α → Proc ε σ β) (s : σ) :
    ((fail reason : Proc ε σ α) >>= next) s = .error reason s := rfl

@[simp] theorem abort_bind (next : α → Proc ε σ β) (s : σ) :
    ((abort : Proc ε σ α) >>= next) s = .panic s := rfl

@[simp] theorem ite_run (c : Prop) [Decidable c] (p q : Proc ε σ α) (s : σ) :
    (if c then p else q) s = if c then p s else q s := by
  split <;> rfl

/-- A property of the state that no exit of the call breaks. -/
def Keeps (inv : σ → Prop) (p : Proc ε σ α) : Prop :=
  ∀ s, inv s → inv (p s).state

namespace Keeps

variable {inv : σ → Prop} {p q : Proc ε σ α}

theorem pure (value : α) : Keeps inv (pure value : Proc ε σ α) := fun _ holds => holds

theorem fail (reason : ε) : Keeps inv (fail reason : Proc ε σ α) := fun _ holds => holds

theorem abort : Keeps inv (abort : Proc ε σ α) := fun _ holds => holds

theorem read (f : σ → α) : Keeps inv (read f : Proc ε σ α) := fun _ holds => holds

theorem modify {f : σ → σ} (kept : ∀ s, inv s → inv (f s)) :
    Keeps inv (modify f : Proc ε σ Unit) := kept

theorem guard (succeeds : Bool) (reason : ε) :
    Keeps inv (guard succeeds reason : Proc ε σ Unit) := by
  cases succeeds
  · exact fail reason
  · exact pure ()

theorem orAbort (value : Option α) : Keeps inv (orAbort value : Proc ε σ α) := by
  cases value with
  | none => exact abort
  | some value => exact pure value

theorem orFail (reason : ε) (value : Option α) :
    Keeps inv (orFail reason value : Proc ε σ α) := by
  cases value with
  | none => exact fail reason
  | some value => exact pure value

theorem rescue {handler : ε → Proc ε σ α} (first : Keeps inv p)
    (handled : ∀ reason, Keeps inv (handler reason)) : Keeps inv (rescue p handler) := by
  intro s holds
  have after := first s holds
  unfold Proc.rescue
  cases ended : p s <;> rw [ended] at after
  · exact after
  · exact handled _ _ after
  · exact after

/-- Sequencing, when the first call is known from one state only. -/
theorem bind_at {next : α → Proc ε σ β} {s : σ} (after : inv (p s).state)
    (rest : ∀ a, Keeps inv (next a)) : inv ((p >>= next) s).state := by
  rw [bind_run]
  cases ends : p s with
  | ok value t =>
      rw [ends] at after
      exact rest value t after
  | error reason t =>
      rw [ends] at after
      exact after
  | panic t =>
      rw [ends] at after
      exact after

theorem when {c : Prop} [Decidable c] {p : Proc ε σ Unit} (kept : c → Keeps inv p) :
    Keeps inv (when c p) := by
  unfold Proc.when
  by_cases h : c
  · simpa only [h, ↓reduceIte] using kept h
  · simpa only [h, ↓reduceIte] using pure ()

theorem bind {next : α → Proc ε σ β} (first : Keeps inv p) (rest : ∀ a, Keeps inv (next a)) :
    Keeps inv (p >>= next) :=
  fun s holds => bind_at (first s holds) rest

theorem ite {c : Prop} [Decidable c] (yes : c → Keeps inv p) (no : ¬c → Keeps inv q) :
    Keeps inv (if c then p else q) := by
  by_cases h : c
  · simpa only [h, ↓reduceIte] using yes h
  · simpa only [h, ↓reduceIte] using no h

end Keeps

/-- The call never fails with this error. -/
def Avoids (reason : ε) (p : Proc ε σ α) : Prop := ∀ s t, p s ≠ .error reason t

namespace Avoids

variable {reason other : ε} {p q : Proc ε σ α}

theorem pure (value : α) : Avoids reason (pure value : Proc ε σ α) := by
  intro s t failed
  cases failed

theorem fail (differs : other ≠ reason) : Avoids reason (fail other : Proc ε σ α) := by
  intro s t failed
  cases failed
  exact differs rfl

theorem abort : Avoids reason (abort : Proc ε σ α) := by
  intro s t failed
  cases failed

theorem read (f : σ → α) : Avoids reason (read f : Proc ε σ α) := by
  intro s t failed
  cases failed

theorem modify (f : σ → σ) : Avoids reason (modify f : Proc ε σ Unit) := by
  intro s t failed
  cases failed

theorem guard (succeeds : Bool) (differs : other ≠ reason) :
    Avoids reason (guard succeeds other : Proc ε σ Unit) := by
  cases succeeds
  · exact fail differs
  · exact pure ()

theorem orAbort (value : Option α) : Avoids reason (orAbort value : Proc ε σ α) := by
  cases value with
  | none => exact abort
  | some value => exact pure value

theorem orFail (value : Option α) (differs : other ≠ reason) :
    Avoids reason (orFail other value : Proc ε σ α) := by
  cases value with
  | none => exact fail differs
  | some value => exact pure value

theorem when {c : Prop} [Decidable c] {p : Proc ε σ Unit} (avoids : Avoids reason p) :
    Avoids reason (when c p) := by
  unfold Proc.when
  split
  · exact avoids
  · exact pure ()

theorem ite {c : Prop} [Decidable c] (yes : Avoids reason p) (no : Avoids reason q) :
    Avoids reason (if c then p else q) := by
  split
  · exact yes
  · exact no

theorem rescue {handler : ε → Proc ε σ α} (handled : ∀ cause, Avoids reason (handler cause)) :
    Avoids reason (rescue p handler) := by
  intro s t failed
  unfold Proc.rescue at failed
  cases ends : p s with
  | ok value u =>
      rw [ends] at failed
      cases failed
  | error cause u =>
      rw [ends] at failed
      exact handled cause u t failed
  | panic u =>
      rw [ends] at failed
      cases failed

theorem focus {τ : Type} {view : σ → τ} {put : τ → σ → σ} {p : Proc ε τ α}
    (avoids : Avoids reason p) : Avoids reason (focus view put p) := by
  intro s t failed
  rw [focus_run] at failed
  cases ends : p (view s) with
  | ok value u =>
      rw [ends] at failed
      cases failed
  | error cause u =>
      rw [ends] at failed
      cases failed
      exact avoids (view s) u ends
  | panic u =>
      rw [ends] at failed
      cases failed

theorem bind {next : α → Proc ε σ β} (first : Avoids reason p)
    (rest : ∀ a, Avoids reason (next a)) : Avoids reason (p >>= next) := by
  intro s t failed
  rw [bind_run] at failed
  cases ends : p s with
  | ok value u =>
      rw [ends] at failed
      exact rest value u t failed
  | error cause u =>
      rw [ends] at failed
      cases failed
      exact first s t ends
  | panic u =>
      rw [ends] at failed
      cases failed

end Avoids

section Meets

variable {good mid bad fallen : σ → Prop} {p : Proc ε σ α} {s : σ}

theorem meets_bind {next : α → Proc ε σ β} (first : (p s).Meets mid bad fallen)
    (rest : ∀ a t, mid t → (next a t).Meets good bad fallen) :
    ((p >>= next) s).Meets good bad fallen := by
  rw [bind_run]
  cases ends : p s with
  | ok value t =>
      rw [ends] at first
      exact rest value t first
  | error reason t =>
      rw [ends] at first
      exact first
  | panic t =>
      rw [ends] at first
      exact first

theorem meets_guard (succeeds : Bool) (reason : ε) (isGood : good s) (isBad : bad s) :
    ((guard succeeds reason : Proc ε σ Unit) s).Meets good bad fallen := by
  cases succeeds
  · exact isBad
  · exact isGood

theorem meets_guard_bind (succeeds : Bool) (reason : ε) {next : Unit → Proc ε σ β}
    (isBad : bad s) (rest : (next () s).Meets good bad fallen) :
    ((guard succeeds reason >>= next) s).Meets good bad fallen := by
  cases succeeds
  · exact isBad
  · exact rest

theorem meets_orFail_bind (reason : ε) {value : Option α} {next : α → Proc ε σ β}
    (isBad : bad s) (rest : ∀ a, value = some a → (next a s).Meets good bad fallen) :
    ((orFail reason value >>= next) s).Meets good bad fallen := by
  cases value with
  | none => exact isBad
  | some a => exact rest a rfl

theorem meets_orAbort_bind {value : Option α} {next : α → Proc ε σ β}
    (isFallen : fallen s) (rest : ∀ a, value = some a → (next a s).Meets good bad fallen) :
    ((orAbort value >>= next) s).Meets good bad fallen := by
  cases value with
  | none => exact isFallen
  | some a => exact rest a rfl

theorem meets_rescue {handler : ε → Proc ε σ α} (first : (p s).Meets good mid fallen)
    (handled : ∀ reason t, mid t → (handler reason t).Meets good bad fallen) :
    (rescue p handler s).Meets good bad fallen := by
  unfold rescue
  cases ends : p s with
  | ok value t =>
      rw [ends] at first
      exact first
  | error reason t =>
      rw [ends] at first
      exact handled reason t first
  | panic t =>
      rw [ends] at first
      exact first

theorem meets_when {c : Prop} [Decidable c] {p : Proc ε σ Unit}
    (holds : c → (p s).Meets good bad fallen) (fails : ¬c → good s) :
    (when c p s).Meets good bad fallen := by
  by_cases h : c
  · rw [when_true p h]
    exact holds h
  · rw [when_false p h]
    exact fails h

/-- A call on a part of the state, from what it means for the whole. -/
theorem meets_focus {τ : Type} {view : σ → τ} {put : τ → σ → σ} {p : Proc ε τ α}
    (inner : (p (view s)).Meets (fun t => good (put t s)) (fun t => bad (put t s))
      fun t => fallen (put t s)) :
    (focus view put p s).Meets good bad fallen := by
  rw [focus_run]
  cases ends : p (view s) <;> (rw [ends] at inner; exact inner)

theorem meets_mono {good' bad' fallen' : σ → Prop} {ended : Exit ε σ α}
    (meets : ended.Meets good bad fallen) (isGood : ∀ t, good t → good' t)
    (isBad : ∀ t, bad t → bad' t) (isFallen : ∀ t, fallen t → fallen' t) :
    ended.Meets good' bad' fallen' := by
  cases ended with
  | ok value t => exact isGood t meets
  | error reason t => exact isBad t meets
  | panic t => exact isFallen t meets

theorem meets_of_keeps (keeps : Keeps good p) (holds : good s) :
    (p s).Meets good good good := by
  have kept := keeps s holds
  cases ended : p s <;> rw [ended] at kept <;> exact kept

theorem meets_state {ended : Exit ε σ α} (meets : ended.Meets good good good) :
    good ended.state := by
  cases ended <;> exact meets

end Meets

end Proc

end RenogyX10
