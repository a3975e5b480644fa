import Mathlib.Tactic.Common

set_option autoImplicit false

/- Finite runs of a system that takes one input at a time. What the environment
or a side condition promises of each input is a predicate on the state before
the step and the input. -/
namespace RenogyX10.Runs

variable {σ ι : Type}

/-- The state after a list of inputs, oldest first. -/
def exec (step : σ → ι → σ) (start : σ) (inputs : List ι) : σ := inputs.foldl step start

/-- Every input of the run meets `allowed` in the state it finds. -/
def Admits (step : σ → ι → σ) (allowed : σ → ι → Prop) : σ → List ι → Prop
  | _, [] => True
  | s, input :: rest => allowed s input ∧ Admits step allowed (step s input) rest

variable {step : σ → ι → σ} {allowed other : σ → ι → Prop}

@[simp] theorem exec_nil (s : σ) : exec step s [] = s := rfl

@[simp] theorem exec_cons (s : σ) (input : ι) (rest : List ι) :
    exec step s (input :: rest) = exec step (step s input) rest := rfl

theorem exec_append (s : σ) (front back : List ι) :
    exec step s (front ++ back) = exec step (exec step s front) back :=
  List.foldl_append

@[simp] theorem admits_nil (s : σ) : Admits step allowed s [] := trivial

@[simp] theorem admits_cons (s : σ) (input : ι) (rest : List ι) :
    Admits step allowed s (input :: rest) ↔
      allowed s input ∧ Admits step allowed (step s input) rest := Iff.rfl

theorem admits_append (s : σ) (front back : List ι) :
    Admits step allowed s (front ++ back) ↔
      Admits step allowed s front ∧ Admits step allowed (exec step s front) back := by
  induction front generalizing s with
  | nil => simp
  | cons input rest ih => simp [ih, and_assoc]

/-- What is allowed at every input is allowed wherever the run is cut. -/
theorem Admits.at_split {s : σ} {inputs : List ι} (admitted : Admits step allowed s inputs)
    {front back : List ι} {input : ι} (split : inputs = front ++ input :: back) :
    allowed (exec step s front) input := by
  rw [split, admits_append] at admitted
  exact admitted.2.1

theorem Admits.and {s : σ} {inputs : List ι} (first : Admits step allowed s inputs)
    (second : Admits step other s inputs) :
    Admits step (fun t input => allowed t input ∧ other t input) s inputs := by
  induction inputs generalizing s with
  | nil => trivial
  | cons input rest ih => exact ⟨⟨first.1, second.1⟩, ih first.2 second.2⟩

theorem admits_of_forall {promise : ι → Prop} {s : σ} {inputs : List ι}
    (all : ∀ input ∈ inputs, promise input) : Admits step (fun _ => promise) s inputs := by
  induction inputs generalizing s with
  | nil => trivial
  | cons input rest ih =>
      have first := all input List.mem_cons_self
      exact ⟨first, ih fun other isLater => all other (List.mem_cons_of_mem _ isLater)⟩

instance decidableAdmits [∀ s input, Decidable (allowed s input)] :
    ∀ s inputs, Decidable (Admits step allowed s inputs)
  | _, [] => .isTrue trivial
  | s, input :: rest =>
      have := decidableAdmits (step s input) rest
      inferInstanceAs (Decidable (allowed s input ∧ Admits step allowed (step s input) rest))

/-- What each allowed step preserves holds at the end of every run. -/
theorem exec_keeps {inv : σ → Prop} (kept : ∀ s input, allowed s input → inv s → inv (step s input))
    {s : σ} {inputs : List ι} (admitted : Admits step allowed s inputs) (start : inv s) :
    inv (exec step s inputs) := by
  induction inputs generalizing s with
  | nil => exact start
  | cons input rest ih => exact ih admitted.2 (kept s input admitted.1 start)

theorem exec_keeps_always {inv : σ → Prop} (kept : ∀ s input, inv s → inv (step s input))
    {s : σ} (inputs : List ι) (start : inv s) : inv (exec step s inputs) := by
  induction inputs generalizing s with
  | nil => exact start
  | cons input rest ih => exact ih (kept s input start)

/-- What an invariant and the promise about an input imply of it holds of every
input of a run. -/
theorem Admits.derive {inv : σ → Prop}
    (kept : ∀ s input, allowed s input → inv s → inv (step s input))
    (implied : ∀ s input, allowed s input → inv s → other s input)
    {s : σ} {inputs : List ι} (admitted : Admits step allowed s inputs) (start : inv s) :
    Admits step other s inputs := by
  induction inputs generalizing s with
  | nil => trivial
  | cons input rest ih =>
      exact ⟨implied s input admitted.1 start, ih admitted.2 (kept s input admitted.1 start)⟩

/-- Where each step leads from good to good exactly when it is allowed, a run is
good throughout exactly when all its inputs are. -/
theorem always_iff_admits {inv good : σ → Prop} (kept : ∀ s input, inv s → inv (step s input))
    (exact : ∀ s input, inv s → good s → (good (step s input) ↔ allowed s input))
    {s : σ} {inputs : List ι} (start : inv s) (isGood : good s) :
    (∀ front back, inputs = front ++ back → good (exec step s front)) ↔
      Admits step allowed s inputs := by
  induction inputs generalizing s with
  | nil =>
      constructor
      · exact fun _ => trivial
      · intro _ front back split
        obtain ⟨rfl, _⟩ := List.append_eq_nil_iff.mp split.symm
        exact isGood
  | cons input rest ih =>
      constructor
      · intro always
        have next : good (step s input) := always [input] rest rfl
        refine ⟨(exact s input start isGood).mp next, (ih (kept s input start) next).mp ?_⟩
        intro front back split
        exact always (input :: front) back (by rw [split, List.cons_append])
      · rintro ⟨first, later⟩ front back split
        have next : good (step s input) := (exact s input start isGood).mpr first
        cases front with
        | nil => exact isGood
        | cons other front =>
            obtain ⟨rfl, rfl⟩ := List.cons_eq_cons.mp split
            exact (ih (kept s input start) next).mpr later front back rfl

end RenogyX10.Runs
