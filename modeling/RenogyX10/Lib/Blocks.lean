import Mathlib.Data.List.Forall2
import Mathlib.Tactic.Common

set_option autoImplicit false

namespace RenogyX10.Blocks

variable {α β : Type}

/-- The pieces are listed from the last one to the first. -/
inductive Scattered : List (List α) → List α → Prop where
  | nil (items : List α) : Scattered [] items
  | cons {older : List (List α)} {items : List α} (block gap : List α)
      (scattered : Scattered older items) : Scattered (block :: older) (items ++ block ++ gap)

variable {blocks : List (List α)} {items : List α}

theorem Scattered.more (scattered : Scattered blocks items) (gap : List α) :
    Scattered blocks (items ++ gap) := by
  cases scattered with
  | nil => exact .nil _
  | cons block first before =>
      rw [List.append_assoc]
      exact .cons block (first ++ gap) before

theorem Scattered.later {longer : List α} (scattered : Scattered blocks items)
    (later : items <+: longer) : Scattered blocks longer := by
  obtain ⟨gap, rfl⟩ := later
  exact scattered.more gap

theorem forall₂_split {R : β → α → Prop} {others : List β} {first second : List α}
    (related : List.Forall₂ R others (first ++ second)) :
    ∃ front back, others = front ++ back ∧ List.Forall₂ R front first ∧
      List.Forall₂ R back second :=
  ⟨others.take first.length, others.drop first.length, (List.take_append_drop _ _).symm,
    List.forall₂_take_append others first second related,
    List.forall₂_drop_append others first second related⟩

/-- The items that are related to those of a block are a block. -/
theorem Scattered.related {R : β → α → Prop} {others : List β} (scattered : Scattered blocks items)
    (related : List.Forall₂ R others items) :
    ∃ same, Scattered same others ∧ List.Forall₂ (List.Forall₂ R) same blocks := by
  induction scattered generalizing others with
  | nil => exact ⟨[], .nil others, .nil⟩
  | cons block gap _ ih =>
      obtain ⟨front, back, rfl, related, _⟩ := forall₂_split related
      obtain ⟨first, middle, rfl, related, own⟩ := forall₂_split related
      obtain ⟨same, before, each⟩ := ih related
      exact ⟨middle :: same, .cons middle back before, .cons own each⟩

end RenogyX10.Blocks
