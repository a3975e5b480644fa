import Mathlib.Data.List.Basic
import Mathlib.Tactic.Common

set_option autoImplicit false

/- Reassembly of length-prefixed frames from a stream that is cut at arbitrary
points. The receiver asks for no more than the rest of the header, or of the
frame the header announces, so no chunk reaches past the current frame. -/
namespace RenogyX10.Framing

variable {β : Type}

/-- Headers have a fixed width and announce the length of the whole frame. -/
structure Layout (β : Type) where
  width : Nat
  announced : List β → Nat

namespace Layout

variable (layout : Layout β)

/-- The first items of a frame that is announced correctly. -/
structure Frame (frame : List β) : Prop where
  payload : layout.width < frame.length
  announces : layout.announced (frame.take layout.width) = frame.length

/-- The length up to which the receiver asks for the current frame. -/
def target (held : List β) : Nat :=
  if held.length < layout.width then layout.width
  else layout.announced (held.take layout.width)

/-- What is held is a proper part of the first frame still to come. -/
def Pending (held : List β) : List (List β) → Prop
  | [] => True
  | frame :: _ => held <+: frame ∧ held.length < frame.length

variable {layout}

theorem pending_nil {frames : List (List β)} (framed : ∀ f ∈ frames, layout.Frame f) :
    Pending [] frames := by
  cases frames with
  | nil => trivial
  | cons frame rest =>
      have positive := (framed frame (by simp)).payload
      exact ⟨List.nil_prefix, by simp only [List.length_nil]; omega⟩

theorem target_of_short {held : List β} (short : held.length < layout.width) :
    layout.target held = layout.width := by
  simp only [target, short, ↓reduceIte]

theorem target_of_begun {held frame : List β} (framed : layout.Frame frame)
    (begins : held <+: frame) (headed : layout.width ≤ held.length) :
    layout.target held = frame.length := by
  obtain ⟨rest, rfl⟩ := begins
  have same : (held ++ rest).take layout.width = held.take layout.width :=
    List.take_append_of_le_length headed
  have long : ¬ held.length < layout.width := by omega
  simp only [target, long, ↓reduceIte, ← same, framed.announces]

theorem target_le {held frame : List β} (framed : layout.Frame frame) (begins : held <+: frame) :
    layout.target held ≤ frame.length := by
  by_cases short : held.length < layout.width
  · rw [target_of_short short]
    exact Nat.le_of_lt framed.payload
  · exact Nat.le_of_eq (target_of_begun framed begins (by omega))

theorem length_lt_target {held frame : List β} (framed : layout.Frame frame)
    (begins : held <+: frame) (proper : held.length < frame.length) :
    held.length < layout.target held := by
  by_cases short : held.length < layout.width
  · rw [target_of_short short]
    exact short
  · rw [target_of_begun framed begins (by omega)]
    exact proper

/-- A chunk of a stream of frames completes the first one or is held. Whatever
follows the frames does not matter. -/
theorem Pending.step {held chunk more frame tail : List β} {rest : List (List β)}
    (framed : ∀ f ∈ frame :: rest, layout.Frame f) (pending : Pending held (frame :: rest))
    (bounded : held.length + chunk.length ≤ layout.target held)
    (stream : held ++ chunk ++ more = (frame :: rest).flatten ++ tail) :
    (held ++ chunk = frame ∧ Pending [] rest ∧ more = rest.flatten ++ tail) ∨
      Pending (held ++ chunk) (frame :: rest) := by
  have limit := target_le (framed frame (by simp)) pending.1
  have within : (held ++ chunk).length ≤ frame.length := by
    rw [List.length_append]
    omega
  rw [List.flatten_cons, List.append_assoc frame] at stream
  have inFrame : held ++ chunk <+: frame := by
    refine List.prefix_of_prefix_length_le ⟨more, stream⟩ (List.prefix_append _ _) within
  by_cases complete : (held ++ chunk).length = frame.length
  · left
    have whole : held ++ chunk = frame := inFrame.eq_of_length complete
    refine ⟨whole, pending_nil fun f member => framed f (by simp [member]), ?_⟩
    rw [whole] at stream
    exact List.append_cancel_left stream
  · exact .inr ⟨inFrame, by omega⟩

theorem Pending.complete {held : List β} {frames : List (List β)} (pending : Pending held frames)
    (stream : held = frames.flatten) : frames = [] ∧ held = [] := by
  cases frames with
  | nil => exact ⟨rfl, stream⟩
  | cons frame rest =>
      have short : held.length < frame.length := pending.2
      rw [stream, List.flatten_cons, List.length_append] at short
      omega

end Layout

end RenogyX10.Framing
