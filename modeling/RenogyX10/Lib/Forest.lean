import Mathlib.Data.List.Nodup
import Mathlib.Data.List.Perm.Basic

set_option autoImplicit false

namespace RenogyX10.Forest

open scoped List

variable {α : Type} (children : α → List α)

/-- The nodes in the order in which they are left. -/
def visit : Nat → α → List α
  | 0, _ => []
  | fuel + 1, node => (children node).flatMap (visit fuel) ++ [node]

/-- Every node but the root is the child of one node, once. -/
def Owned (root : α) (nodes : List α) : Prop := (root :: nodes.flatMap children) ~ nodes

variable {children} {rank : α → Nat}

/-- What the walks from some nodes visit: these nodes, and the children of what is visited. -/
theorem flatMap_visit_owned {fuel : Nat} {kin : List α}
    (each : ∀ node ∈ kin, Owned children node (visit children fuel node)) :
    (kin ++ (kin.flatMap (visit children fuel)).flatMap children) ~
      kin.flatMap (visit children fuel) := by
  induction kin with
  | nil => exact .nil
  | cons node kin ih =>
      have first := each node List.mem_cons_self
      have others := ih fun other member => each other (List.mem_cons_of_mem node member)
      simp only [List.flatMap_cons, List.flatMap_append]
      have swap : (node :: kin ++ ((visit children fuel node).flatMap children ++
          (kin.flatMap (visit children fuel)).flatMap children)) ~
          ((node :: (visit children fuel node).flatMap children) ++
            (kin ++ (kin.flatMap (visit children fuel)).flatMap children)) := by
        simp only [List.cons_append, ← List.append_assoc]
        exact (List.perm_append_comm.append_right _).cons node
      exact swap.trans (first.append others)

theorem visit_owned {height fuel : Nat} {node : α}
    (grows : ∀ parent, ∀ child ∈ children parent, rank parent < rank child ∧ rank child < height)
    (inside : rank node < height) (enough : height ≤ fuel + rank node) :
    Owned children node (visit children fuel node) := by
  induction fuel generalizing node with
  | zero => omega
  | succ fuel ih =>
      have kin : (children node ++ ((children node).flatMap (visit children fuel)).flatMap children) ~
          (children node).flatMap (visit children fuel) := by
        apply flatMap_visit_owned
        intro child member
        have grown := grows node child member
        exact ih grown.2 (by omega)
      unfold Owned visit
      simp only [List.flatMap_append, List.flatMap_cons, List.flatMap_nil, List.append_nil]
      calc node :: (((children node).flatMap (visit children fuel)).flatMap children ++ children node)
        _ ~ node :: (children node ++
              ((children node).flatMap (visit children fuel)).flatMap children) :=
            List.perm_append_comm.cons node
        _ ~ node :: (children node).flatMap (visit children fuel) := kin.cons node
        _ ~ (children node).flatMap (visit children fuel) ++ [node] :=
            (List.perm_append_singleton node _).symm

theorem filter_flatMap_low {bound : Nat} (nodes : List α)
    (grows : ∀ parent, ∀ child ∈ children parent, rank parent < rank child) :
    (nodes.flatMap children).filter (rank · < bound + 1) =
      ((nodes.filter (rank · < bound)).flatMap children).filter (rank · < bound + 1) := by
  induction nodes with
  | nil => rfl
  | cons node nodes ih =>
      rw [List.flatMap_cons, List.filter_append, ih]
      by_cases low : rank node < bound
      · rw [List.filter_cons_of_pos (by simpa using low), List.flatMap_cons, List.filter_append]
      · have none : (children node).filter (rank · < bound + 1) = [] := by
          rw [List.filter_eq_nil_iff]
          intro child member
          have grown := grows node child member
          simp only [decide_eq_true_eq]
          omega
        rw [none, List.nil_append, List.filter_cons_of_neg (by simpa using low)]

theorem exists_rank_lt (rank : α → Nat) (nodes : List α) : ∃ bound, ∀ node ∈ nodes, rank node < bound := by
  induction nodes with
  | nil => exact ⟨0, fun _ member => nomatch member⟩
  | cons node nodes ih =>
      obtain ⟨bound, all⟩ := ih
      refine ⟨max bound (rank node + 1), ?_⟩
      intro other member
      cases List.mem_cons.mp member with
      | inl same =>
          rw [same]
          omega
      | inr old =>
          have low := all other old
          omega

/-- There is one way for nodes to be owned from a root. -/
theorem Owned.unique {root : α} {nodes others : List α}
    (grows : ∀ parent, ∀ child ∈ children parent, rank parent < rank child)
    (owned : Owned children root nodes) (owned' : Owned children root others) :
    nodes ~ others := by
  have low : ∀ bound, nodes.filter (rank · < bound) ~ others.filter (rank · < bound) := by
    intro bound
    induction bound with
    | zero => simp
    | succ bound ih =>
        have children_low := (ih.flatMap_right children).filter (rank · < bound + 1)
        rw [← filter_flatMap_low nodes grows, ← filter_flatMap_low others grows] at children_low
        have roots : (root :: nodes.flatMap children).filter (rank · < bound + 1) ~
            (root :: others.flatMap children).filter (rank · < bound + 1) := by
          rw [List.filter_cons, List.filter_cons]
          split
          · exact children_low.cons root
          · exact children_low
        exact ((owned.symm.filter _).trans roots).trans (owned'.filter _)
  obtain ⟨bound, all⟩ := exists_rank_lt rank (nodes ++ others)
  have same := low bound
  rwa [List.filter_eq_self.mpr, List.filter_eq_self.mpr] at same
  · intro node member
    simpa using all node (List.mem_append_right nodes member)
  · intro node member
    simpa using all node (List.mem_append_left others member)

/-- A walk from the root visits every node, each once. -/
theorem visit_perm {root : α} {nodes : List α} {height fuel : Nat} (rank : α → Nat)
    (owned : Owned children root nodes)
    (grows : ∀ parent, ∀ child ∈ children parent, rank parent < rank child ∧ rank child < height)
    (inside : rank root < height) (enough : height ≤ fuel + rank root) :
    visit children fuel root ~ nodes :=
  Owned.unique (fun parent child member => (grows parent child member).1)
    (visit_owned grows inside enough) owned

theorem Owned.grow {root parent new : α} {nodes : List α} {grown : α → List α}
    (owned : Owned children root nodes) (nodup : nodes.Nodup) (member : parent ∈ nodes)
    (added : grown parent ~ new :: children parent)
    (others : ∀ node ∈ nodes, node ≠ parent → grown node = children node)
    (leaf : grown new = []) : Owned grown root (nodes ++ [new]) := by
  obtain ⟨before, after, rfl⟩ := List.append_of_mem member
  have apart := List.nodup_middle.mp nodup
  rw [List.nodup_cons, List.mem_append, not_or] at apart
  have same : ∀ part : List α, parent ∉ part → (∀ node ∈ part, node ∈ before ++ parent :: after) →
      part.flatMap grown = part.flatMap children := by
    intro part missing inside
    apply List.flatMap_congr
    intro node there
    exact others node (inside node there) fun eq => missing (eq ▸ there)
  have inBefore := same before apart.1.1 fun node there => List.mem_append_left _ there
  have inAfter := same after apart.1.2 fun node there =>
    List.mem_append_right _ (List.mem_cons_of_mem parent there)
  have more : (before ++ parent :: after).flatMap grown ~
      new :: (before ++ parent :: after).flatMap children := by
    simp only [List.flatMap_append, List.flatMap_cons, inBefore, inAfter]
    calc before.flatMap children ++ (grown parent ++ after.flatMap children)
      _ ~ before.flatMap children ++ (new :: children parent ++ after.flatMap children) :=
          (added.append_right _).append_left _
      _ ~ new :: (before.flatMap children ++ (children parent ++ after.flatMap children)) :=
          List.perm_middle
  unfold Owned at owned ⊢
  rw [List.flatMap_append, List.flatMap_cons, List.flatMap_nil, leaf, List.append_nil, List.append_nil]
  calc root :: (before ++ parent :: after).flatMap grown
    _ ~ root :: new :: (before ++ parent :: after).flatMap children := more.cons root
    _ ~ new :: root :: (before ++ parent :: after).flatMap children := List.Perm.swap new root _
    _ ~ new :: (before ++ parent :: after) := owned.cons new
    _ ~ before ++ parent :: after ++ [new] := (List.perm_append_singleton new _).symm

theorem Owned.congr {root : α} {nodes : List α} {others : α → List α}
    (owned : Owned children root nodes) (same : ∀ node ∈ nodes, others node = children node) :
    Owned others root nodes := by
  unfold Owned
  rw [List.flatMap_congr same]
  exact owned

end RenogyX10.Forest
