import Mathlib.Data.List.Forall2
import Mathlib.Data.List.Perm.Basic
import Mathlib.Tactic.Common

set_option autoImplicit false

namespace RenogyX10.Keyed

variable {α κ : Type}

/-- The last element takes the removed one's place. -/
def swapRemove (items : List α) (index : Nat) : List α :=
  match items.getLast? with
  | none => items
  | some last => (items.set index last).dropLast

/-- A removal takes out exactly the element at the index. -/
theorem swapRemove_perm {items : List α} {index : Nat} {item : α}
    (found : items[index]? = some item) : (item :: swapRemove items index).Perm items := by
  rcases List.eq_nil_or_concat' items with rfl | ⟨front, last, rfl⟩
  · rw [List.getElem?_nil] at found
    cases found
  · have moved : swapRemove (front ++ [last]) index =
        ((front ++ [last]).set index last).dropLast := by
      simp only [swapRemove, List.getLast?_append, List.getLast?_singleton, Option.some_or]
    rw [moved]
    by_cases inside : index < front.length
    · rw [List.getElem?_append_left inside, List.getElem?_eq_getElem inside] at found
      obtain rfl := Option.some.inj found
      rw [List.set_append_left _ _ inside, List.dropLast_concat]
      have stored : (front.set index last).Perm (last :: front.eraseIdx index) :=
        List.set_perm_cons_eraseIdx inside last
      have restored : (front[index] :: front.eraseIdx index).Perm front :=
        List.getElem_cons_eraseIdx_perm inside
      refine (stored.cons _).trans ((List.Perm.swap _ _ _).trans ?_)
      exact (restored.cons _).trans (List.perm_append_singleton last front).symm
    · obtain ⟨bound, value⟩ := List.getElem?_eq_some_iff.mp found
      have final : index = front.length := by
        rw [List.length_append, List.length_singleton] at bound
        omega
      subst final
      rw [List.getElem_concat_length rfl] at value
      subst value
      rw [List.set_append_right _ _ (Nat.le_refl _), Nat.sub_self, List.set_cons_zero,
        List.dropLast_concat]
      exact (List.perm_append_singleton last front).symm

theorem mem_swapRemove {key : α → κ} {items : List α} (distinct : (items.map key).Nodup)
    {index : Nat} {item member : α} (found : items[index]? = some item)
    (isMember : member ∈ swapRemove items index) : member ∈ items ∧ key member ≠ key item := by
  have perm := swapRemove_perm found
  refine ⟨perm.subset (List.mem_cons_of_mem _ isMember), ?_⟩
  intro same
  have split := (perm.map key).nodup_iff.mpr distinct
  rw [List.map_cons, List.nodup_cons] at split
  apply split.1
  rw [← same]
  exact List.mem_map_of_mem isMember

theorem nodup_swapRemove {key : α → κ} {items : List α} (distinct : (items.map key).Nodup)
    {index : Nat} {item : α} (found : items[index]? = some item) :
    ((swapRemove items index).map key).Nodup := by
  have split := ((swapRemove_perm found).map key).nodup_iff.mpr distinct
  rw [List.map_cons, List.nodup_cons] at split
  exact split.2

theorem mem_set {key : α → κ} {items : List α} (distinct : (items.map key).Nodup) {index : Nat}
    {item fresh member : α} (found : items[index]? = some item)
    (isMember : member ∈ items.set index fresh) :
    member = fresh ∨ (member ∈ items ∧ key member ≠ key item) := by
  obtain ⟨inside, _⟩ := List.getElem?_eq_some_iff.mp found
  obtain ⟨position, lookup⟩ := List.mem_iff_getElem?.mp isMember
  by_cases same : index = position
  · left
    subst position
    rw [List.getElem?_set_self inside] at lookup
    exact (Option.some.inj lookup).symm
  · right
    rw [List.getElem?_set_ne same] at lookup
    refine ⟨List.mem_of_getElem? lookup, ?_⟩
    intro equal
    apply same
    apply (List.getElem?_inj (by rwa [List.length_map]) distinct).mp
    rw [List.getElem?_map, List.getElem?_map, found, lookup, Option.map_some, Option.map_some, equal]

theorem map_set {key : α → κ} {items : List α} {index : Nat} {item fresh : α}
    (found : items[index]? = some item) (same : key fresh = key item) :
    (items.set index fresh).map key = items.map key := by
  obtain ⟨inside, rfl⟩ := List.getElem?_eq_some_iff.mp found
  rw [List.map_set, same, ← List.getElem_map key (h := by rwa [List.length_map])]
  exact List.set_getElem_self _

theorem behind_swapRemove {items : List α} {index position : Nat} {member : α}
    (behind : index ≤ position) (found : (swapRemove items index)[position]? = some member) :
    ∃ before, index < before ∧ items[before]? = some member := by
  rcases List.eq_nil_or_concat' items with rfl | ⟨front, last, rfl⟩
  · cases found
  · have moved : swapRemove (front ++ [last]) index =
        ((front ++ [last]).set index last).dropLast := by
      simp only [swapRemove, List.getLast?_append, List.getLast?_singleton, Option.some_or]
    rw [moved] at found
    obtain ⟨inside, value⟩ := List.getElem?_eq_some_iff.mp found
    rw [List.length_dropLast, List.length_set, List.length_append, List.length_singleton,
      Nat.add_sub_cancel] at inside
    rw [List.getElem_dropLast] at value
    by_cases same : index = position
    · refine ⟨front.length, same ▸ inside, ?_⟩
      subst position
      rw [List.getElem_set_self] at value
      rw [List.getElem?_concat_length, value]
    · refine ⟨position, Nat.lt_of_le_of_ne behind same, ?_⟩
      rw [List.getElem_set_ne same] at value
      rw [← value]
      exact List.getElem?_eq_getElem _

/-- The first `count` elements from the back, where each that is marked is removed: what
was removed, in order, and what is left. -/
def sweep (marked : α → Bool) : Nat → List α → List α × List α
  | 0, items => ([], items)
  | index + 1, items =>
      match items[index]? with
      | none => sweep marked index items
      | some item =>
          if marked item then
            let later := sweep marked index (swapRemove items index)
            (item :: later.1, later.2)
          else sweep marked index items

section Sweep

variable {marked : α → Bool} {items : List α} {index : Nat} {item : α}

theorem sweep_absent (absent : items[index]? = none) :
    sweep marked (index + 1) items = sweep marked index items := by
  simp only [sweep, absent]

theorem sweep_unmarked (found : items[index]? = some item) (unmarked : marked item = false) :
    sweep marked (index + 1) items = sweep marked index items := by
  simp only [sweep, found, unmarked, Bool.false_eq_true, ↓reduceIte]

theorem sweep_marked (found : items[index]? = some item) (isMarked : marked item = true) :
    sweep marked (index + 1) items =
      (item :: (sweep marked index (swapRemove items index)).1,
        (sweep marked index (swapRemove items index)).2) := by
  simp only [sweep, found, isMarked, ↓reduceIte]

theorem swapRemove_map {β : Type} (f : β → α) (items : List β) (index : Nat) :
    swapRemove (items.map f) index = (swapRemove items index).map f := by
  unfold swapRemove
  rw [List.getLast?_map]
  cases items.getLast? with
  | none => rfl
  | some last => rw [Option.map_some, List.map_dropLast, List.map_set]

theorem sweep_map {β : Type} (f : β → α) (count : Nat) (items : List β) :
    sweep marked count (items.map f) =
      ((sweep (fun item => marked (f item)) count items).1.map f,
        (sweep (fun item => marked (f item)) count items).2.map f) := by
  induction count generalizing items with
  | zero => rfl
  | succ index ih =>
      cases found : items[index]? with
      | none =>
          have absent : (items.map f)[index]? = none := by
            rw [List.getElem?_map, found, Option.map_none]
          rw [sweep_absent absent, sweep_absent found, ih]
      | some item =>
          have same : (items.map f)[index]? = some (f item) := by
            rw [List.getElem?_map, found, Option.map_some]
          cases isMarked : marked (f item) with
          | false => rw [sweep_unmarked same isMarked, sweep_unmarked found isMarked, ih]
          | true =>
              rw [sweep_marked same isMarked, sweep_marked found isMarked, swapRemove_map, ih]
              rfl

theorem filter_unmarked (unmarked : ∀ item ∈ items, marked item = false) :
    items.filter marked = [] ∧ (items.filter fun item => !marked item) = items := by
  constructor
  · apply List.filter_eq_nil_iff.mpr
    intro item member
    rw [unmarked item member]
    exact Bool.false_ne_true
  · apply List.filter_eq_self.mpr
    intro item member
    rw [unmarked item member]
    rfl

/-- A sweep that leaves out no marked element removes exactly the marked ones. -/
theorem sweep_perm {count : Nat}
    (swept : ∀ index, count ≤ index → ∀ item, items[index]? = some item → marked item = false) :
    (sweep marked count items).1.Perm (items.filter marked) ∧
      (sweep marked count items).2.Perm (items.filter fun item => !marked item) := by
  induction count generalizing items with
  | zero =>
      have unmarked : ∀ item ∈ items, marked item = false := by
        intro item member
        obtain ⟨index, found⟩ := List.mem_iff_getElem?.mp member
        exact swept index (Nat.zero_le index) item found
      rw [(filter_unmarked unmarked).1, (filter_unmarked unmarked).2]
      exact ⟨List.Perm.refl [], List.Perm.refl items⟩
  | succ index ih =>
      -- An unmarked element at the index joins the ones behind it.
      have stays (here : ∀ item, items[index]? = some item → marked item = false) :
          ∀ other, index ≤ other → ∀ item, items[other]? = some item → marked item = false := by
        intro other behind item found
        rcases Nat.eq_or_lt_of_le behind with rfl | later
        · exact here item found
        · exact swept other later item found
      cases found : items[index]? with
      | none =>
          rw [sweep_absent found]
          apply ih (stays _)
          intro item same
          rw [found] at same
          cases same
      | some item =>
          cases isMarked : marked item with
          | false =>
              rw [sweep_unmarked found isMarked]
              apply ih (stays _)
              intro other same
              rw [found] at same
              cases same
              exact isMarked
          | true =>
              have perm := swapRemove_perm found
              have rest : ∀ other, index ≤ other → ∀ member,
                  (swapRemove items index)[other]? = some member → marked member = false := by
                intro other behind member isMember
                obtain ⟨before, past, old⟩ := behind_swapRemove behind isMember
                exact swept before past member old
              obtain ⟨removed, left⟩ := ih rest
              rw [sweep_marked found isMarked]
              constructor
              · refine (removed.cons item).trans ?_
                rw [← List.filter_cons_of_pos isMarked]
                exact perm.filter marked
              · refine left.trans ?_
                have kept := perm.filter fun item => !marked item
                rwa [List.filter_cons_of_neg (by rw [isMarked]; exact Bool.false_ne_true)] at kept

theorem sweep_length_perm (marked : α → Bool) (items : List α) :
    (sweep marked items.length items).1.Perm (items.filter marked) ∧
      (sweep marked items.length items).2.Perm (items.filter fun item => !marked item) := by
  apply sweep_perm
  intro index behind item found
  have inside := (List.getElem?_eq_some_iff.mp found).1
  omega

end Sweep

theorem zip_keys_sublist (keys : List κ) (values : List α) :
    ((keys.zip values).map Prod.fst).Sublist keys := by
  induction keys generalizing values with
  | nil => exact List.Sublist.refl []
  | cons key rest ih =>
      cases values with
      | nil => exact List.nil_sublist _
      | cons value later => exact (ih later).cons_cons key

theorem exists_of_forall₂ {related : α → κ → Prop} {items : List α} {others : List κ}
    (all : List.Forall₂ related items others) {item : α} (member : item ∈ items) :
    ∃ other ∈ others, related item other := by
  induction all with
  | nil => cases member
  | cons one _ ih =>
      rcases List.mem_cons.mp member with rfl | later
      · exact ⟨_, List.mem_cons_self, one⟩
      · obtain ⟨other, isLater, holds⟩ := ih later
        exact ⟨other, List.mem_cons_of_mem _ isLater, holds⟩

end RenogyX10.Keyed
