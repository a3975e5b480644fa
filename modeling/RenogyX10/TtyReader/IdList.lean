import RenogyX10.TtyReader.Types

set_option autoImplicit false

namespace RenogyX10.TtyReader

/-- The first statement of the iterator: step to the next device when both
reads of this one are behind. -/
def settle (index sub : Nat) : Nat × Nat := if 1 < sub then (index + 1, 0) else (index, sub)

/-- Each call of the iterator by itself is further on in the list. -/
theorem settle_decreases {length index sub : Nat} (inside : (settle index sub).1 < length) :
    3 * (length + 1 - (settle index sub).1) - min ((settle index sub).2 + 1) 2 <
      3 * (length + 1 - index) - min sub 2 := by
  unfold settle at inside ⊢
  by_cases finished : 1 < sub
  · simp only [finished, ↓reduceIte] at inside ⊢
    omega
  · simp only [finished, ↓reduceIte] at inside ⊢
    omega

/-- `get_next_id_info` on its two counters: the device it returns, and the
counters it leaves. It calls itself until it finds a read or the list ends. -/
def nextFrom (ids : List TtyIdInfo) (index sub : Nat) : Option TtyIdInfo × Nat × Nat :=
  let position := settle index sub
  if inside : position.1 < ids.length then
    let item := ids[position.1]
    if position.2 = 0 ∧ 0 < item.readCount then (some item, position.1, position.2 + 1)
    else if position.2 = 1 ∧ 0 < item.readInputCount then (some item, position.1, position.2 + 1)
    else nextFrom ids position.1 (position.2 + 1)
  else (none, 0, 0)
termination_by 3 * (ids.length + 1 - index) - min sub 2
decreasing_by exact settle_decreases inside

def getNextIdInfo (info : TtyInfo) : Option TtyIdInfo × TtyInfo :=
  let found := nextFrom info.idList info.idListIndex info.idListSubIndex
  (found.1, { info with idListIndex := found.2.1, idListSubIndex := found.2.2 })

/-- The branch `process_tty_id_info` takes on `id_list_sub_index`. -/
def selectKind : Nat → Option Kind
  | 1 => some .holding
  | 2 => some .input
  | _ => none

def TtyIdInfo.count (idInfo : TtyIdInfo) : Kind → UInt8
  | .holding => idInfo.readCount
  | .input => idInfo.readInputCount

def TtyIdInfo.address (idInfo : TtyIdInfo) : Kind → UInt16
  | .holding => idInfo.readAddress
  | .input => idInfo.readInputAddress

/-- A read that is configured, or nothing. -/
def readOf (idInfo : TtyIdInfo) (kind : Kind) : List (TtyIdInfo × Kind) :=
  if 0 < idInfo.count kind then [(idInfo, kind)] else []

/-- One pass: every device in list order, its holding registers before its
input registers, each only when its count is not zero. -/
def passOf (ids : List TtyIdInfo) : List (TtyIdInfo × Kind) :=
  ids.flatMap fun idInfo => readOf idInfo .holding ++ readOf idInfo .input

/-- The reads of one device that are left at a sub index. -/
def readsFrom (idInfo : TtyIdInfo) : Nat → List (TtyIdInfo × Kind)
  | 0 => readOf idInfo .holding ++ readOf idInfo .input
  | 1 => readOf idInfo .input
  | _ => []

/-- The reads of a pass that are left at a position. -/
def remaining (ids : List TtyIdInfo) (index sub : Nat) : List (TtyIdInfo × Kind) :=
  match ids.drop index with
  | [] => []
  | idInfo :: rest => readsFrom idInfo sub ++ passOf rest

@[simp] theorem passOf_cons (idInfo : TtyIdInfo) (rest : List TtyIdInfo) :
    passOf (idInfo :: rest) = readsFrom idInfo 0 ++ passOf rest := rfl

theorem readOf_zero {idInfo : TtyIdInfo} {kind : Kind} (zero : ¬ 0 < idInfo.count kind) :
    readOf idInfo kind = [] := by
  simp only [readOf, zero, ↓reduceIte]

theorem readOf_positive {idInfo : TtyIdInfo} {kind : Kind} (positive : 0 < idInfo.count kind) :
    readOf idInfo kind = [(idInfo, kind)] := by
  simp only [readOf, positive, ↓reduceIte]

theorem remaining_inside {ids : List TtyIdInfo} {index : Nat} (sub : Nat)
    (inside : index < ids.length) :
    remaining ids index sub = readsFrom ids[index] sub ++ passOf (ids.drop (index + 1)) := by
  simp only [remaining, List.drop_eq_getElem_cons inside]

theorem remaining_start (ids : List TtyIdInfo) (index : Nat) :
    remaining ids index 0 = passOf (ids.drop index) := by
  unfold remaining
  cases ids.drop index with
  | nil => rfl
  | cons idInfo rest => exact (passOf_cons idInfo rest).symm

theorem remaining_outside {ids : List TtyIdInfo} {index : Nat} (sub : Nat)
    (outside : ids.length ≤ index) : remaining ids index sub = [] := by
  simp only [remaining, List.drop_eq_nil_of_le outside]

/-- The sub index at which a read of this kind is tried. -/
def slot : Kind → Nat
  | .holding => 0
  | .input => 1

@[simp] theorem selectKind_slot (kind : Kind) : selectKind (slot kind + 1) = some kind := by
  cases kind <;> rfl

theorem readsFrom_slot (idInfo : TtyIdInfo) (kind : Kind) :
    readsFrom idInfo (slot kind) = readOf idInfo kind ++ readsFrom idInfo (slot kind + 1) := by
  cases kind
  · rfl
  · exact (List.append_nil _).symm

theorem remaining_wanted {ids : List TtyIdInfo} {index : Nat} (inside : index < ids.length)
    (kind : Kind) (wanted : 0 < ids[index].count kind) :
    remaining ids index (slot kind) =
      (ids[index], kind) :: remaining ids index (slot kind + 1) := by
  rw [remaining_inside _ inside, remaining_inside _ inside, readsFrom_slot, readOf_positive wanted]
  rfl

theorem remaining_skipped {ids : List TtyIdInfo} {index : Nat} (inside : index < ids.length)
    (kind : Kind) (skipped : ¬ 0 < ids[index].count kind) :
    remaining ids index (slot kind) = remaining ids index (slot kind + 1) := by
  rw [remaining_inside _ inside, remaining_inside _ inside, readsFrom_slot, readOf_zero skipped]
  rfl

theorem remaining_settle (ids : List TtyIdInfo) (index sub : Nat) :
    remaining ids (settle index sub).1 (settle index sub).2 = remaining ids index sub := by
  unfold settle
  split
  · rename_i finished
    obtain ⟨more, rfl⟩ : ∃ more, sub = more + 2 := ⟨sub - 2, by omega⟩
    rw [remaining_start]
    by_cases inside : index < ids.length
    · rw [remaining_inside _ inside]
      rfl
    · have outside : ids.length ≤ index := Nat.not_lt.mp inside
      rw [remaining_outside _ outside, List.drop_eq_nil_of_le (by omega)]
      rfl
  · rfl

theorem settle_slot (index sub : Nat) : ∃ kind, (settle index sub).2 = slot kind := by
  unfold settle
  split
  · exact ⟨.holding, rfl⟩
  · match sub with
    | 0 => exact ⟨.holding, rfl⟩
    | 1 => exact ⟨.input, rfl⟩
    | more + 2 => omega

/-- The iterator returns the first read that is left, or ends the pass. -/
def Delivers (ids : List TtyIdInfo) (left : List (TtyIdInfo × Kind))
    (found : Option TtyIdInfo × Nat × Nat) : Prop :=
  match left with
  | [] => found = (none, 0, 0)
  | (idInfo, kind) :: later =>
      ∃ index sub, found = (some idInfo, index, sub) ∧ selectKind sub = some kind ∧
        0 < idInfo.count kind ∧ ids[index]? = some idInfo ∧ remaining ids index sub = later

theorem nextFrom_slot (ids : List TtyIdInfo) (index sub : Nat) (kind : Kind)
    (tried : (settle index sub).2 = slot kind) :
    nextFrom ids index sub =
      if inside : (settle index sub).1 < ids.length then
        if 0 < ids[(settle index sub).1].count kind then
          (some ids[(settle index sub).1], (settle index sub).1, slot kind + 1)
        else nextFrom ids (settle index sub).1 (slot kind + 1)
      else (none, 0, 0) := by
  rw [nextFrom]
  simp only [tried]
  cases kind
  · simp [slot, TtyIdInfo.count]
  · simp [slot, TtyIdInfo.count]
    rfl

theorem nextFrom_delivers (ids : List TtyIdInfo) (index sub : Nat) :
    Delivers ids (remaining ids index sub) (nextFrom ids index sub) := by
  obtain ⟨kind, tried⟩ := settle_slot index sub
  rw [nextFrom_slot ids index sub kind tried, ← remaining_settle ids index sub, tried]
  split
  · rename_i inside
    split
    · rename_i wanted
      rw [remaining_wanted inside kind wanted]
      exact ⟨_, _, rfl, selectKind_slot kind, wanted, List.getElem?_eq_getElem inside, rfl⟩
    · rename_i skipped
      rw [remaining_skipped inside kind skipped]
      exact nextFrom_delivers ids (settle index sub).1 (slot kind + 1)
  · rename_i outside
    rw [remaining_outside _ (Nat.not_lt.mp outside)]
    rfl
termination_by 3 * (ids.length + 1 - index) - min sub 2
decreasing_by
  rw [← tried]
  exact settle_decreases (by assumption)

theorem nextFrom_found {ids : List TtyIdInfo} {index sub : Nat} {idInfo : TtyIdInfo}
    (found : (nextFrom ids index sub).1 = some idInfo) : (nextFrom ids index sub).2.2 ≠ 0 := by
  have delivers := nextFrom_delivers ids index sub
  cases left : remaining ids index sub with
  | nil =>
      rw [left] at delivers
      rw [congrArg Prod.fst delivers] at found
      cases found
  | cons read later =>
      rw [left] at delivers
      obtain ⟨_, after, returned, selected, _⟩ := delivers
      rw [returned]
      intro start
      rw [show after = 0 from start] at selected
      cases selected

theorem nextFrom_ended {ids : List TtyIdInfo} {index sub : Nat}
    (ended : (nextFrom ids index sub).1 = none) : (nextFrom ids index sub).2 = (0, 0) := by
  have delivers := nextFrom_delivers ids index sub
  cases left : remaining ids index sub with
  | nil =>
      rw [left] at delivers
      rw [show nextFrom ids index sub = (none, 0, 0) from delivers]
  | cons read later =>
      rw [left] at delivers
      obtain ⟨_, _, returned, _⟩ := delivers
      rw [returned] at ended
      cases ended

end RenogyX10.TtyReader
