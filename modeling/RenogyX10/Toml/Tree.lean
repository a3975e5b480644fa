import Mathlib.Logic.Relation
import RenogyX10.Lib.Forest
import RenogyX10.Toml.Parser

set_option autoImplicit false

namespace RenogyX10.Toml

/-- The keys of a table, in the order of `toml_key_in`. -/
def TableT.keys (tab : TableT) : List Key :=
  tab.kval.map Prod.fst ++ (tab.arr.map Prod.fst ++ tab.tab.map Prod.fst)

def Node.isTable : Node → Bool
  | table _ => true
  | array _ => false

/-- A reference, with whether it is to a table. -/
def ArrItem.ref : ArrItem → Option (Nat × Bool)
  | val _ _ => none
  | arr id => some (id, false)
  | tab id => some (id, true)

def Node.refs : Node → List (Nat × Bool)
  | table tab => tab.arr.map (fun e => (e.2, false)) ++ tab.tab.map fun e => (e.2, true)
  | array arr => arr.item.filterMap ArrItem.ref

/-- What is at an id, if anything: a table or an array. -/
def sortAt (nodes : List Node) (id : Nat) : Option Bool := nodes[id]?.map Node.isTable

abbrev IsTable (nodes : List Node) (id : Nat) : Prop := sortAt nodes id = some true

abbrev IsArray (nodes : List Node) (id : Nat) : Prop := sortAt nodes id = some false

def childrenIn (nodes : List Node) (id : Nat) : List Nat :=
  (nodes[id]?.map Node.refs).getD [] |>.map Prod.fst

/-- An array that was made for elements of another kind has some already. -/
def ArrayT.Takes (kind : Kind) (arr : ArrayT) : Prop :=
  arr.kind = kind ∨ arr.kind = .unset ∨ arr.item ≠ []

/-- What one call of the parser does to the nodes. -/
inductive NodesStep (nodes : List Node) : List Node → Prop
  | keyval {id : Nat} {tab : TableT} {key : Key} (val : List UInt8)
      (found : nodes[id]? = some (.table tab)) (free : checkKey tab key = none) :
      NodesStep nodes (nodes.set id (.table { tab with kval := tab.kval ++ [(key, val)] }))
  | flags {id : Nat} {tab : TableT} (implicit readonly : Bool)
      (found : nodes[id]? = some (.table tab)) :
      NodesStep nodes
        (nodes.set id (.table { tab with implicit := implicit, readonly := readonly }))
  | value {id : Nat} {arr : ArrayT} (valtype : ValType) (val : List UInt8)
      (found : nodes[id]? = some (.array arr)) (takes : arr.Takes .value)
      (plain : valtype ≠ .mixed) :
      NodesStep nodes (nodes.set id (.array ((arr.widen .value).pushValue valtype val)))
  | subtable {id : Nat} {tab : TableT} {key : Key} (implicit : Bool)
      (found : nodes[id]? = some (.table tab)) (free : checkKey tab key = none) :
      NodesStep nodes
        (nodes.set id (.table { tab with tab := tab.tab ++ [(key, nodes.length)] }) ++
          [.table { implicit := implicit }])
  | subarray {id : Nat} {tab : TableT} {key : Key} {kind : Kind}
      (found : nodes[id]? = some (.table tab)) (free : checkKey tab key = none)
      (kinds : kind = .unset ∨ kind = .table) :
      NodesStep nodes
        (nodes.set id (.table { tab with arr := tab.arr ++ [(key, nodes.length)] }) ++
          [.array { kind := kind }])
  | arrayElement {id : Nat} {arr : ArrayT} (found : nodes[id]? = some (.array arr))
      (takes : arr.Takes .array) :
      NodesStep nodes
        (nodes.set id (.array { arr.widen .array with item := arr.item ++ [.arr nodes.length] }) ++
          [.array {}])
  | tableElement {id : Nat} {arr : ArrayT} (found : nodes[id]? = some (.array arr))
      (takes : arr.Takes .table) :
      NodesStep nodes
        (nodes.set id (.array { arr.widen .table with item := arr.item ++ [.tab nodes.length] }) ++
          [.table {}])

/-- What a parser makes of an empty root. -/
def Built (nodes : List Node) : Prop := Relation.ReflTransGen NodesStep [.table {}] nodes

variable {nodes next : List Node}

section Shape

@[simp] theorem ArrayT.widen_item (kind : Kind) (arr : ArrayT) :
    (arr.widen kind).item = arr.item := by
  unfold ArrayT.widen
  split_ifs <;> rfl

@[simp] theorem ArrayT.pushValue_item (valtype : ValType) (val : List UInt8) (arr : ArrayT) :
    (arr.pushValue valtype val).item = arr.item ++ [.val valtype val] := rfl

/-- A step changes one node, and it may add one that this node refers to from then on. -/
inductive Reshape (nodes : List Node) (next : List Node) : Prop
  | inPlace (id : Nat) (node new : Node) (found : nodes[id]? = some node)
      (eq : next = nodes.set id new) (sort : new.isTable = node.isTable)
      (refs : new.refs = node.refs)
  | added (id : Nat) (node new leaf : Node) (found : nodes[id]? = some node)
      (eq : next = nodes.set id new ++ [leaf]) (sort : new.isTable = node.isTable)
      (refs : new.refs.Perm ((nodes.length, leaf.isTable) :: node.refs)) (empty : leaf.refs = [])

theorem NodesStep.reshape (step : NodesStep nodes next) : Reshape nodes next := by
  cases step with
  | keyval val found free => exact .inPlace _ _ _ found rfl rfl rfl
  | flags implicit readonly found => exact .inPlace _ _ _ found rfl rfl rfl
  | value valtype val found takes plain =>
      refine .inPlace _ _ _ found rfl rfl ?_
      simp [Node.refs, ArrItem.ref]
  | subtable implicit found free =>
      refine .added _ _ _ _ found rfl rfl ?_ rfl
      simp only [Node.refs, List.map_append, List.map_cons, List.map_nil, ← List.append_assoc]
      exact List.perm_append_singleton _ _
  | subarray found free kinds =>
      refine .added _ _ _ _ found rfl rfl ?_ rfl
      simp only [Node.refs, List.map_append, List.map_cons, List.map_nil, List.append_assoc]
      exact List.perm_middle
  | arrayElement found takes =>
      refine .added _ _ _ _ found rfl rfl ?_ rfl
      simp only [Node.refs, List.filterMap_append]
      exact List.perm_append_singleton _ _
  | tableElement found takes =>
      refine .added _ _ _ _ found rfl rfl ?_ rfl
      simp only [Node.refs, List.filterMap_append]
      exact List.perm_append_singleton _ _

theorem sortAt_set {id : Nat} {node new : Node} (found : nodes[id]? = some node)
    (sort : new.isTable = node.isTable) (other : Nat) :
    sortAt (nodes.set id new) other = sortAt nodes other := by
  unfold sortAt
  rw [List.getElem?_set]
  split
  · rename_i same
    subst same
    obtain ⟨inside, -⟩ := List.getElem?_eq_some_iff.mp found
    rw [if_pos inside, found, Option.map_some, Option.map_some, sort]
  · rfl

theorem lt_of_sortAt {id : Nat} {sort : Bool} (found : sortAt nodes id = some sort) :
    id < nodes.length := by
  unfold sortAt at found
  by_contra outside
  rw [List.getElem?_eq_none (Nat.le_of_not_lt outside)] at found
  cases found

theorem NodesStep.sortAt_eq (step : NodesStep nodes next) {id : Nat} {sort : Bool}
    (found : sortAt nodes id = some sort) : sortAt next id = some sort := by
  have inside := lt_of_sortAt found
  cases step.reshape with
  | inPlace owner node new there eq same refs =>
      rw [eq, sortAt_set there same, found]
  | added owner node new leaf there eq same refs empty =>
      have old := sortAt_set there same id
      unfold sortAt at old ⊢
      rw [eq, List.getElem?_append_left (by rwa [List.length_set]), old]
      exact found

theorem sortAt_leaf (id : Nat) (new leaf : Node) :
    sortAt (nodes.set id new ++ [leaf]) nodes.length = some leaf.isTable := by
  simp [sortAt]

theorem getElem?_set_cases {id other : Nat} {new node : Node}
    (there : (nodes.set id new)[other]? = some node) :
    (other = id ∧ node = new) ∨ (other ≠ id ∧ nodes[other]? = some node) := by
  rw [List.getElem?_set] at there
  split at there
  · rename_i same
    split at there
    · cases there
      exact .inl ⟨same.symm, rfl⟩
    · cases there
  · rename_i differs
    exact .inr ⟨fun same => differs same.symm, there⟩

theorem getElem?_concat_cases {other : Nat} {leaf node : Node}
    (there : (nodes ++ [leaf])[other]? = some node) :
    (other = nodes.length ∧ node = leaf) ∨ nodes[other]? = some node := by
  by_cases inside : other < nodes.length
  · rw [List.getElem?_append_left inside] at there
    exact .inr there
  · rw [List.getElem?_append_right (by omega)] at there
    have last : other - nodes.length = 0 := by
      obtain ⟨short, -⟩ := List.getElem?_eq_some_iff.mp there
      simpa using short
    rw [last] at there
    cases there
    exact .inl ⟨by omega, rfl⟩

end Shape

section References

/-- Every reference leads to a later node of its sort. -/
def Typed (nodes : List Node) : Prop :=
  ∀ (id : Nat) (node : Node), nodes[id]? = some node →
    ∀ ref ∈ node.refs, id < ref.1 ∧ sortAt nodes ref.1 = some ref.2

theorem Typed.step (typed : Typed nodes) (step : NodesStep nodes next) : Typed next := by
  have keep : ∀ (id : Nat) (node : Node), nodes[id]? = some node → ∀ ref ∈ node.refs,
      id < ref.1 ∧ sortAt next ref.1 = some ref.2 := by
    intro id node there ref member
    have old := typed id node there ref member
    exact ⟨old.1, step.sortAt_eq old.2⟩
  cases step.reshape with
  | inPlace owner node new found eq sort refs =>
      intro id current there ref member
      rw [eq] at there
      cases getElem?_set_cases there with
      | inl here =>
          rw [here.2, refs] at member
          rw [here.1]
          exact keep owner node found ref member
      | inr old => exact keep id current old.2 ref member
  | added owner node new leaf found eq sort refs empty =>
      intro id current there ref member
      have old := there
      rw [eq] at old
      cases getElem?_concat_cases old with
      | inl last =>
          rw [last.2, empty] at member
          cases member
      | inr set =>
          cases getElem?_set_cases set with
          | inl here =>
              rw [here.2, refs.mem_iff, List.mem_cons] at member
              rw [here.1]
              cases member with
              | inl same =>
                  have inside := (List.getElem?_eq_some_iff.mp found).1
                  rw [same, eq]
                  exact ⟨inside, sortAt_leaf owner new leaf⟩
              | inr member => exact keep owner node found ref member
          | inr old => exact keep id current old.2 ref member

/-- Every node but the root has one owner. -/
def Tree (nodes : List Node) : Prop :=
  Forest.Owned (childrenIn nodes) 0 (List.range nodes.length)

theorem childrenIn_of_getElem? {id : Nat} {node : Node} (found : nodes[id]? = some node) :
    childrenIn nodes id = node.refs.map Prod.fst := by
  rw [childrenIn, found]
  rfl

theorem childrenIn_congr {id : Nat} (same : next[id]? = nodes[id]?) :
    childrenIn next id = childrenIn nodes id := by
  rw [childrenIn, same, childrenIn]

theorem Tree.step (tree : Tree nodes) (step : NodesStep nodes next) : Tree next := by
  cases step.reshape with
  | inPlace owner node new found eq sort refs =>
      have inside := (List.getElem?_eq_some_iff.mp found).1
      unfold Tree
      rw [eq, List.length_set]
      apply tree.congr
      intro id _
      by_cases here : id = owner
      · subst here
        have there : (nodes.set id new)[id]? = some new := by
          rw [List.getElem?_set_self inside]
        rw [childrenIn_of_getElem? there, childrenIn_of_getElem? found, refs]
      · exact childrenIn_congr (List.getElem?_set_ne (fun same => here same.symm))
  | added owner node new leaf found eq sort refs empty =>
      have inside := (List.getElem?_eq_some_iff.mp found).1
      unfold Tree
      rw [eq, List.length_append, List.length_set, List.length_singleton, List.range_succ]
      have old : ∀ id, id < nodes.length →
          (nodes.set owner new ++ [leaf])[id]? = (nodes.set owner new)[id]? :=
        fun id less => List.getElem?_append_left (by rwa [List.length_set])
      apply Forest.Owned.grow tree List.nodup_range (List.mem_range.mpr inside)
      · have there : (nodes.set owner new ++ [leaf])[owner]? = some new := by
          rw [old owner inside, List.getElem?_set_self inside]
        rw [childrenIn_of_getElem? there, childrenIn_of_getElem? found]
        exact refs.map Prod.fst
      · intro id member differs
        apply childrenIn_congr
        rw [old id (List.mem_range.mp member), List.getElem?_set_ne (fun same => differs same.symm)]
      · have there : (nodes.set owner new ++ [leaf])[nodes.length]? = some leaf := by
          simp
        rw [childrenIn_of_getElem? there, empty]
        rfl

end References

section Keys

theorem not_mem_of_lookup_none {α : Type} {entries : List (Key × α)} {key : Key}
    (free : entries.lookup key = none) : key ∉ entries.map Prod.fst := by
  intro member
  obtain ⟨entry, there, same⟩ := List.mem_map.mp member
  have differs := List.lookup_eq_none_iff.mp free entry there
  simp [same] at differs

theorem not_mem_keys_of_checkKey {tab : TableT} {key : Key} (free : checkKey tab key = none) :
    key ∉ tab.keys := by
  simp only [checkKey, Option.or_eq_none_iff, Option.map_eq_none_iff] at free
  simp only [TableT.keys, List.mem_append, not_or]
  exact ⟨not_mem_of_lookup_none free.1, not_mem_of_lookup_none free.2.1,
    not_mem_of_lookup_none free.2.2⟩

theorem forall_mem_set {holds : Node → Prop} {id : Nat} {new : Node}
    (all : ∀ node ∈ nodes, holds node) (changed : holds new) :
    ∀ node ∈ nodes.set id new, holds node := by
  intro node member
  cases List.mem_or_eq_of_mem_set member with
  | inl old => exact all node old
  | inr same => exact same ▸ changed

theorem forall_mem_concat {holds : Node → Prop} {leaf : Node} (all : ∀ node ∈ nodes, holds node)
    (last : holds leaf) : ∀ node ∈ nodes ++ [leaf], holds node := by
  intro node member
  cases List.mem_append.mp member with
  | inl old => exact all node old
  | inr new => exact List.mem_singleton.mp new ▸ last

def Node.UniqueKeys : Node → Prop
  | table tab => tab.keys.Nodup
  | array _ => True

theorem UniqueKeys.step (all : ∀ node ∈ nodes, node.UniqueKeys) (step : NodesStep nodes next) :
    ∀ node ∈ next, node.UniqueKeys := by
  have grown : ∀ {tab : TableT} {key : Key} {keys : List Key} {id : Nat},
      nodes[id]? = some (.table tab) → checkKey tab key = none → keys.Perm (key :: tab.keys) →
        keys.Nodup := by
    intro tab key keys id found free perm
    have old := all (.table tab) (List.mem_of_getElem? found)
    exact perm.nodup_iff.mpr (List.nodup_cons.mpr ⟨not_mem_keys_of_checkKey free, old⟩)
  cases step with
  | keyval val found free =>
      apply forall_mem_set all
      apply grown found free
      simp only [TableT.keys, List.map_append, List.map_cons, List.map_nil, List.append_assoc]
      exact List.perm_middle
  | flags implicit readonly found =>
      have old := all _ (List.mem_of_getElem? found)
      exact forall_mem_set all old
  | value valtype val found takes plain => exact forall_mem_set all trivial
  | subtable implicit found free =>
      refine forall_mem_concat (forall_mem_set all ?_) (show [].Nodup from List.nodup_nil)
      apply grown found free
      simp only [TableT.keys, List.map_append, List.map_cons, List.map_nil, ← List.append_assoc]
      exact List.perm_append_singleton _ _
  | subarray found free kinds =>
      refine forall_mem_concat (forall_mem_set all ?_) (show True from trivial)
      apply grown found free
      simp only [TableT.keys, List.map_append, List.map_cons, List.map_nil, List.append_assoc,
        List.cons_append, List.nil_append]
      rw [← List.append_assoc, ← List.append_assoc]
      exact List.perm_middle
  | arrayElement found takes => exact forall_mem_concat (forall_mem_set all trivial) trivial
  | tableElement found takes =>
      exact forall_mem_concat (forall_mem_set all trivial) (show [].Nodup from List.nodup_nil)

end Keys

section Kinds

def ArrItem.kind : ArrItem → Kind
  | val _ _ => .value
  | arr _ => .array
  | tab _ => .table

/-- The type of an element that is a value. -/
def ArrItem.type : ArrItem → Option ValType
  | val valtype _ => some valtype
  | _ => none

/-- What `kind` says about the elements. -/
def Kind.Describes (kind : Kind) (item : List ArrItem) : Prop :=
  match kind with
  | .unset => item = []
  | .mixed => ∃ x ∈ item, ∃ y ∈ item, x.kind ≠ y.kind
  | kind => ∀ x ∈ item, x.kind = kind

/-- What `type` says about the elements of an array of values. -/
def ValType.Describes (type : ValType) (item : List ArrItem) : Prop :=
  if type = .mixed then ∃ x ∈ item, ∃ y ∈ item, x.type ≠ y.type
  else ∀ x ∈ item, x.type = some type

structure ArrayT.Described (arr : ArrayT) : Prop where
  kind : arr.kind.Describes arr.item
  type : arr.kind = .value → arr.item ≠ [] → arr.type.Describes arr.item

theorem ArrItem.kind_ne (x : ArrItem) : x.kind ≠ .unset ∧ x.kind ≠ .mixed := by
  cases x <;> simp [kind]

theorem Kind.describes_uniform {kind : Kind} {item : List ArrItem}
    (pure : kind ≠ .unset ∧ kind ≠ .mixed) : kind.Describes item ↔ ∀ x ∈ item, x.kind = kind := by
  cases kind <;> simp_all [Kind.Describes]

theorem Kind.Describes.widen {arr : ArrayT} {x : ArrItem} (takes : arr.Takes x.kind)
    (described : arr.kind.Describes arr.item) :
    (arr.widen x.kind).kind.Describes (arr.item ++ [x]) := by
  unfold ArrayT.widen
  by_cases unset : arr.kind = .unset
  · rw [unset] at described
    rw [if_pos unset, show arr.item = [] from described]
    exact (describes_uniform x.kind_ne).mpr (by simp)
  · rw [if_neg unset]
    by_cases same : arr.kind = x.kind
    · rw [if_neg (not_not.mpr same)]
      rw [same, describes_uniform x.kind_ne] at described
      rw [same, describes_uniform x.kind_ne]
      intro y member
      cases List.mem_append.mp member with
      | inl old => exact described y old
      | inr new => rw [List.mem_singleton.mp new]
    · rw [if_pos same]
      show ∃ y ∈ arr.item ++ [x], ∃ z ∈ arr.item ++ [x], y.kind ≠ z.kind
      by_cases mixed : arr.kind = .mixed
      · rw [mixed] at described
        obtain ⟨y, hasY, z, hasZ, differ⟩ := described
        exact ⟨y, List.mem_append_left _ hasY, z, List.mem_append_left _ hasZ, differ⟩
      · rw [describes_uniform ⟨unset, mixed⟩] at described
        have filled : arr.item ≠ [] := (takes.resolve_left same).resolve_left unset
        obtain ⟨y, hasY⟩ := List.exists_mem_of_ne_nil _ filled
        refine ⟨y, List.mem_append_left _ hasY, x, by simp, ?_⟩
        rw [described y hasY]
        exact same

theorem ValType.describes_singleton (valtype : ValType) (val : List UInt8)
    (plain : valtype ≠ .mixed) : valtype.Describes [.val valtype val] := by
  unfold Describes
  rw [if_neg plain]
  simp [ArrItem.type]

theorem ValType.Describes.push {type valtype : ValType} {item : List ArrItem} {val : List UInt8}
    (filled : item ≠ []) (plain : valtype ≠ .mixed) (described : type.Describes item) :
    (if type ≠ valtype then mixed else type).Describes (item ++ [.val valtype val]) := by
  unfold Describes at described ⊢
  by_cases mixed : type = .mixed
  · rw [if_pos mixed] at described
    obtain ⟨y, hasY, z, hasZ, differ⟩ := described
    rw [mixed, if_pos (Ne.symm plain), if_pos rfl]
    exact ⟨y, List.mem_append_left _ hasY, z, List.mem_append_left _ hasZ, differ⟩
  · rw [if_neg mixed] at described
    by_cases same : type = valtype
    · rw [if_neg (not_not.mpr same), if_neg mixed]
      intro x member
      cases List.mem_append.mp member with
      | inl old => exact described x old
      | inr new => rw [List.mem_singleton.mp new, same, ArrItem.type]
    · rw [if_pos same, if_pos rfl]
      obtain ⟨y, hasY⟩ := List.exists_mem_of_ne_nil _ filled
      refine ⟨y, List.mem_append_left _ hasY, .val valtype val, by simp, ?_⟩
      rw [described y hasY]
      exact fun eq => same (Option.some.inj eq)

def Node.IsDescribed : Node → Prop
  | table _ => True
  | array arr => arr.Described

theorem ArrayT.widen_kind_cases (kind : Kind) (arr : ArrayT) :
    (arr.widen kind).kind = kind ∧ (arr.kind = .unset ∨ arr.kind = kind) ∨
      (arr.widen kind).kind = .mixed := by
  unfold ArrayT.widen
  split_ifs with unset other
  · exact .inl ⟨rfl, .inl unset⟩
  · exact .inr rfl
  · exact .inl ⟨not_not.mp other, .inr (not_not.mp other)⟩

@[simp] theorem ArrayT.widen_type (kind : Kind) (arr : ArrayT) :
    (arr.widen kind).type = arr.type := by
  unfold ArrayT.widen
  split_ifs <;> rfl

theorem ArrayT.Described.pushValue {arr : ArrayT} {valtype : ValType} {val : List UInt8}
    (described : arr.Described) (takes : arr.Takes .value) (plain : valtype ≠ .mixed) :
    ((arr.widen .value).pushValue valtype val).Described where
  kind := by
    rw [pushValue_item, widen_item]
    exact described.kind.widen (x := .val valtype val) takes
  type := by
    intro isValue _
    have before := (arr.widen_kind_cases .value).resolve_right fun mixed =>
      absurd (isValue.symm.trans mixed) (by decide)
    have type : ((arr.widen .value).pushValue valtype val).type =
        if (arr.item ++ [ArrItem.val valtype val]).length = 1 then valtype
        else if arr.type ≠ valtype then .mixed else arr.type := by
      simp [ArrayT.pushValue]
    rw [type, pushValue_item, widen_item]
    by_cases empty : arr.item = []
    · rw [empty]
      exact ValType.describes_singleton valtype val plain
    · have filled := List.length_pos_iff.mpr empty
      rw [if_neg (by simp only [List.length_append, List.length_singleton]; omega)]
      refine ValType.Describes.push empty plain (described.type ?_ empty)
      cases before.2 with
      | inr already => exact already
      | inl unset =>
          have none := described.kind
          rw [unset] at none
          exact absurd none empty

theorem ArrayT.Described.pushRef {arr : ArrayT} {x : ArrItem} (described : arr.Described)
    (takes : arr.Takes x.kind) (ref : x.kind ≠ .value) :
    ArrayT.Described { arr.widen x.kind with item := arr.item ++ [x] } where
  kind := described.kind.widen takes
  type := by
    intro isValue
    cases arr.widen_kind_cases x.kind with
    | inl pure => exact absurd (pure.1.symm.trans isValue) ref
    | inr mixed => exact absurd (mixed.symm.trans isValue) (by decide)

theorem ArrayT.described_empty {kind : Kind} (kinds : kind = .unset ∨ kind = .table) :
    ArrayT.Described { kind := kind } where
  kind := by
    cases kinds with
    | inl unset =>
        rw [unset]
        exact rfl
    | inr table =>
        rw [table]
        exact fun x member => absurd member List.not_mem_nil
  type := fun _ filled => absurd rfl filled

theorem IsDescribed.step (all : ∀ node ∈ nodes, node.IsDescribed) (step : NodesStep nodes next) :
    ∀ node ∈ next, node.IsDescribed := by
  have at_ : ∀ {id : Nat} {arr : ArrayT}, nodes[id]? = some (.array arr) → arr.Described :=
    fun found => all _ (List.mem_of_getElem? found)
  cases step with
  | keyval val found free => exact forall_mem_set all trivial
  | flags implicit readonly found => exact forall_mem_set all trivial
  | value valtype val found takes plain =>
      exact forall_mem_set all ((at_ found).pushValue takes plain)
  | subtable implicit found free => exact forall_mem_concat (forall_mem_set all trivial) trivial
  | subarray found free kinds =>
      exact forall_mem_concat (forall_mem_set all trivial) (ArrayT.described_empty kinds)
  | arrayElement found takes =>
      have more := (at_ found).pushRef (x := .arr nodes.length) takes (by simp [ArrItem.kind])
      exact forall_mem_concat (forall_mem_set all more) (ArrayT.described_empty (.inl rfl))
  | tableElement found takes =>
      have more := (at_ found).pushRef (x := .tab nodes.length) takes (by simp [ArrItem.kind])
      exact forall_mem_concat (forall_mem_set all more) trivial

end Kinds

section Built

theorem Built.typed (built : Built nodes) : Typed nodes := by
  induction built with
  | refl =>
      intro id node there ref member
      cases id with
      | zero =>
          cases there
          cases member
      | succ id => cases there
  | tail _ step ih => exact ih.step step

theorem Built.tree (built : Built nodes) : Tree nodes := by
  induction built with
  | refl => exact .refl _
  | tail _ step ih => exact ih.step step

theorem Built.uniqueKeys (built : Built nodes) : ∀ node ∈ nodes, node.UniqueKeys := by
  induction built with
  | refl =>
      intro node member
      rw [List.mem_singleton.mp member]
      exact List.nodup_nil
  | tail _ step ih => exact UniqueKeys.step ih step

theorem Built.isDescribed (built : Built nodes) : ∀ node ∈ nodes, node.IsDescribed := by
  induction built with
  | refl =>
      intro node member
      rw [List.mem_singleton.mp member]
      exact trivial
  | tail _ step ih => exact IsDescribed.step ih step

theorem Built.root (built : Built nodes) : IsTable nodes 0 := by
  induction built with
  | refl => rfl
  | tail _ step ih => exact step.sortAt_eq ih

end Built

section Free

/-- A loop of calls, with the nodes that they free. -/
def freeEach {α : Type} (free : α → Option (List Nat)) : List α → Option (List Nat)
  | [] => some []
  | x :: rest => do
      let first ← free x
      let others ← freeEach free rest
      pure (first ++ others)

mutual

/-- `xfree_arr`, with the nodes it frees in order, unless it follows a wild reference. -/
def xfreeArr (nodes : List Node) : Nat → Nat → Option (List Nat)
  | 0, _ => none
  | fuel + 1, id =>
      match nodes[id]? with
      | some (.array arr) => do
          let item ← freeEach (fun a =>
            match a with
            | .val _ _ => some []
            | .arr sub => xfreeArr nodes fuel sub
            | .tab sub => xfreeTab nodes fuel sub) arr.item
          pure (item ++ [id])
      | _ => none

def xfreeTab (nodes : List Node) : Nat → Nat → Option (List Nat)
  | 0, _ => none
  | fuel + 1, id =>
      match nodes[id]? with
      | some (.table tab) => do
          let arr ← freeEach (fun e => xfreeArr nodes fuel e.2) tab.arr
          let sub ← freeEach (fun e => xfreeTab nodes fuel e.2) tab.tab
          pure (arr ++ sub ++ [id])
      | _ => none

end

/-- `toml_free`; an owner is older than what it owns, so that the calls are no deeper than
there are nodes. -/
def tomlFree (nodes : List Node) : Option (List Nat) := xfreeTab nodes nodes.length 0

theorem freeEach_eq_some {α : Type} {free : α → Option (List Nat)} {visits : α → List Nat}
    (list : List α) (each : ∀ x ∈ list, free x = some (visits x)) :
    freeEach free list = some (list.flatMap visits) := by
  induction list with
  | nil => rfl
  | cons x rest ih =>
      have others := ih fun y member => each y (List.mem_cons_of_mem x member)
      rw [freeEach, each x List.mem_cons_self, others]
      rfl

theorem exists_table {id : Nat} (there : IsTable nodes id) :
    ∃ tab, nodes[id]? = some (.table tab) := by
  unfold IsTable sortAt at there
  match found : nodes[id]?, there with
  | some (.table tab), _ => exact ⟨tab, rfl⟩

theorem exists_array {id : Nat} (there : IsArray nodes id) :
    ∃ arr, nodes[id]? = some (.array arr) := by
  unfold IsArray sortAt at there
  match found : nodes[id]?, there with
  | some (.array arr), _ => exact ⟨arr, rfl⟩

theorem flatMap_filterMap_ref (visits : Nat → List Nat) (item : List ArrItem) :
    ((item.filterMap ArrItem.ref).map Prod.fst).flatMap visits =
      item.flatMap fun a => a.ref.elim [] fun ref => visits ref.1 := by
  induction item with
  | nil => rfl
  | cons a item ih =>
      rw [List.filterMap_cons, List.flatMap_cons, ← ih]
      cases a.ref <;> rfl

/-- Freeing from a node is the walk from it. -/
theorem xfree_eq_visit (typed : Typed nodes) (fuel : Nat) :
    ∀ id, nodes.length ≤ fuel + id →
      (IsTable nodes id → xfreeTab nodes fuel id = some (Forest.visit (childrenIn nodes) fuel id)) ∧
      (IsArray nodes id → xfreeArr nodes fuel id = some (Forest.visit (childrenIn nodes) fuel id)) := by
  induction fuel with
  | zero =>
      intro id enough
      constructor
      · intro there
        exact absurd (lt_of_sortAt there) (by omega)
      · intro there
        exact absurd (lt_of_sortAt there) (by omega)
  | succ fuel ih =>
      intro id enough
      constructor
      · intro there
        obtain ⟨tab, found⟩ := exists_table there
        have refs := typed id _ found
        have arrs := freeEach_eq_some tab.arr fun e member =>
          have ref := refs (e.2, false) (List.mem_append_left _ (List.mem_map_of_mem member))
          (ih e.2 (by omega)).2 ref.2
        have tabs := freeEach_eq_some tab.tab fun e member =>
          have ref := refs (e.2, true) (List.mem_append_right _ (List.mem_map_of_mem member))
          (ih e.2 (by omega)).1 ref.2
        rw [xfreeTab, found, Forest.visit, childrenIn_of_getElem? found]
        dsimp only
        rw [arrs, tabs]
        simp [Node.refs, List.flatMap_map, Function.comp_def]
      · intro there
        obtain ⟨arr, found⟩ := exists_array there
        have refs := typed id _ found
        rw [xfreeArr, found, Forest.visit, childrenIn_of_getElem? found]
        dsimp only
        rw [Node.refs, flatMap_filterMap_ref, freeEach_eq_some]
        · rfl
        · intro a member
          have inRefs : ∀ ref, a.ref = some ref → ref ∈ arr.item.filterMap ArrItem.ref :=
            fun ref eq => List.mem_filterMap.mpr ⟨a, member, eq⟩
          cases a with
          | val valtype raw => rfl
          | arr sub =>
              have ref := refs (sub, false) (inRefs _ rfl)
              exact (ih sub (by omega)).2 ref.2
          | tab sub =>
              have ref := refs (sub, true) (inRefs _ rfl)
              exact (ih sub (by omega)).1 ref.2

/-- What is built is freed without following a wild reference, and every node of it once. -/
theorem Built.free_all (built : Built nodes) :
    ∃ freed, tomlFree nodes = some freed ∧ freed.Perm (List.range nodes.length) := by
  have rootThere := lt_of_sortAt built.root
  refine ⟨_, (xfree_eq_visit built.typed nodes.length 0 (Nat.le_refl _)).1 built.root, ?_⟩
  refine Forest.visit_perm id built.tree ?_ rootThere (Nat.le_refl _)
  intro parent child member
  unfold childrenIn at member
  cases found : nodes[parent]? with
  | none =>
      rw [found] at member
      exact absurd member List.not_mem_nil
  | some node =>
      rw [found] at member
      obtain ⟨ref, there, rfl⟩ := List.mem_map.mp member
      have typed := built.typed parent node found ref there
      exact ⟨typed.1, lt_of_sortAt typed.2⟩

end Free

end RenogyX10.Toml
