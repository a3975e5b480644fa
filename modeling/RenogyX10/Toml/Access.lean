import RenogyX10.Toml.Safety

set_option autoImplicit false

namespace RenogyX10.Toml

open CString

def tomlKeyIn (tab : TableT) (keyidx : Nat) : Option Key :=
  if keyidx < tab.kval.length then tab.kval[keyidx]?.map Prod.fst
  else
    let keyidx := keyidx - tab.kval.length
    if keyidx < tab.arr.length then tab.arr[keyidx]?.map Prod.fst
    else
      let keyidx := keyidx - tab.arr.length
      if keyidx < tab.tab.length then tab.tab[keyidx]?.map Prod.fst else none

def tomlRawIn (tab : TableT) (key : Key) : Option (List UInt8) := tab.kval.lookup key

def tomlArrayIn (tab : TableT) (key : Key) : Option Nat := tab.arr.lookup key

def tomlTableIn (tab : TableT) (key : Key) : Option Nat := tab.tab.lookup key

/-- The string that `toml_rtos` gives, if it gives one: a pointer without a length, which shows
the bytes up to the first NUL. -/
def stringOf (raw : List UInt8) : Option (List UInt8) :=
  match tomlRtos raw with
  | some (.ok bytes _) => some (sliceTo bytes)
  | _ => none

def tomlStringIn (tab : TableT) (key : Key) : Option (List UInt8) :=
  (tomlRawIn tab key).bind stringOf

def tomlBoolIn (tab : TableT) (key : Key) : Option Bool := (tomlRawIn tab key).bind tomlRtob

def tomlIntIn (tab : TableT) (key : Key) : Option Int64 := (tomlRawIn tab key).bind tomlRtoi

/-- What a raw value is for a reader that does not know its type. -/
def valueOf (raw : List UInt8) : Value :=
  match stringOf raw with
  | some bytes => .string bytes
  | none =>
      match tomlRtob raw with
      | some b => .bool b
      | none =>
          match tomlRtoi raw with
          | some i => .int i
          | none => .other

def tableOf (tab : TableT) : Table :=
  tab.kval.map (fun e => (e.1, valueOf e.2)) ++
    (tab.arr.map (fun e => (e.1, Value.other)) ++ tab.tab.map fun e => (e.1, Value.other))

/-- The table at an id; there is one. -/
def tableAt (nodes : List Node) (id : Nat) : TableT :=
  match nodes[id]? with
  | some (.table tab) => tab
  | _ => {}

def documentOf (nodes : List Node) : Document :=
  let root := tableAt nodes 0
  root.kval.map (fun e => (e.1, none)) ++
    (root.arr.map (fun e => (e.1, none)) ++
      root.tab.map fun e => (e.1, some (tableOf (tableAt nodes e.2))))

variable {tab : TableT} {raw : List UInt8}

/-- The keys come one by one, in their order, and then no more. -/
theorem tomlKeyIn_eq (tab : TableT) (keyidx : Nat) : tomlKeyIn tab keyidx = tab.keys[keyidx]? := by
  unfold tomlKeyIn TableT.keys
  dsimp only
  split_ifs with value array table
  · rw [List.getElem?_append_left (by rwa [List.length_map]), List.getElem?_map]
  · rw [List.getElem?_append_right (by rw [List.length_map]; omega), List.length_map,
      List.getElem?_append_left (by rwa [List.length_map]), List.getElem?_map]
  · rw [List.getElem?_append_right (by rw [List.length_map]; omega), List.length_map,
      List.getElem?_append_right (by rw [List.length_map]; omega), List.length_map,
      List.getElem?_map]
  · rw [List.getElem?_eq_none]
    simp only [List.length_append, List.length_map]
    omega

theorem tomlRtoi_none {c : UInt8} {p : List UInt8} (sign : isSign c = false)
    (digit : isdigit c = false) (space : isspace c = false) : tomlRtoi (c :: p) = none := by
  have zero : c ≠ ascii '0' := by
    rintro rfl
    exact absurd digit (by decide)
  have minus : c ≠ ascii '-' := by
    rintro rfl
    exact absurd sign (by decide)
  have plus : c ≠ ascii '+' := by
    rintro rfl
    exact absurd sign (by decide)
  by_cases underscore : c = ascii '_'
  · simp [tomlRtoi, underscore, isSign]
  · simp only [tomlRtoi, List.head?_cons, Option.any_some, sign, Bool.false_eq_true, if_false,
      List.length_nil, List.drop_zero, List.getElem?_cons_zero, Option.some.injEq, underscore,
      List.cons.injEq, zero, false_and, radix, ne_eq, not_false_eq_true, if_true]
    cases copied : stripUnderscores (100 - 0) (c :: p) with
    | none => rfl
    | some digits =>
        simp only [stripUnderscores, underscore, if_false] at copied
        obtain ⟨rest, -, rfl⟩ := Option.map_eq_some_iff.mp copied
        simp [strtoll_unread space minus plus digit]

theorem quoted_of_stringOf {bytes : List UInt8} (string : stringOf raw = some bytes) :
    ∃ quote rest, raw = quote :: rest ∧ (quote = ascii '\'' ∨ quote = ascii '"') := by
  cases raw with
  | nil => cases string
  | cons quote rest =>
      refine ⟨quote, rest, rfl, ?_⟩
      by_contra other
      unfold stringOf tomlRtos at string
      dsimp only at string
      rw [if_pos (not_or.mp other)] at string
      cases string

theorem rtoi_none_of_stringOf {bytes : List UInt8} (string : stringOf raw = some bytes) :
    tomlRtoi raw = none := by
  obtain ⟨quote, rest, rfl, rfl | rfl⟩ := quoted_of_stringOf string
  · exact tomlRtoi_none rfl rfl rfl
  · exact tomlRtoi_none rfl rfl rfl

theorem tomlRtob_none {c : UInt8} {p : List UInt8} (t : c ≠ ascii 't') (f : c ≠ ascii 'f') :
    tomlRtob (c :: p) = none := by
  have first : ∀ literal : List UInt8, c :: p = literal → literal.head? = some c := by
    rintro _ rfl
    rfl
  unfold tomlRtob
  rw [if_neg, if_neg]
  · exact fun same => f (Option.some.inj (first _ same)).symm
  · exact fun same => t (Option.some.inj (first _ same)).symm

theorem rtob_none_of_stringOf {bytes : List UInt8} (string : stringOf raw = some bytes) :
    tomlRtob raw = none := by
  obtain ⟨quote, rest, rfl, rfl | rfl⟩ := quoted_of_stringOf string
  · exact tomlRtob_none (by decide) (by decide)
  · exact tomlRtob_none (by decide) (by decide)

theorem rtoi_none_of_rtob {b : Bool} (bool : tomlRtob raw = some b) : tomlRtoi raw = none := by
  unfold tomlRtob at bool
  split_ifs at bool with yes no
  · rw [yes]
    exact tomlRtoi_none rfl rfl rfl
  · rw [no]
    exact tomlRtoi_none rfl rfl rfl

theorem lookup_map_snd {α β : Type} (f : α → β) (entries : List (Key × α)) (key : Key) :
    (entries.map fun e => (e.1, f e.2)).lookup key = (entries.lookup key).map f := by
  induction entries with
  | nil => rfl
  | cons e rest ih =>
      rw [List.map_cons, List.lookup_cons, List.lookup_cons, ih]
      cases key == e.1 <;> rfl

theorem lookup_map_const {α β : Type} (value : β) (entries : List (Key × α)) (key : Key) :
    (entries.map fun e => (e.1, value)).lookup key = (entries.lookup key).map fun _ => value :=
  lookup_map_snd (fun _ => value) entries key

theorem lookup_tableOf (tab : TableT) (key : Key) :
    (tableOf tab).lookup key = ((tomlRawIn tab key).map valueOf).or
      (((tomlArrayIn tab key).map fun _ => Value.other).or
        ((tomlTableIn tab key).map fun _ => Value.other)) := by
  rw [tableOf, List.lookup_append, List.lookup_append, lookup_map_snd, lookup_map_const,
    lookup_map_const]
  rfl

theorem lookup_tableOf_of_none {key : Key} (missing : tomlRawIn tab key = none) :
    (tableOf tab).lookup key = none ∨ (tableOf tab).lookup key = some .other := by
  rw [lookup_tableOf, missing]
  cases tomlArrayIn tab key <;> cases tomlTableIn tab key <;> simp

theorem stringIn_tableOf (tab : TableT) (key : Key) :
    stringIn (tableOf tab) key = tomlStringIn tab key := by
  unfold stringIn tomlStringIn
  cases found : tomlRawIn tab key with
  | none => rcases lookup_tableOf_of_none found with eq | eq <;> rw [eq] <;> rfl
  | some raw =>
      rw [lookup_tableOf, found]
      simp only [Option.map_some, Option.some_or, Option.bind_some]
      unfold valueOf
      cases stringOf raw with
      | some bytes => rfl
      | none => cases tomlRtob raw <;> cases tomlRtoi raw <;> rfl

theorem boolIn_tableOf (tab : TableT) (key : Key) :
    boolIn (tableOf tab) key = tomlBoolIn tab key := by
  unfold boolIn tomlBoolIn
  cases found : tomlRawIn tab key with
  | none => rcases lookup_tableOf_of_none found with eq | eq <;> rw [eq] <;> rfl
  | some raw =>
      rw [lookup_tableOf, found]
      simp only [Option.map_some, Option.some_or, Option.bind_some]
      unfold valueOf
      cases string : stringOf raw with
      | some bytes => rw [rtob_none_of_stringOf string]
      | none => cases tomlRtob raw <;> cases tomlRtoi raw <;> rfl

theorem intIn_tableOf (tab : TableT) (key : Key) :
    intIn (tableOf tab) key = tomlIntIn tab key := by
  unfold intIn tomlIntIn
  cases found : tomlRawIn tab key with
  | none => rcases lookup_tableOf_of_none found with eq | eq <;> rw [eq] <;> rfl
  | some raw =>
      rw [lookup_tableOf, found]
      simp only [Option.map_some, Option.some_or, Option.bind_some]
      unfold valueOf
      cases string : stringOf raw with
      | some bytes => rw [rtoi_none_of_stringOf string]
      | none =>
          cases bool : tomlRtob raw with
          | some b => rw [rtoi_none_of_rtob bool]
          | none => cases tomlRtoi raw <;> rfl

theorem map_fst_tableOf (tab : TableT) : (tableOf tab).map Prod.fst = tab.keys := by
  simp [tableOf, TableT.keys, Function.comp_def]

theorem map_fst_documentOf (nodes : List Node) :
    (documentOf nodes).map Prod.fst = (tableAt nodes 0).keys := by
  simp [documentOf, TableT.keys, Function.comp_def]

theorem mem_keys_of_lookup {α : Type} {entries : List (Key × α)} {key : Key} {value : α}
    (found : entries.lookup key = some value) : key ∈ entries.map Prod.fst :=
  List.mem_map_of_mem (f := Prod.fst) (mem_of_lookup found)

theorem lookup_none_of_table {key : Key} {id : Nat} (unique : tab.keys.Nodup)
    (found : tomlTableIn tab key = some id) :
    tomlRawIn tab key = none ∧ tomlArrayIn tab key = none := by
  have member := mem_keys_of_lookup found
  have parts := List.nodup_append.mp unique
  have later := List.nodup_append.mp parts.2.1
  constructor
  · rw [Option.eq_none_iff_forall_not_mem]
    intro raw value
    exact parts.2.2 key (mem_keys_of_lookup value) key (List.mem_append_right _ member) rfl
  · rw [Option.eq_none_iff_forall_not_mem]
    intro arr array
    exact later.2.2 key (mem_keys_of_lookup array) key member rfl

/-- Where keys are unique, the search among the tables alone finds the same. -/
theorem tableIn_documentOf {nodes : List Node} (unique : (tableAt nodes 0).keys.Nodup) (key : Key) :
    tableIn (documentOf nodes) key =
      (tomlTableIn (tableAt nodes 0) key).map fun id => tableOf (tableAt nodes id) := by
  have split : (documentOf nodes).lookup key =
      ((tomlRawIn (tableAt nodes 0) key).map fun _ => none).or
        (((tomlArrayIn (tableAt nodes 0) key).map fun _ => none).or
          ((tomlTableIn (tableAt nodes 0) key).map fun id => some (tableOf (tableAt nodes id)))) := by
    rw [documentOf, List.lookup_append, List.lookup_append, lookup_map_const, lookup_map_const,
      lookup_map_snd fun id => some (tableOf (tableAt nodes id))]
    rfl
  rw [tableIn, split]
  cases table : tomlTableIn (tableAt nodes 0) key with
  | none =>
      cases tomlRawIn (tableAt nodes 0) key <;> cases tomlArrayIn (tableAt nodes 0) key <;> rfl
  | some id =>
      have others := lookup_none_of_table unique table
      rw [others.1, others.2]
      rfl

/-- A table as the calls show it is the table `shown`. -/
structure ShownAs (tab : TableT) (shown : Table) : Prop where
  keys : ∀ keyidx, tomlKeyIn tab keyidx = (shown.map Prod.fst)[keyidx]?
  unique : (shown.map Prod.fst).Nodup
  string : ∀ key, tomlStringIn tab key = stringIn shown key
  bool : ∀ key, tomlBoolIn tab key = boolIn shown key
  int : ∀ key, tomlIntIn tab key = intIn shown key

theorem shownAs_tableOf (unique : tab.keys.Nodup) : ShownAs tab (tableOf tab) where
  keys keyidx := by rw [tomlKeyIn_eq, map_fst_tableOf]
  unique := by rwa [map_fst_tableOf]
  string key := (stringIn_tableOf tab key).symm
  bool key := (boolIn_tableOf tab key).symm
  int key := (intIn_tableOf tab key).symm

/-- The calls on the nodes answer as the document says. -/
structure Shows (nodes : List Node) (doc : Document) : Prop where
  keys : ∀ keyidx, tomlKeyIn (tableAt nodes 0) keyidx = (doc.map Prod.fst)[keyidx]?
  unique : (doc.map Prod.fst).Nodup
  found : ∀ key id, tomlTableIn (tableAt nodes 0) key = some id →
    ∃ tab shown, nodes[id]? = some (.table tab) ∧ tableIn doc key = some shown ∧ ShownAs tab shown
  missing : ∀ key, tomlTableIn (tableAt nodes 0) key = none → tableIn doc key = none

theorem tableAt_of_isTable {nodes : List Node} {id : Nat} (there : IsTable nodes id) :
    nodes[id]? = some (.table (tableAt nodes id)) := by
  obtain ⟨tab, found⟩ := exists_table there
  rw [tableAt, found]

theorem Built.shows {nodes : List Node} (built : Built nodes) : Shows nodes (documentOf nodes) := by
  have unique : ∀ id, IsTable nodes id → (tableAt nodes id).keys.Nodup := fun id there =>
    built.uniqueKeys _ (List.mem_of_getElem? (tableAt_of_isTable there))
  have root := unique 0 built.root
  refine ⟨?_, ?_, ?_, ?_⟩
  · intro keyidx
    rw [tomlKeyIn_eq, map_fst_documentOf]
  · rwa [map_fst_documentOf]
  · intro key id table
    have there := isTable_of_lookup built (tableAt_of_isTable built.root) table
    refine ⟨_, _, tableAt_of_isTable there, ?_, shownAs_tableOf (unique id there)⟩
    rw [tableIn_documentOf root, table, Option.map_some]
  · intro key missing
    rw [tableIn_documentOf root, missing, Option.map_none]

/-- On every text that is parsed the calls answer as one document, whose keys are distinct. -/
theorem parsed_shows_document (strtod : List UInt8 → Bool) (conf : List UInt8) :
    (tomlParse strtod conf).Ends (fun _ s => Shows s.nodes (documentOf s.nodes)) fun _ _ => True :=
  (tomlParse_ends strtod conf).mono (fun _ _ last => last.1.built.shows) fun _ _ _ => trivial

end RenogyX10.Toml
