import RenogyX10.Toml.Tokens
import RenogyX10.Toml.Tree

set_option autoImplicit false

namespace RenogyX10.Toml

open CString Relation

/-- An array that has elements, or that elements of any kind may still be added to. -/
def Fillable (nodes : List Node) (id : Nat) : Prop :=
  ∃ arr, nodes[id]? = some (.array arr) ∧ (arr.kind = .unset ∨ arr.item ≠ [])

structure Sound (conf : List UInt8) (s : ContextT) : Prop where
  built : Built s.nodes
  curtab : IsTable s.nodes s.curtab
  tok : s.tok.Scanned conf
  tpath : ∀ e ∈ s.tpath, e.2.Scanned conf ∧ e.2.tok = .string

/-- What a failed call leaves. -/
def Fails (conf : List UInt8) (reason : ParseError) (s : ContextT) : Prop :=
  (reason.IsInternal ∨ reason.Blames conf) ∧ Built s.nodes

/-- A later state: more nodes, and less text. -/
structure Onward (conf : List UInt8) (s t : ContextT) : Prop where
  nodes : ReflTransGen NodesStep s.nodes t.nodes
  left : t.tok.ptr.length ≤ s.tok.ptr.length
  sound : Sound conf t

variable {conf : List UInt8} {s t u : ContextT} {nodes next : List Node} {id : Nat}

section Later

theorem sortAt_of_steps (steps : ReflTransGen NodesStep nodes next) {sort : Bool}
    (there : sortAt nodes id = some sort) : sortAt next id = some sort := by
  induction steps with
  | refl => exact there
  | tail _ step ih => exact step.sortAt_eq ih

theorem Fillable.set {other : Nat} {new : Node} (fillable : Fillable nodes id)
    (changed : other = id → ∃ arr, new = .array arr ∧ (arr.kind = .unset ∨ arr.item ≠ [])) :
    Fillable (nodes.set other new) id := by
  obtain ⟨arr, found, ready⟩ := fillable
  obtain ⟨inside, -⟩ := List.getElem?_eq_some_iff.mp found
  by_cases same : other = id
  · obtain ⟨arr', rfl, ready'⟩ := changed same
    refine ⟨arr', ?_, ready'⟩
    rw [same, List.getElem?_set_self inside]
  · refine ⟨arr, ?_, ready⟩
    rw [List.getElem?_set_ne same, found]

theorem Fillable.concat {leaf : Node} (fillable : Fillable nodes id) :
    Fillable (nodes ++ [leaf]) id := by
  obtain ⟨arr, found, ready⟩ := fillable
  obtain ⟨inside, -⟩ := List.getElem?_eq_some_iff.mp found
  exact ⟨arr, by rw [List.getElem?_append_left inside, found], ready⟩

theorem Fillable.step (fillable : Fillable nodes id) (step : NodesStep nodes next) :
    Fillable next id := by
  have table : ∀ {other : Nat} {tab : TableT}, nodes[other]? = some (.table tab) → other ≠ id := by
    intro other tab found same
    obtain ⟨arr, there, -⟩ := fillable
    rw [← same, found] at there
    cases there
  cases step with
  | keyval val found free => exact fillable.set fun same => absurd same (table found)
  | flags implicit readonly found => exact fillable.set fun same => absurd same (table found)
  | value valtype val found takes plain =>
      exact fillable.set fun _ => ⟨_, rfl, .inr (by simp)⟩
  | subtable implicit found free =>
      exact (fillable.set fun same => absurd same (table found)).concat
  | subarray found free kinds =>
      exact (fillable.set fun same => absurd same (table found)).concat
  | arrayElement found takes =>
      exact (fillable.set fun _ => ⟨_, rfl, .inr (by simp)⟩).concat
  | tableElement found takes =>
      exact (fillable.set fun _ => ⟨_, rfl, .inr (by simp)⟩).concat

theorem Fillable.steps (fillable : Fillable nodes id)
    (steps : ReflTransGen NodesStep nodes next) : Fillable next id := by
  induction steps with
  | refl => exact fillable
  | tail _ step ih => exact ih.step step

theorem Onward.refl (sound : Sound conf s) : Onward conf s s := ⟨.refl, Nat.le_refl _, sound⟩

theorem Onward.trans (first : Onward conf s t) (second : Onward conf t u) : Onward conf s u :=
  ⟨first.nodes.trans second.nodes, Nat.le_trans second.left first.left, second.sound⟩

/-- Only nodes have changed. -/
def Edited (s t : ContextT) : Prop :=
  ReflTransGen NodesStep s.nodes t.nodes ∧ t = { s with nodes := t.nodes }

/-- Only the token has changed. -/
def Moved (conf : List UInt8) (s t : ContextT) : Prop :=
  s.tok.Follows conf t.tok ∧ t = { s with tok := t.tok }

end Later

section Steps

theorem Edited.sound (edited : Edited s t) (sound : Sound conf s) : Sound conf t := by
  have eq := edited.2
  refine ⟨sound.built.trans edited.1, ?_, ?_, ?_⟩
  · rw [eq]
    exact sortAt_of_steps edited.1 sound.curtab
  · rw [eq]
    exact sound.tok
  · rw [eq]
    exact sound.tpath

theorem Edited.tok (edited : Edited s t) : t.tok = s.tok := by rw [edited.2]

theorem Edited.onward (edited : Edited s t) (sound : Sound conf s) : Onward conf s t :=
  ⟨edited.1, by rw [edited.tok], edited.sound sound⟩

theorem Edited.refl (s : ContextT) : Edited s s := ⟨.refl, rfl⟩

theorem Edited.single (step : NodesStep s.nodes next) : Edited s { s with nodes := next } :=
  ⟨.single step, rfl⟩

theorem Moved.nodes_eq (moved : Moved conf s t) : t.nodes = s.nodes := by rw [moved.2]

theorem Moved.sound (moved : Moved conf s t) (sound : Sound conf s) : Sound conf t := by
  have eq := moved.2
  refine ⟨?_, ?_, moved.1.toScanned, ?_⟩
  · rw [eq]
    exact sound.built
  · rw [eq]
    exact sound.curtab
  · rw [eq]
    exact sound.tpath

theorem Moved.onward (moved : Moved conf s t) (sound : Sound conf s) : Onward conf s t := by
  refine ⟨?_, Nat.le_of_add_right_le moved.1.left, moved.sound sound⟩
  rw [moved.nodes_eq]

theorem Moved.lt (moved : Moved conf s t) (sound : Sound conf s) (string : s.tok.tok ≠ .string)
    (newline : s.tok.tok ≠ .newline) : t.tok.ptr.length < s.tok.ptr.length := by
  have one := sound.tok.one (Bool.eq_false_iff.mpr fun eof => newline (sound.tok.atEof eof)) string
  have left := moved.1.left
  omega

theorem nextToken_ends (within : s.tok.Within conf) (built : Built s.nodes) (dotisspecial : Bool) :
    (nextToken dotisspecial s).Ends (fun _ => Moved conf s) (Fails conf) := by
  have ends := TokenT.next_ends within dotisspecial
  unfold nextToken
  rw [Proc.read_bind]
  cases scanned : s.tok.next dotisspecial with
  | error reason =>
      rw [scanned] at ends
      exact ⟨.inr ends, built⟩
  | ok next =>
      rw [scanned] at ends
      exact ⟨ends, rfl⟩

theorem eatToken_ends (sound : Sound conf s) (typ : TokenType) (dotisspecial : Bool) (fline : Nat) :
    (eatToken typ dotisspecial fline s).Ends (fun _ t => Moved conf s t ∧ s.tok.tok = typ)
      (Fails conf) := by
  unfold eatToken
  rw [Proc.read_bind]
  apply Proc.ends_ite
  · exact fun _ => ⟨.inl ⟨fline, rfl⟩, sound.built⟩
  · intro same
    apply (nextToken_ends sound.tok.toWithin sound.built dotisspecial).mono
    · exact fun _ _ moved => ⟨moved, not_not.mp same⟩
    · exact fun _ _ fails => fails

theorem getTable_run {tab : TableT} (found : s.nodes[id]? = some (.table tab)) :
    getTable id s = .ok tab s := by
  unfold getTable
  rw [Proc.read_bind, found]
  rfl

theorem getArray_run {arr : ArrayT} (found : s.nodes[id]? = some (.array arr)) :
    getArray id s = .ok arr s := by
  unfold getArray
  rw [Proc.read_bind, found]
  rfl

theorem Fails.of_line {reason : ParseError} {tok : TokenT} (scanned : tok.Scanned conf)
    (built : Built s.nodes) (line : reason.lineno = some tok.lineno) : Fails conf reason s :=
  ⟨.inr (scanned.placed.blames line), built⟩

theorem quotedKey_ends {strtok : TokenT} {quote : UInt8} (scanned : strtok.Scanned conf)
    (string : strtok.tok = .string) (head : strtok.ptr.head? = some quote)
    (isQuote : quote = ascii '\'' ∨ quote = ascii '"') (built : Built s.nodes) :
    (quotedKey strtok quote s).Ends (fun _ t => s = t) (Fails conf) := by
  have quoted := scanned.quoted string
  have fits := scanned.fits
  unfold quotedKey
  dsimp only
  apply Proc.ends_ite
  · intro short
    obtain ⟨rest, eq⟩ := List.head?_eq_some_iff.mp head
    rw [eq, quotesLength, if_pos isQuote] at quoted
    rw [eq] at short
    split_ifs at quoted short <;> omega
  · intro long
    apply Proc.ends_ite
    · exact fun _ => rfl
    · intro _
      have inside : strtok.len - 2 * (if (tripleOf quote).isPrefixOf strtok.ptr = true then 3 else 1) ≤
          (strtok.ptr.drop (if (tripleOf quote).isPrefixOf strtok.ptr = true then 3 else 1)).length := by
        rw [List.length_drop]
        omega
      have ends := normBasicStr_ends ((tripleOf quote).isPrefixOf strtok.ptr) inside
      revert ends
      generalize normBasicStr _ _ ((tripleOf quote).isPrefixOf strtok.ptr) = normed
      intro ends
      cases normed with
      | ok bytes dst => exact rfl
      | error reason dst => exact Fails.of_line scanned built rfl
      | panic dst => exact ends.elim

theorem normalizeKey_ends {strtok : TokenT} (scanned : strtok.Scanned conf)
    (string : strtok.tok = .string) (built : Built s.nodes) :
    (normalizeKey strtok s).Ends (fun _ t => s = t) (Fails conf) := by
  unfold normalizeKey
  cases head : strtok.ptr.head? with
  | none => exact rfl
  | some quote =>
      dsimp only
      apply Proc.ends_ite
      · intro isQuote
        apply Proc.ends_bind (quotedKey_ends scanned string head isQuote built)
        rintro key _ rfl
        apply Proc.ends_ite
        · exact fun _ => Fails.of_line scanned built rfl
        · exact fun _ => rfl
      · intro _
        apply Proc.ends_ite
        · exact fun _ => rfl
        · exact fun _ => Fails.of_line scanned built rfl

end Steps

section Create

theorem mem_of_lookup {α : Type} {entries : List (Key × α)} {key : Key} {value : α}
    (found : entries.lookup key = some value) : (key, value) ∈ entries := by
  obtain ⟨before, after, eq, -⟩ := List.lookup_eq_some_iff.mp found
  rw [eq]
  exact List.mem_append_right _ List.mem_cons_self

theorem isTable_of_lookup {tab : TableT} {key : Key} {dest : Nat} (built : Built nodes)
    (found : nodes[id]? = some (.table tab)) (there : tab.tab.lookup key = some dest) :
    IsTable nodes dest :=
  (built.typed id _ found (dest, true) (List.mem_append_right _
    (List.mem_map_of_mem (mem_of_lookup there)))).2

theorem isArray_of_lookup {tab : TableT} {key : Key} {dest : Nat} (built : Built nodes)
    (found : nodes[id]? = some (.table tab)) (there : tab.arr.lookup key = some dest) :
    IsArray nodes dest :=
  (built.typed id _ found (dest, false) (List.mem_append_left _
    (List.mem_map_of_mem (mem_of_lookup there)))).2

theorem lookup_of_checkKey_table {tab : TableT} {key : Key} {dest : Nat}
    (found : checkKey tab key = some (.table dest)) : tab.tab.lookup key = some dest := by
  unfold checkKey at found
  cases value : tab.kval.lookup key with
  | some raw =>
      rw [value] at found
      cases found
  | none =>
      cases array : tab.arr.lookup key with
      | some arr =>
          rw [value, array] at found
          cases found
      | none =>
          rw [value, array] at found
          simpa using found

theorem lookup_of_checkKey_array {tab : TableT} {key : Key} {dest : Nat}
    (found : checkKey tab key = some (.array dest)) : tab.arr.lookup key = some dest := by
  unfold checkKey at found
  cases value : tab.kval.lookup key with
  | some raw =>
      rw [value] at found
      cases found
  | none =>
      cases array : tab.arr.lookup key with
      | some arr =>
          rw [value, array] at found
          cases found
          rfl
      | none =>
          rw [value, array] at found
          cases table : tab.tab.lookup key <;> rw [table] at found <;> cases found

theorem alloc_run (node : Node) (id : Nat) (refer : Nat → Node) (s : ContextT) :
    alloc node id refer s = .ok s.nodes.length
      { s with nodes := s.nodes.set id (refer s.nodes.length) ++ [node] } := rfl

variable {keytok : TokenT}

theorem createKeyvalInTable_ends (sound : Sound conf s) (there : IsTable s.nodes id)
    (scanned : keytok.Scanned conf) (string : keytok.tok = .string) (val : List UInt8) :
    (createKeyvalInTable id keytok val s).Ends (fun _ => Edited s) (Fails conf) := by
  obtain ⟨tab, found⟩ := exists_table there
  unfold createKeyvalInTable
  apply Proc.ends_bind (normalizeKey_ends scanned string sound.built)
  rintro newkey _ rfl
  rw [Proc.bind_of_ok (getTable_run found)]
  cases free : checkKey tab newkey with
  | some _ => exact Fails.of_line scanned sound.built rfl
  | none => exact Edited.single (.keyval val found free)

theorem createKeytableInTable_ends (sound : Sound conf s) (there : IsTable s.nodes id)
    (scanned : keytok.Scanned conf) (string : keytok.tok = .string) :
    (createKeytableInTable id keytok s).Ends (fun dest t => Edited s t ∧ IsTable t.nodes dest)
      (Fails conf) := by
  obtain ⟨tab, found⟩ := exists_table there
  unfold createKeytableInTable
  apply Proc.ends_bind (normalizeKey_ends scanned string sound.built)
  rintro newkey _ rfl
  rw [Proc.bind_of_ok (getTable_run found)]
  cases free : checkKey tab newkey with
  | none =>
      dsimp only
      rw [alloc_run]
      exact ⟨Edited.single (.subtable false found free), sortAt_leaf id _ _⟩
  | some other =>
      cases other with
      | value raw => exact Fails.of_line scanned sound.built rfl
      | array arr => exact Fails.of_line scanned sound.built rfl
      | table dest =>
          have table := isTable_of_lookup sound.built found (lookup_of_checkKey_table free)
          obtain ⟨old, foundOld⟩ := exists_table table
          dsimp only
          rw [Proc.bind_of_ok (getTable_run foundOld)]
          apply Proc.ends_ite
          · intro _
            have step := NodesStep.flags false old.readonly foundOld
            exact ⟨Edited.single step, step.sortAt_eq table⟩
          · exact fun _ => Fails.of_line scanned sound.built rfl

theorem createKeyarrayInTable_ends {kind : Kind} (sound : Sound conf s)
    (there : IsTable s.nodes id) (scanned : keytok.Scanned conf) (string : keytok.tok = .string)
    (kinds : kind = .unset ∨ kind = .table) :
    (createKeyarrayInTable id keytok kind s).Ends
      (fun dest t => Edited s t ∧ t.nodes[dest]? = some (.array { kind := kind })) (Fails conf) := by
  obtain ⟨tab, found⟩ := exists_table there
  unfold createKeyarrayInTable
  apply Proc.ends_bind (normalizeKey_ends scanned string sound.built)
  rintro newkey _ rfl
  rw [Proc.bind_of_ok (getTable_run found)]
  cases free : checkKey tab newkey with
  | some _ => exact Fails.of_line scanned sound.built rfl
  | none =>
      refine ⟨Edited.single (.subarray found free kinds), ?_⟩
      show (s.nodes.set id _ ++ [_])[s.nodes.length]? = _
      simp

theorem dottedTable_ends (sound : Sound conf s) (there : IsTable s.nodes id)
    (scanned : keytok.Scanned conf) (string : keytok.tok = .string) :
    (dottedTable id keytok s).Ends (fun dest t => Edited s t ∧ IsTable t.nodes dest)
      (Fails conf) := by
  obtain ⟨tab, found⟩ := exists_table there
  unfold dottedTable
  apply Proc.ends_bind (normalizeKey_ends scanned string sound.built)
  rintro subtabstr _ rfl
  rw [Proc.bind_of_ok (getTable_run found)]
  cases subtab : tab.tab.lookup subtabstr with
  | some dest => exact ⟨Edited.refl s, isTable_of_lookup sound.built found subtab⟩
  | none => exact createKeytableInTable_ends sound there scanned string

theorem newArrayElement_run {arr : ArrayT} (found : s.nodes[id]? = some (.array arr)) :
    newArrayElement id s = .ok s.nodes.length
      { s with
        nodes := s.nodes.set id
          (.array { arr.widen .array with item := arr.item ++ [.arr s.nodes.length] }) ++
            [.array {}] } := by
  have inside := (List.getElem?_eq_some_iff.mp found).1
  have again : (s.put id (.array (arr.widen .array))).nodes[id]? = some (.array (arr.widen .array)) :=
    List.getElem?_set_self inside
  unfold newArrayElement
  rw [Proc.bind_of_ok (getArray_run found), setArray, Proc.modify_bind, createArrayInArray,
    Proc.bind_of_ok (getArray_run again), alloc_run]
  simp [ContextT.put]

theorem newTableElement_run {arr : ArrayT} (found : s.nodes[id]? = some (.array arr)) :
    newTableElement id s = .ok s.nodes.length
      { s with
        nodes := s.nodes.set id
          (.array { arr.widen .table with item := arr.item ++ [.tab s.nodes.length] }) ++
            [.table {}] } := by
  have inside := (List.getElem?_eq_some_iff.mp found).1
  have again : (s.put id (.array (arr.widen .table))).nodes[id]? = some (.array (arr.widen .table)) :=
    List.getElem?_set_self inside
  unfold newTableElement
  rw [Proc.bind_of_ok (getArray_run found), setArray, Proc.modify_bind, createTableInArray,
    Proc.bind_of_ok (getArray_run again), alloc_run]
  simp [ContextT.put]

theorem newArrayElement_ends (fillable : Fillable s.nodes id) :
    (newArrayElement id s).Ends (fun dest t => Edited s t ∧ Fillable t.nodes dest) (Fails conf) := by
  obtain ⟨arr, found, ready⟩ := fillable
  rw [newArrayElement_run found]
  refine ⟨Edited.single (.arrayElement found (.inr ready)), {}, ?_, .inl rfl⟩
  simp

theorem newTableElement_ends (fillable : Fillable s.nodes id) :
    (newTableElement id s).Ends (fun dest t => Edited s t ∧ IsTable t.nodes dest) (Fails conf) := by
  obtain ⟨arr, found, ready⟩ := fillable
  rw [newTableElement_run found]
  exact ⟨Edited.single (.tableElement found (.inr ready)), sortAt_leaf id _ _⟩

end Create

section Values

theorem Onward.isTable (onward : Onward conf s t) (there : IsTable s.nodes id) :
    IsTable t.nodes id :=
  sortAt_of_steps onward.nodes there

theorem Onward.fillable (onward : Onward conf s t) (there : Fillable s.nodes id) :
    Fillable t.nodes id :=
  there.steps onward.nodes

theorem Onward.ends {α : Type} {exit : Exit ParseError ContextT α} (first : Onward conf s t)
    (rest : exit.Ends (fun _ => Onward conf t) (Fails conf)) :
    exit.Ends (fun _ => Onward conf s) (Fails conf) :=
  rest.mono (fun _ _ onward => first.trans onward) fun _ _ fails => fails

theorem eatToken_onward (sound : Sound conf s) (typ : TokenType) (dotisspecial : Bool)
    (fline : Nat) : (eatToken typ dotisspecial fline s).Ends (fun _ => Onward conf s) (Fails conf) :=
  (eatToken_ends sound typ dotisspecial fline).mono (fun _ _ eaten => eaten.1.onward sound)
    fun _ _ fails => fails

theorem nextToken_onward (sound : Sound conf s) (dotisspecial : Bool) :
    (nextToken dotisspecial s).Ends (fun _ => Onward conf s) (Fails conf) :=
  (nextToken_ends sound.tok.toWithin sound.built dotisspecial).mono
    (fun _ _ moved => moved.onward sound) fun _ _ fails => fails

theorem eatToken_lt {typ : TokenType} (sound : Sound conf s) (string : typ ≠ .string)
    (newline : typ ≠ .newline) (dotisspecial : Bool) (fline : Nat) :
    (eatToken typ dotisspecial fline s).Ends
      (fun _ t => Onward conf s t ∧ t.tok.ptr.length < s.tok.ptr.length) (Fails conf) := by
  apply (eatToken_ends sound typ dotisspecial fline).mono
  · intro _ t eaten
    refine ⟨eaten.1.onward sound, eaten.1.lt sound ?_ ?_⟩
    · rwa [eaten.2]
    · rwa [eaten.2]
  · exact fun _ _ fails => fails

theorem skipNewlinesLoop_ends (sound : Sound conf s) (isdotspecial : Bool) {fuel : Nat}
    (enough : s.tok.ptr.length < fuel) :
    (skipNewlinesLoop isdotspecial fuel s).Ends (fun _ => Onward conf s) (Fails conf) := by
  induction fuel generalizing s with
  | zero => omega
  | succ fuel ih =>
      unfold skipNewlinesLoop
      rw [Proc.read_bind]
      apply Proc.ends_ite
      · intro newline
        apply Proc.ends_bind (nextToken_ends sound.tok.toWithin sound.built isdotspecial)
        intro _ t moved
        have onward := moved.onward sound
        rw [Proc.read_bind]
        apply Proc.ends_ite
        · exact fun _ => onward
        · intro more
          have inside : t.tok.ptr ≠ [] := fun none => more (onward.sound.tok.eof_iff.mpr none)
          have notEof : s.tok.eof = false := by
            rw [Bool.eq_false_iff]
            intro eof
            have none := sound.tok.eof_iff.mp eof
            have left := onward.left
            rw [none] at left
            exact inside (List.eq_nil_of_length_eq_zero (Nat.le_zero.mp left))
          have one := sound.tok.one notEof (by rw [newline]; decide)
          have left := moved.1.left
          exact onward.ends (ih onward.sound (by omega))
      · exact fun _ => .refl sound

theorem skipNewlines_ends (sound : Sound conf s) (isdotspecial : Bool) :
    (skipNewlines isdotspecial s).Ends (fun _ => Onward conf s) (Fails conf) := by
  unfold skipNewlines
  rw [Proc.read_bind]
  exact skipNewlinesLoop_ends sound isdotspecial (by omega)

theorem endInlineTable_ends (sound : Sound conf s) (there : IsTable s.nodes id) :
    (endInlineTable id s).Ends (fun _ => Onward conf s) (Fails conf) := by
  unfold endInlineTable
  apply Proc.ends_bind (eatToken_onward sound .rbrace true 975)
  intro _ t onward
  obtain ⟨tab, found⟩ := exists_table (onward.isTable there)
  rw [Proc.bind_of_ok (getTable_run found)]
  have step := NodesStep.flags tab.implicit true found
  exact onward.trans ((Edited.single step).onward onward.sound)

theorem valtype_ne_mixed (strtod : List UInt8 → Bool) (val : List UInt8) :
    valtype strtod val ≠ .mixed := by
  unfold valtype
  repeat' split
  all_goals decide

variable {strtod : List UInt8 → Bool}

theorem parseValueElement_ends (sound : Sound conf s) (fillable : Fillable s.nodes id)
    (tok : TokenT) :
    (parseValueElement strtod id tok s).Ends (fun _ => Onward conf s) (Fails conf) := by
  obtain ⟨arr, found, ready⟩ := fillable
  unfold parseValueElement
  rw [Proc.bind_of_ok (getArray_run found), setArray, Proc.modify_bind]
  have step := NodesStep.value (valtype strtod (tok.ptr.take tok.len)) (tok.ptr.take tok.len) found
    (.inr ready) (valtype_ne_mixed strtod _)
  have onward := (Edited.single step).onward sound
  exact onward.ends (eatToken_onward onward.sound .string false 1043)

variable (conf strtod) in
/-- The calls with so much fuel return; a byte takes three calls at most. -/
structure ParserEnds (fuel : Nat) : Prop where
  inlineTable : ∀ {s : ContextT} {id : Nat}, Sound conf s → IsTable s.nodes id →
    3 * s.tok.ptr.length + 1 ≤ fuel →
      (parseInlineTable strtod fuel id s).Ends (fun _ => Onward conf s) (Fails conf)
  inlineEntries : ∀ {s : ContextT} {id : Nat}, Sound conf s → IsTable s.nodes id →
    3 * s.tok.ptr.length + 2 ≤ fuel →
      (parseInlineEntries strtod fuel id s).Ends (fun _ => Onward conf s) (Fails conf)
  array : ∀ {s : ContextT} {id : Nat}, Sound conf s → Fillable s.nodes id →
    3 * s.tok.ptr.length + 1 ≤ fuel →
      (parseArray strtod fuel id s).Ends (fun _ => Onward conf s) (Fails conf)
  elements : ∀ {s : ContextT} {id : Nat}, Sound conf s → Fillable s.nodes id →
    3 * s.tok.ptr.length + 3 ≤ fuel →
      (parseElements strtod fuel id s).Ends (fun _ => Onward conf s) (Fails conf)
  element : ∀ {s : ContextT} {id : Nat}, Sound conf s → Fillable s.nodes id →
    3 * s.tok.ptr.length + 2 ≤ fuel →
      (parseElement strtod fuel id s).Ends (fun _ => Onward conf s) (Fails conf)
  keyval : ∀ {s : ContextT} {id : Nat}, Sound conf s → IsTable s.nodes id →
    3 * s.tok.ptr.length + 1 ≤ fuel →
      (parseKeyval strtod fuel id s).Ends (fun _ => Onward conf s) (Fails conf)

variable {fuel : Nat}

theorem ParserEnds.inlineTable_succ (ends : ParserEnds conf strtod fuel) (sound : Sound conf s)
    (there : IsTable s.nodes id) (enough : 3 * s.tok.ptr.length + 1 ≤ fuel + 1) :
    (parseInlineTable strtod (fuel + 1) id s).Ends (fun _ => Onward conf s) (Fails conf) := by
  unfold parseInlineTable
  apply Proc.ends_bind (eatToken_lt sound (by decide) (by decide) true 944)
  rintro _ t ⟨onward, less⟩
  exact onward.ends (ends.inlineEntries onward.sound (onward.isTable there) (by omega))

theorem ParserEnds.inlineEntries_succ (ends : ParserEnds conf strtod fuel) (sound : Sound conf s)
    (there : IsTable s.nodes id) (enough : 3 * s.tok.ptr.length + 2 ≤ fuel + 1) :
    (parseInlineEntries strtod (fuel + 1) id s).Ends (fun _ => Onward conf s) (Fails conf) := by
  unfold parseInlineEntries
  rw [Proc.read_bind]
  apply Proc.ends_ite
  · exact fun _ => Fails.of_line sound.tok sound.built rfl
  · intro _
    apply Proc.ends_ite
    · exact fun _ => endInlineTable_ends sound there
    · intro _
      apply Proc.ends_ite
      · exact fun _ => Fails.of_line sound.tok sound.built rfl
      · intro _
        apply Proc.ends_bind (ends.keyval sound there (by omega))
        intro _ t onward
        have stillThere := onward.isTable there
        rw [Proc.read_bind]
        apply Proc.ends_ite
        · exact fun _ => Fails.of_line onward.sound.tok onward.sound.built rfl
        · intro _
          apply Proc.ends_ite
          · intro _
            apply Proc.ends_bind (eatToken_lt onward.sound (by decide) (by decide) true 968)
            rintro _ u ⟨behind, less⟩
            have left := onward.left
            exact (onward.trans behind).ends
              (ends.inlineEntries behind.sound (behind.isTable stillThere) (by omega))
          · exact fun _ => onward.ends (endInlineTable_ends onward.sound stillThere)

theorem ParserEnds.array_succ (ends : ParserEnds conf strtod fuel) (sound : Sound conf s)
    (fillable : Fillable s.nodes id) (enough : 3 * s.tok.ptr.length + 1 ≤ fuel + 1) :
    (parseArray strtod (fuel + 1) id s).Ends (fun _ => Onward conf s) (Fails conf) := by
  unfold parseArray
  apply Proc.ends_bind (eatToken_lt sound (by decide) (by decide) false 1005)
  rintro _ t ⟨onward, less⟩
  exact onward.ends (ends.elements onward.sound (onward.fillable fillable) (by omega))

theorem ParserEnds.elements_succ (ends : ParserEnds conf strtod fuel) (sound : Sound conf s)
    (fillable : Fillable s.nodes id) (enough : 3 * s.tok.ptr.length + 3 ≤ fuel + 1) :
    (parseElements strtod (fuel + 1) id s).Ends (fun _ => Onward conf s) (Fails conf) := by
  unfold parseElements
  apply Proc.ends_bind (skipNewlines_ends sound false)
  intro _ t first
  rw [Proc.read_bind]
  apply Proc.ends_ite
  · exact fun _ => first.ends (eatToken_onward first.sound .rbracket true 1094)
  · intro _
    have left := first.left
    apply Proc.ends_bind (ends.element first.sound (first.fillable fillable) (by omega))
    intro _ u element
    have second := first.trans element
    apply Proc.ends_bind (skipNewlines_ends second.sound false)
    intro _ v skipped
    have third := second.trans skipped
    have left := third.left
    rw [Proc.read_bind]
    apply Proc.ends_ite
    · intro _
      apply Proc.ends_bind (eatToken_lt third.sound (by decide) (by decide) false 1087)
      rintro _ w ⟨behind, less⟩
      have last := third.trans behind
      exact last.ends (ends.elements last.sound (last.fillable fillable) (by omega))
    · exact fun _ => third.ends (eatToken_onward third.sound .rbracket true 1094)

theorem ParserEnds.element_succ (ends : ParserEnds conf strtod fuel) (sound : Sound conf s)
    (fillable : Fillable s.nodes id) (enough : 3 * s.tok.ptr.length + 2 ≤ fuel + 1) :
    (parseElement strtod (fuel + 1) id s).Ends (fun _ => Onward conf s) (Fails conf) := by
  unfold parseElement
  rw [Proc.read_bind]
  cases typ : s.tok.tok
  case string => exact parseValueElement_ends sound fillable s.tok
  case lbracket =>
    apply Proc.ends_bind (newArrayElement_ends fillable)
    rintro subarr t ⟨edited, new⟩
    have onward := edited.onward sound
    have left := onward.left
    exact onward.ends (ends.array onward.sound new (by omega))
  case lbrace =>
    apply Proc.ends_bind (newTableElement_ends fillable)
    rintro subtab t ⟨edited, new⟩
    have onward := edited.onward sound
    have left := onward.left
    exact onward.ends (ends.inlineTable onward.sound new (by omega))
  all_goals exact Fails.of_line sound.tok sound.built rfl

theorem ParserEnds.value (ends : ParserEnds conf strtod fuel) (sound : Sound conf s)
    (there : IsTable s.nodes id) {key : TokenT} (scanned : key.Scanned conf)
    (string : key.tok = .string) (enough : 3 * s.tok.ptr.length + 1 ≤ fuel) :
    ((match s.tok.tok with
      | .string => do
          createKeyvalInTable id key (s.tok.ptr.take s.tok.len)
          nextToken true
      | .lbracket => do
          let arr ← createKeyarrayInTable id key .unset
          parseArray strtod fuel arr
      | .lbrace => do
          let nxttab ← createKeytableInTable id key
          parseInlineTable strtod fuel nxttab
      | _ => Proc.fail (.eSyntax s.tok.lineno "syntax error") : Parse Unit) s).Ends
        (fun _ => Onward conf s) (Fails conf) := by
  cases typ : s.tok.tok
  case string =>
    apply Proc.ends_bind (createKeyvalInTable_ends sound there scanned string _)
    intro _ t edited
    have onward := edited.onward sound
    exact onward.ends (nextToken_onward onward.sound true)
  case lbracket =>
    apply Proc.ends_bind (createKeyarrayInTable_ends sound there scanned string (.inl rfl))
    rintro arr t ⟨edited, found⟩
    have onward := edited.onward sound
    have left := onward.left
    exact onward.ends (ends.array onward.sound ⟨_, found, .inl rfl⟩ (by omega))
  case lbrace =>
    apply Proc.ends_bind (createKeytableInTable_ends sound there scanned string)
    rintro nxttab t ⟨edited, new⟩
    have onward := edited.onward sound
    have left := onward.left
    exact onward.ends (ends.inlineTable onward.sound new (by omega))
  all_goals exact Fails.of_line sound.tok sound.built rfl

theorem ParserEnds.keyval_succ (ends : ParserEnds conf strtod fuel) (sound : Sound conf s)
    (there : IsTable s.nodes id) (enough : 3 * s.tok.ptr.length + 1 ≤ fuel + 1) :
    (parseKeyval strtod (fuel + 1) id s).Ends (fun _ => Onward conf s) (Fails conf) := by
  obtain ⟨tab, found⟩ := exists_table there
  unfold parseKeyval
  rw [Proc.bind_of_ok (getTable_run found), Proc.read_bind]
  apply Proc.ends_ite
  · exact fun _ => Fails.of_line sound.tok sound.built rfl
  · intro _
    apply Proc.ends_bind (eatToken_ends sound .string true 1111)
    rintro _ t ⟨moved, string⟩
    have first := moved.onward sound
    have left := first.left
    rw [Proc.read_bind]
    apply Proc.ends_ite
    · intro dot
      apply Proc.ends_bind
        (dottedTable_ends first.sound (first.isTable there) sound.tok string)
      rintro subtab u ⟨edited, new⟩
      have second := edited.onward first.sound
      apply Proc.ends_bind (nextToken_ends second.sound.tok.toWithin second.sound.built true)
      intro _ v behind
      have third := behind.onward second.sound
      have less := behind.lt second.sound (by rw [edited.tok, dot]; decide)
        (by rw [edited.tok, dot]; decide)
      rw [edited.tok] at less
      exact (first.trans (second.trans third)).ends
        (ends.keyval third.sound (third.isTable new) (by omega))
    · intro _
      apply Proc.ends_ite
      · exact fun _ => Fails.of_line first.sound.tok first.sound.built rfl
      · intro equal
        apply Proc.ends_bind (nextToken_ends first.sound.tok.toWithin first.sound.built false)
        intro _ u behind
        have second := behind.onward first.sound
        have less := behind.lt first.sound (by rw [not_not.mp equal]; decide)
          (by rw [not_not.mp equal]; decide)
        have onward := first.trans second
        rw [Proc.read_bind]
        exact onward.ends
          (ends.value onward.sound (onward.isTable there) sound.tok string (by omega))

theorem parserEnds (conf : List UInt8) (strtod : List UInt8 → Bool) (fuel : Nat) :
    ParserEnds conf strtod fuel := by
  induction fuel with
  | zero => constructor <;> intro s id _ _ enough <;> omega
  | succ fuel ih =>
      exact ⟨ih.inlineTable_succ, ih.inlineEntries_succ, ih.array_succ, ih.elements_succ,
        ih.element_succ, ih.keyval_succ⟩

end Values

section Select

theorem Sound.withTpath {tpath : List (Key × TokenT)} (sound : Sound conf s)
    (all : ∀ e ∈ tpath, e.2.Scanned conf ∧ e.2.tok = .string) :
    Sound conf { s with tpath := tpath } :=
  ⟨sound.built, sound.curtab, sound.tok, all⟩

theorem Sound.withCurtab (sound : Sound conf s) (there : IsTable s.nodes id) :
    Sound conf { s with curtab := id } :=
  ⟨sound.built, there, sound.tok, sound.tpath⟩

theorem fillTabpathLoop_ends (sound : Sound conf s) {lineno : Nat} {rest : List UInt8}
    (placed : Placed conf rest lineno) (left : Nat) :
    (fillTabpathLoop lineno left s).Ends (fun _ t => Onward conf s t ∧ t.tpath ≠ [])
      (Fails conf) := by
  induction left generalizing s with
  | zero => exact ⟨.inr (placed.blames rfl), sound.built⟩
  | succ left ih =>
      unfold fillTabpathLoop
      rw [Proc.read_bind]
      apply Proc.ends_ite
      · exact fun _ => ⟨.inr (placed.blames rfl), sound.built⟩
      · intro string
        apply Proc.ends_bind (normalizeKey_ends sound.tok (not_not.mp string) sound.built)
        rintro key _ rfl
        rw [Proc.modify_bind]
        have more : Sound conf { s with tpath := s.tpath ++ [(key, s.tok)] } := by
          apply sound.withTpath
          intro e member
          cases List.mem_append.mp member with
          | inl old => exact sound.tpath e old
          | inr new =>
              rw [List.mem_singleton.mp new]
              exact ⟨sound.tok, not_not.mp string⟩
        have pushed : Onward conf s { s with tpath := s.tpath ++ [(key, s.tok)] } :=
          ⟨.refl, Nat.le_refl _, more⟩
        apply Proc.ends_bind (nextToken_ends more.tok.toWithin more.built true)
        intro _ t moved
        have onward := pushed.trans (moved.onward more)
        have kept : t.tpath ≠ [] := by
          rw [moved.2]
          exact List.append_ne_nil_of_right_ne_nil _ (List.cons_ne_nil _ _)
        rw [Proc.read_bind]
        apply Proc.ends_ite
        · exact fun _ => ⟨onward, kept⟩
        · intro _
          apply Proc.ends_ite
          · exact fun _ => ⟨.inr (placed.blames rfl), onward.sound.built⟩
          · intro _
            apply Proc.ends_bind (nextToken_onward onward.sound true)
            intro _ u behind
            apply (ih behind.sound).mono
            · exact fun _ v last => ⟨onward.trans (behind.trans last.1), last.2⟩
            · exact fun _ _ fails => fails

theorem fillTabpath_ends (sound : Sound conf s) :
    (fillTabpath s).Ends (fun _ t => Onward conf s t ∧ t.tpath ≠ []) (Fails conf) := by
  unfold fillTabpath
  rw [Proc.read_bind, Proc.modify_bind]
  have cleared : Sound conf { s with tpath := [] } :=
    sound.withTpath fun _ member => absurd member List.not_mem_nil
  have first : Onward conf s { s with tpath := [] } := ⟨.refl, Nat.le_refl _, cleared⟩
  apply (fillTabpathLoop_ends cleared sound.tok.placed 10).mono
  · exact fun _ t last => ⟨first.trans last.1, last.2⟩
  · exact fun _ _ fails => fails

theorem isTable_of_getLast {arr : ArrayT} {item : ArrItem} (built : Built nodes)
    (found : nodes[id]? = some (.array arr)) (kind : arr.kind = .table)
    (last : arr.item.getLast? = some item) : ∃ sub, item = .tab sub ∧ IsTable nodes sub := by
  have described : arr.Described := built.isDescribed _ (List.mem_of_getElem? found)
  have all := described.kind
  rw [kind] at all
  have member := List.mem_of_getLast? last
  cases item with
  | val valtype raw => exact absurd (all _ member) (by simp [ArrItem.kind])
  | arr sub => exact absurd (all _ member) (by simp [ArrItem.kind])
  | tab sub =>
      have ref : (sub, true) ∈ arr.item.filterMap ArrItem.ref :=
        List.mem_filterMap.mpr ⟨_, member, rfl⟩
      exact ⟨sub, rfl, (built.typed id _ found _ ref).2⟩

theorem walkKey_ends (sound : Sound conf s) (there : IsTable s.nodes id) (key : Key)
    {tok : TokenT} (scanned : tok.Scanned conf) :
    (walkKey id key tok s).Ends (fun dest t => Edited s t ∧ IsTable t.nodes dest)
      (Fails conf) := by
  obtain ⟨tab, found⟩ := exists_table there
  unfold walkKey
  rw [Proc.bind_of_ok (getTable_run found)]
  cases free : checkKey tab key with
  | none => exact ⟨Edited.single (.subtable true found free), sortAt_leaf id _ _⟩
  | some other =>
      cases other with
      | value raw => exact Fails.of_line scanned sound.built rfl
      | table dest =>
          exact ⟨Edited.refl s, isTable_of_lookup sound.built found (lookup_of_checkKey_table free)⟩
      | array dest =>
          have array := isArray_of_lookup sound.built found (lookup_of_checkKey_array free)
          obtain ⟨arr, foundArr⟩ := exists_array array
          dsimp only
          rw [Proc.bind_of_ok (getArray_run foundArr)]
          apply Proc.ends_ite
          · exact fun _ => ⟨.inl ⟨1266, rfl⟩, sound.built⟩
          · intro kind
            cases last : arr.item.getLast? with
            | none => exact ⟨.inl ⟨1269, rfl⟩, sound.built⟩
            | some item =>
                obtain ⟨sub, rfl, table⟩ :=
                  isTable_of_getLast sound.built foundArr (not_not.mp kind) last
                exact ⟨Edited.refl s, table⟩

theorem walkFrom_ends (sound : Sound conf s) (there : IsTable s.nodes id)
    {tpath : List (Key × TokenT)} (all : ∀ e ∈ tpath, e.2.Scanned conf) :
    (walkFrom id tpath s).Ends (fun dest t => Onward conf s t ∧ IsTable t.nodes dest)
      (Fails conf) := by
  induction tpath generalizing s id with
  | nil => exact ⟨.refl sound, there⟩
  | cons e rest ih =>
      unfold walkFrom
      apply Proc.ends_bind (walkKey_ends sound there e.1 (all e List.mem_cons_self))
      rintro nexttab t ⟨edited, table⟩
      have onward := edited.onward sound
      apply (ih onward.sound table fun other member => all other (List.mem_cons_of_mem e member)).mono
      · exact fun _ u last => ⟨onward.trans last.1, last.2⟩
      · exact fun _ _ fails => fails

theorem walkTabpath_ends (sound : Sound conf s) :
    (walkTabpath s).Ends (fun _ => Onward conf s) (Fails conf) := by
  unfold walkTabpath
  rw [Proc.read_bind]
  apply Proc.ends_bind
    (walkFrom_ends sound sound.built.root fun e member => (sound.tpath e member).1)
  rintro curtab t ⟨onward, table⟩
  exact ⟨onward.nodes, onward.left, onward.sound.withCurtab table⟩

variable {z : TokenT}

theorem selectTable_ends (sound : Sound conf s) (scanned : z.Scanned conf)
    (string : z.tok = .string) : (selectTable z s).Ends (fun _ => Onward conf s) (Fails conf) := by
  unfold selectTable
  rw [Proc.read_bind]
  apply Proc.ends_bind (createKeytableInTable_ends sound sound.curtab scanned string)
  rintro new t ⟨edited, table⟩
  have onward := edited.onward sound
  exact ⟨onward.nodes, onward.left, onward.sound.withCurtab table⟩

theorem selectedArray_ends (sound : Sound conf s) (there : IsTable s.nodes id)
    (scanned : z.Scanned conf) (string : z.tok = .string) :
    (selectedArray id z s).Ends (fun dest t => Edited s t ∧ IsArray t.nodes dest)
      (Fails conf) := by
  obtain ⟨tab, found⟩ := exists_table there
  unfold selectedArray
  apply Proc.ends_bind (normalizeKey_ends scanned string sound.built)
  rintro zstr _ rfl
  rw [Proc.bind_of_ok (getTable_run found)]
  cases known : tab.arr.lookup zstr with
  | some arr => exact ⟨Edited.refl s, isArray_of_lookup sound.built found known⟩
  | none =>
      apply (createKeyarrayInTable_ends sound there scanned string (.inr rfl)).mono
      · rintro dest t ⟨edited, new⟩
        refine ⟨edited, ?_⟩
        simp [IsArray, sortAt, new, Node.isTable]
      · exact fun _ _ fails => fails

theorem ArrayT.widen_same {kind : Kind} {arr : ArrayT} (same : arr.kind = kind) :
    arr.widen kind = arr := by
  unfold widen
  by_cases unset : arr.kind = .unset
  · rw [if_pos unset, ← same]
  · rw [if_neg unset, if_neg (not_not.mpr same)]

theorem selectArray_ends (sound : Sound conf s) (scanned : z.Scanned conf)
    (string : z.tok = .string) : (selectArray z s).Ends (fun _ => Onward conf s) (Fails conf) := by
  unfold selectArray
  rw [Proc.read_bind]
  apply Proc.ends_bind (selectedArray_ends sound sound.curtab scanned string)
  rintro arr t ⟨edited, array⟩
  have onward := edited.onward sound
  obtain ⟨found, there⟩ := exists_array array
  rw [Proc.bind_of_ok (getArray_run there)]
  apply Proc.ends_ite
  · exact fun _ => Fails.of_line scanned onward.sound.built rfl
  · intro kind
    have step := NodesStep.tableElement there (.inl (not_not.mp kind))
    rw [ArrayT.widen_same (not_not.mp kind)] at step
    have added := (Edited.single step).onward onward.sound
    rw [createTableInArray, Proc.bind_assoc, Proc.bind_of_ok (getArray_run there),
      Proc.bind_of_ok (alloc_run _ _ _ _)]
    exact onward.trans ⟨added.nodes, added.left, added.sound.withCurtab (sortAt_leaf arr _ _)⟩

theorem endSelect_ends (sound : Sound conf s) (llb : Bool) :
    (endSelect llb s).Ends (fun _ => Onward conf s) (Fails conf) := by
  unfold endSelect
  rw [Proc.read_bind]
  apply Proc.ends_ite
  · exact fun _ => Fails.of_line sound.tok sound.built rfl
  · intro _
    apply Proc.ends_ite
    · exact fun _ => Fails.of_line sound.tok sound.built rfl
    · intro _
      have first : (Proc.when llb (eatToken .rbracket true 1387) s).Ends
          (fun _ => Onward conf s) (Fails conf) :=
        Proc.ends_ite (fun _ => eatToken_onward sound .rbracket true 1387) fun _ => .refl sound
      apply Proc.ends_bind first
      intro _ t onward
      apply Proc.ends_bind (eatToken_onward onward.sound .rbracket true 1391)
      intro _ u behind
      rw [Proc.read_bind]
      apply Proc.ends_ite
      · exact fun _ => Fails.of_line behind.sound.tok behind.sound.built rfl
      · exact fun _ => onward.trans behind

/-- Right behind a `[` the next one is a token of its own. -/
theorem next_of_second {t next : TokenT} (one : t.len = 1)
    (second : t.ptr[1]? = some (ascii '[')) (ran : t.next true = .ok next) :
    next.tok = .lbracket := by
  obtain ⟨first, rest, eq⟩ : ∃ first rest, t.ptr = first :: ascii '[' :: rest := by
    cases ptr : t.ptr with
    | nil =>
        rw [ptr] at second
        cases second
    | cons first tail =>
        rw [ptr] at second
        obtain ⟨rest, rfl⟩ := List.head?_eq_some_iff.mp (List.head?_eq_getElem?.trans second)
        exact ⟨first, rest, rfl⟩
  unfold TokenT.next at ran
  rw [one, eq] at ran
  cases ran
  rfl

theorem eatToken_next (typ : TokenType) (dotisspecial : Bool) (fline : Nat) (s : ContextT)
    (same : s.tok.tok = typ) :
    (eatToken typ dotisspecial fline s).Ends (fun _ t => s.tok.next dotisspecial = .ok t.tok)
      fun _ _ => True := by
  unfold eatToken nextToken
  rw [Proc.read_bind, if_neg (not_not.mpr same), Proc.read_bind]
  cases s.tok.next dotisspecial with
  | error reason => exact trivial
  | ok next => exact rfl

theorem openSelect_ends (sound : Sound conf s) (bracket : s.tok.tok = .lbracket) :
    (openSelect s).Ends
      (fun _ t => Onward conf s t ∧ t.tok.ptr.length < s.tok.ptr.length) (Fails conf) := by
  have notEof : s.tok.eof = false := by
    rw [Bool.eq_false_iff]
    intro eof
    have newline := sound.tok.atEof eof
    rw [bracket] at newline
    cases newline
  have one := sound.tok.one notEof (by rw [bracket]; decide)
  unfold openSelect
  rw [Proc.read_bind, if_neg (not_not.mpr bracket)]
  apply Proc.ends_bind ((eatToken_lt sound (by decide) (by decide) true 1319).and
    (eatToken_next .lbracket true 1319 s bracket) |>.mono (fun _ _ both => both)
      fun _ _ both => both.1)
  rintro _ t ⟨⟨onward, less⟩, ran⟩
  rw [Proc.read_bind]
  apply Proc.ends_ite
  · -- the assertion
    intro failed
    exact absurd (next_of_second one failed.1 ran) failed.2
  · intro _
    have second : (Proc.when (s.tok.ptr[1]? = some (ascii '['))
        (eatToken .lbracket true 1323) t).Ends (fun _ => Onward conf t) (Fails conf) :=
      Proc.ends_ite (fun _ => eatToken_onward onward.sound .lbracket true 1323)
        fun _ => .refl onward.sound
    apply Proc.ends_bind second
    intro _ u behind
    have left := behind.left
    exact ⟨onward.trans behind, by omega⟩

theorem parseSelect_ends (sound : Sound conf s) (bracket : s.tok.tok = .lbracket) :
    (parseSelect s).Ends
      (fun _ t => Onward conf s t ∧ t.tok.ptr.length < s.tok.ptr.length) (Fails conf) := by
  unfold parseSelect
  apply Proc.ends_bind (openSelect_ends sound bracket)
  rintro llb t ⟨opened, less⟩
  apply Proc.ends_bind (fillTabpath_ends opened.sound)
  rintro _ u ⟨filled, keys⟩
  rw [Proc.read_bind]
  cases last : u.tpath.getLast? with
  | none => exact absurd (List.getLast?_eq_none_iff.mp last) keys
  | some z =>
      have zOk := filled.sound.tpath z (List.mem_of_getLast? last)
      have popped : Sound conf { u with tpath := u.tpath.dropLast } :=
        filled.sound.withTpath fun e member => filled.sound.tpath e (List.dropLast_subset _ member)
      have first : Onward conf s { u with tpath := u.tpath.dropLast } :=
        (opened.trans filled).trans ⟨.refl, Nat.le_refl _, popped⟩
      have left := filled.left
      dsimp only
      rw [Proc.modify_bind]
      apply Proc.ends_bind (walkTabpath_ends popped)
      intro _ v walked
      have close : ∀ w, Onward conf v w → (endSelect llb w).Ends
          (fun _ x => Onward conf s x ∧ x.tok.ptr.length < s.tok.ptr.length) (Fails conf) := by
        intro w chosen
        have behind := walked.trans chosen
        apply (endSelect_ends behind.sound llb).mono
        · intro _ x closed
          have all := behind.trans closed
          have shrunk : x.tok.ptr.length ≤ u.tok.ptr.length := all.left
          exact ⟨first.trans all, by omega⟩
        · exact fun _ _ fails => fails
      apply Proc.ends_ite
      · intro _
        exact Proc.ends_bind (selectArray_ends walked.sound zOk.1 zOk.2) fun _ w => close w
      · intro _
        exact Proc.ends_bind (selectTable_ends walked.sound zOk.1 zOk.2) fun _ w => close w

end Select

section Parse

variable {strtod : List UInt8 → Bool}

theorem parseLoop_ends (sound : Sound conf s) {fuel : Nat} (enough : s.tok.ptr.length < fuel) :
    (parseLoop strtod fuel s).Ends (fun _ t => Onward conf s t ∧ t.tok.eof = true)
      (Fails conf) := by
  induction fuel generalizing s with
  | zero => omega
  | succ fuel ih =>
      have again : ∀ {t : ContextT}, Onward conf s t → t.tok.ptr.length < s.tok.ptr.length →
          (parseLoop strtod fuel t).Ends (fun _ u => Onward conf s u ∧ u.tok.eof = true)
            (Fails conf) := by
        intro t onward less
        apply (ih onward.sound (by omega)).mono
        · exact fun _ u last => ⟨onward.trans last.1, last.2⟩
        · exact fun _ _ fails => fails
      unfold parseLoop
      rw [Proc.read_bind]
      apply Proc.ends_ite
      · exact fun eof => ⟨.refl sound, eof⟩
      · intro more
        have notEof := Bool.eq_false_iff.mpr more
        cases typ : s.tok.tok
        case newline =>
          have one := sound.tok.one notEof (by rw [typ]; decide)
          apply Proc.ends_bind (nextToken_ends sound.tok.toWithin sound.built true)
          intro _ t moved
          have left := moved.1.left
          exact again (moved.onward sound) (by omega)
        case string =>
          dsimp only
          rw [Proc.read_bind]
          apply Proc.ends_bind ((parserEnds conf strtod _).keyval sound sound.curtab (Nat.le_refl _))
          intro _ t onward
          rw [Proc.read_bind]
          apply Proc.ends_ite
          · exact fun _ => Fails.of_line onward.sound.tok onward.sound.built rfl
          · intro newline
            apply Proc.ends_bind (eatToken_ends onward.sound .newline true 1450)
            rintro _ u ⟨moved, _⟩
            have eaten := moved.onward onward.sound
            have first := onward.left
            have second := moved.1.left
            apply again (onward.trans eaten)
            -- the newline takes a byte, or it is the end and there was text before it
            cases eof : t.tok.eof with
            | false =>
                have one := onward.sound.tok.one eof (by rw [not_not.mp newline]; decide)
                omega
            | true =>
                have none := onward.sound.tok.eof_iff.mp eof
                have some : s.tok.ptr ≠ [] := fun none => more (sound.tok.eof_iff.mpr none)
                have positive := List.length_pos_iff.mpr some
                rw [none] at second
                simp only [List.length_nil] at second
                omega
        case lbracket =>
          apply Proc.ends_bind (parseSelect_ends sound typ)
          rintro _ t ⟨onward, less⟩
          exact again onward less
        all_goals exact Fails.of_line sound.tok sound.built rfl

/-- For every text `toml_parse` returns, and it fails no assertion and follows no wild
reference: either it has read the text to its end, or it stops with an internal error or with
one that names a line of the text. -/
theorem tomlParse_ends (strtod : List UInt8 → Bool) (conf : List UInt8) :
    (tomlParse strtod conf).Ends (fun _ s => Sound (sliceTo conf) s ∧ s.tok.eof = true)
      (Fails (sliceTo conf)) := by
  have start : (ContextT.start (sliceTo conf)).tok.Within (sliceTo conf) :=
    ⟨⟨[], rfl, rfl⟩, Nat.zero_le _⟩
  have root : Built (ContextT.start (sliceTo conf)).nodes := .refl
  unfold tomlParse parseLoop
  rw [Proc.read_bind]
  apply Proc.ends_bind (nextToken_ends start root true)
  intro _ s moved
  have sound : Sound (sliceTo conf) s := by
    have eq := moved.2
    refine ⟨?_, ?_, moved.1.toScanned, ?_⟩
    · rw [eq]
      exact root
    · rw [eq]
      exact rfl
    · rw [eq]
      exact fun e member => absurd member List.not_mem_nil
  have left : s.tok.ptr.length + 0 ≤ (sliceTo conf).length := moved.1.left
  apply (parseLoop_ends sound (by omega)).mono
  · exact fun _ t last => ⟨last.1.sound, last.2⟩
  · exact fun _ _ fails => fails

end Parse

section Exits

/-- Every node is freed, and none is freed twice or reached through a wild reference. -/
def FreedOnce (nodes : List Node) : Prop :=
  ∃ freed, tomlFree nodes = some freed ∧ freed.Perm (List.range nodes.length)

/-- Every text is parsed to its end, or the parser stops: with an internal error, which names no
line of the text, or with an error at a line that the text has. -/
theorem text_parsed_or_blamed (strtod : List UInt8 → Bool) (conf : List UInt8) :
    (∃ s, tomlParse strtod conf = .ok () s ∧ s.tok.ptr = []) ∨
      ∃ reason s, tomlParse strtod conf = .error reason s ∧
        (reason.IsInternal ∨ reason.Blames (sliceTo conf)) := by
  obtain ⟨_, s, ended, sound, eof⟩ | ⟨reason, s, ended, blames, -⟩ :=
    (tomlParse_ends strtod conf).ok_or_error
  · exact .inl ⟨s, ended, sound.tok.eof_iff.mp eof⟩
  · exact .inr ⟨reason, s, ended, blames⟩

/-- Whether `toml_parse` fails or its table is freed later: all that it made is freed once. -/
theorem parse_freed_once (strtod : List UInt8 → Bool) (conf : List UInt8) :
    (tomlParse strtod conf).Ends (fun _ s => FreedOnce s.nodes) fun _ s => FreedOnce s.nodes :=
  (tomlParse_ends strtod conf).mono (fun _ _ last => last.1.built.free_all)
    fun _ _ fails => fails.2.free_all

/-- A key stands in a table once, be it for a value, an array or a table; and the kind and the
type of an array are those of its elements. -/
theorem parse_nodes_described (strtod : List UInt8 → Bool) (conf : List UInt8) :
    (tomlParse strtod conf).Ends
      (fun _ s => ∀ node ∈ s.nodes, node.UniqueKeys ∧ node.IsDescribed)
      fun _ s => ∀ node ∈ s.nodes, node.UniqueKeys ∧ node.IsDescribed := by
  have described : ∀ {nodes : List Node}, Built nodes →
      ∀ node ∈ nodes, node.UniqueKeys ∧ node.IsDescribed :=
    fun built node member => ⟨built.uniqueKeys node member, built.isDescribed node member⟩
  exact (tomlParse_ends strtod conf).mono (fun _ _ last => described last.1.built)
    fun _ _ fails => described fails.2

end Exits

end RenogyX10.Toml
