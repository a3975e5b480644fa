import RenogyX10.Toml.Quote

set_option autoImplicit false

namespace RenogyX10.Toml

open CString

/-- A line for a key and its raw value. -/
def lineOf (e : Key × List UInt8) : List UInt8 := e.1 ++ ascii '=' :: (e.2 ++ [ascii '\n'])

/-- `[name]` and the lines of the table. -/
def sectionOf (e : Key × List (Key × List UInt8)) : List UInt8 :=
  ascii '[' :: (e.1 ++ ascii ']' :: ascii '\n' :: e.2.flatMap lineOf)

abbrev Sections := List (Key × List (Key × List UInt8))

def render (doc : Sections) : List UInt8 := doc.flatMap sectionOf

/-- A key that is written without quotes, and that does not begin like a date. -/
structure IsBare (key : Key) : Prop where
  bare : ∀ c ∈ key, isBareKey c = true
  head : ∃ c, key.head? = some c ∧ isdigit c = false

/-- A raw value that is one token of its line. -/
structure IsToken (raw : List UInt8) : Prop where
  skip : ∀ rest, skipBlank false (raw ++ ascii '\n' :: rest) = raw ++ ascii '\n' :: rest
  scan : ∀ lineno rest, tokenAt lineno false (raw ++ ascii '\n' :: rest) =
    .ok (setToken .string lineno (raw ++ ascii '\n' :: rest) raw.length)

/-- The nodes of such a document: the root and, one by one, its tables. -/
def nodesOf (doc : Sections) : List Node :=
  .table { tab := (doc.map Prod.fst).zipIdx 1 } :: doc.map fun e => .table { kval := e.2 }

variable {key : Key} {raw rest : List UInt8} {lineno : Nat} {s : ContextT}

section Tokens

/-- What may follow a bare key. -/
def Stops (c : UInt8) : Prop := isLiteral true c = false

theorem isLiteral_of_bare {c : UInt8} (bare : isBareKey c = true) : isLiteral true c = true := by
  have dot : c ≠ ascii '.' := by
    rintro rfl
    exact absurd bare (by decide)
  simp only [isBareKey, Bool.or_eq_true, decide_eq_true_eq] at bare
  simp only [isLiteral, Bool.and_true, Bool.and_eq_true, Bool.not_eq_true', decide_eq_false_iff_not,
    Bool.or_eq_true, decide_eq_true_eq]
  refine ⟨dot, ?_⟩
  obtain (alnum | underscore) | dash := bare
  · exact .inl (.inl (.inl (.inl alnum)))
  · exact .inl (.inr underscore)
  · exact .inl (.inl (.inr dash))

theorem punctuation_of_bare {c : UInt8} (bare : isBareKey c = true) : punctuation c = none := by
  have other : ∀ d : UInt8, isBareKey d = false → c ≠ d := by
    rintro d no rfl
    rw [bare] at no
    cases no
  unfold punctuation
  rw [if_neg (other _ rfl), if_neg (other _ rfl), if_neg (other _ rfl), if_neg (other _ rfl),
    if_neg (other _ rfl), if_neg (other _ rfl), if_neg (other _ rfl)]

theorem scanDate_none {c : UInt8} {p : List UInt8} (digit : isdigit c = false) :
    scanDate (c :: p) = none := by
  simp [scanDate, scanDigits, digit]

theorem scanTime_none {c : UInt8} {p : List UInt8} (digit : isdigit c = false) :
    scanTime (c :: p) = none := by
  simp [scanTime, scanDigits, digit]

theorem scanString_literal {c stop : UInt8} {p : List UInt8} {dotisspecial : Bool}
    (single : c ≠ ascii '\'') (double : c ≠ ascii '"')
    (noDate : scanDate (c :: p ++ stop :: rest) = none)
    (noTime : scanTime (c :: p ++ stop :: rest) = none)
    (literal : ∀ d ∈ c :: p, isLiteral dotisspecial d = true)
    (stops : isLiteral dotisspecial stop = false) :
    scanString (c :: p ++ stop :: rest) lineno dotisspecial =
      .ok (setToken .string lineno (c :: p ++ stop :: rest) (c :: p).length) := by
  have noTriple : ∀ quoteMark, c ≠ quoteMark →
      ¬ (tripleOf quoteMark).isPrefixOf (c :: p ++ stop :: rest) := by
    intro quoteMark differs triple
    obtain ⟨tail, eq⟩ := List.isPrefixOf_iff_prefix.mp triple
    exact differs (List.cons.inj eq).1.symm
  have noQuote : ∀ quoteMark, c ≠ quoteMark → (c :: p ++ stop :: rest)[0]? ≠ some quoteMark :=
    fun quoteMark differs same => differs (Option.some.inj same)
  have length : strspn (isLiteral dotisspecial) (c :: p ++ stop :: rest) = (c :: p).length := by
    apply strspn_append literal
    intro d member
    cases member
    exact stops
  unfold scanString
  rw [if_neg (noTriple _ single), if_neg (noTriple _ double), if_neg (noQuote _ single),
    if_neg (noQuote _ double), noDate, noTime, length]
  rfl

theorem IsBare.exists_cons (bare : IsBare key) :
    ∃ c p, key = c :: p ∧ isdigit c = false ∧ isBareKey c = true ∧
      ∀ d, isBareKey d = false → c ≠ d := by
  obtain ⟨c, head, digit⟩ := bare.head
  obtain ⟨p, rfl⟩ := List.head?_eq_some_iff.mp head
  have first := bare.bare c List.mem_cons_self
  refine ⟨c, p, rfl, digit, first, ?_⟩
  rintro d no rfl
  rw [first] at no
  cases no

theorem tokenAt_bare {stop : UInt8} (bare : IsBare key) (stops : Stops stop) :
    tokenAt lineno true (key ++ stop :: rest) =
      .ok (setToken .string lineno (key ++ stop :: rest) key.length) := by
  obtain ⟨c, p, rfl, digit, first, other⟩ := bare.exists_cons
  have scanned : scanString (c :: p ++ stop :: rest) lineno true =
      .ok (setToken .string lineno (c :: p ++ stop :: rest) (c :: p).length) :=
    scanString_literal (other _ rfl) (other _ rfl) (scanDate_none digit) (scanTime_none digit)
      (fun d member => isLiteral_of_bare (bare.bare d member)) stops
  rw [← scanned]
  unfold tokenAt
  rw [List.cons_append]
  dsimp only
  rw [if_neg (fun dot => other _ rfl dot.2), punctuation_of_bare first]

theorem skipBlank_bare {stop : UInt8} (bare : IsBare key) :
    skipBlank false (key ++ stop :: rest) = key ++ stop :: rest := by
  obtain ⟨c, p, rfl, digit, first, other⟩ := bare.exists_cons
  have notBlank : ¬ isBlank c = true := by
    simp only [isBlank, Bool.or_eq_true, decide_eq_true_eq, not_or]
    exact ⟨⟨other _ rfl, other _ rfl⟩, other _ rfl⟩
  rw [List.cons_append, skipBlank, if_neg (other _ rfl), if_neg notBlank]

theorem normalizeKey_bare {tok : TokenT} (taken : tok.ptr.take tok.len = key) (bare : IsBare key) :
    normalizeKey tok s = .ok key s := by
  obtain ⟨c, p, rfl, digit, first, other⟩ := bare.exists_cons
  have all : (tok.ptr.take tok.len).all isBareKey = true := by
    rw [taken]
    exact List.all_eq_true.mpr bare.bare
  have head : tok.ptr.head? = some c := by
    have taken' := congrArg List.head? taken
    rw [List.head?_take] at taken'
    split at taken'
    · cases taken'
    · exact taken'
  unfold normalizeKey
  rw [head]
  dsimp only
  rw [if_neg (not_or.mpr ⟨other _ rfl, other _ rfl⟩), if_pos all, taken]
  rfl

end Tokens

section Nodes

theorem lookup_eq_none {α : Type} {entries : List (Key × α)} (missing : key ∉ entries.map Prod.fst) :
    entries.lookup key = none := by
  rw [Option.eq_none_iff_forall_not_mem]
  exact fun value found => missing (mem_keys_of_lookup found)

theorem checkKey_eq_none {tab : TableT} (missing : key ∉ tab.keys) : checkKey tab key = none := by
  simp only [TableT.keys, List.mem_append, not_or] at missing
  rw [checkKey, lookup_eq_none missing.1, lookup_eq_none missing.2.1, lookup_eq_none missing.2.2]
  rfl

theorem nodesOf_length (doc : Sections) : (nodesOf doc).length = doc.length + 1 := by
  rw [nodesOf, List.length_cons, List.length_map]

theorem nodesOf_section (doc : Sections) (name : Key) :
    (nodesOf doc).set 0 (.table
        { tab := (doc.map Prod.fst).zipIdx 1 ++ [(name, (nodesOf doc).length)] }) ++
      [.table {}] = nodesOf (doc ++ [(name, [])]) := by
  rw [nodesOf_length]
  simp [nodesOf, List.zipIdx_append, Nat.add_comm]

theorem nodesOf_line (doc : Sections) (name : Key) (kval : List (Key × List UInt8))
    (e : Key × List UInt8) :
    (nodesOf (doc ++ [(name, kval)])).set (doc.length + 1) (.table { kval := kval ++ [e] }) =
      nodesOf (doc ++ [(name, kval ++ [e])]) := by
  simp [nodesOf]

theorem nodesOf_last (doc : Sections) (name : Key) (kval : List (Key × List UInt8)) :
    (nodesOf (doc ++ [(name, kval)]))[doc.length + 1]? = some (.table { kval := kval }) := by
  simp [nodesOf]

end Nodes

section Steps

/-- The token at `p` is the current one. -/
def At (p : List UInt8) (s : ContextT) : Prop :=
  ∃ lineno, skipBlank false p = p ∧ tokenAt lineno true p = .ok s.tok

/-- What stands at the beginning of a line can be scanned. -/
def Opens (p : List UInt8) : Prop :=
  skipBlank false p = p ∧ ∀ lineno, ∃ t, tokenAt lineno true p = .ok t

theorem nextToken_run {dotisspecial : Bool} {next : TokenT} {p : List UInt8}
    (behind : s.tok.ptr.drop s.tok.len = p) (start : skipBlank false p = p)
    (scanned : tokenAt (s.tok.lineno + (s.tok.ptr.take s.tok.len).count (ascii '\n'))
      dotisspecial p = .ok next) :
    nextToken dotisspecial s = .ok () { s with tok := next } := by
  have ran : s.tok.next dotisspecial = .ok next := by
    rw [TokenT.next, behind, start, scanned]
  unfold nextToken
  rw [Proc.read_bind, ran]
  rfl

theorem eatToken_run {typ : TokenType} {dotisspecial : Bool} {fline : Nat} {t : ContextT}
    (same : s.tok.tok = typ) (ran : nextToken dotisspecial s = .ok () t) :
    eatToken typ dotisspecial fline s = .ok () t := by
  unfold eatToken
  rw [Proc.read_bind, if_neg (not_not.mpr same), ran]

/-- The line behind a token. -/
def TokenT.lineAfter (t : TokenT) : Nat := t.lineno + (t.ptr.take t.len).count (ascii '\n')

theorem nextToken_mark {typ : TokenType} {c : UInt8} {p : List UInt8}
    (behind : s.tok.ptr.drop s.tok.len = c :: p) (mark : punctuation c = some typ)
    (notDot : c ≠ ascii '.') (start : skipBlank false (c :: p) = c :: p) (dotisspecial : Bool) :
    nextToken dotisspecial s =
      .ok () { s with tok := setToken typ s.tok.lineAfter (c :: p) 1 } := by
  apply nextToken_run behind start
  unfold tokenAt
  dsimp only
  rw [if_neg (fun dot => notDot dot.2), mark]
  rfl

theorem nextToken_value (token : IsToken raw)
    (behind : s.tok.ptr.drop s.tok.len = raw ++ ascii '\n' :: rest) :
    nextToken false s = .ok ()
      { s with tok := setToken .string s.tok.lineAfter (raw ++ ascii '\n' :: rest) raw.length } :=
  nextToken_run behind (token.skip rest) (token.scan _ rest)

variable (strtod : List UInt8 → Bool) {fuel id : Nat} {tab : TableT}

theorem createKeyvalInTable_run {keytok : TokenT} (taken : keytok.ptr.take keytok.len = key)
    (bare : IsBare key) (found : s.nodes[id]? = some (.table tab)) (new : key ∉ tab.keys) :
    createKeyvalInTable id keytok raw s =
      .ok () (s.put id (.table { tab with kval := tab.kval ++ [(key, raw)] })) := by
  unfold createKeyvalInTable
  rw [Proc.bind_of_ok (normalizeKey_bare taken bare), Proc.bind_of_ok (getTable_run found),
    checkKey_eq_none new]
  rfl

theorem parseKeyval_run (fuel : Nat) (bare : IsBare key) (token : IsToken raw)
    (tok : s.tok = setToken .string lineno (key ++ ascii '=' :: (raw ++ ascii '\n' :: rest)) key.length)
    (found : s.nodes[id]? = some (.table tab)) (writable : tab.readonly = false)
    (new : key ∉ tab.keys) :
    ∃ lineno, parseKeyval strtod (fuel + 1) id s = .ok ()
      { s.put id (.table { tab with kval := tab.kval ++ [(key, raw)] }) with
        tok := setToken .newline lineno (ascii '\n' :: rest) 1 } := by
  have behind : s.tok.ptr.drop s.tok.len = ascii '=' :: (raw ++ ascii '\n' :: rest) := by
    rw [tok]
    exact List.drop_left
  have taken : s.tok.ptr.take s.tok.len = key := by
    rw [tok]
    exact List.take_left
  have string : s.tok.tok = .string := by
    rw [tok]
    rfl
  let equalTok := setToken .equal s.tok.lineAfter (ascii '=' :: (raw ++ ascii '\n' :: rest)) 1
  let valueTok := setToken .string equalTok.lineAfter (raw ++ ascii '\n' :: rest) raw.length
  let next := s.put id (.table { tab with kval := tab.kval ++ [(key, raw)] })
  have equal : eatToken .string true 1111 s = .ok () { s with tok := equalTok } :=
    eatToken_run string (nextToken_mark behind rfl (by decide) rfl true)
  have value : nextToken false { s with tok := equalTok } = .ok () { s with tok := valueTok } :=
    nextToken_value token rfl
  have entry : createKeyvalInTable id s.tok raw { s with tok := valueTok } =
      .ok () { next with tok := valueTok } :=
    createKeyvalInTable_run taken bare found new
  have ended : nextToken true { next with tok := valueTok } =
      .ok () { next with tok := setToken .newline valueTok.lineAfter (ascii '\n' :: rest) 1 } :=
    nextToken_mark List.drop_left rfl (by decide) rfl true
  have all : valueTok.ptr.take valueTok.len = raw := List.take_left
  refine ⟨valueTok.lineAfter, ?_⟩
  have open_ : ¬ tab.readonly = true := by
    rw [writable]
    exact Bool.false_ne_true
  unfold parseKeyval
  rw [Proc.bind_of_ok (getTable_run found), Proc.read_bind, if_neg open_, Proc.bind_of_ok equal,
    Proc.read_bind, if_neg (show ¬ equalTok.tok = .dot from fun same => nomatch same)]
  refine (congrFun (if_neg (not_not.mpr rfl)) _).trans ?_
  rw [Proc.bind_of_ok value, Proc.read_bind]
  show (createKeyvalInTable id s.tok (valueTok.ptr.take valueTok.len) >>= fun _ => nextToken true)
    { s with tok := valueTok } = _
  rw [all, Proc.bind_of_ok entry, ended]

theorem nextToken_line {p : List UInt8} (opens : Opens p)
    (tok : s.tok = setToken .newline lineno (ascii '\n' :: p) 1) :
    ∃ next, nextToken true s = .ok () { s with tok := next } ∧ At p { s with tok := next } := by
  obtain ⟨next, scanned⟩ := opens.2 s.tok.lineAfter
  refine ⟨next, nextToken_run ?_ opens.1 scanned, _, opens.1, scanned⟩
  rw [tok]
  rfl

theorem At.tok {p : List UInt8} {t : Nat → TokenT} (at_ : At p s)
    (scanned : ∀ lineno, tokenAt lineno true p = .ok (t lineno)) : ∃ lineno, s.tok = t lineno := by
  obtain ⟨lineno, -, there⟩ := at_
  rw [scanned lineno] at there
  exact ⟨lineno, (Except.ok.inj there).symm⟩

theorem parseLoop_line (fuel : Nat) (bare : IsBare key) (token : IsToken raw) (opens : Opens rest)
    (at_ : At (lineOf (key, raw) ++ rest) s) (found : s.nodes[s.curtab]? = some (.table tab))
    (writable : tab.readonly = false) (new : key ∉ tab.keys) :
    ∃ t, parseLoop strtod (fuel + 1) s = parseLoop strtod fuel t ∧ At rest t ∧
      t.nodes = s.nodes.set s.curtab (.table { tab with kval := tab.kval ++ [(key, raw)] }) ∧
      t.curtab = s.curtab := by
  have text : lineOf (key, raw) ++ rest = key ++ ascii '=' :: (raw ++ ascii '\n' :: rest) := by
    simp [lineOf]
  rw [text] at at_
  have stops : Stops (ascii '=') := rfl
  obtain ⟨l, tok⟩ := at_.tok fun lineno => tokenAt_bare bare stops
  obtain ⟨l', keyval⟩ := parseKeyval_run strtod (3 * s.tok.ptr.length) bare token tok found writable
    new
  let line : ContextT := { s.put s.curtab (.table { tab with kval := tab.kval ++ [(key, raw)] }) with
    tok := setToken .newline l' (ascii '\n' :: rest) 1 }
  obtain ⟨next, ran, there⟩ := nextToken_line (s := line) opens rfl
  refine ⟨{ line with tok := next }, ?_, there, rfl, rfl⟩
  have string : s.tok.tok = .string := by
    rw [tok]
    rfl
  have notEof : ¬ s.tok.eof = true := by
    rw [tok]
    exact Bool.false_ne_true
  have eaten : eatToken .newline true 1450 line = .ok () { line with tok := next } :=
    eatToken_run rfl ran
  conv_lhs => unfold parseLoop
  rw [Proc.read_bind, if_neg notEof, string]
  dsimp only
  rw [Proc.read_bind, Proc.bind_of_ok keyval, Proc.read_bind]
  refine (congrFun (if_neg (not_not.mpr rfl)) _).trans ?_
  exact Proc.bind_of_ok eaten

/-- `[name]` and its newline. -/
def headOf (name : Key) : List UInt8 := ascii '[' :: (name ++ [ascii ']', ascii '\n'])

theorem createKeytableInTable_run {keytok : TokenT} (taken : keytok.ptr.take keytok.len = key)
    (bare : IsBare key) (found : s.nodes[id]? = some (.table tab)) (new : key ∉ tab.keys) :
    createKeytableInTable id keytok s = .ok s.nodes.length
      { s with
        nodes := s.nodes.set id (.table { tab with tab := tab.tab ++ [(key, s.nodes.length)] }) ++
          [.table {}] } := by
  unfold createKeytableInTable
  rw [Proc.bind_of_ok (normalizeKey_bare taken bare), Proc.bind_of_ok (getTable_run found),
    checkKey_eq_none new]
  rfl

theorem fillTabpath_run {p : List UInt8} (bare : IsBare key)
    (tok : s.tok = setToken .string lineno (key ++ ascii ']' :: p) key.length) :
    fillTabpath s = .ok ()
      { s with
        tok := setToken .rbracket s.tok.lineAfter (ascii ']' :: p) 1
        tpath := [(key, s.tok)] } := by
  have taken : s.tok.ptr.take s.tok.len = key := by
    rw [tok]
    exact List.take_left
  have behind : s.tok.ptr.drop s.tok.len = ascii ']' :: p := by
    rw [tok]
    exact List.drop_left
  have string : s.tok.tok = .string := by
    rw [tok]
    rfl
  have closed : nextToken true { s with tpath := [(key, s.tok)] } = .ok ()
      { s with
        tok := setToken .rbracket s.tok.lineAfter (ascii ']' :: p) 1
        tpath := [(key, s.tok)] } :=
    nextToken_mark (s := { s with tpath := [(key, s.tok)] }) behind rfl (by decide) rfl true
  have named : normalizeKey s.tok { s with tpath := [] } = .ok key { s with tpath := [] } :=
    normalizeKey_bare taken bare
  unfold fillTabpath fillTabpathLoop
  rw [Proc.read_bind, Proc.modify_bind, Proc.read_bind, Proc.ite_run, if_neg (not_not.mpr string),
    Proc.bind_of_ok named, Proc.modify_bind]
  refine (Proc.bind_of_ok closed).trans ?_
  rw [Proc.read_bind]
  exact congrFun (if_pos rfl) _

theorem openSelect_run (bare : IsBare key)
    (tok : s.tok = setToken .lbracket lineno (headOf key ++ rest) 1) :
    openSelect s = .ok false
      { s with
        tok := setToken .string s.tok.lineAfter (key ++ ascii ']' :: ascii '\n' :: rest) key.length } := by
  have behind : s.tok.ptr.drop s.tok.len = key ++ ascii ']' :: ascii '\n' :: rest := by
    rw [tok]
    simp [setToken, headOf]
  have bracket : s.tok.tok = .lbracket := by
    rw [tok]
    rfl
  have single : ¬ s.tok.ptr[1]? = some (ascii '[') := by
    obtain ⟨c, p, rfl, digit, first, other⟩ := bare.exists_cons
    rw [tok]
    exact fun same => other _ rfl (Option.some.inj same)
  have eaten : eatToken .lbracket true 1319 s = .ok ()
      { s with
        tok := setToken .string s.tok.lineAfter (key ++ ascii ']' :: ascii '\n' :: rest) key.length } :=
    eatToken_run bracket (nextToken_run behind (skipBlank_bare bare) (tokenAt_bare bare rfl))
  unfold openSelect
  rw [Proc.read_bind, Proc.ite_run, if_neg (not_not.mpr bracket), Proc.bind_of_ok eaten,
    Proc.read_bind, Proc.ite_run, if_neg (fun both => single both.1), Proc.when_false _ single]
  rw [Proc.pure_bind_run, decide_eq_false single]
  rfl

theorem endSelect_run {p : List UInt8} (tok : s.tok = setToken .rbracket lineno (ascii ']' :: p) 1)
    (newline : p.head? = some (ascii '\n')) :
    endSelect false s = .ok () { s with tok := setToken .newline s.tok.lineAfter p 1 } := by
  obtain ⟨rest, rfl⟩ := List.head?_eq_some_iff.mp newline
  have bracket : s.tok.tok = .rbracket := by
    rw [tok]
    rfl
  have behind : s.tok.ptr.drop s.tok.len = ascii '\n' :: rest := by
    rw [tok]
    rfl
  have eaten : eatToken .rbracket true 1391 s =
      .ok () { s with tok := setToken .newline s.tok.lineAfter (ascii '\n' :: rest) 1 } :=
    eatToken_run bracket (nextToken_mark behind rfl (by decide) rfl true)
  unfold endSelect
  rw [Proc.read_bind, Proc.ite_run, if_neg (not_not.mpr bracket), Proc.ite_run,
    if_neg (fun both => Bool.false_ne_true both.1), Proc.when_false _ Bool.false_ne_true,
    Proc.pure_bind_run, Proc.bind_of_ok eaten, Proc.read_bind]
  exact congrFun (if_neg (not_not.mpr rfl)) _

theorem parseSelect_run (bare : IsBare key)
    (tok : s.tok = setToken .lbracket lineno (headOf key ++ rest) 1)
    (found : s.nodes[0]? = some (.table tab)) (new : key ∉ tab.keys) :
    ∃ lineno, parseSelect s = .ok ()
      { s with
        tok := setToken .newline lineno (ascii '\n' :: rest) 1
        nodes := s.nodes.set 0 (.table { tab with tab := tab.tab ++ [(key, s.nodes.length)] }) ++
          [.table {}]
        curtab := s.nodes.length
        tpath := [] } := by
  let keyTok := setToken .string s.tok.lineAfter (key ++ ascii ']' :: ascii '\n' :: rest) key.length
  let closeTok := setToken .rbracket keyTok.lineAfter (ascii ']' :: ascii '\n' :: rest) 1
  let nodes := s.nodes.set 0 (.table { tab with tab := tab.tab ++ [(key, s.nodes.length)] }) ++
    [.table {}]
  have filled : fillTabpath { s with tok := keyTok } =
      .ok () { s with tok := closeTok, tpath := [(key, keyTok)] } :=
    fillTabpath_run bare rfl
  have walked : walkTabpath { s with tok := closeTok, tpath := [] } =
      .ok () { s with tok := closeTok, tpath := [], curtab := 0 } := rfl
  have created : createKeytableInTable 0 keyTok { s with tok := closeTok, tpath := [], curtab := 0 } =
      .ok s.nodes.length { s with tok := closeTok, tpath := [], curtab := 0, nodes := nodes } :=
    createKeytableInTable_run List.take_left bare found new
  have selected : selectTable keyTok { s with tok := closeTok, tpath := [], curtab := 0 } =
      .ok () { s with tok := closeTok, tpath := [], nodes := nodes, curtab := s.nodes.length } :=
    Proc.bind_of_ok created
  have closed : endSelect false
      { s with tok := closeTok, tpath := [], nodes := nodes, curtab := s.nodes.length } = .ok ()
        { s with
          tok := setToken .newline closeTok.lineAfter (ascii '\n' :: rest) 1
          tpath := []
          nodes := nodes
          curtab := s.nodes.length } :=
    endSelect_run rfl rfl
  refine ⟨closeTok.lineAfter, ?_⟩
  unfold parseSelect
  rw [Proc.bind_of_ok (openSelect_run bare tok), Proc.bind_of_ok filled, Proc.read_bind]
  show (walkTabpath >>= fun _ => selectTable keyTok >>= fun _ => endSelect false)
    { s with tok := closeTok, tpath := [] } = _
  rw [Proc.bind_of_ok walked, Proc.bind_of_ok selected, closed]

theorem parseLoop_head (fuel : Nat) (bare : IsBare key) (opens : Opens rest) (at_ : At (headOf key ++ rest) s)
    (found : s.nodes[0]? = some (.table tab)) (new : key ∉ tab.keys) :
    ∃ t, parseLoop strtod (fuel + 2) s = parseLoop strtod fuel t ∧ At rest t ∧
      t.nodes = s.nodes.set 0 (.table { tab with tab := tab.tab ++ [(key, s.nodes.length)] }) ++
        [.table {}] ∧ t.curtab = s.nodes.length := by
  obtain ⟨l, tok⟩ := at_.tok (t := fun lineno => setToken .lbracket lineno (headOf key ++ rest) 1)
    fun _ => rfl
  obtain ⟨l', selected⟩ := parseSelect_run bare tok found new
  let nodes := s.nodes.set 0 (.table { tab with tab := tab.tab ++ [(key, s.nodes.length)] }) ++
    [.table {}]
  let line : ContextT := { s with
    tok := setToken .newline l' (ascii '\n' :: rest) 1
    nodes := nodes
    curtab := s.nodes.length
    tpath := [] }
  obtain ⟨next, ran, there⟩ := nextToken_line (s := line) opens rfl
  refine ⟨{ line with tok := next }, ?_, there, rfl, rfl⟩
  have bracket : s.tok.tok = .lbracket := by
    rw [tok]
    rfl
  have notEof : ¬ s.tok.eof = true := by
    rw [tok]
    exact Bool.false_ne_true
  have newline : parseLoop strtod (fuel + 1) line = parseLoop strtod fuel { line with tok := next } := by
    conv_lhs => unfold parseLoop
    rw [Proc.read_bind]
    refine (congrFun (if_neg Bool.false_ne_true) _).trans ?_
    exact Proc.bind_of_ok ran
  conv_lhs => unfold parseLoop
  rw [Proc.read_bind, if_neg notEof, bracket]
  exact (Proc.bind_of_ok selected).trans newline

end Steps

section Parse

variable (strtod : List UInt8 → Bool) {fuel : Nat}

/-- A section that is read back as it was written. -/
structure IsSection (e : Key × List (Key × List UInt8)) : Prop where
  name : IsBare e.1
  keys : (e.2.map Prod.fst).Nodup
  bare : ∀ line ∈ e.2, IsBare line.1
  token : ∀ line ∈ e.2, IsToken line.2
  noNul : ∀ line ∈ e.2, 0 ∉ line.2

theorem opens_nil : Opens [] := ⟨rfl, fun _ => ⟨_, rfl⟩⟩

theorem opens_line (bare : IsBare key) : Opens (lineOf (key, raw) ++ rest) := by
  have text : lineOf (key, raw) ++ rest = key ++ ascii '=' :: (raw ++ ascii '\n' :: rest) := by
    simp [lineOf]
  rw [text]
  exact ⟨skipBlank_bare bare, fun lineno => ⟨_, tokenAt_bare bare rfl⟩⟩

theorem opens_lines {lines : List (Key × List UInt8)} (bare : ∀ line ∈ lines, IsBare line.1)
    (opens : Opens rest) : Opens (lines.flatMap lineOf ++ rest) := by
  cases lines with
  | nil => exact opens
  | cons line lines =>
      rw [List.flatMap_cons, List.append_assoc]
      exact opens_line (bare line List.mem_cons_self)

theorem opens_render (doc : Sections) : Opens (render doc) := by
  cases doc with
  | nil => exact opens_nil
  | cons e doc => exact ⟨rfl, fun lineno => ⟨_, rfl⟩⟩

theorem sectionOf_eq (e : Key × List (Key × List UInt8)) :
    sectionOf e = headOf e.1 ++ e.2.flatMap lineOf := by
  simp [sectionOf, headOf]

theorem lineOf_length (e : Key × List UInt8) : 2 ≤ (lineOf e).length := by
  simp only [lineOf, List.length_append, List.length_cons, List.length_nil]
  omega

theorem parseLoop_lines {doc : Sections} {name : Key} {done lines : List (Key × List UInt8)}
    (keys : ((done ++ lines).map Prod.fst).Nodup) (bare : ∀ line ∈ lines, IsBare line.1)
    (token : ∀ line ∈ lines, IsToken line.2) (opens : Opens rest)
    (at_ : At (lines.flatMap lineOf ++ rest) s) (nodes : s.nodes = nodesOf (doc ++ [(name, done)]))
    (curtab : s.curtab = doc.length + 1) (enough : (lines.flatMap lineOf ++ rest).length < fuel) :
    ∃ fuel' t, parseLoop strtod fuel s = parseLoop strtod fuel' t ∧ rest.length < fuel' ∧
      At rest t ∧ t.nodes = nodesOf (doc ++ [(name, done ++ lines)]) := by
  induction lines generalizing done s fuel with
  | nil => exact ⟨fuel, s, rfl, enough, at_, by rw [nodes, List.append_nil]⟩
  | cons line lines ih =>
      obtain ⟨key, raw⟩ := line
      cases fuel with
      | zero => cases enough
      | succ fuel =>
          rw [List.flatMap_cons, List.append_assoc] at at_ enough
          have found : s.nodes[s.curtab]? = some (.table { kval := done }) := by
            rw [nodes, curtab, nodesOf_last]
          have new : key ∉ TableT.keys { kval := done } := by
            simp only [TableT.keys, List.map_nil, List.append_nil]
            rw [List.map_append, List.map_cons] at keys
            intro member
            exact (List.nodup_append.mp keys).2.2 key member key List.mem_cons_self rfl
          have more := opens_lines (fun line member => bare line (List.mem_cons_of_mem _ member)) opens
          obtain ⟨t, ran, there, nodes', curtab'⟩ := parseLoop_line strtod fuel
            (bare _ List.mem_cons_self) (token _ List.mem_cons_self) more at_ found rfl new
          have long := lineOf_length (key, raw)
          rw [List.length_append] at enough
          rw [nodes, curtab] at nodes'
          have less : (lines.flatMap lineOf ++ rest).length < fuel := by omega
          have keys' : ((done ++ [(key, raw)] ++ lines).map Prod.fst).Nodup := by
            rwa [List.append_assoc]
          obtain ⟨fuel', u, ran', enough', there', nodes''⟩ := ih keys'
            (fun line member => bare line (List.mem_cons_of_mem _ member))
            (fun line member => token line (List.mem_cons_of_mem _ member)) there
            (nodes'.trans (nodesOf_line doc name done (key, raw))) (curtab'.trans curtab) less
          refine ⟨fuel', u, ran.trans ran', enough', there', ?_⟩
          rw [nodes'', List.append_assoc]
          rfl

theorem parseLoop_render {done todo : Sections} (names : ((done ++ todo).map Prod.fst).Nodup)
    (sections : ∀ e ∈ todo, IsSection e) (at_ : At (render todo) s)
    (nodes : s.nodes = nodesOf done) (enough : (render todo).length < fuel) :
    ∃ t, parseLoop strtod fuel s = .ok () t ∧ t.nodes = nodesOf (done ++ todo) := by
  induction todo generalizing done s fuel with
  | nil =>
      cases fuel with
      | zero => cases enough
      | succ fuel =>
          obtain ⟨l, tok⟩ := at_.tok (t := setEof) fun _ => rfl
          refine ⟨s, ?_, by rw [nodes, List.append_nil]⟩
          unfold parseLoop
          rw [Proc.read_bind, tok]
          rfl
  | cons e todo ih =>
      obtain ⟨name, lines⟩ := e
      have here := sections (name, lines) List.mem_cons_self
      have text : render ((name, lines) :: todo) =
          headOf name ++ (lines.flatMap lineOf ++ render todo) := by
        rw [render, List.flatMap_cons, sectionOf_eq, List.append_assoc]
        rfl
      rw [text] at at_ enough
      have long : 3 ≤ (headOf name).length := by
        simp only [headOf, List.length_cons, List.length_append, List.length_nil]
        omega
      rw [List.length_append] at enough
      obtain ⟨fuel, rfl⟩ : ∃ less, fuel = less + 2 := ⟨fuel - 2, by omega⟩
      have found : s.nodes[0]? = some (.table { tab := (done.map Prod.fst).zipIdx 1 }) := by
        rw [nodes]
        rfl
      have new : name ∉ TableT.keys { tab := (done.map Prod.fst).zipIdx 1 } := by
        simp only [TableT.keys, List.map_nil, List.nil_append, List.zipIdx_map_fst]
        rw [List.map_append, List.map_cons] at names
        intro member
        exact (List.nodup_append.mp names).2.2 name member name List.mem_cons_self rfl
      obtain ⟨t, ran, there, nodes', curtab⟩ := parseLoop_head strtod fuel
        here.name (opens_lines here.bare (opens_render todo)) at_ found new
      rw [nodes] at nodes' curtab
      rw [nodesOf_length] at curtab
      have less : (lines.flatMap lineOf ++ render todo).length < fuel := by omega
      have keys : (([] ++ lines).map Prod.fst).Nodup := here.keys
      obtain ⟨fuel', u, ran', enough', there', nodes''⟩ := parseLoop_lines strtod keys here.bare here.token
        (opens_render todo) there (nodes'.trans (nodesOf_section done name)) curtab less
      have names' : ((done ++ [(name, lines)] ++ todo).map Prod.fst).Nodup := by
        rwa [List.append_assoc]
      obtain ⟨v, last, final⟩ := ih names'
        (fun e member => sections e (List.mem_cons_of_mem _ member)) there' nodes'' enough'
      refine ⟨v, ran.trans (ran'.trans last), ?_⟩
      rw [final, List.append_assoc]
      rfl

theorem isBareKey_ne_zero {c : UInt8} (bare : isBareKey c = true) : c ≠ 0 := by
  rintro rfl
  exact absurd bare (by decide)

theorem zero_notMem_render {doc : Sections} (sections : ∀ e ∈ doc, IsSection e) :
    0 ∉ render doc := by
  have noKey : ∀ key, IsBare key → (0 : UInt8) ∉ key :=
    fun key bare member => isBareKey_ne_zero (bare.bare 0 member) rfl
  intro member
  obtain ⟨e, inDoc, inSection⟩ := List.mem_flatMap.mp member
  have here := sections e inDoc
  have noName := noKey e.1 here.name
  rw [sectionOf_eq, List.mem_append] at inSection
  cases inSection with
  | inl head =>
      simp [headOf, noName] at head
  | inr lines =>
      obtain ⟨line, inLines, inLine⟩ := List.mem_flatMap.mp lines
      have noLine := noKey line.1 (here.bare line inLines)
      have noValue := here.noNul line inLines
      simp [lineOf, noLine, noValue] at inLine

/-- A document that was written is parsed to itself. -/
theorem tomlParse_render {doc : Sections} (names : (doc.map Prod.fst).Nodup)
    (sections : ∀ e ∈ doc, IsSection e) :
    ∃ t, tomlParse strtod (render doc) = .ok () t ∧ t.nodes = nodesOf doc := by
  have whole : sliceTo (render doc) = render doc := sliceTo_eq_iff.mpr (zero_notMem_render sections)
  obtain ⟨start, scan⟩ := opens_render doc
  obtain ⟨next, scanned⟩ := scan (ContextT.start (render doc)).tok.lineAfter
  have first : nextToken true (.start (render doc)) =
      .ok () { ContextT.start (render doc) with tok := next } :=
    nextToken_run rfl start scanned
  have at_ : At (render doc) { ContextT.start (render doc) with tok := next } :=
    ⟨_, start, scanned⟩
  have empty : ({ ContextT.start (render doc) with tok := next } : ContextT).nodes = nodesOf [] := rfl
  have names' : (([] ++ doc).map Prod.fst).Nodup := names
  obtain ⟨t, ran, nodes⟩ := parseLoop_render strtod names' sections at_ empty
    (Nat.lt_succ_self _)
  refine ⟨t, ?_, nodes⟩
  unfold tomlParse
  rw [whole]
  unfold parseLoop
  rw [Proc.read_bind]
  exact (congrFun (if_neg Bool.false_ne_true) _).trans ((Proc.bind_of_ok first).trans ran)

end Parse

end RenogyX10.Toml
