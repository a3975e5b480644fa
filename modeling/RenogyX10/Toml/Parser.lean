import RenogyX10.Toml.Values

set_option autoImplicit false

/- `toml_parse`. Tables and arrays are nodes that refer to each other by the order of
their allocation; the key of a node is kept beside the reference to it. Memory is taken
to suffice. -/
namespace RenogyX10.Toml

open CString

/-- `kind` of an array: what its elements are. -/
inductive Kind where
  | unset
  | value
  | array
  | table
  | mixed
deriving DecidableEq

inductive ArrItem where
  | val (valtype : ValType) (raw : List UInt8)
  | arr (id : Nat)
  | tab (id : Nat)
deriving DecidableEq

structure ArrayT where
  kind : Kind := .unset
  type : ValType := .unset
  item : List ArrItem := []
deriving DecidableEq

structure TableT where
  implicit : Bool := false
  readonly : Bool := false
  kval : List (Key × List UInt8) := []
  arr : List (Key × Nat) := []
  tab : List (Key × Nat) := []
deriving DecidableEq

inductive Node where
  | table (tab : TableT)
  | array (arr : ArrayT)
deriving DecidableEq

/-- `context_t`; the root is the first node. -/
structure ContextT where
  tok : TokenT
  nodes : List Node := [.table {}]
  curtab : Nat := 0
  tpath : List (Key × TokenT) := []

abbrev Parse (α : Type) := Proc ParseError ContextT α

def nextToken (dotisspecial : Bool) : Parse Unit := do
  let tok ← Proc.read (·.tok)
  match tok.next dotisspecial with
  | .error reason => Proc.fail reason
  | .ok next => Proc.modify fun s => { s with tok := next }

def eatToken (typ : TokenType) (dotisspecial : Bool) (fline : Nat) : Parse Unit := do
  let tok ← Proc.read (·.tok)
  if tok.tok ≠ typ then Proc.fail (.eInternal fline) else nextToken dotisspecial

/-- A reference to a table; nothing else is there to be followed. -/
def getTable (id : Nat) : Parse TableT := do
  let nodes ← Proc.read (·.nodes)
  match nodes[id]? with
  | some (.table tab) => pure tab
  | _ => Proc.abort

def getArray (id : Nat) : Parse ArrayT := do
  let nodes ← Proc.read (·.nodes)
  match nodes[id]? with
  | some (.array arr) => pure arr
  | _ => Proc.abort

def ContextT.put (id : Nat) (node : Node) (s : ContextT) : ContextT :=
  { s with nodes := s.nodes.set id node }

def setTable (id : Nat) (tab : TableT) : Parse Unit := Proc.modify (·.put id (.table tab))

def setArray (id : Nat) (arr : ArrayT) : Parse Unit := Proc.modify (·.put id (.array arr))

/-- `CALLOC` of a table or an array that `refer` makes known to the node `id`. -/
def alloc (node : Node) (id : Nat) (refer : Nat → Node) : Parse Nat := do
  let new ← Proc.read (·.nodes.length)
  Proc.modify fun s => { s.put id (refer new) with nodes := (s.put id (refer new)).nodes ++ [node] }
  pure new

/-- The bytes of a quoted key between its quotes. -/
def quotedKey (strtok : TokenT) (quote : UInt8) : Parse Key := do
  let multiline := (tripleOf quote).isPrefixOf strtok.ptr
  let width := if multiline then 3 else 1
  -- the quotes behind are those of the token
  if strtok.len < 2 * width then Proc.abort
  else
    let sp := strtok.ptr.drop width
    let n := strtok.len - 2 * width
    if quote = ascii '\'' then pure (sp.take n)
    else
      match normBasicStr sp n multiline with
      | .ok bytes _ => pure (sliceTo bytes)
      | .error reason _ => Proc.fail (.eSyntax strtok.lineno reason.text)
      | .panic _ => Proc.abort

def isBareKey (c : UInt8) : Bool := isalnum c || c = ascii '_' || c = ascii '-'

def normalizeKey (strtok : TokenT) : Parse Key :=
  match strtok.ptr.head? with
  | some quote =>
      if quote = ascii '\'' ∨ quote = ascii '"' then do
        let key ← quotedKey strtok quote
        -- newlines are not allowed in keys
        if ascii '\n' ∈ key then Proc.fail (.eBadKey strtok.lineno) else pure key
      else if (strtok.ptr.take strtok.len).all isBareKey then pure (strtok.ptr.take strtok.len)
      else Proc.fail (.eBadKey strtok.lineno)
  | none => pure []

inductive Found where
  | value (raw : List UInt8)
  | array (id : Nat)
  | table (id : Nat)
deriving DecidableEq

def checkKey (tab : TableT) (key : Key) : Option Found :=
  ((tab.kval.lookup key).map .value).or
    (((tab.arr.lookup key).map .array).or ((tab.tab.lookup key).map .table))

/-- A keyval in the table, with the value that `parse_keyval` puts there next. -/
def createKeyvalInTable (id : Nat) (keytok : TokenT) (val : List UInt8) : Parse Unit := do
  let newkey ← normalizeKey keytok
  let tab ← getTable id
  match checkKey tab newkey with
  | some _ => Proc.fail (.eKeyExists keytok.lineno)
  | none => setTable id { tab with kval := tab.kval ++ [(newkey, val)] }

def createKeytableInTable (id : Nat) (keytok : TokenT) : Parse Nat := do
  let newkey ← normalizeKey keytok
  let tab ← getTable id
  match checkKey tab newkey with
  | some (.table dest) => do
      let found ← getTable dest
      if found.implicit then do
        -- we make it explicit now, and simply return it
        setTable dest { found with implicit := false }
        pure dest
      else Proc.fail (.eKeyExists keytok.lineno)
  | some _ => Proc.fail (.eKeyExists keytok.lineno)
  | none => alloc (.table {}) id fun new => .table { tab with tab := tab.tab ++ [(newkey, new)] }

def createKeyarrayInTable (id : Nat) (keytok : TokenT) (kind : Kind) : Parse Nat := do
  let newkey ← normalizeKey keytok
  let tab ← getTable id
  match checkKey tab newkey with
  | some _ => Proc.fail (.eKeyExists keytok.lineno)
  | none =>
      alloc (.array { kind := kind }) id fun new =>
        .table { tab with arr := tab.arr ++ [(newkey, new)] }

/-- The kind of an array that gets another element. -/
def ArrayT.widen (kind : Kind) (arr : ArrayT) : ArrayT :=
  if arr.kind = .unset then { arr with kind := kind }
  else if arr.kind ≠ kind then { arr with kind := .mixed }
  else arr

def ArrayT.pushValue (valtype : ValType) (raw : List UInt8) (arr : ArrayT) : ArrayT :=
  let item := arr.item ++ [.val valtype raw]
  let type :=
    if item.length = 1 then valtype else if arr.type ≠ valtype then .mixed else arr.type
  { arr with item := item, type := type }

def createArrayInArray (id : Nat) : Parse Nat := do
  let arr ← getArray id
  alloc (.array {}) id fun new => .array { arr with item := arr.item ++ [.arr new] }

def createTableInArray (id : Nat) : Parse Nat := do
  let arr ← getArray id
  alloc (.table {}) id fun new => .array { arr with item := arr.item ++ [.tab new] }

def newArrayElement (id : Nat) : Parse Nat := do
  let arr ← getArray id
  setArray id (arr.widen .array)
  createArrayInArray id

def newTableElement (id : Nat) : Parse Nat := do
  let arr ← getArray id
  setArray id (arr.widen .table)
  createTableInArray id

def skipNewlinesLoop (isdotspecial : Bool) : Nat → Parse Unit
  | 0 => Proc.abort
  | fuel + 1 => do
      let tok ← Proc.read (·.tok)
      if tok.tok = .newline then do
        nextToken isdotspecial
        let next ← Proc.read (·.tok)
        if next.eof then pure () else skipNewlinesLoop isdotspecial fuel
      else pure ()

/-- A newline takes a byte of the text, apart from the one at its end. -/
def skipNewlines (isdotspecial : Bool) : Parse Unit := do
  let left ← Proc.read (·.tok.ptr.length)
  skipNewlinesLoop isdotspecial (left + 2)

/-- Behind the last entry of `{ ... }`. -/
def endInlineTable (id : Nat) : Parse Unit := do
  eatToken .rbrace true 975
  let tab ← getTable id
  setTable id { tab with readonly := true }

/-- The table that a dotted key goes on in. -/
def dottedTable (id : Nat) (key : TokenT) : Parse Nat := do
  let subtabstr ← normalizeKey key
  let tab ← getTable id
  match tab.tab.lookup subtabstr with
  | some subtab => pure subtab
  | none => createKeytableInTable id key

section

variable (strtod : List UInt8 → Bool)

def parseValueElement (id : Nat) (tok : TokenT) : Parse Unit := do
  let arr ← getArray id
  let val := tok.ptr.take tok.len
  setArray id ((arr.widen .value).pushValue (valtype strtod val) val)
  eatToken .string false 1043

mutual

/-- We are at `{ ... }`. Parse the table. -/
def parseInlineTable : Nat → Nat → Parse Unit
  | 0, _ => Proc.abort
  | fuel + 1, id => do
      eatToken .lbrace true 944
      parseInlineEntries fuel id

def parseInlineEntries : Nat → Nat → Parse Unit
  | 0, _ => Proc.abort
  | fuel + 1, id => do
      let tok ← Proc.read (·.tok)
      if tok.tok = .newline then
        Proc.fail (.eSyntax tok.lineno "newline not allowed in inline table")
      else if tok.tok = .rbrace then endInlineTable id
      else if tok.tok ≠ .string then Proc.fail (.eSyntax tok.lineno "expect a string")
      else do
        parseKeyval fuel id
        let tok ← Proc.read (·.tok)
        if tok.tok = .newline then
          Proc.fail (.eSyntax tok.lineno "newline not allowed in inline table")
        else if tok.tok = .comma then do
          eatToken .comma true 968
          parseInlineEntries fuel id
        else endInlineTable id

/-- We are at `[...]` -/
def parseArray : Nat → Nat → Parse Unit
  | 0, _ => Proc.abort
  | fuel + 1, id => do
      eatToken .lbracket false 1005
      parseElements fuel id

def parseElements : Nat → Nat → Parse Unit
  | 0, _ => Proc.abort
  | fuel + 1, id => do
      skipNewlines false
      let tok ← Proc.read (·.tok)
      if tok.tok = .rbracket then eatToken .rbracket true 1094
      else do
        parseElement fuel id
        skipNewlines false
        let tok ← Proc.read (·.tok)
        if tok.tok = .comma then do
          eatToken .comma false 1087
          parseElements fuel id
        else eatToken .rbracket true 1094

/-- The `switch` of `parse_array`. -/
def parseElement : Nat → Nat → Parse Unit
  | 0, _ => Proc.abort
  | fuel + 1, id => do
      let tok ← Proc.read (·.tok)
      match tok.tok with
      | .string => parseValueElement strtod id tok
      | .lbracket => do
          let subarr ← newArrayElement id
          parseArray fuel subarr
      | .lbrace => do
          let subtab ← newTableElement id
          parseInlineTable fuel subtab
      | _ => Proc.fail (.eSyntax tok.lineno "syntax error")

/-- Lines like `key = "value"`, `key = [ array ]` and `key = { table }`. -/
def parseKeyval : Nat → Nat → Parse Unit
  | 0, _ => Proc.abort
  | fuel + 1, id => do
      let tab ← getTable id
      let key ← Proc.read (·.tok)
      if tab.readonly then
        Proc.fail (.eForbid key.lineno "cannot insert new entry into existing table")
      else do
        eatToken .string true 1111
        let tok ← Proc.read (·.tok)
        if tok.tok = .dot then do
          let subtab ← dottedTable id key
          nextToken true
          parseKeyval fuel subtab
        else if tok.tok ≠ .equal then Proc.fail (.eSyntax tok.lineno "missing =")
        else do
          nextToken false
          let val ← Proc.read (·.tok)
          match val.tok with
          | .string => do
              createKeyvalInTable id key (val.ptr.take val.len)
              nextToken true
          | .lbracket => do
              let arr ← createKeyarrayInTable id key .unset
              parseArray fuel arr
          | .lbrace => do
              let nxttab ← createKeytableInTable id key
              parseInlineTable fuel nxttab
          | _ => Proc.fail (.eSyntax val.lineno "syntax error")

end

end

/-- The loop of `fill_tabpath`, with room for `left` more keys. -/
def fillTabpathLoop (lineno : Nat) : Nat → Parse Unit
  | 0 => Proc.fail (.eSyntax lineno "table path is too deep; max allowed is 10.")
  | left + 1 => do
      let tok ← Proc.read (·.tok)
      if tok.tok ≠ .string then Proc.fail (.eSyntax lineno "invalid or missing key")
      else do
        let key ← normalizeKey tok
        Proc.modify fun s => { s with tpath := s.tpath ++ [(key, tok)] }
        nextToken true
        let tok ← Proc.read (·.tok)
        if tok.tok = .rbracket then pure ()
        else if tok.tok ≠ .dot then Proc.fail (.eSyntax lineno "invalid key")
        else do
          nextToken true
          fillTabpathLoop lineno left

/-- At `[x.y.z]` or `[[x.y.z]]`: scan forward and fill tabpath. -/
def fillTabpath : Parse Unit := do
  let lineno ← Proc.read (·.tok.lineno)
  Proc.modify fun s => { s with tpath := [] }
  fillTabpathLoop lineno 10

/-- The table that a key of the path stands for. -/
def walkKey (curtab : Nat) (key : Key) (tok : TokenT) : Parse Nat := do
  let tab ← getTable curtab
  match checkKey tab key with
  | some (.table nexttab) => pure nexttab
  | some (.array nextarr) => do
      let arr ← getArray nextarr
      if arr.kind ≠ .table then Proc.fail (.eInternal 1266)
      else
        match arr.item.getLast? with
        | none => Proc.fail (.eInternal 1269)
        | some (.tab nexttab) => pure nexttab
        | some _ => Proc.abort
  | some (.value _) => Proc.fail (.eKeyExists tok.lineno)
  | none =>
      alloc (.table { implicit := true }) curtab fun new =>
        .table { tab with tab := tab.tab ++ [(key, new)] }

def walkFrom (curtab : Nat) : List (Key × TokenT) → Parse Nat
  | [] => pure curtab
  | (key, tok) :: rest => do
      let nexttab ← walkKey curtab key tok
      walkFrom nexttab rest

/-- Walk tabpath from the root, and create new tables on the way. -/
def walkTabpath : Parse Unit := do
  let tpath ← Proc.read (·.tpath)
  let curtab ← walkFrom 0 tpath
  Proc.modify fun s => { s with curtab := curtab }

/-- `[x.y.z]` -> create `z = {}` in `x.y` -/
def selectTable (z : TokenT) : Parse Unit := do
  let curtab ← Proc.read (·.curtab)
  let new ← createKeytableInTable curtab z
  Proc.modify fun s => { s with curtab := new }

/-- The array that `[[x.y.z]]` adds to. -/
def selectedArray (curtab : Nat) (z : TokenT) : Parse Nat := do
  let zstr ← normalizeKey z
  let tab ← getTable curtab
  match tab.arr.lookup zstr with
  | some arr => pure arr
  | none => createKeyarrayInTable curtab z .table

/-- `[[x.y.z]]` -> create `z = []` in `x.y` -/
def selectArray (z : TokenT) : Parse Unit := do
  let curtab ← Proc.read (·.curtab)
  let arr ← selectedArray curtab z
  let found ← getArray arr
  if found.kind ≠ .table then Proc.fail (.eSyntax z.lineno "array mismatch")
  else do
    let dest ← createTableInArray arr
    Proc.modify fun s => { s with curtab := dest }

/-- Behind the keys of a selector. -/
def endSelect (llb : Bool) : Parse Unit := do
  let tok ← Proc.read (·.tok)
  if tok.tok ≠ .rbracket then Proc.fail (.eSyntax tok.lineno "expects ]")
  else if llb ∧ tok.ptr[1]? ≠ some (ascii ']') then
    Proc.fail (.eSyntax tok.lineno "expects ]]")
  else do
    Proc.when llb (eatToken .rbracket true 1387)
    eatToken .rbracket true 1391
    let tok ← Proc.read (·.tok)
    if tok.tok ≠ .newline then
      Proc.fail (.eSyntax tok.lineno "extra chars after ] or ]]")
    else pure ()

/-- The `[` that opens a selector, or both of them. -/
def openSelect : Parse Bool := do
  let tok ← Proc.read (·.tok)
  if tok.tok ≠ .lbracket then Proc.abort
  else
    let llb := tok.ptr[1]? = some (ascii '[')
    eatToken .lbracket true 1319
    let next ← Proc.read (·.tok)
    if llb ∧ next.tok ≠ .lbracket then Proc.abort
    else do
      Proc.when llb (eatToken .lbracket true 1323)
      pure llb

/-- Handle lines like `[x.y.z]` or `[[x.y.z]]`. -/
def parseSelect : Parse Unit := do
  let llb ← openSelect
  fillTabpath
  let tpath ← Proc.read (·.tpath)
  match tpath.getLast? with
  | none => Proc.abort
  | some (_, z) => do
      Proc.modify fun s => { s with tpath := s.tpath.dropLast }
      walkTabpath
      if llb then selectArray z else selectTable z
      endSelect llb

section

variable (strtod : List UInt8 → Bool)

/-- Scan forward until EOF. -/
def parseLoop : Nat → Parse Unit
  | 0 => Proc.abort
  | fuel + 1 => do
      let tok ← Proc.read (·.tok)
      if tok.eof then pure ()
      else
        match tok.tok with
        | .newline => do
            nextToken true
            parseLoop fuel
        | .string => do
            let curtab ← Proc.read (·.curtab)
            parseKeyval strtod (3 * tok.ptr.length + 1) curtab
            let tok ← Proc.read (·.tok)
            if tok.tok ≠ .newline then
              Proc.fail (.eSyntax tok.lineno "extra chars after value")
            else do
              eatToken .newline true 1450
              parseLoop fuel
        | .lbracket => do
            parseSelect
            parseLoop fuel
        | _ => Proc.fail (.eSyntax tok.lineno "syntax error")

/-- Start with an artificial newline of length 0. -/
def ContextT.start (conf : List UInt8) : ContextT where
  tok := { tok := .newline, lineno := 1, ptr := conf }

/-- `toml_parse` up to its exit: the document is in the nodes, also when it fails and they
are freed. -/
def tomlParse (conf : List UInt8) : Exit ParseError ContextT Unit :=
  parseLoop strtod ((sliceTo conf).length + 2) (.start (sliceTo conf))

end

end RenogyX10.Toml
