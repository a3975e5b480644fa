import Mathlib.Data.List.Forall2
import RenogyX10.Lib.Fields
import RenogyX10.Lib.ParseInt
import RenogyX10.Toml
import RenogyX10.TtyReader.Main

set_option autoImplicit false

/- `tty_toml.zig`: what `setup_tty_info` makes of a document. Allocation is taken
to succeed. -/
namespace RenogyX10.TtyReader

open Fields Toml Proc

inductive TomlError where
  /-- the file cannot be read or is not TOML -/
  | loadFailed
  | tomlTableInFailed
  | parseInt (reason : ParseInt.ParseIntError)
deriving DecidableEq

def gTtyNameMaxLength : Nat := 128

/-- `@memset` and `copyForwards`: a name in an array of zero bytes. -/
def copyName (bytes : List UInt8) : Option (List UInt8) :=
  if (sliceTo bytes).length ≤ gTtyNameMaxLength then some (sliceTo bytes) else none

def InU16 (value : Int64) : Prop := 0 ≤ value.toInt ∧ value.toInt < 65536

def InU8 (value : Int64) : Prop := 0 ≤ value.toInt ∧ value.toInt < 256

instance (value : Int64) : Decidable (InU16 value) := inferInstanceAs (Decidable (_ ∧ _))

instance (value : Int64) : Decidable (InU8 value) := inferInstanceAs (Decidable (_ ∧ _))

/-- `if (val.ok != 0) @intCast(val.u.i) else 0` -/
def castU16 : Option Int64 → Option UInt16
  | none => some 0
  | some value => if InU16 value then some (UInt16.ofNat value.toInt.toNat) else none

def castU8 : Option Int64 → Option UInt8
  | none => some 0
  | some value => if InU8 value then some (UInt8.ofNat value.toInt.toNat) else none

/-- One key of the table `main`. -/
def setMain (table : Table) (info : Config) (key : Key) : Option Config :=
  if key = text "tty" then
    (stringIn table key).elim (some info) fun s =>
      (copyName s).map fun name => { info with tty := name }
  else if key = text "modbus_debug" then
    (boolIn table key).elim (some info) fun b => some { info with modbusDebug := b }
  else if key = text "item_mstime" then
    (intIn table key).elim (some info) fun i => some { info with itemMstime := i.toInt }
  else if key = text "list_mstime" then
    (intIn table key).elim (some info) fun i => some { info with listMstime := i.toInt }
  else if key = text "listen_socket" then
    (stringIn table key).elim (some info) fun s =>
      (copyName s).map fun name => { info with listenSocket := name }
  else some info

/-- One key of a table `idN`. -/
def setItem (table : Table) (item : TtyIdInfo) (key : Key) : Option TtyIdInfo :=
  if key = text "read_address" then
    (castU16 (intIn table key)).map fun i => { item with readAddress := i }
  else if key = text "read_count" then
    (castU8 (intIn table key)).map fun i => { item with readCount := i }
  else if key = text "read_input_address" then
    (castU16 (intIn table key)).map fun i => { item with readInputAddress := i }
  else if key = text "read_input_count" then
    (castU8 (intIn table key)).map fun i => { item with readInputCount := i }
  else some item

/-- The keys that start with `id`. -/
def isIdKey (key : Key) : Bool := 1 < key.length ∧ key[0]? = some 105 ∧ key[1]? = some 100

def setupKey (doc : Document) (key : Key) : Proc TomlError Config Unit :=
  if key = text "main" then
    match tableIn doc key with
    | none => Proc.fail .tomlTableInFailed
    | some table => do
        let info ← Proc.read id
        let filled ← Proc.orAbort ((table.map Prod.fst).foldlM (setMain table) info)
        Proc.modify fun _ => filled
  else if isIdKey key then
    match ParseInt.parseInt 8 (key.drop 2) with
    | .error reason => Proc.fail (.parseInt reason)
    | .ok id =>
        match tableIn doc key with
        | none => Proc.fail .tomlTableInFailed
        | some table => do
            let item ← Proc.orAbort
              ((table.map Prod.fst).foldlM (setItem table) { id := UInt8.ofNat id })
            Proc.modify fun info => { info with idList := info.idList ++ [item] }
  else pure ()

def setupKeys (doc : Document) : List Key → Proc TomlError Config Unit
  | [] => pure ()
  | key :: rest => do
      setupKey doc key
      setupKeys doc rest

/-- `setup_tty_info`, from what `load_tty_config` gives. -/
def setupTtyInfo : Option Document → Proc TomlError Config Unit
  | none => Proc.fail .loadFailed
  | some doc => setupKeys doc (doc.map Prod.fst)

/-- What `reload_config` gets from `setup_tty_info` on a new `tty_info_t`. -/
def setupResult (file : Option Document) : SetupResult :=
  match setupTtyInfo file {} with
  | .ok _ info => .ok info
  | .error _ _ => .failed
  | .panic _ => .panic

/-- The document's integer, zero when absent. -/
def intOrZero (value : Option Int64) : Int := (value.map Int64.toInt).getD 0

/-- An entry has the document's values. -/
structure ItemFrom (table : Table) (key : Key) (item : TtyIdInfo) : Prop where
  id : item.id.toNat = ParseInt.numberOf (key.drop 2)
  readAddress : item.readAddress.toNat = intOrZero (intIn table (text "read_address"))
  readCount : item.readCount.toNat = intOrZero (intIn table (text "read_count"))
  readInputAddress :
    item.readInputAddress.toNat = intOrZero (intIn table (text "read_input_address"))
  readInputCount : item.readInputCount.toNat = intOrZero (intIn table (text "read_input_count"))

def ItemOf (doc : Document) (key : Key) (item : TtyIdInfo) : Prop :=
  ∃ table, tableIn doc key = some table ∧ ItemFrom table key item

def mainTable (doc : Document) : Table := (tableIn doc (text "main")).getD []

/-- The names are the document's. -/
structure NamesOf (doc : Document) (config : Config) : Prop where
  tty : config.tty = (stringIn (mainTable doc) (text "tty")).getD []
  listenSocket : config.listenSocket = (stringIn (mainTable doc) (text "listen_socket")).getD []

/-- Everything but the names is the document's: one entry for each `idN` key, in
key order, and the settings of `main`. -/
structure SettingsOf (doc : Document) (config : Config) : Prop where
  idList : List.Forall₂ (ItemOf doc) ((doc.map Prod.fst).filter isIdKey) config.idList
  itemMstime : config.itemMstime = intOrZero (intIn (mainTable doc) (text "item_mstime"))
  listMstime : config.listMstime = intOrZero (intIn (mainTable doc) (text "list_mstime"))
  modbusDebug : config.modbusDebug = (boolIn (mainTable doc) (text "modbus_debug")).getD false

/-- `setup_tty_info` reports an error, or fills in the document's values. -/
def AllOrError (doc : Document) : Exit TomlError Config Unit → Prop
  | .ok _ info => NamesOf doc info ∧ SettingsOf doc info
  | .error _ _ => True
  | .panic _ => False

/-- A reload returns, with the document's values or with the old ones. -/
def ReloadsAllOrNothing (doc : Document) (s : Sys) : Prop :=
  ∃ t, reloadConfig (setupResult (some doc)) s = .ok () t ∧
    (NamesOf doc t.info.toConfig ∧ SettingsOf doc t.info.toConfig ∨
      t.info.toConfig = s.info.toConfig)

/-- The names of `main` fit their arrays. -/
structure MainFits (table : Table) : Prop where
  tty : ∀ s ∈ stringIn table (text "tty"), (sliceTo s).length ≤ gTtyNameMaxLength
  listenSocket : ∀ s ∈ stringIn table (text "listen_socket"),
    (sliceTo s).length ≤ gTtyNameMaxLength

/-- The integers of an `idN` table fit their fields. -/
structure ItemFits (table : Table) : Prop where
  readAddress : ∀ i ∈ intIn table (text "read_address"), InU16 i
  readCount : ∀ i ∈ intIn table (text "read_count"), InU8 i
  readInputAddress : ∀ i ∈ intIn table (text "read_input_address"), InU16 i
  readInputCount : ∀ i ∈ intIn table (text "read_input_count"), InU8 i

/-- No error is reported for the key: it has a table, and its number is one. -/
structure KeyLoads (doc : Document) (key : Key) : Prop where
  main : key = text "main" → (tableIn doc key).isSome
  number : isIdKey key → ∃ id, ParseInt.parseInt 8 (key.drop 2) = .ok id
  item : isIdKey key → (tableIn doc key).isSome

/-- The values that are read for the key fit. -/
structure KeyFits (doc : Document) (key : Key) : Prop where
  main : key = text "main" → ∀ table ∈ tableIn doc key, MainFits table
  item : isIdKey key → (∃ id, ParseInt.parseInt 8 (key.drop 2) = .ok id) →
    ∀ table ∈ tableIn doc key, ItemFits table

/-- The values fit as far as the keys are read. -/
def ValuesFit (doc : Document) : List Key → Prop
  | [] => True
  | key :: rest => KeyFits doc key ∧ (KeyLoads doc key → ValuesFit doc rest)

/-- The names are not cut off at a zero byte. -/
structure NamesWhole (table : Table) : Prop where
  tty : ∀ s ∈ stringIn table (text "tty"), 0 ∉ s
  listenSocket : ∀ s ∈ stringIn table (text "listen_socket"), 0 ∉ s

/-- `setMain` without its range checks. -/
def putMain (table : Table) (info : Config) (key : Key) : Config :=
  if key = text "tty" then
    { info with tty := ((stringIn table key).map sliceTo).getD info.tty }
  else if key = text "modbus_debug" then
    { info with modbusDebug := (boolIn table key).getD info.modbusDebug }
  else if key = text "item_mstime" then
    { info with itemMstime := ((intIn table key).map Int64.toInt).getD info.itemMstime }
  else if key = text "list_mstime" then
    { info with listMstime := ((intIn table key).map Int64.toInt).getD info.listMstime }
  else if key = text "listen_socket" then
    { info with listenSocket := ((stringIn table key).map sliceTo).getD info.listenSocket }
  else info

theorem copyName_isSome (s : List UInt8) :
    (copyName s).isSome ↔ (sliceTo s).length ≤ gTtyNameMaxLength := by
  simp [copyName]

theorem setMain_put {table : Table} {info t : Config} {key : Key}
    (taken : setMain table info key = some t) : t = putMain table info key := by
  unfold setMain at taken
  unfold putMain
  split_ifs at taken ⊢
  · cases found : stringIn table key <;> simp_all [copyName]
  · cases found : boolIn table key <;> simp_all
  · cases found : intIn table key <;> simp_all
  · cases found : intIn table key <;> simp_all
  · cases found : stringIn table key <;> simp_all [copyName]
  · simp_all

/-- The main fields after the keys of a table. -/
structure MainFrom (table : Table) (info t : Config) : Prop where
  tty : t.tty = ((stringIn table (text "tty")).map sliceTo).getD info.tty
  modbusDebug : t.modbusDebug = (boolIn table (text "modbus_debug")).getD info.modbusDebug
  itemMstime :
    t.itemMstime = ((intIn table (text "item_mstime")).map Int64.toInt).getD info.itemMstime
  listMstime :
    t.listMstime = ((intIn table (text "list_mstime")).map Int64.toInt).getD info.listMstime
  listenSocket : t.listenSocket =
    ((stringIn table (text "listen_socket")).map sliceTo).getD info.listenSocket
  idList : t.idList = info.idList

theorem getD_getD {α : Type} (value : Option α) (old : α) :
    value.getD (value.getD old) = value.getD old := by
  cases value <;> rfl

theorem putMain_tty (table : Table) (info : Config) (key : Key) :
    (putMain table info key).tty = if key = text "tty" then
      ((stringIn table (text "tty")).map sliceTo).getD info.tty else info.tty := by
  unfold putMain
  split_ifs <;> simp_all

theorem putMain_modbusDebug (table : Table) (info : Config) (key : Key) :
    (putMain table info key).modbusDebug = if key = text "modbus_debug" then
      (boolIn table (text "modbus_debug")).getD info.modbusDebug else info.modbusDebug := by
  unfold putMain
  split_ifs <;> simp_all +decide

theorem putMain_itemMstime (table : Table) (info : Config) (key : Key) :
    (putMain table info key).itemMstime = if key = text "item_mstime" then
      ((intIn table (text "item_mstime")).map Int64.toInt).getD info.itemMstime
      else info.itemMstime := by
  unfold putMain
  split_ifs <;> simp_all +decide

theorem putMain_listMstime (table : Table) (info : Config) (key : Key) :
    (putMain table info key).listMstime = if key = text "list_mstime" then
      ((intIn table (text "list_mstime")).map Int64.toInt).getD info.listMstime
      else info.listMstime := by
  unfold putMain
  split_ifs <;> simp_all +decide

theorem putMain_listenSocket (table : Table) (info : Config) (key : Key) :
    (putMain table info key).listenSocket = if key = text "listen_socket" then
      ((stringIn table (text "listen_socket")).map sliceTo).getD info.listenSocket
      else info.listenSocket := by
  unfold putMain
  split_ifs <;> simp_all +decide

theorem putMain_idList (table : Table) (info : Config) (key : Key) :
    (putMain table info key).idList = info.idList := by
  unfold putMain
  split_ifs <;> rfl

theorem main_field {β : Type} (field : Config → β) {table : Table} {info t : Config} {name : Key}
    {value : Option β}
    (filled : (table.map Prod.fst).foldlM (setMain table) info = some t)
    (writes : ∀ r key, field (putMain table r key) =
      if key = name then value.getD (field r) else field r)
    (absent : name ∉ table.map Prod.fst → value = none) :
    field t = value.getD (field info) := by
  have result := (fills_of_foldlM filled).field field name (fun old => value.getD old)
    (fun r u taken => by rw [setMain_put taken, writes, if_pos rfl])
    (fun key r u differs taken => by rw [setMain_put taken, writes, if_neg differs])
    (getD_getD value)
  rw [result]
  split
  · rfl
  · rename_i missing
    rw [absent missing]
    rfl

theorem main_filled {table : Table} {info t : Config}
    (filled : (table.map Prod.fst).foldlM (setMain table) info = some t) :
    MainFrom table info t where
  tty := main_field (fun info => info.tty) filled (putMain_tty table) fun missing => by
    rw [stringIn_none missing]; rfl
  modbusDebug := main_field (fun info => info.modbusDebug) filled
    (putMain_modbusDebug table) fun missing => boolIn_none missing
  itemMstime := main_field (fun info => info.itemMstime) filled
    (putMain_itemMstime table) fun missing => by rw [intIn_none missing]; rfl
  listMstime := main_field (fun info => info.listMstime) filled
    (putMain_listMstime table) fun missing => by rw [intIn_none missing]; rfl
  listenSocket := main_field (fun info => info.listenSocket) filled
    (putMain_listenSocket table) fun missing => by rw [stringIn_none missing]; rfl
  idList := by
    apply (fills_of_foldlM filled).kept fun info : Config => info.idList
    intro key r u taken
    rw [setMain_put taken, putMain_idList]

theorem castU16_isSome (value : Option Int64) :
    (castU16 value).isSome ↔ ∀ i ∈ value, InU16 i := by
  cases value <;> simp [castU16]

theorem castU8_isSome (value : Option Int64) : (castU8 value).isSome ↔ ∀ i ∈ value, InU8 i := by
  cases value <;> simp [castU8]

theorem castU16_value {value : Option Int64} {cast : UInt16} (fits : castU16 value = some cast) :
    (cast.toNat : Int) = intOrZero value := by
  cases value with
  | none =>
      cases fits
      rfl
  | some i =>
      simp only [castU16, Option.ite_none_right_eq_some, Option.some.injEq] at fits
      obtain ⟨⟨low, high⟩, rfl⟩ := fits
      simp only [UInt16.toNat_ofNat', intOrZero, Option.map_some, Option.getD_some]
      omega

theorem castU8_value {value : Option Int64} {cast : UInt8} (fits : castU8 value = some cast) :
    (cast.toNat : Int) = intOrZero value := by
  cases value with
  | none =>
      cases fits
      rfl
  | some i =>
      simp only [castU8, Option.ite_none_right_eq_some, Option.some.injEq] at fits
      obtain ⟨⟨low, high⟩, rfl⟩ := fits
      simp only [UInt8.toNat_ofNat', intOrZero, Option.map_some, Option.getD_some]
      omega

/-- The values read for one key fit. -/
def MainKeyFits (table : Table) (key : Key) : Prop :=
  key = text "tty" ∨ key = text "listen_socket" →
    ∀ s ∈ stringIn table key, (sliceTo s).length ≤ gTtyNameMaxLength

def ItemKeyFits (table : Table) (key : Key) : Prop :=
  (key = text "read_address" ∨ key = text "read_input_address" →
    ∀ i ∈ intIn table key, InU16 i) ∧
  (key = text "read_count" ∨ key = text "read_input_count" → ∀ i ∈ intIn table key, InU8 i)

theorem setMain_isSome (table : Table) (info : Config) (key : Key) :
    (setMain table info key).isSome ↔ MainKeyFits table key := by
  unfold setMain MainKeyFits
  split_ifs
  · cases found : stringIn table key <;> simp_all [copyName_isSome]
  · cases found : boolIn table key <;> simp_all +decide
  · cases found : intIn table key <;> simp_all +decide
  · cases found : intIn table key <;> simp_all +decide
  · cases found : stringIn table key <;> simp_all [copyName_isSome]
  · simp_all

theorem setItem_isSome (table : Table) (item : TtyIdInfo) (key : Key) :
    (setItem table item key).isSome ↔ ItemKeyFits table key := by
  unfold setItem ItemKeyFits
  split_ifs <;> simp_all +decide [castU16_isSome, castU8_isSome]

theorem mainFits_iff (table : Table) :
    (∀ key ∈ table.map Prod.fst, MainKeyFits table key) ↔ MainFits table := by
  constructor
  · intro each
    constructor
    · exact fun s found => each _ (mem_of_stringIn found) (.inl rfl) s found
    · exact fun s found => each _ (mem_of_stringIn found) (.inr rfl) s found
  · rintro ⟨tty, listenSocket⟩ key _ (rfl | rfl)
    · exact tty
    · exact listenSocket

theorem itemFits_iff (table : Table) :
    (∀ key ∈ table.map Prod.fst, ItemKeyFits table key) ↔ ItemFits table := by
  constructor
  · intro each
    constructor
    · exact fun i found => (each _ (mem_of_intIn found)).1 (.inl rfl) i found
    · exact fun i found => (each _ (mem_of_intIn found)).2 (.inl rfl) i found
    · exact fun i found => (each _ (mem_of_intIn found)).1 (.inr rfl) i found
    · exact fun i found => (each _ (mem_of_intIn found)).2 (.inr rfl) i found
  · rintro ⟨readAddress, readCount, readInputAddress, readInputCount⟩ key _
    constructor
    · rintro (rfl | rfl)
      · exact readAddress
      · exact readInputAddress
    · rintro (rfl | rfl)
      · exact readCount
      · exact readInputCount

theorem setItem_fields {table : Table} {item t : TtyIdInfo} {key : Key}
    (taken : setItem table item key = some t) :
    t.id = item.id ∧
    (t.readAddress.toNat : Int) = (if key = text "read_address" then
      intOrZero (intIn table (text "read_address")) else item.readAddress.toNat) ∧
    (t.readCount.toNat : Int) = (if key = text "read_count" then
      intOrZero (intIn table (text "read_count")) else item.readCount.toNat) ∧
    (t.readInputAddress.toNat : Int) = (if key = text "read_input_address" then
      intOrZero (intIn table (text "read_input_address")) else item.readInputAddress.toNat) ∧
    (t.readInputCount.toNat : Int) = (if key = text "read_input_count" then
      intOrZero (intIn table (text "read_input_count")) else item.readInputCount.toNat) := by
  unfold setItem at taken
  split_ifs at taken with address count inputAddress inputCount
  · subst address
    obtain ⟨cast, fits, rfl⟩ := Option.map_eq_some_iff.mp taken
    simp +decide [castU16_value fits]
  · subst count
    obtain ⟨cast, fits, rfl⟩ := Option.map_eq_some_iff.mp taken
    simp +decide [castU8_value fits]
  · subst inputAddress
    obtain ⟨cast, fits, rfl⟩ := Option.map_eq_some_iff.mp taken
    simp +decide [castU16_value fits]
  · subst inputCount
    obtain ⟨cast, fits, rfl⟩ := Option.map_eq_some_iff.mp taken
    simp +decide [castU8_value fits]
  · obtain rfl := Option.some.inj taken
    simp [address, count, inputAddress, inputCount]

theorem item_field (field : TtyIdInfo → Int) {table : Table} {item t : TtyIdInfo} {name : Key}
    (filled : (table.map Prod.fst).foldlM (setItem table) item = some t)
    (writes : ∀ r key u, setItem table r key = some u →
      field u = if key = name then intOrZero (intIn table name) else field r)
    (zero : field item = 0) : field t = intOrZero (intIn table name) := by
  have result := (fills_of_foldlM filled).field field name (fun _ => intOrZero (intIn table name))
    (fun r u taken => by rw [writes r name u taken, if_pos rfl])
    (fun key r u differs taken => by rw [writes r key u taken, if_neg differs])
    (fun _ => rfl)
  rw [result]
  split
  · rfl
  · rename_i missing
    rw [intIn_none missing]
    exact zero

theorem item_filled {table : Table} {key : Key} {id : Nat} {item : TtyIdInfo}
    (parsed : ParseInt.parseInt 8 (key.drop 2) = .ok id)
    (filled : (table.map Prod.fst).foldlM (setItem table) { id := UInt8.ofNat id } = some item) :
    ItemFrom table key item where
  id := by
    obtain ⟨value, small⟩ := ParseInt.parseInt_value parsed
    have kept := (fills_of_foldlM filled).kept TtyIdInfo.id fun key r u taken =>
      (setItem_fields taken).1
    rw [kept, ← value]
    exact UInt8.toNat_ofNat_of_lt' small
  readAddress := item_field (fun item => item.readAddress.toNat) filled
    (fun r key u taken => (setItem_fields taken).2.1) rfl
  readCount := item_field (fun item => item.readCount.toNat) filled
    (fun r key u taken => (setItem_fields taken).2.2.1) rfl
  readInputAddress := item_field (fun item => item.readInputAddress.toNat) filled
    (fun r key u taken => (setItem_fields taken).2.2.2.1) rfl
  readInputCount := item_field (fun item => item.readInputCount.toNat) filled
    (fun r key u taken => (setItem_fields taken).2.2.2.2) rfl

/-- What one key changes. -/
structure KeyFills (doc : Document) (key : Key) (info t : Config) : Prop where
  main : key = text "main" → ∃ table, tableIn doc key = some table ∧ MainFrom table info t
  item : isIdKey key → ∃ item, ItemOf doc key item ∧ t = { info with idList := info.idList ++ [item] }
  other : key ≠ text "main" → ¬ isIdKey key → t = info

theorem main_isIdKey : isIdKey (text "main") = false := by decide

theorem setupMain_meets {doc : Document} {table : Table} (info : Config)
    (found : tableIn doc (text "main") = some table) :
    (setupKey doc (text "main") info).Meets
      (fun t => KeyFits doc (text "main") ∧ KeyLoads doc (text "main") ∧
        KeyFills doc (text "main") info t)
      (fun _ => KeyFits doc (text "main") ∧ ¬ KeyLoads doc (text "main"))
      (fun _ => ¬ KeyFits doc (text "main")) := by
  have fitsAll := (foldlM_isSome_iff (setMain_isSome table) (table.map Prod.fst) info).trans
    (mainFits_iff table)
  unfold setupKey
  simp only [↓reduceIte, found, read_bind, id_eq]
  cases filled : (table.map Prod.fst).foldlM (setMain table) info with
  | none =>
      intro fits
      have taken := fitsAll.mpr (fits.main rfl table found)
      simp [filled] at taken
  | some t =>
      rw [filled] at fitsAll
      refine ⟨⟨?_, ?_⟩, ⟨?_, ?_, ?_⟩, ⟨?_, ?_, ?_⟩⟩
      · intro _ other isOther
        obtain rfl : table = other := by simpa [found] using isOther
        exact fitsAll.mp rfl
      · simp [main_isIdKey]
      · simp [found]
      · simp [main_isIdKey]
      · simp [main_isIdKey]
      · exact fun _ => ⟨table, found, main_filled filled⟩
      · simp [main_isIdKey]
      · exact fun differs => absurd rfl differs

theorem setupItem_meets {doc : Document} {key : Key} {table : Table} {id : Nat} (info : Config)
    (isId : isIdKey key = true) (notMain : key ≠ text "main")
    (parsed : ParseInt.parseInt 8 (key.drop 2) = .ok id) (found : tableIn doc key = some table) :
    (setupKey doc key info).Meets
      (fun t => KeyFits doc key ∧ KeyLoads doc key ∧ KeyFills doc key info t)
      (fun _ => KeyFits doc key ∧ ¬ KeyLoads doc key) (fun _ => ¬ KeyFits doc key) := by
  have fitsAll := (foldlM_isSome_iff (setItem_isSome table) (table.map Prod.fst)
    { id := UInt8.ofNat id }).trans (itemFits_iff table)
  unfold setupKey
  simp only [notMain, isId, parsed, found, ↓reduceIte]
  cases filled : (table.map Prod.fst).foldlM (setItem table) { id := UInt8.ofNat id } with
  | none =>
      intro fits
      have taken := fitsAll.mpr (fits.item isId ⟨id, parsed⟩ table found)
      simp [filled] at taken
  | some item =>
      rw [filled] at fitsAll
      refine ⟨⟨fun isMain => absurd isMain notMain, ?_⟩, ⟨fun isMain => absurd isMain notMain, ?_, ?_⟩,
        ⟨fun isMain => absurd isMain notMain, ?_, ?_⟩⟩
      · intro _ _ other isOther
        obtain rfl : table = other := by simpa [found] using isOther
        exact fitsAll.mp rfl
      · exact fun _ => ⟨id, parsed⟩
      · simp [found]
      · exact fun _ => ⟨item, ⟨table, found, item_filled parsed filled⟩, rfl⟩
      · exact fun _ notId => absurd isId notId

theorem setupKey_meets (doc : Document) (key : Key) (info : Config) :
    (setupKey doc key info).Meets
      (fun t => KeyFits doc key ∧ KeyLoads doc key ∧ KeyFills doc key info t)
      (fun _ => KeyFits doc key ∧ ¬ KeyLoads doc key) (fun _ => ¬ KeyFits doc key) := by
  by_cases isMain : key = text "main"
  · subst isMain
    cases found : tableIn doc (text "main") with
    | some table => exact setupMain_meets info found
    | none =>
        unfold setupKey
        simp only [↓reduceIte, found]
        refine ⟨⟨?_, ?_⟩, ?_⟩
        · simp [found]
        · simp [main_isIdKey]
        · exact fun loads => by simpa [found] using loads.main rfl
  · by_cases isId : isIdKey key = true
    · cases parsed : ParseInt.parseInt 8 (key.drop 2) with
      | error reason =>
          unfold setupKey
          simp only [isMain, isId, parsed, ↓reduceIte]
          refine ⟨⟨fun same => absurd same isMain, ?_⟩, ?_⟩
          · simp [parsed]
          · exact fun loads => by simpa [parsed] using loads.number isId
      | ok id =>
          cases found : tableIn doc key with
          | some table => exact setupItem_meets info isId isMain parsed found
          | none =>
              unfold setupKey
              simp only [isMain, isId, parsed, found, ↓reduceIte]
              refine ⟨⟨fun same => absurd same isMain, ?_⟩, ?_⟩
              · simp [found]
              · exact fun loads => by simpa [found] using loads.item isId
    · unfold setupKey
      simp only [isMain, isId, ↓reduceIte, Bool.false_eq_true]
      exact ⟨⟨fun same => absurd same isMain, fun same => absurd same isId⟩,
        ⟨fun same => absurd same isMain, fun same => absurd same isId, fun same => absurd same isId⟩,
        ⟨fun same => absurd same isMain, fun same => absurd same isId, fun _ _ => rfl⟩⟩

theorem setupKeys_meets (doc : Document) (keys : List Key) (info : Config) :
    (setupKeys doc keys info).Meets
      (fun t => ValuesFit doc keys ∧ (∀ key ∈ keys, KeyLoads doc key) ∧
        Fills (KeyFills doc) keys info t)
      (fun _ => ValuesFit doc keys ∧ ¬ ∀ key ∈ keys, KeyLoads doc key)
      (fun _ => ¬ ValuesFit doc keys) := by
  induction keys generalizing info with
  | nil => exact ⟨trivial, by simp, rfl⟩
  | cons key rest ih =>
      unfold setupKeys
      have first := setupKey_meets doc key info
      rw [bind_run]
      cases ended : setupKey doc key info with
      | panic t =>
          rw [ended] at first
          exact fun fits => first fits.1
      | error reason t =>
          rw [ended] at first
          obtain ⟨fits, fails⟩ := first
          refine ⟨⟨fits, fun loads => absurd loads fails⟩, ?_⟩
          exact fun all => fails (all key List.mem_cons_self)
      | ok value t =>
          rw [ended] at first
          obtain ⟨fits, loads, fills⟩ := first
          apply meets_mono (ih t)
          · rintro u ⟨restFits, restLoads, restFills⟩
            exact ⟨⟨fits, fun _ => restFits⟩, List.forall_mem_cons.mpr ⟨loads, restLoads⟩,
              t, fills, restFills⟩
          · rintro u ⟨restFits, fails⟩
            refine ⟨⟨fits, fun _ => restFits⟩, ?_⟩
            exact fun all => fails (List.forall_mem_cons.mp all).2
          · exact fun u fails both => fails (both.2 loads)

theorem fills_idList {doc : Document} {keys : List Key} {info t : Config}
    (fills : Fills (KeyFills doc) keys info t) :
    ∃ items, t.idList = info.idList ++ items ∧
      List.Forall₂ (ItemOf doc) (keys.filter isIdKey) items := by
  induction keys generalizing info with
  | nil =>
      obtain rfl : t = info := fills
      exact ⟨[], (List.append_nil _).symm, .nil⟩
  | cons key rest ih =>
      obtain ⟨next, step, later⟩ := fills
      obtain ⟨items, appended, each⟩ := ih later
      by_cases isId : isIdKey key = true
      · obtain ⟨item, isItem, rfl⟩ := step.item isId
        refine ⟨item :: items, by simp [appended], ?_⟩
        rw [List.filter_cons_of_pos isId]
        exact .cons isItem each
      · have same : next.idList = info.idList := by
          by_cases isMain : key = text "main"
          · obtain ⟨table, _, main⟩ := step.main isMain
            exact main.idList
          · rw [step.other isMain isId]
        refine ⟨items, by rw [appended, same], ?_⟩
        rw [List.filter_cons_of_neg isId]
        exact each

theorem fills_field {β : Type} (field : Config → β) (value : Table → Option β) {doc : Document}
    {info t : Config} (fills : Fills (KeyFills doc) (doc.map Prod.fst) info t)
    (own : ∀ table r u, MainFrom table r u → field u = (value table).getD (field r))
    (others : ∀ r : Config, ∀ items, field { r with idList := items } = field r)
    (absent : value [] = none) :
    field t = (value (mainTable doc)).getD (field info) := by
  have result := fills.field field (text "main") (fun old => (value (mainTable doc)).getD old)
    (fun r u step => by
      obtain ⟨table, found, main⟩ := step.main rfl
      simpa only [mainTable, found, Option.getD_some] using own table r u main)
    (fun key r u differs step => by
      by_cases isId : isIdKey key = true
      · obtain ⟨item, _, rfl⟩ := step.item isId
        exact others r _
      · rw [step.other differs isId])
    (getD_getD _)
  rw [result]
  split
  · rfl
  · rename_i missing
    have noTable : mainTable doc = [] := by
      unfold mainTable tableIn
      rw [List.lookup_eq_none_iff.mpr]
      · rfl
      · intro entry member
        have differs : text "main" ≠ entry.1 := by
          intro same
          exact missing (same ▸ List.mem_map_of_mem member)
        simpa using differs
    rw [noTable, absent]
    rfl

theorem fills_documented {doc : Document} {t : Config}
    (fills : Fills (KeyFills doc) (doc.map Prod.fst) {} t) :
    SettingsOf doc t ∧
      t.tty = ((stringIn (mainTable doc) (text "tty")).map sliceTo).getD [] ∧
      t.listenSocket = ((stringIn (mainTable doc) (text "listen_socket")).map sliceTo).getD [] := by
  refine ⟨⟨?_, ?_, ?_, ?_⟩, ?_, ?_⟩
  · obtain ⟨items, appended, each⟩ := fills_idList fills
    rw [appended]
    exact each
  · exact fills_field (fun info => info.itemMstime)
      (fun table => (intIn table (text "item_mstime")).map Int64.toInt) fills
      (fun table r u main => main.itemMstime) (fun _ _ => rfl) rfl
  · exact fills_field (fun info => info.listMstime)
      (fun table => (intIn table (text "list_mstime")).map Int64.toInt) fills
      (fun table r u main => main.listMstime) (fun _ _ => rfl) rfl
  · exact fills_field (fun info => info.modbusDebug)
      (fun table => boolIn table (text "modbus_debug")) fills
      (fun table r u main => main.modbusDebug) (fun _ _ => rfl) rfl
  · exact fills_field (fun info => info.tty)
      (fun table => (stringIn table (text "tty")).map sliceTo) fills
      (fun table r u main => main.tty) (fun _ _ => rfl) rfl
  · exact fills_field (fun info => info.listenSocket)
      (fun table => (stringIn table (text "listen_socket")).map sliceTo) fills
      (fun table r u main => main.listenSocket) (fun _ _ => rfl) rfl

theorem name_whole_iff (name : Option (List UInt8)) :
    (name.map sliceTo).getD [] = name.getD [] ↔ ∀ s ∈ name, 0 ∉ s := by
  cases name <;> simp [sliceTo_eq_iff]

/-- The names are the document's unless they were cut off. -/
theorem namesOf_iff {doc : Document} {t : Config}
    (tty : t.tty = ((stringIn (mainTable doc) (text "tty")).map sliceTo).getD [])
    (listenSocket : t.listenSocket =
      ((stringIn (mainTable doc) (text "listen_socket")).map sliceTo).getD []) :
    NamesOf doc t ↔ NamesWhole (mainTable doc) := by
  constructor
  · rintro ⟨isTty, isListen⟩
    rw [tty] at isTty
    rw [listenSocket] at isListen
    exact ⟨(name_whole_iff _).mp isTty, (name_whole_iff _).mp isListen⟩
  · rintro ⟨isTty, isListen⟩
    exact ⟨tty.trans ((name_whole_iff _).mpr isTty),
      listenSocket.trans ((name_whole_iff _).mpr isListen)⟩

theorem ItemOf.unique (doc : Document) : Relator.RightUnique (ItemOf doc) := by
  rintro key ⟨⟩ ⟨⟩ ⟨table, found, first⟩ ⟨other, again, second⟩
  obtain rfl : table = other := by simpa [found] using again
  obtain ⟨id, a, b, c, d⟩ := first
  obtain ⟨id', a', b', c', d'⟩ := second
  simp only [TtyIdInfo.mk.injEq, ← UInt8.toNat_inj, ← UInt16.toNat_inj]
  simp only at id id' a a' b b' c c' d d'
  omega

theorem SettingsOf.unique {doc : Document} {first second : Config} (isFirst : SettingsOf doc first)
    (isSecond : SettingsOf doc second) :
    first.idList = second.idList ∧ first.itemMstime = second.itemMstime ∧
      first.listMstime = second.listMstime ∧ first.modbusDebug = second.modbusDebug :=
  ⟨List.right_unique_forall₂' (ItemOf.unique doc) isFirst.idList isSecond.idList,
    isFirst.itemMstime.trans isSecond.itemMstime.symm,
    isFirst.listMstime.trans isSecond.listMstime.symm,
    isFirst.modbusDebug.trans isSecond.modbusDebug.symm⟩

/-- A reload of settings that a document gives installs all of the document
exactly when the names are those in force, and changes nothing exactly when
everything else is. -/
theorem installed_iff {doc : Document} {config : Config} (s : Sys) (settings : SettingsOf doc config) :
    (NamesOf doc (clearSchedule (installConfig config s)).info.toConfig ∧
        SettingsOf doc (clearSchedule (installConfig config s)).info.toConfig ∨
      (clearSchedule (installConfig config s)).info.toConfig = s.info.toConfig) ↔
    NamesOf doc s.info.toConfig ∨ SettingsOf doc s.info.toConfig := by
  have installed : SettingsOf doc (clearSchedule (installConfig config s)).info.toConfig :=
    ⟨settings.idList, settings.itemMstime, settings.listMstime, settings.modbusDebug⟩
  constructor
  · rintro (⟨names, _⟩ | same)
    · exact .inl ⟨names.tty, names.listenSocket⟩
    · rw [← same]
      exact .inr installed
  · rintro (names | old)
    · exact .inl ⟨⟨names.tty, names.listenSocket⟩, installed⟩
    · obtain ⟨ids, item, list, debug⟩ := settings.unique old
      right
      have config_eq : (clearSchedule (installConfig config s)).info.toConfig =
          { s.info.toConfig with
            idList := config.idList
            itemMstime := config.itemMstime
            listMstime := config.listMstime
            modbusDebug := config.modbusDebug } := rfl
      rw [config_eq, ids, item, list, debug]

/-- Loading a document is all or error, and so is a reload in any state, exactly
when the values that are read fit their fields and arrays, and a document that
loads has names without zero bytes and changes the names or the settings only. -/
theorem configuration_loaded_iff (doc : Document) (s : Sys) :
    AllOrError doc (setupTtyInfo (some doc) {}) ∧ ReloadsAllOrNothing doc s ↔
      ValuesFit doc (doc.map Prod.fst) ∧
      ((∀ key ∈ doc.map Prod.fst, KeyLoads doc key) → NamesWhole (mainTable doc) ∧
        (NamesOf doc s.info.toConfig ∨ SettingsOf doc s.info.toConfig)) := by
  have ends := setupKeys_meets doc (doc.map Prod.fst) {}
  unfold ReloadsAllOrNothing setupResult
  rw [show setupTtyInfo (some doc) = setupKeys doc (doc.map Prod.fst) from rfl]
  cases ended : setupKeys doc (doc.map Prod.fst) {} with
  | panic t =>
      rw [ended] at ends
      constructor
      · exact fun both => absurd both.1 id
      · exact fun both => absurd both.1 ends
  | error reason t =>
      rw [ended] at ends
      obtain ⟨fits, fails⟩ := ends
      constructor
      · exact fun _ => ⟨fits, fun loads => absurd loads fails⟩
      · exact fun _ => ⟨trivial, s, rfl, .inr rfl⟩
  | ok value t =>
      rw [ended] at ends
      obtain ⟨fits, loads, fills⟩ := ends
      obtain ⟨settings, tty, listenSocket⟩ := fills_documented fills
      have names := namesOf_iff tty listenSocket
      have reload := installed_iff s settings
      constructor
      · rintro ⟨⟨isNames, _⟩, u, reloaded, either⟩
        cases reloaded
        exact ⟨fits, fun _ => ⟨names.mp isNames, reload.mp either⟩⟩
      · rintro ⟨_, complete⟩
        obtain ⟨whole, either⟩ := complete loads
        exact ⟨⟨names.mpr whole, settings⟩, _, rfl, reload.mpr either⟩

/-- A device whose `read_address` is 65536. -/
def wideAddress : Document := [(text "id3", some [(text "read_address", .int 65536)])]

/-- It does not fit `u16`: `setup_tty_info` aborts, and so does a reload. -/
theorem configuration_not_loaded_wideAddress :
    ¬ AllOrError wideAddress (setupTtyInfo (some wideAddress) {}) ∧
      ∀ s, ¬ ReloadsAllOrNothing wideAddress s := by
  have aborts : ∃ info, setupTtyInfo (some wideAddress) {} = .panic info := ⟨_, rfl⟩
  obtain ⟨info, aborted⟩ := aborts
  constructor
  · rw [aborted]
    exact id
  · rintro s ⟨t, reloaded, _⟩
    rw [setupResult, aborted] at reloaded
    cases reloaded

end RenogyX10.TtyReader
