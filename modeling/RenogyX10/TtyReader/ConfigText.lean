import RenogyX10.Toml.Scalars
import RenogyX10.TtyReader.TtyToml

set_option autoImplicit false

namespace RenogyX10.TtyReader

open Fields Toml Proc

/-- `load_tty_config`, from the bytes that are read; no bytes when the file cannot be. -/
def loadTtyConfig (strtod : List UInt8 → Bool) (buf : Option (List UInt8)) : Option Document :=
  match buf.map (tomlParse strtod) with
  | some (.ok _ s) => some (documentOf s.nodes)
  | _ => none

def mainLines (config : Config) : Table :=
  [(text "tty", .string config.tty), (text "modbus_debug", .bool config.modbusDebug),
    (text "item_mstime", .int (Int64.ofInt config.itemMstime)),
    (text "list_mstime", .int (Int64.ofInt config.listMstime)),
    (text "listen_socket", .string config.listenSocket)]

def itemLines (item : TtyIdInfo) : Table :=
  [(text "read_address", .int (Int64.ofInt item.readAddress.toNat)),
    (text "read_count", .int (Int64.ofInt item.readCount.toNat)),
    (text "read_input_address", .int (Int64.ofInt item.readInputAddress.toNat)),
    (text "read_input_count", .int (Int64.ofInt item.readInputCount.toNat))]

/-- `idN` -/
def itemName (item : TtyIdInfo) : Key := text "id" ++ decimalDigits item.id.toNat

def configTables (config : Config) : List (Key × Table) :=
  (text "main", mainLines config) :: config.idList.map fun item => (itemName item, itemLines item)

/-- The text of a configuration file. -/
def configText (config : Config) : List UInt8 := write (configTables config)

/-- A name that fits its array as a whole. -/
def NameFits (name : List UInt8) : Prop := 0 ∉ name ∧ name.length ≤ gTtyNameMaxLength

instance (name : List UInt8) : Decidable (NameFits name) := inferInstanceAs (Decidable (_ ∧ _))

/-- A configuration that a file can hold. -/
structure Storable (config : Config) : Prop where
  ids : (config.idList.map TtyIdInfo.id).Nodup
  tty : NameFits config.tty
  listenSocket : NameFits config.listenSocket
  itemMstime : InInt64 config.itemMstime
  listMstime : InInt64 config.listMstime

variable {config : Config} {item : TtyIdInfo}

section Names

theorem itemName_injective {first second : TtyIdInfo} (same : itemName first = itemName second) :
    first.id = second.id := by
  have digits : decimalDigits first.id.toNat = decimalDigits second.id.toNat := List.append_cancel_left same
  have numbers := congrArg (CString.ofDigits 10) digits
  rw [ofDigits_decimal, ofDigits_decimal] at numbers
  exact UInt8.toNat_inj.mp numbers

theorem itemName_ne_main (item : TtyIdInfo) : itemName item ≠ text "main" := by
  intro same
  have heads := congrArg List.head? same
  cases heads

theorem itemName_eq (item : TtyIdInfo) : itemName item = 105 :: 100 :: decimalDigits item.id.toNat := rfl

theorem itemName_isIdKey (item : TtyIdInfo) : isIdKey (itemName item) = true := by
  simp [isIdKey, itemName_eq]

theorem drop_itemName (item : TtyIdInfo) : (itemName item).drop 2 = decimalDigits item.id.toNat := by
  rw [itemName_eq]
  rfl

theorem isBare_of_all {c : UInt8} {p : Key} (bare : (c :: p).all isBareKey = true)
    (letter : CString.isdigit c = false) : IsBare (c :: p) :=
  ⟨List.all_eq_true.mp bare, c, rfl, letter⟩

theorem isBare_itemName (item : TtyIdInfo) : IsBare (itemName item) := by
  refine ⟨?_, _, rfl, rfl⟩
  intro c member
  rw [itemName, List.mem_append] at member
  obtain id | digit := member
  · have letters : ∀ c ∈ text "id", isBareKey c = true :=
      List.all_eq_true.mp (by decide)
    exact letters c id
  · have numeral := isdigit_decimal _ c digit
    simp [isBareKey, CString.isalnum, numeral]

theorem parseInt_decimal : ∀ n, n < 256 → ParseInt.parseInt 8 (decimalDigits n) = .ok n := by
  decide +kernel

theorem numberOf_decimal (id : UInt8) : ParseInt.numberOf (decimalDigits id.toNat) = id.toNat :=
  (ParseInt.parseInt_value (parseInt_decimal id.toNat id.toNat_lt)).1.symm

theorem names_nodup (ids : (config.idList.map TtyIdInfo.id).Nodup) :
    ((configTables config).map Prod.fst).Nodup := by
  simp only [configTables, List.map_cons, List.map_map]
  rw [List.nodup_cons]
  constructor
  · intro member
    obtain ⟨item, -, same⟩ := List.mem_map.mp member
    exact itemName_ne_main item same
  · have apart := List.pairwise_map.mp ids
    exact List.pairwise_map.mpr
      (apart.imp fun differs same => differs (itemName_injective same))

end Names

theorem isWritable_configTables (storable : Storable config) :
    IsWritable (configTables config) where
  names := names_nodup storable.ids
  name e member := by
    obtain rfl | later := List.mem_cons.mp member
    · exact isBare_of_all (by decide) rfl
    · obtain ⟨item, -, rfl⟩ := List.mem_map.mp later
      exact isBare_itemName item
  keys e member := by
    obtain rfl | later := List.mem_cons.mp member
    · show List.Nodup _
      simp only [mainLines, List.map_cons, List.map_nil]
      decide
    · obtain ⟨item, -, rfl⟩ := List.mem_map.mp later
      simp only [itemLines, List.map_cons, List.map_nil]
      decide
  key e member line inTable := by
    have name := List.mem_map_of_mem (f := Prod.fst) inTable
    have bare : ∀ key ∈ e.2.map Prod.fst, IsBare key := by
      obtain rfl | later := List.mem_cons.mp member
      · simp only [mainLines, List.map_cons, List.map_nil, List.forall_mem_cons]
        and_intros <;> first | exact isBare_of_all (by decide) rfl | exact fun _ none => nomatch none
      · obtain ⟨item, -, rfl⟩ := List.mem_map.mp later
        simp only [itemLines, List.map_cons, List.map_nil, List.forall_mem_cons]
        and_intros <;> first | exact isBare_of_all (by decide) rfl | exact fun _ none => nomatch none
    exact bare line.1 name
  scalar e member line inTable := by
    have scalar : ∀ line ∈ e.2, IsScalar line.2 := by
      obtain rfl | later := List.mem_cons.mp member
      · simp [mainLines, IsScalar, storable.tty.1, storable.listenSocket.1]
      · obtain ⟨item, -, rfl⟩ := List.mem_map.mp later
        simp [itemLines, IsScalar]
    exact scalar line inTable

section Lookup

variable {α : Type}

theorem lookup_of_mem {entries : List (Key × α)} {key : Key} {value : α}
    (unique : (entries.map Prod.fst).Nodup) (member : (key, value) ∈ entries) :
    entries.lookup key = some value := by
  induction entries with
  | nil => cases member
  | cons e rest ih =>
      rw [List.map_cons, List.nodup_cons] at unique
      rw [List.lookup_cons]
      obtain rfl | later := List.mem_cons.mp member
      · simp
      · have differs : key ≠ e.1 := by
          intro same
          exact unique.1 (same ▸ List.mem_map_of_mem (f := Prod.fst) later)
        rw [beq_eq_false_iff_ne.mpr differs]
        exact ih unique.2 later

/-- The document that is read back from a text. -/
def documentFor (config : Config) : Document :=
  (configTables config).map fun e => (e.1, some e.2)

theorem map_fst_documentFor (config : Config) :
    (documentFor config).map Prod.fst = text "main" :: config.idList.map itemName := by
  simp [documentFor, configTables, Function.comp_def]

theorem tableIn_documentFor (ids : (config.idList.map TtyIdInfo.id).Nodup) {key : Key}
    {table : Table} (member : (key, table) ∈ configTables config) :
    tableIn (documentFor config) key = some table := by
  have unique : ((documentFor config).map Prod.fst).Nodup := by
    rw [documentFor, List.map_map]
    exact names_nodup ids
  rw [tableIn, lookup_of_mem unique (List.mem_map_of_mem (f := fun e => (e.1, some e.2)) member)]
  rfl

theorem tableIn_main (ids : (config.idList.map TtyIdInfo.id).Nodup) :
    tableIn (documentFor config) (text "main") = some (mainLines config) :=
  tableIn_documentFor ids List.mem_cons_self

theorem tableIn_item (ids : (config.idList.map TtyIdInfo.id).Nodup) (member : item ∈ config.idList) :
    tableIn (documentFor config) (itemName item) = some (itemLines item) :=
  tableIn_documentFor ids
    (List.mem_cons_of_mem _ (List.mem_map_of_mem (f := fun item => (itemName item, itemLines item)) member))

end Lookup

section Values

theorem toInt_ofInt {value : Int} (range : InInt64 value) : (Int64.ofInt value).toInt = value :=
  Int64.toInt_ofInt_of_le range.1 (Int.lt_add_one_of_le range.2)

theorem toInt_small {n : Nat} (small : n < 65536) : (Int64.ofInt n).toInt = n := by
  apply toInt_ofInt
  constructor
  · show (-9223372036854775808 : Int) ≤ n
    omega
  · show n ≤ (9223372036854775807 : Int)
    omega

theorem inU16_ofInt (value : UInt16) : InU16 (Int64.ofInt value.toNat) := by
  have small := value.toNat_lt
  rw [InU16, toInt_small small]
  omega

theorem inU8_ofInt (value : UInt8) : InU8 (Int64.ofInt value.toNat) := by
  have small := value.toNat_lt
  rw [InU8, toInt_small (by omega)]
  omega

theorem intOrZero_small {n : Nat} (small : n < 65536) : intOrZero (some (Int64.ofInt n)) = n := by
  simp [intOrZero, toInt_small small]

theorem itemFrom_itemLines (item : TtyIdInfo) : ItemFrom (itemLines item) (itemName item) item := by
  have count := item.readCount.toNat_lt
  have inputCount := item.readInputCount.toNat_lt
  refine ⟨?_, ?_, ?_, ?_, ?_⟩
  · rw [drop_itemName, numberOf_decimal]
  · exact (intOrZero_small item.readAddress.toNat_lt).symm
  · exact (intOrZero_small (by omega)).symm
  · exact (intOrZero_small item.readInputAddress.toNat_lt).symm
  · exact (intOrZero_small (by omega)).symm

theorem itemFits_itemLines (item : TtyIdInfo) : ItemFits (itemLines item) where
  readAddress i found := by
    obtain rfl := Option.some.inj found
    exact inU16_ofInt item.readAddress
  readCount i found := by
    obtain rfl := Option.some.inj found
    exact inU8_ofInt item.readCount
  readInputAddress i found := by
    obtain rfl := Option.some.inj found
    exact inU16_ofInt item.readInputAddress
  readInputCount i found := by
    obtain rfl := Option.some.inj found
    exact inU8_ofInt item.readInputCount

theorem sliceTo_name {name : List UInt8} (fits : NameFits name) : sliceTo name = name :=
  sliceTo_eq_iff.mpr fits.1

theorem mainFits_mainLines (storable : Storable config) : MainFits (mainLines config) where
  tty s found := by
    obtain rfl := Option.some.inj found
    rw [sliceTo_name storable.tty]
    exact storable.tty.2
  listenSocket s found := by
    obtain rfl := Option.some.inj found
    rw [sliceTo_name storable.listenSocket]
    exact storable.listenSocket.2

end Values

section Keys

theorem itemName_of_isIdKey {key : Key} (isId : isIdKey key = true)
    (member : key ∈ text "main" :: config.idList.map itemName) :
    ∃ item ∈ config.idList, itemName item = key := by
  obtain rfl | later := List.mem_cons.mp member
  · rw [main_isIdKey] at isId
    cases isId
  · exact List.mem_map.mp later

theorem keyLoads (storable : Storable config) {key : Key}
    (member : key ∈ text "main" :: config.idList.map itemName) :
    KeyLoads (documentFor config) key where
  main isMain := by
    rw [isMain, tableIn_main storable.ids]
    rfl
  number isId := by
    obtain ⟨item, -, rfl⟩ := itemName_of_isIdKey isId member
    rw [drop_itemName]
    exact ⟨_, parseInt_decimal _ item.id.toNat_lt⟩
  item isId := by
    obtain ⟨item, inList, rfl⟩ := itemName_of_isIdKey isId member
    rw [tableIn_item storable.ids inList]
    rfl

theorem keyFits (storable : Storable config) {key : Key}
    (member : key ∈ text "main" :: config.idList.map itemName) :
    KeyFits (documentFor config) key where
  main isMain table found := by
    rw [isMain, tableIn_main storable.ids] at found
    obtain rfl := Option.some.inj found
    exact mainFits_mainLines storable
  item isId _ table found := by
    obtain ⟨item, inList, rfl⟩ := itemName_of_isIdKey isId member
    rw [tableIn_item storable.ids inList] at found
    obtain rfl := Option.some.inj found
    exact itemFits_itemLines item

theorem valuesFit {doc : Document} {keys : List Key} (each : ∀ key ∈ keys, KeyFits doc key) :
    ValuesFit doc keys := by
  induction keys with
  | nil => trivial
  | cons key rest ih =>
      rw [List.forall_mem_cons] at each
      exact ⟨each.1, fun _ => ih each.2⟩

theorem settingsOf_documentFor (storable : Storable config) :
    SettingsOf (documentFor config) config where
  idList := by
    rw [map_fst_documentFor, List.filter_cons_of_neg (by rw [main_isIdKey]; exact Bool.false_ne_true),
      List.filter_eq_self.mpr]
    · rw [List.forall₂_map_left_iff, List.forall₂_same]
      exact fun item inList =>
        ⟨itemLines item, tableIn_item storable.ids inList, itemFrom_itemLines item⟩
    · intro key member
      obtain ⟨item, -, rfl⟩ := List.mem_map.mp member
      exact itemName_isIdKey item
  itemMstime := by
    rw [mainTable, tableIn_main storable.ids]
    exact (toInt_ofInt storable.itemMstime).symm
  listMstime := by
    rw [mainTable, tableIn_main storable.ids]
    exact (toInt_ofInt storable.listMstime).symm
  modbusDebug := by
    rw [mainTable, tableIn_main storable.ids]
    rfl

theorem config_ext {first second : Config} (idList : first.idList = second.idList)
    (itemMstime : first.itemMstime = second.itemMstime)
    (listMstime : first.listMstime = second.listMstime)
    (modbusDebug : first.modbusDebug = second.modbusDebug) (tty : first.tty = second.tty)
    (listenSocket : first.listenSocket = second.listenSocket) : first = second := by
  cases first
  cases second
  simp only at idList itemMstime listMstime modbusDebug tty listenSocket
  subst_vars
  rfl

theorem setupTtyInfo_documentFor (storable : Storable config) :
    setupTtyInfo (some (documentFor config)) {} = .ok () config := by
  have keys := map_fst_documentFor config
  have ends := setupKeys_meets (documentFor config) ((documentFor config).map Prod.fst) {}
  have fits : ValuesFit (documentFor config) ((documentFor config).map Prod.fst) := by
    rw [keys]
    exact valuesFit fun key member => keyFits storable member
  have loads : ∀ key ∈ (documentFor config).map Prod.fst, KeyLoads (documentFor config) key := by
    rw [keys]
    exact fun key member => keyLoads storable member
  show setupKeys (documentFor config) ((documentFor config).map Prod.fst) {} = _
  cases ended : setupKeys (documentFor config) ((documentFor config).map Prod.fst) {} with
  | panic t =>
      rw [ended] at ends
      exact absurd fits ends
  | error reason t =>
      rw [ended] at ends
      exact absurd loads ends.2
  | ok _ t =>
      rw [ended] at ends
      obtain ⟨settings, tty, listenSocket⟩ := fills_documented ends.2.2
      obtain ⟨idList, itemMstime, listMstime, modbusDebug⟩ :=
        settings.unique (settingsOf_documentFor storable)
      rw [mainTable, tableIn_main storable.ids] at tty listenSocket
      have isTty : t.tty = config.tty := tty.trans (sliceTo_name storable.tty)
      have isListen : t.listenSocket = config.listenSocket :=
        listenSocket.trans (sliceTo_name storable.listenSocket)
      rw [config_ext idList itemMstime listMstime modbusDebug isTty isListen]

end Keys

theorem loadTtyConfig_configText (strtod : List UInt8 → Bool) (storable : Storable config) :
    loadTtyConfig strtod (some (configText config)) = some (documentFor config) := by
  obtain ⟨t, ran, shown⟩ := tomlParse_write strtod (isWritable_configTables storable)
  rw [loadTtyConfig, configText, Option.map_some, ran]
  exact congrArg some shown

/-- Every configuration that a file can hold is loaded from its text as it was. -/
theorem setupResult_configText (strtod : List UInt8 → Bool) (storable : Storable config) :
    setupResult (loadTtyConfig strtod (some (configText config))) = .ok config := by
  rw [loadTtyConfig_configText strtod storable, setupResult, setupTtyInfo_documentFor storable]

/-- One device on `/dev/ttyUSB0`. -/
def usbConfig : Config where
  itemMstime := 1000
  listMstime := 60000
  tty := text "/dev/ttyUSB0"
  listenSocket := text "/tmp/tty_reader.socket"
  idList := [{ id := 3, readInputCount := 8 }]

theorem setupResult_configText_usbConfig :
    setupResult (loadTtyConfig (fun _ => false) (some (configText usbConfig))) = .ok usbConfig :=
  setupResult_configText _ ⟨by decide, by decide, by decide, by decide, by decide⟩

end RenogyX10.TtyReader
