import RenogyX10.Influx.Main
import RenogyX10.Lib.Fields

set_option autoImplicit false

namespace RenogyX10.Influx

open Checked Fields Proc Toml

inductive TomlError where
  /-- the file cannot be read or is not TOML, or the log cannot be written -/
  | loadFailed
  | tomlTableInFailed
deriving DecidableEq

/-- `set_str` to an array of this size: a string that is too long is cut off. -/
def setStr (size : Nat) (bytes : List UInt8) : List UInt8 := (sliceTo bytes).take (size - 1)

/-- One key of the table `main`. -/
def setMain (table : Table) (info : InfluxInfo) (key : Key) : Option InfluxInfo :=
  if key = text "influx_hostname" then
    (stringIn table key).elim (some info) fun s =>
      some { info with influxHostname := setStr 256 s }
  else if key = text "influx_port" then
    (intIn table key).elim (some info) fun i =>
      (intCastI32 i.toInt).map fun port => { info with influxPort := port }
  else if key = text "influx_database" then
    (stringIn table key).elim (some info) fun s =>
      some { info with influxDatabase := setStr 256 s }
  else if key = text "influx_org" then
    (stringIn table key).elim (some info) fun s => some { info with influxOrg := setStr 256 s }
  else if key = text "influx_token" then
    (stringIn table key).elim (some info) fun s => some { info with influxToken := setStr 512 s }
  else if key = text "influx_host_tag" then
    (stringIn table key).elim (some info) fun s =>
      some { info with influxHostTag := setStr 256 s }
  else some info

def setupKey (doc : Document) (key : Key) : Proc TomlError InfluxInfo Unit :=
  if key = text "main" then
    match tableIn doc key with
    | none => Proc.fail .tomlTableInFailed
    | some table => do
        let info ← Proc.read id
        let filled ← Proc.orAbort ((table.map Prod.fst).foldlM (setMain table) info)
        Proc.modify fun _ => filled
  else pure ()

def setupKeys (doc : Document) : List Key → Proc TomlError InfluxInfo Unit
  | [] => pure ()
  | key :: rest => do
      setupKey doc key
      setupKeys doc rest

/-- `setup_influx_info`, from what `load_influx_config` gives. -/
def setupInfluxInfo : Option Document → Proc TomlError InfluxInfo Unit
  | none => Proc.fail .loadFailed
  | some doc => setupKeys doc (doc.map Prod.fst)

/-- What the process gets from it, with the defaults set before. -/
def setupResult (file : Option Document) : SetupResult :=
  match setupInfluxInfo file .defaults with
  | .ok _ info => .ok info
  | .error _ _ => .failed
  | .panic _ => .panic

/-- The arrays and the port of `influx_info_t`. -/
structure Bounded (info : InfluxInfo) : Prop where
  hostname : info.influxHostname.length ≤ 255
  port : FitsI32 info.influxPort
  database : info.influxDatabase.length ≤ 255
  org : info.influxOrg.length ≤ 255
  token : info.influxToken.length ≤ 511
  hostTag : info.influxHostTag.length ≤ 255

theorem setStr_length (size : Nat) (bytes : List UInt8) :
    (setStr size bytes).length ≤ size - 1 := by
  rw [setStr, List.length_take]
  exact Nat.min_le_left _ _

theorem bounded_defaults : Bounded .defaults := by
  constructor <;> decide

theorem bounded_elim {α : Type} {value : Option α} {info t : InfluxInfo}
    {set : α → Option InfluxInfo} (bounded : Bounded info)
    (kept : ∀ a, set a = some t → Bounded t) (taken : value.elim (some info) set = some t) :
    Bounded t := by
  cases value with
  | none =>
      cases taken
      exact bounded
  | some a => exact kept a taken

theorem Bounded.setMain {table : Table} {info t : InfluxInfo} {key : Key} (bounded : Bounded info)
    (taken : setMain table info key = some t) : Bounded t := by
  have copied (s : List UInt8) := setStr_length 256 s
  unfold Influx.setMain at taken
  split at taken
  · apply bounded_elim bounded _ taken
    rintro s ⟨⟩
    exact { bounded with hostname := copied s }
  split at taken
  · apply bounded_elim bounded _ taken
    intro i set
    obtain ⟨port, cast, rfl⟩ := Option.map_eq_some_iff.mp set
    have fits := (intCastI32_eq_some.mp cast).1
    exact { bounded with port := (intCastI32_eq_some.mp cast).2 ▸ fits }
  split at taken
  · apply bounded_elim bounded _ taken
    rintro s ⟨⟩
    exact { bounded with database := copied s }
  split at taken
  · apply bounded_elim bounded _ taken
    rintro s ⟨⟩
    exact { bounded with org := copied s }
  split at taken
  · apply bounded_elim bounded _ taken
    rintro s ⟨⟩
    exact { bounded with token := setStr_length 512 s }
  split at taken
  · apply bounded_elim bounded _ taken
    rintro s ⟨⟩
    exact { bounded with hostTag := copied s }
  · cases taken
    exact bounded

theorem bounded_foldlM {table : Table} {keys : List Key} {info t : InfluxInfo}
    (bounded : Bounded info) (filled : keys.foldlM (setMain table) info = some t) :
    Bounded t := by
  have fills := fills_of_foldlM filled
  clear filled
  induction keys generalizing info with
  | nil =>
      obtain rfl : t = info := fills
      exact bounded
  | cons key rest ih =>
      obtain ⟨next, taken, later⟩ := fills
      exact ih (bounded.setMain taken) later

theorem keeps_setupKey (doc : Document) (key : Key) : Keeps Bounded (setupKey doc key) := by
  unfold setupKey
  refine .ite (fun _ => ?_) fun _ => .pure ()
  cases tableIn doc key with
  | none => exact .fail TomlError.tomlTableInFailed
  | some table =>
      intro info bounded
      dsimp only
      rw [read_bind]
      cases filled : (table.map Prod.fst).foldlM (setMain table) (id info) with
      | none => exact bounded
      | some t => exact bounded_foldlM bounded filled

theorem keeps_setupKeys (doc : Document) (keys : List Key) :
    Keeps Bounded (setupKeys doc keys) := by
  induction keys with
  | nil => exact .pure ()
  | cons key rest ih => exact .bind (keeps_setupKey doc key) fun _ => ih

/-- Every configuration that is accepted fits its arrays. -/
theorem bounded_setupResult {file : Option Document} {config : InfluxInfo}
    (accepted : setupResult file = .ok config) : Bounded config := by
  cases file with
  | none => cases accepted
  | some doc =>
      have kept := keeps_setupKeys doc (doc.map Prod.fst) .defaults bounded_defaults
      unfold setupResult setupInfluxInfo at accepted
      dsimp only at accepted
      split at accepted
      case h_1 ended =>
        cases accepted
        rw [ended] at kept
        exact kept
      case h_2 => cases accepted
      case h_3 => cases accepted

end RenogyX10.Influx
