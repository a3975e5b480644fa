import RenogyX10.Toml
import RenogyX10.Toml.Lexer

set_option autoImplicit false

namespace RenogyX10.Toml

open CString

def tomlRtob (src : List UInt8) : Option Bool :=
  if src = text "true" then some true
  else if src = text "false" then some false
  else none

def isSign (c : UInt8) : Bool := c = ascii '+' || c = ascii '-'

/-- The copy of a number to a buffer of `room` bytes without its underscores; one more byte
is needed for the NUL. -/
def stripUnderscores : Nat → List UInt8 → Option (List UInt8)
  | 0, _ => none
  | _ + 1, [] => some []
  | room + 1, c :: s =>
      if c = ascii '_' then
        if s = [] ∨ s[0]? = some (ascii '_') then none else stripUnderscores (room + 1) s
      else (stripUnderscores room s).map (c :: ·)

/-- The base of an integer, and its digits. -/
def radix (s : List UInt8) : Option (Nat × List UInt8) :=
  if s[0]? ≠ some (ascii '0') then some (0, s)
  else if s[1]? = some (ascii 'x') then some (16, s.drop 2)
  else if s[1]? = some (ascii 'o') then some (8, s.drop 2)
  else if s[1]? = some (ascii 'b') then some (2, s.drop 2)
  else none

def tomlRtoi (src : List UInt8) : Option Int64 :=
  let sign := if src.head?.any isSign then src.take 1 else []
  let s := src.drop sign.length
  if s[0]? = some (ascii '_') then none
  else if s = [ascii '0'] then some 0
  else
    match radix s with
    | none => none
    | some (base, s) =>
        match stripUnderscores (100 - sign.length) s with
        | none => none
        | some digits =>
            let read := strtoll (sign ++ digits) base
            if read.erange ∨ read.endp ≠ [] then none else some (Int64.ofInt read.value)

/-- A decimal point has a digit on each side. -/
def dotBetweenDigits (s : List UInt8) : Bool :=
  match s.findIdx? (· = ascii '.') with
  | none => true
  | some dot => 0 < dot && (s[dot - 1]?).any isdigit && (s[dot + 1]?).any isdigit

/-- Raw to double. Of `strtod` only this is asked here: whether it takes the whole text
and reports no error. -/
def tomlRtod (strtod : List UInt8 → Bool) (src : List UInt8) : Bool :=
  let sign := if src.head?.any isSign then src.take 1 else []
  let s := src.drop sign.length
  if s[0]? = some (ascii '_') then false
  else if !dotBetweenDigits s then false
  else if s[0]? = some (ascii '0') ∧ 1 < s.length ∧ s[1]? ≠ some (ascii 'e') ∧
      s[1]? ≠ some (ascii 'E') ∧ s[1]? ≠ some (ascii '.') then false
  else
    match stripUnderscores (100 - sign.length) s with
    | none => false
    | some digits => strtod (sign ++ digits)

/-- The parts that are there; the members of a date or a time are set together. -/
structure TimestampT where
  date : Option (Nat × Nat × Nat) := none
  time : Option (Nat × Nat × Nat) := none
  millisec : Option Nat := none
  z : Option (List UInt8) := none
deriving DecidableEq

/-- `parse_millisec`: the digits behind the third count for nothing. -/
def parseMillisec : List UInt8 → Nat → Nat × List UInt8
  | [], _ => (0, [])
  | c :: p, unit =>
      if isdigit c then
        let (ret, endp) := parseMillisec p (unit / 10)
        ((c.toNat - (ascii '0').toNat) * unit + ret, endp)
      else (0, c :: p)

def twoDigits (p : List UInt8) : Bool := (p[0]?).any isdigit && (p[1]?).any isdigit

/-- The zone behind a time: `Z` or an offset. -/
def scanZone (p : List UInt8) : Option (List UInt8 × List UInt8) :=
  if p[0]? = some (ascii 'Z') ∨ p[0]? = some (ascii 'z') then some ([ascii 'Z'], p.drop 1)
  else if p.head?.any isSign then
    if !twoDigits (p.drop 1) then none
    else if p[3]? ≠ some (ascii ':') then some (p.take 3, p.drop 3)
    else if !twoDigits (p.drop 4) then none
    else some (p.take 6, p.drop 6)
  else some ([], p)

/-- The time at `p`, and what stands behind it. -/
def scanClock (p : List UInt8) : Option (TimestampT × List UInt8) :=
  match scanTime p with
  | none => some ({}, p)
  | some time =>
      let (millisec, p) :=
        if p[8]? = some (ascii '.') then
          let (value, endp) := parseMillisec (p.drop 9) 100
          (some value, endp)
        else (none, p.drop 8)
      let ts : TimestampT := { time := some time, millisec := millisec }
      if p = [] then some (ts, p)
      else (scanZone p).map fun (z, p) => ({ ts with z := some z }, p)

def tomlRtots (src : List UInt8) : Option TimestampT :=
  let date := scanDate src
  let p := if date.isSome then src.drop 10 else src
  let mustParseTime := date.isSome ∧ p ≠ []
  if mustParseTime ∧ p[0]? ≠ some (ascii 'T') ∧ p[0]? ≠ some (ascii 't') ∧
      p[0]? ≠ some (ascii ' ') then none
  else
    match scanClock (if mustParseTime then p.drop 1 else p) with
    | none => none
    | some (ts, p) =>
        if p ≠ [] then none
        else if mustParseTime ∧ ts.time = none then none
        else some { ts with date := date }

/-- Raw to string, unless `src` is none. -/
def tomlRtos (src : List UInt8) : Option (Exit NormError Dst (List UInt8)) :=
  match src with
  | [] => none
  | qchar :: _ =>
      if qchar ≠ ascii '\'' ∧ qchar ≠ ascii '"' then none
      else if (tripleOf qchar).isPrefixOf src then
        let sp := src.drop 3
        let sq := src.length - 3
        if sq < 3 ∨ src.drop sq ≠ tripleOf qchar then none
        else
          -- skip new line immediate after qchar
          let newline :=
            if sp[0]? = some (ascii '\n') then 1
            else if sp[0]? = some (ascii '\r') ∧ sp[1]? = some (ascii '\n') then 2
            else 0
          some ((if qchar = ascii '\'' then normLitStr else normBasicStr)
            (sp.drop newline) (sq - 3 - newline) true)
      else
        let sq := src.length - 1
        if sq < 1 ∨ src.drop sq ≠ [qchar] then none
        else some ((if qchar = ascii '\'' then normLitStr else normBasicStr) (src.drop 1) (sq - 1) false)

/-- The type of a raw value, `'s'` to `'u'`; `mixed` is the type of an array only. -/
inductive ValType where
  | unset
  | string
  | bool
  | int
  | double
  | timestamp
  | date
  | time
  | unknown
  | mixed
deriving DecidableEq

def valtype (strtod : List UInt8 → Bool) (val : List UInt8) : ValType :=
  if val.head? = some (ascii '\'') ∨ val.head? = some (ascii '"') then .string
  else if (tomlRtob val).isSome then .bool
  else if (tomlRtoi val).isSome then .int
  else if tomlRtod strtod val then .double
  else
    match tomlRtots val with
    | none => .unknown
    | some ts =>
        if ts.date.isSome ∧ ts.time.isSome then .timestamp
        else if ts.date.isSome then .date
        else .time

section Strings

theorem norm_ends (qchar : UInt8) {src sp : List UInt8} {srclen : Nat} (multiline : Bool)
    (inside : srclen ≤ sp.length) (part : sp.length ≤ src.length) :
    ((if qchar = ascii '\'' then normLitStr else normBasicStr) sp srclen multiline).Ends
      (Capped src.length) fun _ _ => True := by
  have longer : ∀ bytes dst, Capped srclen bytes dst → Capped src.length bytes dst :=
    fun bytes dst capped => ⟨capped.1, capped.2.1, by have := capped.2.2; omega⟩
  split_ifs
  · exact (normLitStr_ends multiline inside).mono longer fun _ _ => id
  · exact (normBasicStr_ends multiline inside).mono longer fun _ _ => id

/-- `toml_rtos` on any raw value: it reads within it, and writes within its buffer. -/
theorem string_in_bounds (src : List UInt8) :
    tomlRtos src = none ∨
      ∃ ended, tomlRtos src = some ended ∧ ended.Ends (Capped src.length) fun _ _ => True := by
  cases src with
  | nil => exact .inl rfl
  | cons qchar rest =>
      unfold tomlRtos
      dsimp only
      by_cases other : qchar ≠ ascii '\'' ∧ qchar ≠ ascii '"'
      · exact .inl (if_pos other)
      · rw [if_neg other]
        by_cases triple : (tripleOf qchar).isPrefixOf (qchar :: rest) = true
        · rw [if_pos triple]
          by_cases bad : (qchar :: rest).length - 3 < 3 ∨
              (qchar :: rest).drop ((qchar :: rest).length - 3) ≠ tripleOf qchar
          · exact .inl (if_pos bad)
          · rw [if_neg bad]
            refine .inr ⟨_, rfl, norm_ends qchar true ?_ ?_⟩
            · simp only [List.length_drop]
              omega
            · simp only [List.length_drop]
              omega
        · rw [if_neg triple]
          by_cases bad : (qchar :: rest).length - 1 < 1 ∨
              (qchar :: rest).drop ((qchar :: rest).length - 1) ≠ [qchar]
          · exact .inl (if_pos bad)
          · rw [if_neg bad]
            refine .inr ⟨_, rfl, norm_ends qchar false ?_ ?_⟩
            · simp only [List.length_drop]
              omega
            · simp only [List.length_drop]
              omega

end Strings

end RenogyX10.Toml
