import RenogyX10.Toml.Values

set_option autoImplicit false

namespace RenogyX10.Toml

open CString

def digitByte (n : Nat) : UInt8 := UInt8.ofNat (48 + n % 10)

/-- The last `k` digits of a number. -/
def padded : Nat → Nat → List UInt8
  | 0, _ => []
  | k + 1, n => padded k (n / 10) ++ [digitByte n]

def dateText (date : Nat × Nat × Nat) : List UInt8 :=
  padded 4 date.1 ++ ascii '-' :: (padded 2 date.2.1 ++ ascii '-' :: padded 2 date.2.2)

def clockText (time : Nat × Nat × Nat) : List UInt8 :=
  padded 2 time.1 ++ ascii ':' :: (padded 2 time.2.1 ++ ascii ':' :: padded 2 time.2.2)

def millisecText (millisec : Option Nat) : List UInt8 :=
  millisec.elim [] fun value => ascii '.' :: padded 3 value

/-- The text of a timestamp, with a separator between its date and its time. -/
def stampText (separator : UInt8) (ts : TimestampT) : List UInt8 :=
  ts.date.elim [] dateText ++
    ((if ts.date.isSome ∧ ts.time.isSome then [separator] else []) ++
      (ts.time.elim [] clockText ++ (millisecText ts.millisec ++ ts.z.getD [])))

def IsSeparator (c : UInt8) : Prop := c = ascii 'T' ∨ c = ascii 't' ∨ c = ascii ' '

instance (c : UInt8) : Decidable (IsSeparator c) := inferInstanceAs (Decidable (_ ∨ _))

inductive IsZone : List UInt8 → Prop
  | utc : IsZone [ascii 'Z']
  | hours {sign a b : UInt8} (isSign : isSign sign = true) (first : isdigit a = true)
      (second : isdigit b = true) : IsZone [sign, a, b]
  | minutes {sign a b c d : UInt8} (isSign : isSign sign = true) (first : isdigit a = true)
      (second : isdigit b = true) (third : isdigit c = true) (fourth : isdigit d = true) :
      IsZone [sign, a, b, ascii ':', c, d]

structure IsDate (date : Nat × Nat × Nat) : Prop where
  year : date.1 < 10000
  month : date.2.1 < 100
  day : date.2.2 < 100

structure IsClock (time : Nat × Nat × Nat) : Prop where
  hour : time.1 < 100
  minute : time.2.1 < 100
  second : time.2.2 < 100

/-- A timestamp whose parts fit their digits. -/
structure IsStamp (ts : TimestampT) : Prop where
  parts : ts.date.isSome ∨ ts.time.isSome
  date : ∀ date ∈ ts.date, IsDate date
  time : ∀ time ∈ ts.time, IsClock time
  clock : ts.time = none → ts.millisec = none ∧ ts.z = none
  millisec : ∀ value ∈ ts.millisec, value < 1000
  zone : ∀ z ∈ ts.z, IsZone z

variable {p rest : List UInt8} {n k ret value : Nat}

section Digits

theorem digitByte_digit (n : Nat) :
    isdigit (digitByte n) = true ∧ (digitByte n).toNat - (ascii '0').toNat = n % 10 := by
  have all : ∀ n, n < 10 → isdigit (UInt8.ofNat (48 + n)) = true ∧
      (UInt8.ofNat (48 + n)).toNat - (ascii '0').toNat = n := by decide
  exact all (n % 10) (Nat.mod_lt n (by omega))

theorem padded_length (k n : Nat) : (padded k n).length = k := by
  induction k generalizing n with
  | zero => rfl
  | succ k ih => rw [padded, List.length_append, ih, List.length_singleton]

theorem scanDigits_append (k m : Nat) (p : List UInt8) (ret : Nat) :
    scanDigits (k + m) p ret = (scanDigits k p ret).bind fun v => scanDigits m (p.drop k) v := by
  induction k generalizing p ret with
  | zero => rw [Nat.zero_add, scanDigits, Option.bind_some, List.drop_zero]
  | succ k ih =>
      rw [Nat.succ_add]
      cases p with
      | nil => rfl
      | cons c p =>
          rw [scanDigits, scanDigits]
          split_ifs
          · exact ih p _
          · rfl

theorem scanDigits_padded (small : n < 10 ^ k) (ret : Nat) (rest : List UInt8) :
    scanDigits k (padded k n ++ rest) ret = some (ret * 10 ^ k + n) := by
  induction k generalizing n rest with
  | zero =>
      have zero : n = 0 := by simpa using small
      rw [zero, Nat.pow_zero, Nat.mul_one]
      rfl
  | succ k ih =>
      have front : n / 10 < 10 ^ k := by
        rw [Nat.pow_succ] at small
        omega
      obtain ⟨digit, value⟩ := digitByte_digit n
      have behind : (padded k (n / 10) ++ ([digitByte n] ++ rest)).drop k = digitByte n :: rest :=
        List.drop_left' (padded_length k _)
      rw [scanDigits_append, padded, List.append_assoc, ih front, Option.bind_some, behind, scanDigits,
        if_pos digit, value]
      show some (10 * (ret * 10 ^ k + n / 10) + n % 10) = _
      congr 1
      rw [Nat.pow_succ]
      have split := Nat.div_add_mod n 10
      have regroup : 10 * (ret * 10 ^ k) = ret * (10 ^ k * 10) := by
        rw [Nat.mul_left_comm, Nat.mul_comm 10]
      omega

theorem scanDigits_lt (scanned : scanDigits k p ret = some value) :
    value < (ret + 1) * 10 ^ k := by
  induction k generalizing p ret with
  | zero =>
      obtain rfl := Option.some.inj scanned
      simp
  | succ k ih =>
      cases p with
      | nil => cases scanned
      | cons c p =>
          rw [scanDigits] at scanned
          split_ifs at scanned with digit
          have bound := ih scanned
          have small : c.toNat - (ascii '0').toNat < 10 := by
            simp only [isdigit, Bool.and_eq_true, decide_eq_true_eq] at digit
            have high : c.toNat ≤ 57 := digit.2
            show c.toNat - 48 < 10
            omega
          calc value
            _ < (10 * ret + (c.toNat - (ascii '0').toNat) + 1) * 10 ^ k := bound
            _ ≤ ((ret + 1) * 10) * 10 ^ k := Nat.mul_le_mul_right _ (by omega)
            _ = (ret + 1) * 10 ^ (k + 1) := by rw [Nat.mul_assoc, Nat.pow_succ, Nat.mul_comm 10]

end Digits

section Texts

theorem drop_padded (k n : Nat) (rest : List UInt8) : (padded k n ++ rest).drop k = rest :=
  List.drop_left' (padded_length k n)

theorem separated_padded (k n : Nat) (separator : UInt8) (rest : List UInt8) :
    separated (padded k n ++ separator :: rest) k separator = some () := by
  apply if_pos
  rw [List.getElem?_append_right (by rw [padded_length]), padded_length, Nat.sub_self]
  rfl

theorem separated_drop (p : List UInt8) (m k : Nat) (separator : UInt8) :
    separated p (m + k) separator = separated (p.drop m) k separator := by
  unfold separated
  rw [List.getElem?_drop]

theorem scanDate_dateText {date : Nat × Nat × Nat} (isDate : IsDate date) (rest : List UInt8) :
    scanDate (dateText date ++ rest) = some date := by
  obtain ⟨year, month, day⟩ := date
  let behindYear := ascii '-' :: (padded 2 month ++ ascii '-' :: (padded 2 day ++ rest))
  have text : dateText (year, month, day) ++ rest = padded 4 year ++ behindYear := by
    simp [dateText, behindYear]
  have drop5 : (padded 4 year ++ behindYear).drop 5 =
      padded 2 month ++ ascii '-' :: (padded 2 day ++ rest) := by
    rw [show 5 = 4 + 1 from rfl, ← List.drop_drop, drop_padded]
    rfl
  have drop8 : (padded 4 year ++ behindYear).drop 8 = padded 2 day ++ rest := by
    rw [show 8 = 5 + 3 from rfl, ← List.drop_drop, drop5, show 3 = 2 + 1 from rfl,
      ← List.drop_drop, drop_padded]
    rfl
  have first := separated_padded 4 year (ascii '-') (padded 2 month ++ ascii '-' :: (padded 2 day ++ rest))
  have second : separated (padded 4 year ++ behindYear) 7 (ascii '-') = some () := by
    rw [show 7 = 5 + 2 from rfl, separated_drop, drop5]
    exact separated_padded 2 month _ _
  unfold scanDate
  rw [text, scanDigits_padded isDate.year, drop5, scanDigits_padded isDate.month, drop8,
    scanDigits_padded isDate.day, second]
  show (do separated (padded 4 year ++ behindYear) 4 (ascii '-'); _ : Option _) = _
  rw [first]
  simp

theorem clockText_length (time : Nat × Nat × Nat) : (clockText time).length = 8 := by
  simp [clockText, padded_length]

theorem dateText_length (date : Nat × Nat × Nat) : (dateText date).length = 10 := by
  simp [dateText, padded_length]

theorem scanTime_clockText {time : Nat × Nat × Nat} (isClock : IsClock time) (rest : List UInt8) :
    scanTime (clockText time ++ rest) = some time := by
  obtain ⟨hour, minute, second⟩ := time
  let behindHour := ascii ':' :: (padded 2 minute ++ ascii ':' :: (padded 2 second ++ rest))
  have text : clockText (hour, minute, second) ++ rest = padded 2 hour ++ behindHour := by
    simp [clockText, behindHour]
  have drop3 : (padded 2 hour ++ behindHour).drop 3 =
      padded 2 minute ++ ascii ':' :: (padded 2 second ++ rest) := by
    rw [show 3 = 2 + 1 from rfl, ← List.drop_drop, drop_padded]
    rfl
  have drop6 : (padded 2 hour ++ behindHour).drop 6 = padded 2 second ++ rest := by
    rw [show 6 = 3 + 3 from rfl, ← List.drop_drop, drop3, show 3 = 2 + 1 from rfl,
      ← List.drop_drop, drop_padded]
    rfl
  have first := separated_padded 2 hour (ascii ':')
    (padded 2 minute ++ ascii ':' :: (padded 2 second ++ rest))
  have last : separated (padded 2 hour ++ behindHour) 5 (ascii ':') = some () := by
    rw [show 5 = 3 + 2 from rfl, separated_drop, drop3]
    exact separated_padded 2 minute _ _
  unfold scanTime
  rw [text, scanDigits_padded isClock.hour, drop3, scanDigits_padded isClock.minute, drop6,
    scanDigits_padded isClock.second, last]
  show (do separated (padded 2 hour ++ behindHour) 2 (ascii ':'); _ : Option _) = _
  rw [first]
  simp

theorem scanDate_clockText {time : Nat × Nat × Nat} (isClock : IsClock time) (rest : List UInt8) :
    scanDate (clockText time ++ rest) = none := by
  obtain ⟨hour, minute, second⟩ := time
  have text : clockText (hour, minute, second) ++ rest =
      padded 2 hour ++ ascii ':' :: (padded 2 minute ++ ascii ':' :: (padded 2 second ++ rest)) := by
    simp [clockText]
  have none : scanDigits 4 (clockText (hour, minute, second) ++ rest) 0 = none := by
    rw [text, show 4 = 2 + 2 from rfl, scanDigits_append, scanDigits_padded isClock.hour,
      drop_padded]
    rfl
  unfold scanDate
  rw [none]
  rfl

theorem parseMillisec_stop (unit : Nat) (stop : ∀ c ∈ rest.head?, isdigit c = false) :
    parseMillisec rest unit = (0, rest) := by
  cases rest with
  | nil => rfl
  | cons c rest =>
      rw [parseMillisec, if_neg]
      rw [stop c rfl]
      exact Bool.false_ne_true

theorem parseMillisec_digit (n unit : Nat) (rest : List UInt8) :
    parseMillisec (digitByte n :: rest) unit =
      (n % 10 * unit + (parseMillisec rest (unit / 10)).1, (parseMillisec rest (unit / 10)).2) := by
  obtain ⟨digit, value⟩ := digitByte_digit n
  rw [parseMillisec, if_pos digit, value]

theorem parseMillisec_padded (small : n < 1000) (stop : ∀ c ∈ rest.head?, isdigit c = false) :
    parseMillisec (padded 3 n ++ rest) 100 = (n, rest) := by
  have text : padded 3 n ++ rest =
      digitByte (n / 10 / 10) :: digitByte (n / 10) :: digitByte n :: rest := rfl
  rw [text, parseMillisec_digit, parseMillisec_digit, parseMillisec_digit, parseMillisec_stop _ stop]
  apply Prod.ext
  · show n / 10 / 10 % 10 * 100 + (n / 10 % 10 * (100 / 10) + (n % 10 * (100 / 10 / 10) + 0)) = n
    omega
  · rfl

theorem isSign_iff {c : UInt8} : isSign c = true ↔ c = ascii '+' ∨ c = ascii '-' := by
  simp [isSign]

theorem IsZone.head {z : List UInt8} (isZone : IsZone z) :
    ∃ c more, z = c :: more ∧ isdigit c = false ∧ c ≠ ascii '.' := by
  cases isZone with
  | utc => exact ⟨_, _, rfl, rfl, by decide⟩
  | hours isSign _ _ =>
      obtain rfl | rfl := isSign_iff.mp isSign
      · exact ⟨_, _, rfl, rfl, by decide⟩
      · exact ⟨_, _, rfl, rfl, by decide⟩
  | minutes isSign _ _ _ _ =>
      obtain rfl | rfl := isSign_iff.mp isSign
      · exact ⟨_, _, rfl, rfl, by decide⟩
      · exact ⟨_, _, rfl, rfl, by decide⟩

theorem scanZone_zone {z : List UInt8} (isZone : IsZone z) : scanZone z = some (z, []) := by
  cases isZone with
  | utc => rfl
  | hours isSign first second =>
      obtain rfl | rfl := isSign_iff.mp isSign <;>
        simp [scanZone, twoDigits, Toml.isSign, first, second]
  | minutes isSign first second third fourth =>
      obtain rfl | rfl := isSign_iff.mp isSign <;>
        simp [scanZone, twoDigits, Toml.isSign, first, second, third, fourth]

theorem stop_zone {z : Option (List UInt8)} (isZone : ∀ zone ∈ z, IsZone zone) :
    ∀ c ∈ (z.getD []).head?, isdigit c = false := by
  cases z with
  | none => exact fun c none => nomatch none
  | some zone =>
      obtain ⟨c, more, rfl, digit, -⟩ := (isZone zone rfl).head
      intro d head
      obtain rfl := Option.some.inj head
      exact digit

theorem scanClock_text {time : Nat × Nat × Nat} {millisec : Option Nat} {z : Option (List UInt8)}
    (isClock : IsClock time) (small : ∀ value ∈ millisec, value < 1000)
    (isZone : ∀ zone ∈ z, IsZone zone) :
    scanClock (clockText time ++ (millisecText millisec ++ z.getD [])) =
      some ({ time := some time, millisec := millisec, z := z }, []) := by
  have behind : (clockText time ++ (millisecText millisec ++ z.getD [])).drop 8 =
      millisecText millisec ++ z.getD [] := List.drop_left' (clockText_length time)
  have at8 : (clockText time ++ (millisecText millisec ++ z.getD []))[8]? =
      (millisecText millisec ++ z.getD [])[0]? := by
    rw [List.getElem?_append_right (by rw [clockText_length]), clockText_length]
  have drop9 : (clockText time ++ (millisecText millisec ++ z.getD [])).drop 9 =
      (millisecText millisec ++ z.getD []).drop 1 := by
    rw [show 9 = 8 + 1 from rfl, ← List.drop_drop, behind]
  have zoned : ∀ read : Option Nat,
      (if z.getD [] = [] then
          some (({ time := some time, millisec := read } : TimestampT), z.getD [])
        else (scanZone (z.getD [])).map fun e =>
          ({ time := some time, millisec := read, z := some e.1 }, e.2)) =
      some ({ time := some time, millisec := read, z := z }, []) := by
    intro read
    cases z with
    | none => rfl
    | some zone =>
        obtain ⟨c, more, rfl, -, -⟩ := (isZone zone rfl).head
        rw [if_neg (fun same => nomatch same), Option.getD_some, scanZone_zone (isZone _ rfl)]
        rfl
  unfold scanClock
  rw [scanTime_clockText isClock]
  dsimp only
  rw [at8, drop9, behind]
  cases millisec with
  | some value =>
      have point : (millisecText (some value) ++ z.getD [])[0]? = some (ascii '.') := rfl
      have digits : (millisecText (some value) ++ z.getD []).drop 1 = padded 3 value ++ z.getD [] := rfl
      rw [if_pos point, digits, parseMillisec_padded (small value rfl) (stop_zone isZone)]
      exact zoned _
  | none =>
      have noPoint : ¬ (millisecText none ++ z.getD [])[0]? = some (ascii '.') := by
        cases z with
        | none => exact fun same => nomatch same
        | some zone =>
            obtain ⟨c, more, rfl, -, point⟩ := (isZone zone rfl).head
            exact fun same => point (Option.some.inj same)
      rw [if_neg noPoint]
      exact zoned _

end Texts

section Accepted

theorem isDate_of_scanDate {date : Nat × Nat × Nat} (scanned : scanDate p = some date) :
    IsDate date := by
  simp only [scanDate, Option.bind_eq_bind, Option.bind_eq_some_iff, Option.pure_def] at scanned
  obtain ⟨year, isYear, -, -, month, isMonth, -, -, day, isDay, eq⟩ := scanned
  obtain rfl := Option.some.inj eq
  exact ⟨by simpa using scanDigits_lt isYear, by simpa using scanDigits_lt isMonth,
    by simpa using scanDigits_lt isDay⟩

theorem isClock_of_scanTime {time : Nat × Nat × Nat} (scanned : scanTime p = some time) :
    IsClock time := by
  simp only [scanTime, Option.bind_eq_bind, Option.bind_eq_some_iff, Option.pure_def] at scanned
  obtain ⟨hour, isHour, -, -, minute, isMinute, -, -, second, isSecond, eq⟩ := scanned
  obtain rfl := Option.some.inj eq
  exact ⟨by simpa using scanDigits_lt isHour, by simpa using scanDigits_lt isMinute,
    by simpa using scanDigits_lt isSecond⟩

theorem parseMillisec_lt (k : Nat) (p : List UInt8) :
    (parseMillisec p (10 ^ k)).1 < 10 ^ (k + 1) := by
  have none : ∀ p, (parseMillisec p 0).1 = 0 := by
    intro p
    induction p with
    | nil => rfl
    | cons c p ih =>
        rw [parseMillisec]
        split_ifs
        · show _ * 0 + (parseMillisec p (0 / 10)).1 = 0
          rw [Nat.zero_div, ih, Nat.mul_zero]
        · rfl
  have small : ∀ {c : UInt8}, isdigit c = true → c.toNat - (ascii '0').toNat ≤ 9 := by
    intro c digit
    simp only [isdigit, Bool.and_eq_true, decide_eq_true_eq] at digit
    have high : c.toNat ≤ 57 := digit.2
    show c.toNat - 48 ≤ 9
    omega
  induction k generalizing p with
  | zero =>
      cases p with
      | nil => exact Nat.succ_pos _
      | cons c p =>
          rw [parseMillisec]
          split_ifs with digit
          · have first := small digit
            show (c.toNat - (ascii '0').toNat) * 1 + (parseMillisec p (1 / 10)).1 < 10
            rw [show 1 / 10 = 0 from rfl, none]
            omega
          · exact Nat.succ_pos _
  | succ k ih =>
      cases p with
      | nil => exact Nat.pow_pos (by omega)
      | cons c p =>
          rw [parseMillisec]
          split_ifs with digit
          · have first := Nat.mul_le_mul_right (10 ^ (k + 1)) (small digit)
            have others := ih p
            have tenth : 10 ^ (k + 1) / 10 = 10 ^ k := by rw [Nat.pow_succ, Nat.mul_div_left _ (by omega)]
            show (c.toNat - (ascii '0').toNat) * 10 ^ (k + 1) +
              (parseMillisec p (10 ^ (k + 1) / 10)).1 < 10 ^ (k + 1) * 10
            rw [tenth]
            calc (c.toNat - (ascii '0').toNat) * 10 ^ (k + 1) + (parseMillisec p (10 ^ k)).1
              _ < 9 * 10 ^ (k + 1) + 10 ^ (k + 1) := Nat.add_lt_add_of_le_of_lt first others
              _ = 10 ^ (k + 1) * 10 := by rw [Nat.mul_comm _ 10, Nat.succ_mul 9]
          · exact Nat.pow_pos (by omega)

theorem twoDigits_cons (digits : twoDigits p = true) :
    ∃ a b more, p = a :: b :: more ∧ isdigit a = true ∧ isdigit b = true := by
  match p with
  | [] => cases digits
  | [a] => simp [twoDigits] at digits
  | a :: b :: more =>
      simp only [twoDigits, List.getElem?_cons_zero, List.getElem?_cons_succ, Option.any_some,
        Bool.and_eq_true] at digits
      exact ⟨a, b, more, rfl, digits.1, digits.2⟩

theorem isZone_of_scanZone {z : List UInt8} (read : scanZone p = some (z, [])) (filled : p ≠ []) :
    IsZone z := by
  unfold scanZone at read
  by_cases utc : p[0]? = some (ascii 'Z') ∨ p[0]? = some (ascii 'z')
  · rw [if_pos utc] at read
    obtain ⟨rfl, -⟩ := Prod.mk.inj (Option.some.inj read)
    exact .utc
  · rw [if_neg utc] at read
    by_cases signed : p.head?.any Toml.isSign = true
    · rw [if_pos signed] at read
      cases p with
      | nil => exact absurd rfl filled
      | cons sign p =>
          simp only [List.head?_cons, Option.any_some] at signed
          simp only [List.drop_one, List.tail_cons] at read
          by_cases first : twoDigits p = true
          · obtain ⟨a, b, more, rfl, isA, isB⟩ := twoDigits_cons first
            rw [if_neg (by rw [first]; exact Bool.false_ne_true)] at read
            by_cases colon : (sign :: a :: b :: more)[3]? = some (ascii ':')
            · rw [if_neg (not_not.mpr colon)] at read
              cases more with
              | nil => cases colon
              | cons mark more =>
                  obtain rfl := Option.some.inj colon
                  by_cases second : twoDigits more = true
                  · obtain ⟨c, d, last, rfl, isC, isD⟩ := twoDigits_cons second
                    have scanned : some ([sign, a, b, ascii ':', c, d], last) = some (z, []) := by
                      rw [← read]
                      refine (if_neg ?_).symm
                      rw [show (sign :: a :: b :: ascii ':' :: c :: d :: last).drop 4 =
                        c :: d :: last from rfl, second]
                      exact Bool.false_ne_true
                    cases scanned
                    exact .minutes signed isA isB isC isD
                  · have fails : none = some (z, ([] : List UInt8)) := by
                      rw [← read]
                      refine (if_pos ?_).symm
                      rw [show (sign :: a :: b :: ascii ':' :: more).drop 4 = more from rfl,
                        Bool.eq_false_iff.mpr second]
                      rfl
                    cases fails
            · rw [if_pos colon] at read
              cases read
              exact .hours signed isA isB
          · rw [if_pos (by rw [Bool.eq_false_iff.mpr first]; rfl)] at read
            cases read
    · rw [if_neg signed] at read
      cases read
      exact absurd rfl filled

/-- What the time of a timestamp adds to it. -/
structure FromClock (ts : TimestampT) (time : Nat × Nat × Nat) : Prop where
  date : ts.date = none
  time : ts.time = some time
  millisec : ∀ value ∈ ts.millisec, value < 1000
  zone : ∀ z ∈ ts.z, IsZone z

theorem fromClock_of_zone {time : Nat × Nat × Nat} {millisec : Option Nat} {q : List UInt8}
    {ts : TimestampT} (small : ∀ value ∈ millisec, value < 1000)
    (read : (if q = [] then some (({ time := some time, millisec := millisec } : TimestampT), q)
      else (scanZone q).map fun e =>
        ({ time := some time, millisec := millisec, z := some e.1 }, e.2)) = some (ts, [])) :
    FromClock ts time := by
  by_cases ended : q = []
  · rw [if_pos ended] at read
    obtain ⟨rfl, -⟩ := Prod.mk.inj (Option.some.inj read)
    exact ⟨rfl, rfl, small, fun z none => nomatch none⟩
  · rw [if_neg ended] at read
    obtain ⟨e, zone, eq⟩ := Option.map_eq_some_iff.mp read
    obtain ⟨rfl, last⟩ := Prod.mk.inj eq
    refine ⟨rfl, rfl, small, ?_⟩
    intro z same
    obtain rfl := Option.some.inj same
    exact isZone_of_scanZone (zone.trans (congrArg some (Prod.ext rfl last))) ended

theorem fromClock_of_scanClock {ts : TimestampT} (read : scanClock p = some (ts, [])) :
    (ts = {} ∧ p = []) ∨ ∃ time, IsClock time ∧ FromClock ts time := by
  unfold scanClock at read
  cases scanned : scanTime p with
  | none =>
      rw [scanned] at read
      cases read
      exact .inl ⟨rfl, rfl⟩
  | some time =>
      rw [scanned] at read
      dsimp only at read
      refine .inr ⟨time, isClock_of_scanTime scanned, ?_⟩
      by_cases point : p[8]? = some (ascii '.')
      · rw [if_pos point] at read
        refine fromClock_of_zone ?_ read
        intro value same
        obtain rfl := Option.some.inj same
        exact parseMillisec_lt 2 (p.drop 9)
      · rw [if_neg point] at read
        refine fromClock_of_zone ?_ read
        intro value same
        cases same

end Accepted

variable {ts : TimestampT} {separator : UInt8} {src : List UInt8}

/-- What is given when the time was read. -/
def completed (date : Option (Nat × Nat × Nat)) (mustParseTime : Prop) [Decidable mustParseTime]
    (e : TimestampT × List UInt8) : Option TimestampT :=
  if e.2 ≠ [] then none
  else if mustParseTime ∧ e.1.time = none then none
  else some { e.1 with date := date }

theorem tomlRtots_clock (noDate : scanDate src = none) :
    tomlRtots src = (scanClock src).bind (completed none False) := by
  unfold tomlRtots
  dsimp only
  rw [noDate]
  simp only [Option.isSome_none, Bool.false_eq_true, if_false, false_and]
  cases scanClock src <;> simp [completed]

theorem tomlRtots_date {date : Nat × Nat × Nat} (isDate : scanDate src = some date)
    (nothing : src.drop 10 = []) : tomlRtots src = some { date := some date } := by
  unfold tomlRtots
  dsimp only
  rw [isDate, Option.isSome_some, if_pos rfl, nothing]
  rfl

theorem tomlRtots_both {date : Nat × Nat × Nat} {c : UInt8} (isDate : scanDate src = some date)
    (more : src.drop 10 = c :: p) :
    tomlRtots src =
      if IsSeparator c then (scanClock p).bind (completed (some date) True) else none := by
  have separates : ¬ ((c :: p)[0]? ≠ some (ascii 'T') ∧ (c :: p)[0]? ≠ some (ascii 't') ∧
      (c :: p)[0]? ≠ some (ascii ' ')) ↔ IsSeparator c := by
    simp only [List.getElem?_cons_zero, ne_eq, Option.some.injEq, IsSeparator]
    tauto
  unfold tomlRtots
  dsimp only
  rw [isDate, Option.isSome_some, if_pos rfl, more]
  by_cases isSeparator : IsSeparator c
  · rw [if_neg (fun both => separates.mpr isSeparator both.2), if_pos isSeparator]
    simp only [ne_eq, reduceCtorEq, not_false_eq_true, and_self, if_true, List.drop_one,
      List.tail_cons]
    cases scanClock p <;> simp [completed]
  · rw [if_pos ⟨⟨rfl, List.cons_ne_nil _ _⟩, not_not.mp fun none => isSeparator (separates.mp none)⟩,
      if_neg isSeparator]

/-- Every timestamp whose parts fit their digits is read back from its text. -/
theorem tomlRtots_stampText (isStamp : IsStamp ts) (isSeparator : IsSeparator separator) :
    tomlRtots (stampText separator ts) = some ts := by
  obtain ⟨parts, isDate, isClock, alone, small, isZone⟩ := isStamp
  obtain ⟨date, time, millisec, z⟩ := ts
  simp only at parts isDate isClock alone small isZone
  cases time with
  | none =>
      obtain ⟨rfl, rfl⟩ := alone rfl
      cases date with
      | none => simp at parts
      | some date =>
          have text : stampText separator { date := some date } = dateText date ++ [] := by
            simp [stampText, millisecText]
          rw [text]
          exact tomlRtots_date (scanDate_dateText (isDate date rfl) [])
            (List.drop_left' (dateText_length date))
  | some time =>
      have read := scanClock_text (isClock time rfl) small isZone
      cases date with
      | none =>
          have text : stampText separator { time := some time, millisec := millisec, z := z } =
              clockText time ++ (millisecText millisec ++ z.getD []) := by
            simp [stampText]
          rw [text, tomlRtots_clock (scanDate_clockText (isClock time rfl) _), read]
          rfl
      | some date =>
          have text : stampText separator
              { date := some date, time := some time, millisec := millisec, z := z } =
              dateText date ++
                separator :: (clockText time ++ (millisecText millisec ++ z.getD [])) := by
            simp [stampText]
          rw [text, tomlRtots_both (scanDate_dateText (isDate date rfl) _)
            (List.drop_left' (dateText_length date)), if_pos isSeparator, read]
          rfl

theorem isStamp_of_completed {date : Option (Nat × Nat × Nat)} {mustParseTime : Prop}
    [Decidable mustParseTime] (isDate : ∀ d ∈ date, IsDate d) (must : mustParseTime ∨ p ≠ [])
    (read : (scanClock p).bind (completed date mustParseTime) = some ts) : IsStamp ts := by
  obtain ⟨⟨clock, rest⟩, scanned, done⟩ := Option.bind_eq_some_iff.mp read
  unfold completed at done
  by_cases unread : rest = []
  · subst unread
    rw [if_neg (not_not.mpr rfl)] at done
    by_cases missing : mustParseTime ∧ clock.time = none
    · rw [if_pos missing] at done
      cases done
    · rw [if_neg missing] at done
      obtain rfl := Option.some.inj done
      obtain ⟨rfl, rfl⟩ | ⟨time, isClock, fromClock⟩ := fromClock_of_scanClock scanned
      · exact absurd ⟨must.resolve_right fun filled => filled rfl, rfl⟩ missing
      · have there : clock.time = some time := fromClock.time
        refine ⟨.inr (by rw [there]; rfl), isDate, ?_, ?_, fromClock.millisec, fromClock.zone⟩
        · intro other same
          rw [show clock.time = some other from same] at there
          obtain rfl := Option.some.inj there
          exact isClock
        · intro none
          rw [show clock.time = Option.none from none] at there
          cases there
  · rw [if_pos unread] at done
    cases done

theorem isStamp_of_tomlRtots (read : tomlRtots src = some ts) (filled : src ≠ []) : IsStamp ts := by
  cases scanned : scanDate src with
  | none =>
      rw [tomlRtots_clock scanned] at read
      exact isStamp_of_completed (by simp) (.inr filled) read
  | some date =>
      have isDate := isDate_of_scanDate scanned
      have dates : ∀ d ∈ some date, IsDate d := by
        intro d same
        obtain rfl := Option.some.inj same
        exact isDate
      cases behind : src.drop 10 with
      | nil =>
          rw [tomlRtots_date scanned behind] at read
          obtain rfl := Option.some.inj read
          exact ⟨.inl rfl, dates, by simp, fun _ => ⟨rfl, rfl⟩, by simp, by simp⟩
      | cons c p =>
          rw [tomlRtots_both scanned behind] at read
          by_cases isSeparator : IsSeparator c
          · rw [if_pos isSeparator] at read
            exact isStamp_of_completed dates (.inl trivial) read
          · rw [if_neg isSeparator] at read
            cases read

/-- The timestamps that `toml_rtots` gives are those whose parts fit their digits, and it
gives each of these for its text. -/
theorem timestamps_read_iff (ts : TimestampT) :
    ((∃ src, src ≠ [] ∧ tomlRtots src = some ts) ↔ IsStamp ts) ∧
      (IsStamp ts → ∀ separator, IsSeparator separator →
        tomlRtots (stampText separator ts) = some ts) := by
  refine ⟨⟨?_, ?_⟩, fun isStamp separator => tomlRtots_stampText isStamp⟩
  · rintro ⟨src, filled, read⟩
    exact isStamp_of_tomlRtots read filled
  · intro isStamp
    have read := tomlRtots_stampText isStamp (.inl rfl)
    refine ⟨stampText (ascii 'T') ts, ?_, read⟩
    intro empty
    rw [empty] at read
    have parts := isStamp.parts
    rw [← show ({} : TimestampT) = ts from Option.some.inj read] at parts
    simp at parts

end RenogyX10.Toml
