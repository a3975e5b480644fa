import RenogyX10.Influx.Decode

set_option autoImplicit false

namespace RenogyX10.Influx

open Bytes Csck Messages Parse Proc

/-- The device that a payload is from, and the bytes behind the header. -/
def layoutOf : List UInt8 → Option (Device × List UInt8)
  | t0 :: t1 :: i0 :: i1 :: a0 :: a1 :: c0 :: c1 :: bytes =>
      (deviceOf ⟨readLe16 t0 t1, readLe16 i0 i1, readLe16 a0 a1, readLe16 c0 c1⟩).map (·, bytes)
  | _ => none

/-- How many bytes the published fields of a layout reach. -/
def reach : Device → Nat
  | .renogy => 20
  | .pzem3 | .pzem6 | .pzem10 => 6
  | .temp11 => 4
  | .pzem12 | .pzem13 => 10

def requests : Device → Nat
  | .renogy => 5
  | .temp11 => 2
  | _ => 3

/-- The values of a layout, each from its registers. -/
def readingsIn (device : Device) (bytes : List UInt8) : List Reading :=
  (fieldsOf device).filterMap fun field => (field.read bytes).map fun raw =>
    ⟨device, field.quantity, ⟨raw, field.divisor⟩⟩

/-- Publishing a value succeeds, in every state that `ready` holds of. -/
structure Publishes {σ : Type} (publish : Reading → Proc ClientError σ Unit) (ready : σ → Prop)
    (next : Reading → σ → σ) : Prop where
  run : ∀ reading h, ready h → publish reading h = .ok () (next reading h)
  ready : ∀ reading h, ready h → ready (next reading h)

/-- The state after the values have been published in order. -/
def publishAll {σ : Type} (next : Reading → σ → σ) (readings : List Reading) (h : σ) : σ :=
  readings.foldl (fun h reading => next reading h) h

theorem field_read_isSome (field : Field) (bytes : List UInt8) :
    (field.read bytes).isSome ↔
      2 * field.register + (if field.isWide then 4 else 2) ≤ bytes.length := by
  have size : 0 < if field.isWide then 4 else 2 := by split <;> decide
  have length := List.length_drop (i := 2 * field.register) (l := bytes)
  constructor
  · intro found
    by_contra short
    rw [Field.read_short (by omega)] at found
    cases found
  · intro long
    unfold Field.read
    cases isWide : field.isWide with
    | false =>
        rw [isWide] at long
        simp only [Bool.false_eq_true, ↓reduceIte] at long
        have left : 2 ≤ (bytes.drop (2 * field.register)).length := by omega
        obtain ⟨low, high, rest, drop⟩ := exists_two left
        rw [drop]
        rfl
    | true =>
        rw [isWide] at long
        simp only [↓reduceIte] at long
        have left : 4 ≤ (bytes.drop (2 * field.register)).length := by omega
        obtain ⟨b0, b1, b2, b3, rest, drop⟩ := exists_four left
        rw [drop]
        rfl

theorem fieldsOf_isSome (device : Device) (bytes : List UInt8) :
    (∀ field ∈ fieldsOf device, (field.read bytes).isSome) ↔ reach device ≤ bytes.length := by
  simp only [field_read_isSome]
  cases device <;> simp [fieldsOf, Device.isDc, Device.fields, reach] <;> omega

variable {σ : Type} {publish : Reading → Proc ClientError σ Unit} {ready : σ → Prop}
  {next : Reading → σ → σ} {h : σ}

theorem publishFields_all (publishes : Publishes publish ready next) (isReady : ready h)
    (device : Device) (bytes : List UInt8) {fields : List Field}
    (inside : ∀ field ∈ fields, (field.read bytes).isSome) :
    publishFields publish device bytes fields h =
      .ok () (publishAll next (fields.filterMap fun field => (field.read bytes).map fun raw =>
        ⟨device, field.quantity, ⟨raw, field.divisor⟩⟩) h) := by
  induction fields generalizing h with
  | nil => rfl
  | cons field rest ih =>
      obtain ⟨raw, found⟩ := Option.isSome_iff_exists.mp (inside field List.mem_cons_self)
      have later := ih (publishes.ready ⟨device, field.quantity, ⟨raw, field.divisor⟩⟩ h isReady)
        fun other member => inside other (List.mem_cons_of_mem field member)
      rw [publishFields_some found, bind_of_ok (publishes.run _ h isReady), later,
        List.filterMap_cons_some (by rw [found, Option.map_some])]
      rfl

theorem publishFields_short (publishes : Publishes publish ready next) (isReady : ready h)
    (device : Device) (bytes : List UInt8) {fields : List Field}
    (short : ¬ ∀ field ∈ fields, (field.read bytes).isSome) :
    ∃ t, publishFields publish device bytes fields h = .error .endOfBuffer t := by
  induction fields generalizing h with
  | nil => exact absurd nofun short
  | cons field rest ih =>
      cases found : field.read bytes with
      | none =>
          rw [publishFields_none found]
          exact ⟨h, rfl⟩
      | some raw =>
          rw [publishFields_some found, bind_of_ok (publishes.run _ h isReady)]
          apply ih (publishes.ready _ h isReady)
          intro all
          apply short
          intro other member
          rcases List.mem_cons.mp member with same | later
          · rw [same, found]
            rfl
          · exact all other later

theorem readingsIn_length {device : Device} {bytes : List UInt8}
    (whole : reach device ≤ bytes.length) : (readingsIn device bytes).length = requests device := by
  have all := (fieldsOf_isSome device bytes).mpr whole
  have length : (readingsIn device bytes).length = (fieldsOf device).length := by
    apply List.filterMap_length_eq_length.mpr
    intro field member
    rw [Option.isSome_map]
    exact all field member
  rw [length]
  cases device <;> rfl

variable (publish) in
theorem publishPayload_layout (payload : List UInt8) :
    (payload.length < 8 ∧ publishPayload publish payload = Proc.fail .endOfBuffer) ∨
    (8 ≤ payload.length ∧ layoutOf payload = none ∧ publishPayload publish payload = pure ()) ∨
    ∃ device bytes, 8 ≤ payload.length ∧ layoutOf payload = some (device, bytes) ∧
      publishPayload publish payload = publishFields publish device bytes (fieldsOf device) := by
  by_cases long : 8 ≤ payload.length
  · right
    obtain ⟨t0, t1, i0, i1, rest, rfl⟩ := exists_four (Nat.le_trans (by decide) long)
    have later : 4 ≤ rest.length := by
      simp only [List.length_cons] at long
      omega
    obtain ⟨a0, a1, c0, c1, bytes, rfl⟩ := exists_four later
    unfold layoutOf publishPayload
    dsimp only
    cases deviceOf ⟨readLe16 t0 t1, readLe16 i0 i1, readLe16 a0 a1, readLe16 c0 c1⟩ with
    | none => exact .inl ⟨long, rfl, rfl⟩
    | some device => exact .inr ⟨device, bytes, long, rfl, rfl⟩
  · left
    refine ⟨Nat.lt_of_not_le long, ?_⟩
    unfold publishPayload
    split
    · simp at long
    · rfl

theorem long_of_layoutOf {payload : List UInt8} {layout : Device × List UInt8}
    (known : layoutOf payload = some layout) : 8 ≤ payload.length := by
  unfold layoutOf at known
  split at known
  · simp only [List.length_cons]
    omega
  · cases known

/-- The payload ends before the header does, or before the fields of its layout. -/
def TooShort (payload : List UInt8) : Prop :=
  payload.length < 8 ∨ ∃ device bytes, layoutOf payload = some (device, bytes) ∧
    bytes.length < reach device

/-- How `process_msg` ends, one case for each kind of payload. -/
theorem processMsg_cases (lib : WideLib) (publishes : Publishes publish ready next) (s : ParseT)
    (isReady : ready h) :
    (TooShort s.rem ∧ ∃ reason t, processMsg lib publish s h = .error reason t) ∨
    (8 ≤ s.rem.length ∧ layoutOf s.rem = none ∧ processMsg lib publish s h = .ok () h) ∨
    ∃ device bytes, 8 ≤ s.rem.length ∧ layoutOf s.rem = some (device, bytes) ∧
      reach device ≤ bytes.length ∧
      processMsg lib publish s h = .ok () (publishAll next (readingsIn device bytes) h) := by
  rw [processMsg_run]
  rcases publishPayload_layout publish s.rem with ⟨short, ran⟩ |
    ⟨long, unknown, ran⟩ | ⟨device, bytes, long, known, ran⟩
  · rw [ran]
    exact .inl ⟨.inl short, _, h, rfl⟩
  · rw [ran]
    exact .inr (.inl ⟨long, unknown, rfl⟩)
  · rw [ran]
    by_cases whole : reach device ≤ bytes.length
    · have all := (fieldsOf_isSome device bytes).mpr whole
      exact .inr (.inr ⟨device, bytes, long, known, whole,
        publishFields_all publishes isReady device bytes all⟩)
    · have cut := (not_congr (fieldsOf_isSome device bytes)).mpr whole
      obtain ⟨t, failed⟩ := publishFields_short publishes isReady device bytes cut
      exact .inl ⟨.inr ⟨device, bytes, known, Nat.lt_of_not_le whole⟩, _, t, failed⟩

/-- For every payload `process_msg` reads inside of it, fails exactly if it is too
short, and publishes the values of its layout otherwise. -/
theorem processMsg_total (lib : WideLib) (publishes : Publishes publish ready next) (s : ParseT)
    (isReady : ready h) :
    (∀ t, processMsg lib publish s h ≠ .panic t) ∧
    ((∃ reason t, processMsg lib publish s h = .error reason t) ↔ TooShort s.rem) ∧
    (∀ device bytes, layoutOf s.rem = some (device, bytes) → reach device ≤ bytes.length →
      processMsg lib publish s h = .ok () (publishAll next (readingsIn device bytes) h) ∧
        (readingsIn device bytes).length = requests device) ∧
    (8 ≤ s.rem.length → layoutOf s.rem = none → processMsg lib publish s h = .ok () h) := by
  rcases processMsg_cases lib publishes s isReady with ⟨short, reason, t, ran⟩ |
    ⟨long, unknown, ran⟩ | ⟨device, bytes, long, known, whole, ran⟩
  · rw [ran]
    refine ⟨nofun, ⟨fun _ => short, fun _ => ⟨reason, t, rfl⟩⟩, ?_, ?_⟩
    · intro device bytes known whole
      have long := long_of_layoutOf known
      rcases short with short | ⟨other, rest, same, short⟩
      · omega
      · rw [known] at same
        cases same
        omega
    · intro long unknown
      rcases short with short | ⟨other, rest, same, _⟩
      · omega
      · rw [unknown] at same
        cases same
  · rw [ran]
    refine ⟨nofun, ⟨?_, ?_⟩, ?_, fun _ _ => rfl⟩
    · rintro ⟨_, _, ⟨⟩⟩
    · rintro (short | ⟨device, bytes, known, _⟩)
      · omega
      · rw [unknown] at known
        cases known
    · intro device bytes known
      rw [unknown] at known
      cases known
  · rw [ran]
    refine ⟨nofun, ⟨?_, ?_⟩, ?_, ?_⟩
    · rintro ⟨_, _, ⟨⟩⟩
    · rintro (short | ⟨other, rest, same, short⟩)
      · omega
      · rw [known] at same
        cases same
        omega
    · intro other rest same _
      rw [known] at same
      cases same
      exact ⟨rfl, readingsIn_length whole⟩
    · intro _ unknown
      rw [known] at unknown
      cases unknown

/-- A list of what was published. -/
def collect (reading : Reading) : Proc ClientError (List Reading) Unit :=
  Proc.modify fun readings => readings ++ [reading]

theorem publishes_collect :
    Publishes collect (fun _ => True) fun reading readings => readings ++ [reading] :=
  ⟨fun _ _ _ => rfl, fun _ _ _ => trivial⟩

/-- 21.5 degrees and 48.0 percent. -/
theorem processMsg_total_temp :
    processMsg wideReference collect
      (wideReference.createFromSlice (le16s [1, 11, 1, 2, 215, 480])) [] =
        .ok () [⟨.temp11, .temp, ⟨215, 10⟩⟩, ⟨.temp11, .hum, ⟨480, 10⟩⟩] :=
  ((processMsg_total wideReference publishes_collect
    (wideReference.createFromSlice (le16s [1, 11, 1, 2, 215, 480])) trivial).2.2.1 .temp11
      (le16s [215, 480]) rfl (by decide)).1

end RenogyX10.Influx
