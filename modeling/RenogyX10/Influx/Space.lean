import RenogyX10.Influx.Payload
import RenogyX10.Influx.Setup

set_option autoImplicit false

namespace RenogyX10.Influx

open Checked Messages Proc Toml

theorem decimal_length_le {value digits : Nat} (some : 0 < digits) (small : value < 10 ^ digits) :
    (decimal value).length ≤ digits := by
  rw [decimal, List.length_map]
  exact (Nat.length_toDigits_le_iff (by decide) some).mpr small

theorem decimalInt_length_le {value : Int} (fits : FitsI32 value) :
    (decimalInt value).length ≤ 11 := by
  have digits : (decimal value.natAbs).length ≤ 10 := by
    apply decimal_length_le (by decide)
    unfold FitsI32 at fits
    omega
  have sign : (text "-").length = 1 := by decide
  unfold decimalInt
  split
  · rw [List.length_append, sign]
    omega
  · omega

theorem lineOf_length (fmt : FloatText) (config : InfluxInfo) (reading : Reading) :
    (lineOf fmt config reading).length = reading.tableName.length + config.influxHostTag.length +
      (fmt reading.value).length + 14 := by
  have host : (text ",host=").length = 6 := by decide
  have value : (text " value=").length = 7 := by decide
  have newline : (text "\n").length = 1 := by decide
  unfold lineOf
  simp only [List.length_append, host, value, newline]
  omega

theorem requestOf_fits {config : InfluxInfo} (bounded : Bounded config) {line : List UInt8}
    (fits : line.length ≤ bufferConSize) : (requestOf config line).length ≤ bufferOutSize := by
  have port := decimalInt_length_le bounded.port
  have count : (decimal line.length).length ≤ 2 := by
    apply decimal_length_le (by decide)
    unfold bufferConSize at fits
    omega
  obtain ⟨hostname, _, database, org, token, _⟩ := bounded
  have post : (text "POST /api/v2/write?org=").length = 23 := by decide
  have bucket : (text "&bucket=").length = 8 := by decide
  have http : (text " HTTP/1.1\r\n").length = 11 := by decide
  have host : (text "Host: ").length = 6 := by decide
  have colon : (text ":").length = 1 := by decide
  have crlf : (text "\r\n").length = 2 := by decide
  have auth : (text "Authorization: Token ").length = 21 := by decide
  have type : (text "Content-Type: text/plain; charset=utf-8\r\n").length = 41 := by decide
  have accept : (text "Accept: application/json\r\n").length = 26 := by decide
  have content : (text "Content-Length: ").length = 16 := by decide
  have blank : (text "\r\n\r\n").length = 4 := by decide
  unfold requestOf
  simp only [List.length_append, post, bucket, http, host, colon, crlf, auth, type, accept, content,
    blank]
  unfold bufferConSize at fits
  unfold bufferOutSize
  omega

/-- The value is published: there is space for its line and for its request, and the
request that is queued has the length of its body. -/
structure Publishable (fmt : FloatText) (config : InfluxInfo) (reading : Reading) : Prop where
  line : (lineOf fmt config reading).length ≤ bufferConSize
  request : (requestOf config (lineOf fmt config reading)).length ≤ bufferOutSize
  noError : ∀ alloc (h t : Client), h.config = config →
    processMsgTable fmt alloc reading h ≠ .error .noSpaceLeft t
  contentLength : ∀ alloc (h : Client) node, h.config = config →
    (alloc reading.quantity).node = some node → (alloc reading.quantity).slice = true →
    ∃ head body, processMsgTable fmt alloc reading h = .ok () (queueRequest node
      (head ++ text "Content-Length: " ++ decimal body.length ++ text "\r\n\r\n" ++ body) h)

theorem requestOf_body (config : InfluxInfo) (line : List UInt8) : ∃ head,
    requestOf config line =
      head ++ text "Content-Length: " ++ decimal line.length ++ text "\r\n\r\n" ++ line := by
  unfold requestOf
  exact ⟨_, rfl⟩

variable {fmt : FloatText} {alloc : Quantity → AllocIo} {reading : Reading} {h : Client}

theorem processMsgTable_noSpace
    (full : bufferConSize < (lineOf fmt h.config reading).length) :
    processMsgTable fmt alloc reading h = .error .noSpaceLeft h := by
  unfold processMsgTable
  simp only [read_bind, id_eq, Nat.not_le.mpr full, decide_false]
  rfl

/-- With space for both, only the allocator can fail. -/
theorem processMsgTable_space (alloc : Quantity → AllocIo)
    (line : (lineOf fmt h.config reading).length ≤ bufferConSize)
    (request : (requestOf h.config (lineOf fmt h.config reading)).length ≤ bufferOutSize) :
    (∃ node, (alloc reading.quantity).node = some node ∧ (alloc reading.quantity).slice = true ∧
      processMsgTable fmt alloc reading h =
        .ok () (queueRequest node (requestOf h.config (lineOf fmt h.config reading)) h)) ∨
    (((alloc reading.quantity).node = none ∨ (alloc reading.quantity).slice = false) ∧
      processMsgTable fmt alloc reading h = .error .outOfMemory h) := by
  unfold processMsgTable
  simp only [read_bind, id_eq, line, request, decide_true, guard_true, pure_bind_run]
  cases (alloc reading.quantity).node with
  | none => exact .inr ⟨.inl rfl, rfl⟩
  | some node =>
      cases (alloc reading.quantity).slice with
      | false => exact .inr ⟨.inr rfl, rfl⟩
      | true => exact .inl ⟨node, rfl, rfl, rfl⟩

/-- There is space for every accepted configuration exactly as long as the line has. -/
theorem publishable_iff {file : Option Document} {config : InfluxInfo}
    (accepted : setupResult file = .ok config) (fmt : FloatText) (reading : Reading) :
    Publishable fmt config reading ↔
      reading.tableName.length + config.influxHostTag.length + (fmt reading.value).length + 14 ≤
        bufferConSize := by
  rw [← lineOf_length fmt config reading]
  constructor
  · exact fun publishable => publishable.line
  · intro line
    have request := requestOf_fits (bounded_setupResult accepted) line
    constructor
    · exact line
    · exact request
    · rintro alloc h t rfl failed
      rcases processMsgTable_space alloc line request with ⟨_, _, _, queued⟩ | ⟨_, noMemory⟩
      · rw [queued] at failed
        cases failed
      · rw [noMemory] at failed
        cases failed
    · rintro alloc h node rfl found slice
      obtain ⟨head, same⟩ := requestOf_body h.config (lineOf fmt h.config reading)
      refine ⟨head, lineOf fmt h.config reading, ?_⟩
      rw [← same]
      rcases processMsgTable_space alloc line request with ⟨other, isNode, _, queued⟩ | ⟨missing, _⟩
      · rw [found] at isNode
        cases isNode
        exact queued
      · rw [found, slice] at missing
        simp at missing

theorem accepted_empty : setupResult (some []) = .ok .defaults := rfl

/-- The battery voltage with the configuration of an empty file. -/
theorem publishable_defaults :
    Publishable (fun _ => text "12.50") .defaults ⟨.renogy, .volts, ⟨125, 10⟩⟩ :=
  (publishable_iff accepted_empty (fun _ => text "12.50") ⟨.renogy, .volts, ⟨125, 10⟩⟩).mpr
    (by decide)

/-- A file that sets a host tag of 64 bytes. -/
def longHostTag : Document :=
  [(text "main", some [(text "influx_host_tag", .string (List.replicate 64 97))])]

/-- It is accepted, and no value can be published. -/
theorem longHostTag_unpublishable :
    ∃ config, setupResult (some longHostTag) = .ok config ∧ ∀ fmt alloc reading,
      processMsgTable fmt alloc reading { config := config } =
        .error .noSpaceLeft { config := config } := by
  refine ⟨{ InfluxInfo.defaults with influxHostTag := List.replicate 64 97 }, rfl, ?_⟩
  intro fmt alloc reading
  apply processMsgTable_noSpace
  rw [lineOf_length, List.length_replicate, bufferConSize]
  omega

end RenogyX10.Influx
