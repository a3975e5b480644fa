import Mathlib.Data.List.DropRight
import Mathlib.Data.List.Infix
import RenogyX10.Lib.CString

set_option autoImplicit false

namespace RenogyX10.Http

open CString

abbrev Line := List UInt8

def crlf : List UInt8 := [13, 10]

/-- The request line and the header fields, and the body. -/
structure Message where
  head : List Line
  body : List UInt8
deriving DecidableEq

namespace Message

def bytes (m : Message) : List UInt8 := m.head.flatMap (· ++ crlf) ++ crlf ++ m.body

end Message

section Fields

def colon : UInt8 := ascii ':'

def lower (c : UInt8) : UInt8 := if ascii 'A' ≤ c ∧ c ≤ ascii 'Z' then c + 32 else c

/-- The name of a header field; names are compared without case. -/
def fieldName (line : Line) : List UInt8 := (line.takeWhile (· ≠ colon)).map lower

def isBlank (c : UInt8) : Bool := c = ascii ' ' || c = ascii '\t'

/-- The value of a header field, without the blanks around it. -/
def fieldValue (line : Line) : List UInt8 :=
  (((line.dropWhile (· ≠ colon)).drop 1).dropWhile isBlank).rdropWhile isBlank

def number (digits : List UInt8) : Option Nat :=
  if digits ≠ [] ∧ digits.all isdigit then some (ofDigits 10 digits) else none

def named (name : String) (line : Line) : Bool := fieldName line = name.toList.map ascii

/-- The length of the body that follows this head. It may be given once, and no other
coding of the body is known. -/
def contentLength (head : List Line) : Option Nat :=
  if head.tail.any (named "transfer-encoding") then none
  else
    match head.tail.filter (named "content-length") with
    | [] => some 0
    | [line] => number (fieldValue line)
    | _ => none

end Fields

/-- What has been read of the next message. -/
inductive Progress where
  | head (lines : List Line) (line : Line)
  | body (lines : List Line) (missing : Nat) (body : List UInt8)
  | refused
deriving DecidableEq

structure Server where
  messages : List Message := []
  progress : Progress := .head [] []
deriving DecidableEq

namespace Server

/-- So many bytes of the body are missing. -/
def awaitBody (s : Server) (lines : List Line) (missing : Nat) (body : List UInt8) : Server :=
  if missing = 0 then ⟨s.messages ++ [⟨lines, body⟩], .head [] []⟩
  else { s with progress := .body lines missing body }

/-- An empty line ends the head, but not in front of it. -/
def endLine (s : Server) (lines : List Line) (line : Line) : Server :=
  if line ≠ [] then { s with progress := .head (lines ++ [line]) [] }
  else if lines = [] then { s with progress := .head [] [] }
  else
    match contentLength lines with
    | none => { s with progress := .refused }
    | some length => s.awaitBody lines length []

def feed (s : Server) (byte : UInt8) : Server :=
  match s.progress with
  | .head lines line =>
      if byte = 10 ∧ line.getLast? = some 13 then s.endLine lines line.dropLast
      else { s with progress := .head lines (line ++ [byte]) }
  | .body lines missing body => s.awaitBody lines (missing - 1) (body ++ [byte])
  | .refused => s

def run (s : Server) (bytes : List UInt8) : Server := bytes.foldl feed s

theorem run_append (s : Server) (first second : List UInt8) :
    s.run (first ++ second) = (s.run first).run second :=
  List.foldl_append

end Server

/-- The messages that a server reads from a stream. -/
def messagesOf (stream : List UInt8) : List Message := (Server.run {} stream).messages

/-- Wherever the stream is cut, a server reads those of the messages whose last byte has
arrived. -/
def Delivered (sent : List UInt8) (messages : List Message) : Prop :=
  ∀ arrived, arrived <+: sent → messagesOf arrived <+: messages ∧
    ∀ first, first <+: messages →
      (first <+: messagesOf arrived ↔ first.flatMap Message.bytes <+: arrived)

/-- A line that is read as one. -/
structure Single (line : Line) : Prop where
  cr : 13 ∉ line
  lf : 10 ∉ line

theorem Single.append {first second : Line} (one : Single first) (two : Single second) :
    Single (first ++ second) := by
  constructor
  · rw [List.mem_append, not_or]
    exact ⟨one.cr, two.cr⟩
  · rw [List.mem_append, not_or]
    exact ⟨one.lf, two.lf⟩

/-- The head has the length of the body, and each of its lines is one. -/
structure Message.WellFormed (m : Message) : Prop where
  start : m.head ≠ []
  lines : ∀ line ∈ m.head, line ≠ [] ∧ Single line
  length : contentLength m.head = some m.body.length

section Fields

theorem fieldName_append {name value : List UInt8} (one : colon ∉ name) :
    fieldName (name ++ colon :: value) = name.map lower := by
  have inName : ∀ c ∈ name, decide (c ≠ colon) = true := by
    intro c member
    apply decide_eq_true
    rintro rfl
    exact one member
  rw [fieldName, List.takeWhile_append_of_pos inName, List.takeWhile_cons_of_neg (by simp),
    List.append_nil]

theorem isBlank_digit {c : UInt8} (digit : isdigit c = true) : isBlank c = false := by
  rw [isBlank, Bool.or_eq_false_iff, decide_eq_false_iff_not, decide_eq_false_iff_not]
  constructor
  · rintro rfl
    exact absurd digit (by decide)
  · rintro rfl
    exact absurd digit (by decide)

theorem fieldValue_append {name digits : List UInt8} (one : colon ∉ name)
    (digit : ∀ c ∈ digits, isdigit c = true) :
    fieldValue (name ++ colon :: ascii ' ' :: digits) = digits := by
  have inName : ∀ c ∈ name, decide (c ≠ colon) = true := by
    intro c member
    apply decide_eq_true
    rintro rfl
    exact one member
  have value : ((name ++ colon :: ascii ' ' :: digits).dropWhile (· ≠ colon)).drop 1 =
      ascii ' ' :: digits := by
    rw [List.dropWhile_append_of_pos inName, List.dropWhile_cons_of_neg (by simp)]
    rfl
  rw [fieldValue, value, List.dropWhile_cons_of_pos (by decide)]
  have front : digits.dropWhile isBlank = digits := by
    cases digits with
    | nil => rfl
    | cons c rest =>
        rw [List.dropWhile_cons_of_neg]
        rw [isBlank_digit (digit c List.mem_cons_self)]
        exact Bool.false_ne_true
  rw [front, List.rdropWhile_eq_self_iff]
  intro nonempty
  rw [isBlank_digit (digit _ (List.getLast_mem nonempty))]
  exact Bool.false_ne_true

end Fields

namespace Server

variable {messages : List Message} {lines : List Line}

theorem run_line {line : Line} (one : Single line) (front : Line) :
    run ⟨messages, .head lines front⟩ line = ⟨messages, .head lines (front ++ line)⟩ := by
  induction line generalizing front with
  | nil =>
      rw [List.append_nil]
      rfl
  | cons byte rest ih =>
      have later : Single rest :=
        ⟨fun cr => one.cr (List.mem_cons_of_mem byte cr), fun lf => one.lf (List.mem_cons_of_mem byte lf)⟩
      have first : feed ⟨messages, .head lines front⟩ byte =
          ⟨messages, .head lines (front ++ [byte])⟩ := by
        rw [feed]
        apply if_neg
        rintro ⟨rfl, _⟩
        exact one.lf List.mem_cons_self
      rw [run, List.foldl_cons, first]
      rw [show front ++ byte :: rest = front ++ [byte] ++ rest by simp]
      exact ih later _

theorem run_crlf (line : Line) :
    run ⟨messages, .head lines line⟩ crlf = endLine ⟨messages, .head lines (line ++ [13])⟩ lines line := by
  have cr : feed ⟨messages, .head lines line⟩ 13 = ⟨messages, .head lines (line ++ [13])⟩ := by
    rw [feed]
    apply if_neg
    rintro ⟨none, _⟩
    cases none
  rw [crlf, run, List.foldl_cons, cr, List.foldl_cons, List.foldl_nil, feed]
  dsimp only
  rw [if_pos ⟨rfl, List.getLast?_concat⟩, List.dropLast_concat]

theorem run_field {line : Line} (nonempty : line ≠ []) (one : Single line) :
    run ⟨messages, .head lines []⟩ (line ++ crlf) = ⟨messages, .head (lines ++ [line]) []⟩ := by
  rw [run_append, run_line one, List.nil_append, run_crlf, endLine, if_pos nonempty]

theorem run_fields {more : List Line} (each : ∀ line ∈ more, line ≠ [] ∧ Single line) :
    run ⟨messages, .head lines []⟩ (more.flatMap (· ++ crlf)) =
      ⟨messages, .head (lines ++ more) []⟩ := by
  induction more generalizing lines with
  | nil =>
      rw [List.append_nil]
      rfl
  | cons line rest ih =>
      obtain ⟨nonempty, one⟩ := each line List.mem_cons_self
      rw [List.flatMap_cons, run_append, run_field nonempty one,
        ih fun other member => each other (List.mem_cons_of_mem line member), List.append_assoc]
      rfl

theorem run_body (rest front : List UInt8) (s : Server) :
    run (s.awaitBody lines rest.length front) rest =
      ⟨s.messages ++ [⟨lines, front ++ rest⟩], .head [] []⟩ := by
  induction rest generalizing front s with
  | nil =>
      rw [List.append_nil]
      rfl
  | cons byte rest ih =>
      have first : feed (s.awaitBody lines (byte :: rest).length front) byte =
          awaitBody { s with progress := .body lines (rest.length + 1) front } lines rest.length
            (front ++ [byte]) := rfl
      rw [run, List.foldl_cons, first]
      rw [show front ++ byte :: rest = front ++ [byte] ++ rest by simp]
      exact ih _ _

/-- A message is read as a whole. -/
theorem run_message {m : Message} (formed : m.WellFormed) :
    run ⟨messages, .head [] []⟩ m.bytes = ⟨messages ++ [m], .head [] []⟩ := by
  obtain ⟨start, each, length⟩ := formed
  rw [Message.bytes, run_append, run_append, run_fields each, List.nil_append, run_crlf, endLine,
    if_neg (by simp), if_neg start, length]
  exact run_body m.body [] _

theorem run_messages {more : List Message} (formed : ∀ m ∈ more, m.WellFormed) :
    run ⟨messages, .head [] []⟩ (more.flatMap Message.bytes) = ⟨messages ++ more, .head [] []⟩ := by
  induction more generalizing messages with
  | nil =>
      rw [List.append_nil]
      rfl
  | cons m rest ih =>
      rw [List.flatMap_cons, run_append, run_message (formed m List.mem_cons_self),
        ih fun other member => formed other (List.mem_cons_of_mem m member), List.append_assoc]
      rfl

theorem messages_awaitBody (s : Server) (lines : List Line) (missing : Nat) (body : List UInt8) :
    s.messages <+: (s.awaitBody lines missing body).messages := by
  unfold awaitBody
  split
  · exact List.prefix_append _ _
  · exact List.prefix_rfl

theorem messages_feed (s : Server) (byte : UInt8) : s.messages <+: (s.feed byte).messages := by
  unfold feed
  split
  · split_ifs
    · unfold endLine
      split_ifs
      · exact List.prefix_rfl
      · exact List.prefix_rfl
      · split
        · exact List.prefix_rfl
        · exact messages_awaitBody s _ _ _
    · exact List.prefix_rfl
  · exact messages_awaitBody s _ _ _
  · exact List.prefix_rfl

theorem messages_run (s : Server) (bytes : List UInt8) : s.messages <+: (s.run bytes).messages := by
  induction bytes generalizing s with
  | nil => exact List.prefix_rfl
  | cons byte rest ih => exact (messages_feed s byte).trans (ih _)

/-- A message is no longer than what it was read from. -/
def size (s : Server) : Nat :=
  (s.messages.flatMap Message.bytes).length +
    match s.progress with
    | .head lines line => (lines.flatMap (· ++ crlf)).length + line.length
    | .body lines _ body => (lines.flatMap (· ++ crlf)).length + 2 + body.length
    | .refused => 0

theorem size_awaitBody (s : Server) (lines : List Line) (missing : Nat) (body : List UInt8) :
    (s.awaitBody lines missing body).size =
      (s.messages.flatMap Message.bytes).length + (lines.flatMap (· ++ crlf)).length + 2 +
        body.length := by
  unfold awaitBody
  split
  · simp [size, Message.bytes, crlf]
    omega
  · simp only [size]
    omega

theorem size_feed (s : Server) (byte : UInt8) : (s.feed byte).size ≤ s.size + 1 := by
  obtain ⟨messages, progress⟩ := s
  cases progress with
  | head lines line =>
      rw [feed]
      dsimp only
      split_ifs with ends
      · have last : line.dropLast.length + 1 = line.length := by
          cases line with
          | nil => cases ends.2
          | cons c rest => simp
        unfold endLine
        split_ifs with first second
        · simp only [size, List.flatMap_append, List.flatMap_singleton, List.length_append, crlf,
            List.length_cons, List.length_nil]
          omega
        · simp only [size, List.flatMap_nil, List.length_nil]
          omega
        · split
          · simp only [size]
            omega
          · rw [size_awaitBody]
            simp only [size, List.length_nil]
            omega
      · simp only [size, List.length_append, List.length_cons, List.length_nil]
        omega
  | body lines missing body =>
      rw [feed]
      dsimp only
      rw [size_awaitBody]
      simp only [size, List.length_append, List.length_cons, List.length_nil]
      omega
  | refused => exact Nat.le_succ _

theorem size_run (s : Server) (bytes : List UInt8) : (s.run bytes).size ≤ s.size + bytes.length := by
  induction bytes generalizing s with
  | nil => exact Nat.le_refl _
  | cons byte rest ih =>
      have first := size_feed s byte
      have later : (s.run (byte :: rest)).size ≤ (s.feed byte).size + rest.length := ih (s.feed byte)
      rw [List.length_cons]
      omega

end Server

section Stream

variable {messages : List Message} {arrived sent : List UInt8}

theorem messagesOf_later {first second : List UInt8} (later : first <+: second) :
    messagesOf first <+: messagesOf second := by
  obtain ⟨rest, rfl⟩ := later
  rw [messagesOf, messagesOf, Server.run_append]
  exact Server.messages_run _ rest

theorem messagesOf_bytes (formed : ∀ m ∈ messages, m.WellFormed) :
    messagesOf (messages.flatMap Message.bytes) = messages := by
  have read : Server.run {} (messages.flatMap Message.bytes) = ⟨[] ++ messages, .head [] []⟩ :=
    Server.run_messages formed
  rw [messagesOf, read, List.nil_append]

theorem messagesOf_length_le (arrived : List UInt8) :
    ((messagesOf arrived).flatMap Message.bytes).length ≤ arrived.length := by
  have bound := Server.size_run {} arrived
  have start : Server.size {} = 0 := rfl
  rw [start, Nat.zero_add] at bound
  exact (Nat.le_add_right _ _).trans bound

/-- Of a stream of messages that has arrived in part a server reads the first ones. -/
theorem messagesOf_within (formed : ∀ m ∈ messages, m.WellFormed)
    (arrives : arrived <+: messages.flatMap Message.bytes) : messagesOf arrived <+: messages := by
  have read := messagesOf_later arrives
  rwa [messagesOf_bytes formed] at read

/-- They are those whose last byte has arrived. -/
theorem prefix_messagesOf_iff (formed : ∀ m ∈ messages, m.WellFormed)
    (arrives : arrived <+: messages.flatMap Message.bytes) {first : List Message}
    (isFirst : first <+: messages) :
    first <+: messagesOf arrived ↔ first.flatMap Message.bytes <+: arrived := by
  constructor
  · intro read
    have fits := messagesOf_length_le arrived
    have part : (first.flatMap Message.bytes).length ≤
        ((messagesOf arrived).flatMap Message.bytes).length :=
      (read.flatMap Message.bytes).length_le
    exact List.prefix_of_prefix_length_le (isFirst.flatMap Message.bytes) arrives (part.trans fits)
  · intro came
    have read := messagesOf_later came
    rwa [messagesOf_bytes fun m member => formed m (isFirst.subset member)] at read

theorem delivered (formed : ∀ m ∈ messages, m.WellFormed)
    (begins : sent <+: messages.flatMap Message.bytes) : Delivered sent messages := by
  intro arrived arrives
  have within := arrives.trans begins
  exact ⟨messagesOf_within formed within, fun first => prefix_messagesOf_iff formed within⟩

end Stream

end RenogyX10.Http
