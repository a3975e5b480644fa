import RenogyX10.TtyClient.Lines
import RenogyX10.TtyReader.Frame

set_option autoImplicit false

namespace RenogyX10.TtyClient

open Bytes Csck Messages Parse Proc

/-- A completed read that the publisher can make a frame of. -/
structure Read where
  kind : TtyReader.Kind
  idInfo : TtyReader.TtyIdInfo
  regs : List UInt16
  full : regs.length = (idInfo.count kind).toNat
  small : (idInfo.count kind).toNat ≤ 121

namespace Read

/-- The frame that is sent. -/
def bytes (read : Read) : List UInt8 := TtyReader.frameOf read.kind read.idInfo read.regs

def message (read : Read) : Message where
  type := read.kind.code
  id := read.idInfo.id.toUInt16
  address := read.idInfo.address read.kind
  count := (read.idInfo.count read.kind).toUInt16
  regs := read.regs
  complete := read.full.trans (UInt8.toNat_toUInt16 _).symm

theorem bytes_eq (read : Read) : read.bytes = read.message.frame := rfl

theorem payload_length (read : Read) : read.message.payload.length = 8 + 2 * read.regs.length := by
  unfold Message.payload
  rw [le16s_length, List.length_append]
  simp only [List.length_cons, List.length_nil]
  show 2 * (4 + read.regs.length) = _
  omega

/-- The same frame, as the framed decoder takes it apart. -/
def frame (read : Read) : Csck.Frame where
  code := 0
  payload := read.message.payload
  nonempty := by
    rw [payload_length]
    omega
  fits := by
    have full := read.full
    have small := read.small
    rw [payload_length]
    omega

theorem frame_bytes (read : Read) : read.frame.bytes = read.bytes := by
  have size : read.frame.size = UInt16.ofNat (12 + 2 * read.regs.length) := by
    have length : read.frame.payload.length + 4 = 12 + 2 * read.regs.length := by
      show read.message.payload.length + 4 = _
      rw [payload_length]
      omega
    rw [Csck.Frame.size, length]
  rw [Csck.Frame.bytes, size, bytes_eq]
  rfl

end Read

/-- `main` behind its connect, with what recv returns before the end of the stream. -/
def clientLoop (lib : WideLib) : List (List UInt8) → Act Unit
  | [] => pure ()
  | piece :: later => do
      let ended ← mainLoop lib true (some piece)
      Proc.when (ended = false) (clientLoop lib later)

/-- The stream of these reads, in pieces that fit the client's buffer. -/
structure Cuts (reads : List Read) (pieces : List (List UInt8)) : Prop where
  sizes : ∀ piece ∈ pieces, 1 ≤ piece.length ∧ piece.length ≤ 1024
  stream : pieces.flatten = (reads.map Read.bytes).flatten

/-- The lines of the reads of known devices. -/
def linesOf (messages : List Message) : List Line := messages.filterMap messageLine

/-- The client prints one line for each of them, and never reads past the end of a piece:
what the framed decoder does with the same printing. -/
structure Agrees (lib : WideLib) (reads : List Read) (pieces : List (List UInt8)) : Prop where
  lines : clientLoop lib pieces [] = .ok () (linesOf (reads.map Read.message))
  framed : clientLoop lib pieces [] =
    handleAll lib.toParseLib (printMsg lib) (reads.map Read.frame) []

def Known (message : Message) : Prop := (deviceOf message.toHeader).isSome = true

instance : DecidablePred Known := fun message =>
  inferInstanceAs (Decidable ((deviceOf message.toHeader).isSome = true))

def Glance.found : Glance → Option Message
  | .message found => some found
  | _ => none

/-- The message of a known device that a piece begins with. -/
def headOf (piece : List UInt8) : Option Message := (glance (wordsOf piece)).found

/-- The pieces hold the words that the client reads of them, and the messages of known
devices at their beginnings are the ones that were sent. -/
structure InStep (messages : List Message) (pieces : List (List UInt8)) : Prop where
  enough : ∀ piece ∈ pieces, glance (wordsOf piece) ≠ .short
  heads : pieces.filterMap headOf = messages.filter Known

/-- What a piece adds to the lines. -/
def lineAt (piece : List UInt8) : Option Line := (headOf piece).bind messageLine

section Run

variable (lib : WideLib) {piece : List UInt8} {lines : List Line}

theorem mainLoop_run (some_byte : piece ≠ []) : mainLoop lib true (some piece) lines =
    (printGlance (glance (wordsOf piece)) >>= fun _ => pure false) lines := by
  have left := lib.rem_createFromSlice piece
  have whole : lib.checkRem (lib.createFromSlice piece) piece.length = true := by
    rw [lib.checkRem_iff, left]
  have received : printRecv lib true piece = printGlance (glance (wordsOf piece)) := by
    rw [printRecv, whole, printFrame_glance lib (congrArg wordsOf left)]
    rfl
  cases piece with
  | nil => exact absurd rfl some_byte
  | cons first rest =>
      show (printRecv lib true (first :: rest) >>= fun _ => pure false) lines = _
      rw [received]

theorem glanceRegisters_line {header : Header} {words : List UInt16} {message : Message}
    (found : glanceRegisters header words = .message message) :
    ∃ line, messageLine message = some line := by
  unfold glanceRegisters at found
  cases known : deviceOf header with
  | none =>
      rw [known] at found
      cases found
  | some device =>
      rw [known] at found
      dsimp only at found
      split at found
      · rename_i enough
        cases found
        obtain rfl := deviceOf_eq_some.mp known
        obtain ⟨line, _, ofMessage⟩ := lineOf_take enough
        refine ⟨line, ?_⟩
        rw [messageLine, known, Option.bind_some, ofMessage]
      · cases found

theorem glance_line {words : List UInt16} {message : Message}
    (found : glance words = .message message) : ∃ line, messageLine message = some line := by
  unfold glance at found
  split at found
  · split at found
    · unfold glanceSized at found
      split at found
      · split at found
        · unfold glanceMsg at found
          split at found
          · exact glanceRegisters_line found
          · cases found
        · cases found
      · cases found
    · cases found
  · cases found

theorem mainLoop_enough (some_byte : piece ≠ []) (enough : glance (wordsOf piece) ≠ .short) :
    mainLoop lib true (some piece) lines = .ok false (lines ++ (lineAt piece).toList) := by
  rw [mainLoop_run lib some_byte]
  unfold lineAt headOf
  cases found : glance (wordsOf piece) with
  | short => exact absurd found enough
  | other => exact congrArg (Exit.ok false) (List.append_nil lines).symm
  | message message =>
      obtain ⟨line, shown⟩ := glance_line found
      rw [printGlance, shown, Glance.found, Option.bind_some, shown]
      rfl

theorem mainLoop_short (some_byte : piece ≠ []) (short : glance (wordsOf piece) = .short) :
    mainLoop lib true (some piece) lines = .panic lines := by
  rw [mainLoop_run lib some_byte, short]
  rfl

theorem clientLoop_enough {pieces : List (List UInt8)} (nonempty : ∀ piece ∈ pieces, piece ≠ [])
    (enough : ∀ piece ∈ pieces, glance (wordsOf piece) ≠ .short) :
    clientLoop lib pieces lines = .ok () (lines ++ pieces.filterMap lineAt) := by
  induction pieces generalizing lines with
  | nil => exact congrArg (Exit.ok ()) (List.append_nil lines).symm
  | cons piece later ih =>
      have first : mainLoop lib true (some piece) lines = _ := mainLoop_enough lib
        (nonempty piece List.mem_cons_self) (enough piece List.mem_cons_self)
      have rest : clientLoop lib later (lines ++ (lineAt piece).toList) = _ := ih
        (fun other member => nonempty other (List.mem_cons_of_mem _ member))
        fun other member => enough other (List.mem_cons_of_mem _ member)
      rw [clientLoop, bind_of_ok first, when_true _ rfl, rest, List.append_assoc]
      congr 2
      cases shown : lineAt piece with
      | none => rw [List.filterMap_cons_none shown]; rfl
      | some line => rw [List.filterMap_cons_some shown]; rfl

theorem enough_of_clientLoop {pieces : List (List UInt8)} {after : List Line}
    (nonempty : ∀ piece ∈ pieces, piece ≠ []) (ran : clientLoop lib pieces lines = .ok () after) :
    ∀ piece ∈ pieces, glance (wordsOf piece) ≠ .short := by
  induction pieces generalizing lines with
  | nil => simp
  | cons piece later ih =>
      have some_byte := nonempty piece List.mem_cons_self
      have enough : glance (wordsOf piece) ≠ .short := by
        intro short
        rw [clientLoop, bind_of_panic (mainLoop_short lib some_byte short)] at ran
        cases ran
      rw [clientLoop, bind_of_ok (mainLoop_enough lib some_byte enough), when_true _ rfl] at ran
      intro other member
      rcases List.mem_cons.mp member with rfl | member
      · exact enough
      · exact ih (fun other member => nonempty other (List.mem_cons_of_mem _ member)) ran other
          member

end Run

section Frames

variable {message : Message}

theorem known_line (known : Known message) : ∃ line, messageLine message = some line := by
  obtain ⟨device, found⟩ := Option.isSome_iff_exists.mp known
  have complete := message.complete
  rw [deviceOf_eq_some.mp found] at complete
  obtain ⟨line, shown, _⟩ := lineOf_take (Nat.le_of_eq complete.symm)
  exact ⟨line, by rw [messageLine, found, Option.bind_some, shown]⟩

theorem unknown_line (unknown : ¬ Known message) : messageLine message = none := by
  unfold Known at unknown
  rw [messageLine, Option.not_isSome_iff_eq_none.mp unknown, Option.bind_none]

theorem glanceMsg_message (message : Message) (rest : List UInt16) :
    glanceMsg ([message.type, message.id, message.address, message.count] ++ message.regs ++ rest) =
      if Known message then .message message else .other := by
  obtain ⟨header, regs, complete⟩ := message
  have first : (regs ++ rest).take header.count.toNat = regs := List.take_left' complete
  have enough : header.count.toNat ≤ (regs ++ rest).length := by
    rw [List.length_append]
    omega
  show glanceRegisters header (regs ++ rest) = _
  unfold glanceRegisters
  by_cases known : Known ⟨header, regs, complete⟩
  · obtain ⟨device, found⟩ := Option.isSome_iff_exists.mp known
    have isKnown : deviceOf header = some device := found
    rw [if_pos known, isKnown]
    simp only [enough, first, ↓reduceDIte]
  · have unknown : deviceOf header = none := Option.not_isSome_iff_eq_none.mp known
    rw [if_neg known, unknown]

theorem glance_frame (message : Message) (rest : List UInt8) :
    glance (wordsOf (message.frame ++ rest)) =
      if Known message then .message message else .other := by
  have words : wordsOf (message.frame ++ rest) = 0 :: UInt16.ofNat (12 + 2 * message.regs.length) ::
      ([message.type, message.id, message.address, message.count] ++ message.regs ++
        wordsOf rest) := by
    have stored : message.frame = le16s (0 :: UInt16.ofNat (12 + 2 * message.regs.length) ::
      ([message.type, message.id, message.address, message.count] ++ message.regs)) := rfl
    rw [stored, wordsOf_le16s]
    rfl
  rw [words, glance, if_pos rfl, glanceSized, glanceMsg_message]
  by_cases known : Known message
  · obtain ⟨device, found⟩ := Option.isSome_iff_exists.mp known
    have positive : 0 < (UInt16.ofNat (12 + 2 * message.regs.length)).toInt16 := by
      rw [message.complete, deviceOf_eq_some.mp found]
      cases device <;> decide
    rw [if_pos positive]
  · rw [if_neg known, ite_self]

theorem framed_lines (lib : WideLib) (reads : List Read) (lines : List Line) :
    handleAll lib.toParseLib (printMsg lib) (reads.map Read.frame) lines =
      .ok () (lines ++ linesOf (reads.map Read.message)) := by
  induction reads generalizing lines with
  | nil => exact congrArg (Exit.ok ()) (List.append_nil lines).symm
  | cons read reads ih =>
      have left : wordsOf (lib.createFromSlice read.message.payload).rem =
          [read.message.type, read.message.id, read.message.address, read.message.count] ++
            read.message.regs ++ [] := by
        rw [lib.rem_createFromSlice]
        show wordsOf (le16s _) = _
        rw [← List.append_nil (le16s _), wordsOf_le16s]
        rfl
      have one : handle lib.toParseLib (printMsg lib) read.frame lines =
          .ok () (lines ++ (messageLine read.message).toList) := by
        unfold handle
        rw [when_true _ (show read.frame.code = 0 from rfl)]
        show printMsg lib (lib.createFromSlice read.message.payload) lines = _
        rw [printMsg_glance lib left, glanceMsg_message]
        by_cases known : Known read.message
        · obtain ⟨line, shown⟩ := known_line known
          rw [if_pos known, printGlance, shown]
          rfl
        · rw [if_neg known, unknown_line known]
          exact congrArg (Exit.ok ()) (List.append_nil lines).symm
      have rest := ih (lines ++ (messageLine read.message).toList)
      rw [List.map_cons, handleAll, bind_of_ok one, rest, List.append_assoc]
      congr 2
      unfold linesOf
      rw [List.map_cons]
      cases shown : messageLine read.message with
      | none => rw [List.filterMap_cons_none shown]; rfl
      | some line => rw [List.filterMap_cons_some shown]; rfl

end Frames

theorem linesOf_inj {first second : List Message}
    (firstShown : ∀ message ∈ first, ∃ line, messageLine message = some line)
    (secondShown : ∀ message ∈ second, ∃ line, messageLine message = some line)
    (same : linesOf first = linesOf second) : first = second := by
  unfold linesOf at same
  induction first generalizing second with
  | nil =>
      cases second with
      | nil => rfl
      | cons other others =>
          obtain ⟨line, shown⟩ := secondShown other List.mem_cons_self
          rw [List.filterMap_cons_some shown] at same
          cases same
  | cons message messages ih =>
      obtain ⟨line, shown⟩ := firstShown message List.mem_cons_self
      rw [List.filterMap_cons_some shown] at same
      cases second with
      | nil => cases same
      | cons other others =>
          obtain ⟨line', shown'⟩ := secondShown other List.mem_cons_self
          rw [List.filterMap_cons_some shown'] at same
          obtain ⟨rfl, later⟩ := List.cons_eq_cons.mp same
          obtain rfl := messageLine_inj shown shown'
          rw [ih (fun _ member => firstShown _ (List.mem_cons_of_mem _ member))
            (fun _ member => secondShown _ (List.mem_cons_of_mem _ member)) later]

theorem linesOf_filter (messages : List Message) :
    linesOf (messages.filter Known) = linesOf messages := by
  induction messages with
  | nil => rfl
  | cons message messages ih =>
      unfold linesOf at ih ⊢
      rw [List.filter_cons]
      by_cases known : Known message
      · obtain ⟨line, shown⟩ := known_line known
        rw [if_pos (decide_eq_true known), List.filterMap_cons_some shown,
          List.filterMap_cons_some shown, ih]
      · rw [if_neg (by simpa using known), List.filterMap_cons_none (unknown_line known), ih]

theorem linesOf_heads (pieces : List (List UInt8)) :
    linesOf (pieces.filterMap headOf) = pieces.filterMap lineAt := by
  unfold linesOf
  rw [List.filterMap_filterMap]
  rfl

section Whole

theorem flatMap_append_eq_iff {α β : Type} (front back : α → List β) (list : List α) :
    list.flatMap front = list.flatMap (fun a => front a ++ back a) ↔
      ∀ a ∈ list, back a = [] := by
  have shorter (list : List α) :
      (list.flatMap front).length ≤ (list.flatMap fun a => front a ++ back a).length := by
    induction list with
    | nil => exact Nat.le_refl 0
    | cons a rest ih =>
        simp only [List.flatMap_cons, List.length_append]
        omega
  induction list with
  | nil => simp
  | cons a rest ih =>
      rw [List.flatMap_cons, List.flatMap_cons, List.append_assoc, List.append_cancel_left_eq,
        List.forall_mem_cons]
      constructor
      · intro same
        have lengths := congrArg List.length same
        have least := shorter rest
        rw [List.length_append] at lengths
        have empty : back a = [] := List.length_eq_zero_iff.mp (by omega)
        rw [empty, List.nil_append] at same
        exact ⟨empty, ih.mp same⟩
      · rintro ⟨empty, later⟩
        rw [empty, List.nil_append]
        exact ih.mpr later

/-- A piece of whole frames. -/
def pieceOf (group : List Message) : List UInt8 := (group.map Message.frame).flatten

theorem glance_whole (first : Message) (others : List Message) :
    glance (wordsOf (pieceOf (first :: others))) =
      if Known first then .message first else .other := by
  rw [pieceOf, List.map_cons, List.flatten_cons, glance_frame]

theorem heads_whole {groups : List (List Message)} (nonempty : ∀ group ∈ groups, group ≠ []) :
    (groups.map pieceOf).filterMap headOf =
      groups.flatMap fun group => (group.take 1).filter Known := by
  induction groups with
  | nil => rfl
  | cons group groups ih =>
      have rest := ih fun other member => nonempty other (List.mem_cons_of_mem _ member)
      obtain ⟨first, others, rfl⟩ :=
        List.exists_cons_of_ne_nil (nonempty group List.mem_cons_self)
      have head :
          headOf (pieceOf (first :: others)) = if Known first then some first else none := by
        rw [headOf, glance_whole]
        split <;> rfl
      rw [List.map_cons, List.filterMap_cons, head, rest, List.flatMap_cons, List.take_succ_cons,
        List.take_zero, List.filter_cons, List.filter_nil]
      by_cases known : Known first <;> simp [known]

/-- Pieces of whole frames are in step when only the first frame of a piece is one of a
known device. -/
theorem inStep_whole_iff {groups : List (List Message)}
    (nonempty : ∀ group ∈ groups, group ≠ []) :
    InStep groups.flatten (groups.map pieceOf) ↔
      ∀ group ∈ groups, ∀ message ∈ group.drop 1, ¬ Known message := by
  have enough : ∀ piece ∈ groups.map pieceOf, glance (wordsOf piece) ≠ .short := by
    intro piece member
    obtain ⟨group, isGroup, rfl⟩ := List.mem_map.mp member
    obtain ⟨first, others, rfl⟩ := List.exists_cons_of_ne_nil (nonempty group isGroup)
    rw [glance_whole]
    split <;> simp
  have sent : groups.flatten.filter Known =
      groups.flatMap fun group => (group.take 1).filter Known ++ (group.drop 1).filter Known := by
    rw [List.filter_flatten, List.flatMap_def]
    congr 2
    funext group
    rw [← List.filter_append, List.take_append_drop]
  have others (group : List Message) :
      (group.drop 1).filter Known = [] ↔ ∀ message ∈ group.drop 1, ¬ Known message := by
    simp only [List.filter_eq_nil_iff, decide_eq_true_eq]
  simp only [← others]
  rw [← flatMap_append_eq_iff (fun group => (group.take 1).filter Known), ← sent,
    ← heads_whole nonempty]
  exact ⟨fun inStep => inStep.heads, fun heads => ⟨enough, heads⟩⟩

end Whole

/-- The client agrees with the framed decoder exactly when every piece is long enough for
what it begins with, and the messages of known devices that were sent are the ones at the
beginnings of the pieces. -/
theorem client_agrees_iff (lib : WideLib) {reads : List Read} {pieces : List (List UInt8)}
    (cuts : Cuts reads pieces) :
    Agrees lib reads pieces ↔ InStep (reads.map Read.message) pieces := by
  have nonempty : ∀ piece ∈ pieces, piece ≠ [] := by
    intro piece member
    exact List.ne_nil_of_length_pos (cuts.sizes piece member).1
  constructor
  · intro agrees
    have enough := enough_of_clientLoop lib nonempty agrees.lines
    refine ⟨enough, ?_⟩
    have ran := (clientLoop_enough lib nonempty enough).symm.trans agrees.lines
    obtain ⟨_, same⟩ := Exit.ok.inj ran
    rw [List.nil_append, ← linesOf_heads, ← linesOf_filter (reads.map Read.message)] at same
    apply linesOf_inj ?_ ?_ same
    · intro message member
      obtain ⟨piece, _, head⟩ := List.mem_filterMap.mp member
      unfold headOf at head
      cases seen : glance (wordsOf piece) with
      | short => rw [seen] at head; cases head
      | other => rw [seen] at head; cases head
      | message found =>
          rw [seen] at head
          cases head
          exact glance_line seen
    · intro message member
      exact known_line (of_decide_eq_true (List.mem_filter.mp member).2)
  · intro inStep
    have lines : clientLoop lib pieces [] = .ok () (linesOf (reads.map Read.message)) := by
      rw [clientLoop_enough lib nonempty inStep.enough, List.nil_append, ← linesOf_heads,
        inStep.heads, linesOf_filter]
    refine ⟨lines, ?_⟩
    rw [lines, framed_lines, List.nil_append]

/-- A climate sensor, a device that the client does not know, and the sensor again. -/
def climateRead (temp : UInt16) : Read :=
  ⟨.input, { id := 11, readInputAddress := 1, readInputCount := 2 }, [temp, 480], rfl, by decide⟩

def otherRead : Read := ⟨.holding, { id := 1, readCount := 1 }, [7], rfl, by decide⟩

/-- The second frame comes behind the first in one piece, and the third alone. -/
theorem client_agrees_otherRead :
    Agrees wideReference [climateRead 215, otherRead, climateRead 216]
      [(climateRead 215).bytes ++ otherRead.bytes, (climateRead 216).bytes] := by
  have inStep : InStep
      [[(climateRead 215).message, otherRead.message], [(climateRead 216).message]].flatten
      ([[(climateRead 215).message, otherRead.message], [(climateRead 216).message]].map pieceOf) :=
    (inStep_whole_iff (by simp)).mpr (by decide)
  exact (client_agrees_iff wideReference ⟨by decide, by decide⟩).mpr inStep

/-- Two frames of the sensor in one piece lead to one line, and a frame that comes in two
pieces is read past the end of the first one. -/
theorem client_disagrees_climate :
    (Cuts [climateRead 215, climateRead 216] [(climateRead 215).bytes ++ (climateRead 216).bytes] ∧
      ¬ Agrees wideReference [climateRead 215, climateRead 216]
        [(climateRead 215).bytes ++ (climateRead 216).bytes]) ∧
    Cuts [climateRead 215] [(climateRead 215).bytes.take 13, (climateRead 215).bytes.drop 13] ∧
      clientLoop wideReference
        [(climateRead 215).bytes.take 13, (climateRead 215).bytes.drop 13] [] = .panic [] := by
  refine ⟨⟨⟨by decide, by decide⟩, ?_⟩, ⟨by decide, by decide⟩, rfl⟩
  intro agrees
  have ran : clientLoop wideReference [(climateRead 215).bytes ++ (climateRead 216).bytes] [] =
      .ok () [.tempHum 11 ⟨215, 10⟩ ⟨480, 10⟩] := rfl
  obtain ⟨_, same⟩ := Exit.ok.inj (ran.symm.trans agrees.lines)
  exact absurd (congrArg List.length same) (by decide)

end RenogyX10.TtyClient
