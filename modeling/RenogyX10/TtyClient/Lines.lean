import RenogyX10.TtyClient.Main

set_option autoImplicit false

namespace RenogyX10.TtyClient

open Bytes Csck Messages Parse Proc

/-- The words of some bytes; an odd last byte belongs to none. -/
def wordsOf : List UInt8 → List UInt16
  | low :: high :: rest => readLe16 low high :: wordsOf rest
  | _ => []

theorem wordsOf_le16s (words : List UInt16) (rest : List UInt8) :
    wordsOf (le16s words ++ rest) = words ++ wordsOf rest := by
  induction words with
  | nil => rfl
  | cons word words ih =>
      rw [le16s_cons, List.append_assoc]
      show readLe16 _ _ :: wordsOf (le16s words ++ rest) = _
      rw [readLe16_le16, ih, List.cons_append]

theorem length_of_wordsOf_nil {bytes : List UInt8} (none_left : wordsOf bytes = []) :
    bytes.length < 2 := by
  match bytes with
  | [] | [_] => simp
  | low :: high :: rest => cases none_left

theorem exists_of_wordsOf_cons {bytes : List UInt8} {word : UInt16} {words : List UInt16}
    (left : wordsOf bytes = word :: words) :
    ∃ low high rest, bytes = low :: high :: rest ∧ readLe16 low high = word ∧
      wordsOf rest = words := by
  match bytes with
  | [] => cases left
  | [_] => cases left
  | low :: high :: rest =>
      obtain ⟨same, later⟩ := List.cons_eq_cons.mp left
      exact ⟨low, high, rest, rfl, same, later⟩

/-- The lines of the branches, from the words that are left; the ones behind the message
are not looked at. -/
def dcLine (id : UInt16) : List UInt16 → Option Line
  | voltage :: amps :: watts0 :: watts1 :: hours0 :: hours1 :: hiallarm :: loallarm :: _ =>
      some (.dc id (scaled16 voltage 100) (scaled16 amps 100) (scaled32 (wide watts0 watts1) 10)
        (wide hours0 hours1) hiallarm loallarm)
  | _ => none

def renogyLine (id : UInt16) : List UInt16 → Option Line
  | percent :: voltage :: amps :: val1 :: val2 :: val3 :: val4 :: pvvoltage :: pvamps ::
      pvwatts :: _ =>
      some (.renogy id percent (scaled16 voltage 10) (scaled16 amps 100) val1 val2 val3 val4
        (scaled16 pvvoltage 10) (scaled16 pvamps 100) pvwatts)
  | _ => none

def tempLine (id : UInt16) : List UInt16 → Option Line
  | temp :: hum :: _ => some (.tempHum id (scaled16 temp 10) (scaled16 hum 10))
  | _ => none

def acLine (id : UInt16) : List UInt16 → Option Line
  | voltage :: amps0 :: amps1 :: watts0 :: watts1 :: hours0 :: hours1 :: frequency ::
      powerFactor :: alarm :: _ =>
      some (.ac id (scaled16 voltage 10) (scaled32 (wide amps0 amps1) 1000)
        (scaled32 (wide watts0 watts1) 10) (wide hours0 hours1) (scaled16 frequency 10)
        (scaled16 powerFactor 100) alarm)
  | _ => none

def lineOf (device : Device) (words : List UInt16) : Option Line :=
  match device with
  | .renogy => renogyLine device.header.id words
  | .pzem3 | .pzem6 | .pzem10 => dcLine device.header.id words
  | .temp11 => tempLine device.header.id words
  | .pzem12 | .pzem13 => acLine device.header.id words

def printLine (line : Option Line) : Act Unit := do
  let line ← Proc.orAbort line
  print line

section Words

variable (lib : WideLib) {α : Type} {s : ParseT}

/-- A word is there, or reading it fails the safety check. -/
theorem inU16_words {next : UInt16 × ParseT → Act α} (after : List UInt16 → Act α)
    {words : List UInt16} (left : wordsOf s.rem = words) (short : after [] = abort)
    (later : ∀ word rest t, wordsOf t.rem = rest → next (word, t) = after (word :: rest)) :
    (inU16 lib.toParseLib s >>= next) = after words := by
  cases words with
  | nil =>
      rw [inU16, lib.inU16Le_short s (length_of_wordsOf_nil left), short]
      rfl
  | cons word rest =>
      obtain ⟨low, high, behind, front, same, words⟩ := exists_of_wordsOf_cons left
      obtain ⟨t, read, rem⟩ := lib.inU16Le_run front
      rw [inU16, read, same]
      exact later word rest t (by rw [rem, words])

theorem inU32_words {next : UInt32 × ParseT → Act α} (after : List UInt16 → Act α)
    {words : List UInt16} (left : wordsOf s.rem = words) (short : after [] = abort)
    (shorter : ∀ word, after [word] = abort)
    (later : ∀ low high rest t, wordsOf t.rem = rest →
      next (wide low high, t) = after (low :: high :: rest)) :
    (inU32 lib s >>= next) = after words := by
  cases words with
  | nil =>
      have few := length_of_wordsOf_nil left
      rw [inU32, lib.inU32Le_short s (by omega), short]
      rfl
  | cons first words =>
      obtain ⟨b0, b1, behind, front, same, others⟩ := exists_of_wordsOf_cons left
      cases words with
      | nil =>
          have few := length_of_wordsOf_nil others
          have small : s.rem.length < 4 := by simp [front]; omega
          rw [inU32, lib.inU32Le_short s small, shorter]
          rfl
      | cons second rest =>
          obtain ⟨b2, b3, last, more, last_same, words⟩ := exists_of_wordsOf_cons others
          rw [more] at front
          obtain ⟨t, read, rem⟩ := lib.inU32Le_run front
          rw [inU32, read, same, last_same]
          exact later first second rest t (by rw [rem, words])

end Words

section Branches

variable (lib : WideLib) {s : ParseT} {words : List UInt16} {id : UInt16}

theorem printDc_words (left : wordsOf s.rem = words) :
    printDc lib id s = printLine (dcLine id words) := by
  apply inU16_words lib _ left rfl
  intro voltage words s left
  apply inU16_words lib _ left rfl
  intro amps words s left
  apply inU32_words lib _ left rfl fun _ => rfl
  intro watts0 watts1 words s left
  apply inU32_words lib _ left rfl fun _ => rfl
  intro hours0 hours1 words s left
  apply inU16_words lib _ left rfl
  intro hiallarm words s left
  apply inU16_words lib _ left rfl
  intro loallarm words s left
  rfl

theorem printRenogy_words (left : wordsOf s.rem = words) :
    printRenogy lib id s = printLine (renogyLine id words) := by
  apply inU16_words lib _ left rfl
  intro percent words s left
  apply inU16_words lib _ left rfl
  intro voltage words s left
  apply inU16_words lib _ left rfl
  intro amps words s left
  apply inU16_words lib _ left rfl
  intro val1 words s left
  apply inU16_words lib _ left rfl
  intro val2 words s left
  apply inU16_words lib _ left rfl
  intro val3 words s left
  apply inU16_words lib _ left rfl
  intro val4 words s left
  apply inU16_words lib _ left rfl
  intro pvvoltage words s left
  apply inU16_words lib _ left rfl
  intro pvamps words s left
  apply inU16_words lib _ left rfl
  intro pvwatts words s left
  rfl

theorem printTemp_words (left : wordsOf s.rem = words) :
    printTemp lib id s = printLine (tempLine id words) := by
  apply inU16_words lib _ left rfl
  intro temp words s left
  apply inU16_words lib _ left rfl
  intro hum words s left
  rfl

theorem printAc_words (left : wordsOf s.rem = words) :
    printAc lib id s = printLine (acLine id words) := by
  apply inU16_words lib _ left rfl
  intro voltage words s left
  apply inU32_words lib _ left rfl fun _ => rfl
  intro amps0 amps1 words s left
  apply inU32_words lib _ left rfl fun _ => rfl
  intro watts0 watts1 words s left
  apply inU32_words lib _ left rfl fun _ => rfl
  intro hours0 hours1 words s left
  apply inU16_words lib _ left rfl
  intro frequency words s left
  apply inU16_words lib _ left rfl
  intro powerFactor words s left
  apply inU16_words lib _ left rfl
  intro alarm words s left
  rfl

end Branches

theorem printRegisters_words (lib : WideLib) {s : ParseT} {words : List UInt16} (header : Header)
    (left : wordsOf s.rem = words) : printRegisters lib header s =
      (deviceOf header).elim (pure ()) fun device => printLine (lineOf device words) := by
  cases found : deviceOf header with
  | some device =>
      obtain rfl := deviceOf_eq_some.mp found
      cases device with
      | renogy => exact printRenogy_words lib left
      | pzem3 => exact printDc_words lib left
      | pzem6 => exact printDc_words lib left
      | pzem10 => exact printDc_words lib left
      | temp11 => exact printTemp_words lib left
      | pzem12 => exact printAc_words lib left
      | pzem13 => exact printAc_words lib left
  | none =>
      unfold printRegisters
      split
      · exact when_unknown .pzem3 found ‹_› _
      split
      · exact when_unknown .pzem6 found ‹_› _
      split
      · exact when_unknown .renogy found ‹_› _
      split
      · exact when_unknown .pzem10 found ‹_› _
      split
      · exact when_unknown .temp11 found ‹_› _
      split
      · exact when_unknown .pzem12 found ‹_› _
      split
      · exact when_unknown .pzem13 found ‹_› _
      rfl

/-- What received bytes begin with, as far as the client reads them. -/
inductive Glance where
  /-- less than it reads -/
  | short
  | other
  /-- a message of a known device -/
  | message (message : Message)

def glanceRegisters (header : Header) (words : List UInt16) : Glance :=
  match deviceOf header with
  | none => .other
  | some _ =>
      if complete : header.count.toNat ≤ words.length then
        .message ⟨header, words.take header.count.toNat, List.length_take_of_le complete⟩
      else .short

def glanceMsg : List UInt16 → Glance
  | type :: id :: address :: count :: words => glanceRegisters ⟨type, id, address, count⟩ words
  | _ => .short

def glanceSized : List UInt16 → Glance
  | size :: words => if 0 < size.toInt16 then glanceMsg words else .other
  | [] => .short

def glance : List UInt16 → Glance
  | code :: words => if code = 0 then glanceSized words else .other
  | [] => .short

/-- The line of a message, if its device is known. -/
def messageLine (message : Message) : Option Line :=
  (deviceOf message.toHeader).bind fun device => lineOf device message.regs

def printGlance : Glance → Act Unit
  | .short => Proc.abort
  | .other => pure ()
  | .message message => printLine (messageLine message)

/-- The registers that a line was made of. -/
def Line.regs : Line → List UInt16
  | .dc _ voltage amps watts watthours hiallarm loallarm =>
      [UInt16.ofNat voltage.raw, UInt16.ofNat amps.raw, UInt16.ofNat watts.raw,
        UInt16.ofNat (watts.raw / 65536), watthours.toUInt16,
        UInt16.ofNat (watthours.toNat / 65536), hiallarm, loallarm]
  | .renogy _ percent voltage amps temp loadVolts loadAmps loadWatts pvvoltage pvamps pvwatts =>
      [percent, UInt16.ofNat voltage.raw, UInt16.ofNat amps.raw, temp, loadVolts, loadAmps,
        loadWatts, UInt16.ofNat pvvoltage.raw, UInt16.ofNat pvamps.raw, pvwatts]
  | .tempHum _ temp hum => [UInt16.ofNat temp.raw, UInt16.ofNat hum.raw]
  | .ac _ voltage amps watts watthours frequency powerFactor alarm =>
      [UInt16.ofNat voltage.raw, UInt16.ofNat amps.raw, UInt16.ofNat (amps.raw / 65536),
        UInt16.ofNat watts.raw, UInt16.ofNat (watts.raw / 65536), watthours.toUInt16,
        UInt16.ofNat (watthours.toNat / 65536), UInt16.ofNat frequency.raw,
        UInt16.ofNat powerFactor.raw, alarm]

def Line.id : Line → UInt16
  | .dc id .. | .renogy id .. | .tempHum id .. | .ac id .. => id

section Lines

variable {id : UInt16} {words : List UInt16} {device : Device} {line : Line}

theorem dcLine_none (short : words.length < 8) : dcLine id words = none := by
  unfold dcLine
  split
  · simp only [List.length_cons] at short
    omega
  · rfl

theorem renogyLine_none (short : words.length < 10) : renogyLine id words = none := by
  unfold renogyLine
  split
  · simp only [List.length_cons] at short
    omega
  · rfl

theorem tempLine_none (short : words.length < 2) : tempLine id words = none := by
  unfold tempLine
  split
  · simp only [List.length_cons] at short
    omega
  · rfl

theorem acLine_none (short : words.length < 10) : acLine id words = none := by
  unfold acLine
  split
  · simp only [List.length_cons] at short
    omega
  · rfl

theorem lineOf_none (short : words.length < device.header.count.toNat) :
    lineOf device words = none := by
  cases device with
  | renogy => exact renogyLine_none short
  | pzem3 => exact dcLine_none short
  | pzem6 => exact dcLine_none short
  | pzem10 => exact dcLine_none short
  | temp11 => exact tempLine_none short
  | pzem12 => exact acLine_none short
  | pzem13 => exact acLine_none short

theorem lineOf_take (enough : device.header.count.toNat ≤ words.length) :
    ∃ line, lineOf device words = some line ∧
      lineOf device (words.take device.header.count.toNat) = some line := by
  cases device with
  | renogy | pzem12 | pzem13 =>
      obtain ⟨_, _, _, _, _, _, _, _, words, rfl⟩ :=
        exists_eight (Nat.le_trans (by decide) enough)
      have two : 2 ≤ words.length := Nat.le_of_add_le_add_right (b := 8) enough
      obtain ⟨_, _, words, rfl⟩ := exists_two two
      exact ⟨_, rfl, rfl⟩
  | pzem3 | pzem6 | pzem10 =>
      obtain ⟨_, _, _, _, _, _, _, _, words, rfl⟩ := exists_eight enough
      exact ⟨_, rfl, rfl⟩
  | temp11 =>
      obtain ⟨_, _, words, rfl⟩ := exists_two enough
      exact ⟨_, rfl, rfl⟩

/-- Nothing of a message is lost in its line. -/
theorem lineOf_regs (shown : lineOf device words = some line) :
    line.id = device.header.id ∧ line.regs = words.take device.header.count.toNat := by
  cases device with
  | renogy =>
      unfold lineOf renogyLine at shown
      dsimp only at shown
      split at shown <;> cases shown
      exact ⟨rfl, by simp [Line.regs, scaled16, Device.header]⟩
  | pzem3 | pzem6 | pzem10 =>
      unfold lineOf dcLine at shown
      dsimp only at shown
      split at shown <;> cases shown
      exact ⟨rfl, by simp [Line.regs, scaled16, scaled32, wide_low, wide_high, Device.header]⟩
  | temp11 =>
      unfold lineOf tempLine at shown
      dsimp only at shown
      split at shown <;> cases shown
      exact ⟨rfl, by simp [Line.regs, scaled16, Device.header]⟩
  | pzem12 | pzem13 =>
      unfold lineOf acLine at shown
      dsimp only at shown
      split at shown <;> cases shown
      exact ⟨rfl, by simp [Line.regs, scaled16, scaled32, wide_low, wide_high, Device.header]⟩

end Lines

section Glances

variable (lib : WideLib) {s : ParseT} {words : List UInt16}

theorem printRegisters_glance (header : Header) (left : wordsOf s.rem = words) :
    printRegisters lib header s = printGlance (glanceRegisters header words) := by
  rw [printRegisters_words lib header left]
  unfold glanceRegisters
  cases found : deviceOf header with
  | none => rfl
  | some device =>
      obtain rfl := deviceOf_eq_some.mp found
      dsimp only [Option.elim_some]
      split
      · rename_i enough
        obtain ⟨line, ofWords, ofMessage⟩ := lineOf_take enough
        rw [ofWords, printGlance, messageLine, found, Option.bind_some, ofMessage]
      · rename_i short
        rw [lineOf_none (Nat.lt_of_not_le short)]
        rfl

theorem printMsg_glance (left : wordsOf s.rem = words) :
    printMsg lib s = printGlance (glanceMsg words) := by
  apply inU16_words lib _ left rfl
  intro type words s left
  apply inU16_words lib _ left rfl
  intro id words s left
  apply inU16_words lib _ left rfl
  intro address words s left
  apply inU16_words lib _ left rfl
  intro count words s left
  exact printRegisters_glance lib _ left

theorem printSized_glance (left : wordsOf s.rem = words) :
    printSized lib s = printGlance (glanceSized words) := by
  have read : printSized lib s = (inU16 lib.toParseLib s >>= fun size =>
      Proc.when (0 < size.1.toInt16) (printMsg lib size.2)) := by
    unfold printSized inU16
    rw [lib.inI16Le_eq]
    cases lib.inU16Le s <;> rfl
  rw [read]
  apply inU16_words lib _ left rfl
  intro size words s left
  unfold glanceSized
  dsimp only
  split
  · rename_i positive
    rw [when_true _ positive]
    exact printMsg_glance lib left
  · rename_i zero
    rw [when_false _ zero]
    rfl

theorem printFrame_glance (left : wordsOf s.rem = words) :
    printFrame lib s = printGlance (glance words) := by
  apply inU16_words lib _ left rfl
  intro code words s left
  unfold glance
  dsimp only
  split
  · rename_i zero
    rw [when_true _ zero]
    exact printSized_glance lib left
  · rename_i other
    rw [when_false _ other]
    rfl

end Glances

theorem Device.id_inj {device other : Device} (same : device.header.id = other.header.id) :
    device = other := by
  cases device <;> cases other <;> first
    | rfl
    | exact absurd same (by decide)

/-- A line tells which message it shows. -/
theorem messageLine_inj {message other : Message} {line : Line}
    (shown : messageLine message = some line) (also : messageLine other = some line) :
    message = other := by
  obtain ⟨device, known, isLine⟩ := Option.bind_eq_some_iff.mp shown
  obtain ⟨device', known', isLine'⟩ := Option.bind_eq_some_iff.mp also
  obtain ⟨id, regs⟩ := lineOf_regs isLine
  obtain ⟨id', regs'⟩ := lineOf_regs isLine'
  obtain rfl := Device.id_inj (id.symm.trans id')
  have header := deviceOf_eq_some.mp known
  have header' := deviceOf_eq_some.mp known'
  obtain ⟨_, words, complete⟩ := message
  obtain ⟨_, words', complete'⟩ := other
  obtain rfl : _ = device.header := header
  obtain rfl : _ = device.header := header'
  have same : words = words' := by
    rw [← List.take_length (l := words), ← List.take_length (l := words'), complete, complete']
    exact regs.symm.trans regs'
  subst same
  rfl

end RenogyX10.TtyClient
