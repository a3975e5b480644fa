import RenogyX10.Heyu.Types

set_option autoImplicit false

namespace RenogyX10.Heyu

open Bytes Checked Csck Parse Proc

/-- What the system answers to a charger command. -/
structure ChildIo where
  result : ChildResult
  logln : LogSite → Bool

/-- The command and its result, as an observer sees them. -/
def Client.child (command : Command) (result : ChildResult) (h : Client) : Client :=
  h.emit (.child h.config.chargerExe command h.config.chargerHU result)

/-- Run the charger program. Its exit code is read for the log only, and there is
none to read when it was killed. -/
def runCharger (command : Command) (site : LogSite) (io : ChildIo) : Act Unit := do
  Proc.modify (Client.child command io.result)
  match io.result with
  | .spawnFailed => Proc.fail .spawnFailed
  | .killed => Proc.abort
  | .exited _ => Proc.guard (io.logln site) .logFailed

def chargerOn (io : ChildIo) : Act Unit := runCharger .on .on io

def chargerOff (io : ChildIo) : Act Unit := runCharger .off .off io

/-- What the system answers while a message is processed. -/
structure MsgIo where
  /-- the copy of the payload could be allocated -/
  created : Bool
  now : Int
  child : ChildIo

/-- `info.state` and `info.charger_on_time` when charging starts. -/
def startCharging (now : Int) (h : Client) : Client :=
  { h with state := .charging, chargerOnTime := now }

def setOffTime (time : Int) (h : Client) : Client := { h with chargerOffTime := time }

def processVolts (io : MsgIo) (volts : UInt16) : Act Unit := do
  let h ← Proc.read id
  Proc.when (h.state = .lookingForLow ∧ h.config.belowLowVoltageOn volts = true) do
    Proc.guard (io.child.logln .turningOn) .logFailed
    Proc.modify (startCharging io.now)
    let offTime ← Proc.orAbort (addI64 io.now h.config.millisOn)
    Proc.modify (setOffTime offTime)
    chargerOn io.child

def inU16 (lib : ParseLib) (s : ParseT) : Act (UInt16 × ParseT) := Proc.orAbort (lib.inU16Le s)

def processRegisters (lib : ParseLib) (io : MsgIo) (s : ParseT) : Act Unit := do
  Proc.guard (lib.checkRem s 4) .endOfBuffer
  let s ← Proc.orAbort (lib.inU8Skip s 2)
  let volts ← inU16 lib s
  processVolts io volts.1

def processMsg (lib : ParseLib) (io : MsgIo) (s : ParseT) : Act Unit := do
  Proc.modify (Client.emit (.msg s.rem))
  Proc.guard (lib.checkRem s 8) .endOfBuffer
  let type1 ← inU16 lib s
  let idWord ← inU16 lib type1.2
  let address1 ← inU16 lib idWord.2
  let count ← inU16 lib address1.2
  Proc.when (type1.1 = 0 ∧ idWord.1 = 9 ∧ address1.1 = 256 ∧ count.1 = 10)
    (processRegisters lib io count.2)

inductive Report where
  | short
  | other
  | volts (tenths : UInt16)
deriving DecidableEq

/-- The registers of the battery message; the second one is the voltage. -/
def registersOf : List UInt8 → Report
  | _ :: _ :: low :: high :: _ => .volts (readLe16 low high)
  | _ => .short

theorem registersOf_short {bytes : List UInt8} (short : bytes.length < 4) :
    registersOf bytes = .short := by
  unfold registersOf
  split
  · simp only [List.length_cons] at short
    omega
  · rfl

/-- The battery message: type 0, device 9, address 256, ten registers. -/
def reportOf : List UInt8 → Report
  | t0 :: t1 :: i0 :: i1 :: a0 :: a1 :: c0 :: c1 :: regs =>
      if readLe16 t0 t1 = 0 ∧ readLe16 i0 i1 = 9 ∧ readLe16 a0 a1 = 256 ∧ readLe16 c0 c1 = 10 then
        registersOf regs
      else .other
  | _ => .short

def processReport (io : MsgIo) : Report → Act Unit
  | .short => Proc.fail .endOfBuffer
  | .other => pure ()
  | .volts tenths => processVolts io tenths

theorem inU16_run (lib : ParseLib) {s : ParseT} {low high : UInt8} {rest : List UInt8}
    (left : s.rem = low :: high :: rest) :
    ∃ next, inU16 lib s = pure (readLe16 low high, next) ∧ next.rem = rest := by
  refine ⟨{ s with offset := s.offset + 2 }, ?_, ?_⟩
  · rw [inU16, lib.inU16Le_cons s low high rest left, orAbort_some]
  · exact ParseLib.rem_of_offset s 2 (show s.rem = [low, high] ++ rest from left) rfl

theorem processRegisters_run (lib : ParseLib) (io : MsgIo) (s : ParseT) :
    processRegisters lib io s = processReport io (registersOf s.rem) := by
  by_cases enough : 4 ≤ s.rem.length
  · have long := (lib.checkRem_iff s 4).mpr enough
    have skipped := lib.inU8Skip_inside s 2 (by omega)
    obtain ⟨first, second, low, high, rest, left⟩ := exists_four enough
    obtain ⟨next, volts, _⟩ := inU16_run lib
      (ParseLib.rem_of_offset s 2 (show s.rem = [first, second] ++ _ from left) rfl)
    unfold processRegisters
    rw [long, skipped, left]
    simp only [Proc.guard_true, orAbort_some]
    show (inU16 lib _ >>= fun volts => processVolts io volts.1) = _
    rw [volts]
    rfl
  · have short : s.rem.length < 4 := by omega
    unfold processRegisters
    rw [lib.checkRem_short short, registersOf_short short]
    rfl

/-- A message is never read past its end: it is too short, of no interest, or a
voltage. -/
theorem processMsg_run (lib : ParseLib) (io : MsgIo) (s : ParseT) (h : Client) :
    processMsg lib io s h = processReport io (reportOf s.rem) (h.emit (.msg s.rem)) := by
  match left : s.rem with
  | [] | [_] | [_, _] | [_, _, _] | [_, _, _, _] | [_, _, _, _, _] | [_, _, _, _, _, _]
  | [_, _, _, _, _, _, _] =>
      have short : s.rem.length < 8 := by simp [left]
      unfold processMsg
      rw [lib.checkRem_short short, left]
      rfl
  | t0 :: t1 :: i0 :: i1 :: a0 :: a1 :: c0 :: c1 :: regs =>
      have long : lib.checkRem s 8 = true := by simp [lib.checkRem_iff, left]
      obtain ⟨afterType, type1, rem1⟩ := inU16_run lib left
      obtain ⟨afterId, idWord, rem2⟩ := inU16_run lib rem1
      obtain ⟨afterAddress, address1, rem3⟩ := inU16_run lib rem2
      obtain ⟨afterCount, count, rem4⟩ := inU16_run lib rem3
      have registers := processRegisters_run lib io afterCount
      rw [rem4] at registers
      unfold processMsg reportOf
      rw [long, left]
      simp only [modify_bind, Proc.guard_true, pure_bind_run, type1, idWord, address1, count,
        registers]
      by_cases battery : readLe16 t0 t1 = 0 ∧ readLe16 i0 i1 = 9 ∧ readLe16 a0 a1 = 256 ∧
          readLe16 c0 c1 = 10
      · rw [when_true _ battery, if_pos battery]
      · rw [when_false _ battery, if_neg battery]
        rfl

section Rules

variable {good bad fallen : Client → Prop} {h : Client}

theorem runCharger_meets {command : Command} {site : LogSite} {io : ChildIo}
    (ran : ∀ code, io.result = .exited code → good (h.child command io.result))
    (failed : io.result ≠ .killed → bad (h.child command io.result))
    (killed : io.result = .killed → fallen (h.child command io.result)) :
    (runCharger command site io h).Meets good bad fallen := by
  unfold runCharger
  rw [modify_bind]
  cases result : io.result with
  | spawnFailed =>
      rw [result] at failed
      exact failed (by decide)
  | exited code =>
      rw [result] at ran failed
      exact meets_guard _ _ (ran code rfl) (failed (by simp))
  | killed =>
      rw [result] at killed
      exact killed rfl

theorem processVolts_meets {io : MsgIo} {volts : UInt16} (same : good h)
    (unlogged : bad h) (overflow : h.state = .lookingForLow → fallen (startCharging io.now h))
    (on : h.state = .lookingForLow → h.config.belowLowVoltageOn volts = true →
      (chargerOn io.child (setOffTime (io.now + h.config.millisOn)
        (startCharging io.now h))).Meets good bad fallen) :
    (processVolts io volts h).Meets good bad fallen := by
  unfold processVolts
  simp only [read_bind, id_eq]
  apply meets_when
  · intro low
    apply meets_guard_bind _ _ unlogged
    rw [modify_bind]
    by_cases fits : FitsI64 (io.now + h.config.millisOn)
    · rw [addI64_of_fits fits]
      exact on low.1 low.2
    · rw [addI64_of_not_fits fits]
      exact overflow low.1
  · exact fun _ => same

theorem processMsg_meets (lib : ParseLib) {io : MsgIo} {s : ParseT}
    (same : good (h.emit (.msg s.rem))) (failed : bad (h.emit (.msg s.rem)))
    (volts : ∀ tenths, reportOf s.rem = .volts tenths →
      (processVolts io tenths (h.emit (.msg s.rem))).Meets good bad fallen) :
    (processMsg lib io s h).Meets good bad fallen := by
  rw [processMsg_run]
  cases report : reportOf s.rem with
  | short => exact failed
  | other => exact same
  | volts tenths => exact volts tenths report

end Rules

end RenogyX10.Heyu
