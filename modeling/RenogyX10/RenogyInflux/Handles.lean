import RenogyX10.RenogyInflux.Main

set_option autoImplicit false

namespace RenogyX10.RenogyInflux

/-- The handles that are open after a trace. -/
def openHandles : List Event → Nat
  | [] => 0
  | .modbusConnect :: older => openHandles older + 1
  | .modbusClose :: older => openHandles older - 1
  | _ :: older => openHandles older

/-- A try to connect, after one that got to use its handle, does not succeed. -/
def NoSecondConnect (s : Process) : Input → Prop
  | .modbus io =>
      s.ctl = .modbus → .modbusConnect ∈ s.trace → ¬ (io.context = true ∧ io.connected = true)
  | _ => True

instance (s : Process) : ∀ input, Decidable (NoSecondConnect s input)
  | .modbus _ => inferInstanceAs (Decidable (_ → _ → ¬ (_ ∧ _)))
  | .connect _ => .isTrue trivial
  | .round _ => .isTrue trivial

/-- Nothing that happens between two turns of `main_modbus` opens or releases a
handle. -/
def SameHandles (s t : Process) : Prop :=
  openHandles t.trace = openHandles s.trace ∧
    (.modbusConnect ∈ t.trace ↔ .modbusConnect ∈ s.trace)

theorem SameHandles.refl (s : Process) : SameHandles s s := ⟨rfl, Iff.rfl⟩

theorem sameHandles_endModbus (rv : Error) (s : Process) : SameHandles s (endModbus rv s) :=
  ⟨rfl, Iff.rfl⟩

theorem sameHandles_leaveConnectLoop (rv : Error) (s : Process) :
    SameHandles s (leaveConnectLoop rv s) :=
  ⟨rfl, by simp [leaveConnectLoop, endModbus, Process.emit]⟩

theorem sameHandles_endConnect (rv : Error) (s : Process) : SameHandles s (endConnect rv s) := by
  unfold endConnect
  split
  · exact sameHandles_leaveConnectLoop rv s
  · exact ⟨rfl, Iff.rfl⟩

theorem sameHandles_close (rv : Error) (s : Process) :
    SameHandles s (endConnect rv (s.emit .close)) := by
  have left := sameHandles_endConnect rv (s.emit .close)
  refine ⟨left.1, left.2.trans ?_⟩
  simp [Process.emit]

theorem sameHandles_leaveModbusLoop (rv : Error) (s : Process) :
    SameHandles s (leaveModbusLoop rv s) := sameHandles_close _ s

theorem sameHandles_mainConnectLoop (io : ConnectIo) (s : Process) :
    SameHandles s (mainConnectLoop io s) := by
  unfold mainConnectLoop
  split
  · split
    · exact ⟨rfl, by simp [Process.emit]⟩
    · exact sameHandles_close .none s
  · exact sameHandles_endConnect .fatal s

theorem sameHandles_mainModbusLoop (io : RoundIo) (s : Process) :
    SameHandles s (mainModbusLoop io s) := by
  unfold mainModbusLoop
  split
  · split
    · exact sameHandles_leaveModbusLoop .modbus s
    · split
      · exact sameHandles_leaveModbusLoop io.sendRecv s
      · exact SameHandles.refl s
  · exact sameHandles_leaveModbusLoop .fatal s

theorem sameHandles_mainModbus {io : ModbusIo} (s : Process)
    (fails : ¬ (io.context = true ∧ io.connected = true)) : SameHandles s (mainModbus io s) := by
  unfold mainModbus
  split
  · split
    · exact absurd ⟨‹_›, ‹_›⟩ fails
    · exact ⟨rfl, by simp [endModbus, Process.emit]⟩
  · exact sameHandles_endModbus .fatal s

/-- The one kind of step that opens a handle. -/
def Opens (s : Process) : Input → Prop
  | .modbus io => s.ctl = .modbus ∧ io.context = true ∧ io.connected = true
  | _ => False

theorem step_opens {s : Process} {input : Input} (opens : Opens s input) :
    s.step input = { s.emit .modbusConnect with ctl := .connect } := by
  obtain ⟨ctl, trace⟩ := s
  cases input with
  | modbus io =>
      obtain ⟨inLoop, context, connected⟩ := opens
      obtain rfl : ctl = .modbus := inLoop
      simp [Process.step, mainModbus, context, connected]
  | connect io => exact absurd opens id
  | round io => exact absurd opens id

theorem step_sameHandles {s : Process} {input : Input} (stays : ¬ Opens s input) :
    SameHandles s (s.step input) := by
  obtain ⟨ctl, trace⟩ := s
  cases ctl <;> cases input <;> try exact SameHandles.refl _
  case modbus.modbus io => exact sameHandles_mainModbus _ fun connects => stays ⟨rfl, connects⟩
  case connect.connect io => exact sameHandles_mainConnectLoop io _
  case round.round io => exact sameHandles_mainModbusLoop io _

/-- A handle is open from the first one on: nothing releases it. -/
def NeverReleased (s : Process) : Prop := .modbusConnect ∈ s.trace ↔ 0 < openHandles s.trace

theorem step_neverReleased (s : Process) (input : Input) (held : NeverReleased s) :
    NeverReleased (s.step input) := by
  unfold NeverReleased at held ⊢
  by_cases opens : Opens s input
  · simp [step_opens opens, Process.emit, openHandles]
  · obtain ⟨open_same, member_same⟩ := step_sameHandles opens
    rw [open_same, member_same]
    exact held

/-- At most one handle stays at most one exactly in the steps allowed. -/
theorem step_handles_iff (s : Process) (input : Input) (held : NeverReleased s)
    (one : openHandles s.trace ≤ 1) :
    openHandles (s.step input).trace ≤ 1 ↔ NoSecondConnect s input := by
  unfold NeverReleased at held
  by_cases opens : Opens s input
  · have more : openHandles (s.step input).trace = openHandles s.trace + 1 := by
      simp [step_opens opens, Process.emit, openHandles]
    have allowed : NoSecondConnect s input ↔ .modbusConnect ∉ s.trace := by
      cases input with
      | modbus io => simp [NoSecondConnect, opens.1, opens.2]
      | connect io => exact absurd opens id
      | round io => exact absurd opens id
    rw [more, allowed, held]
    omega
  · have allowed : NoSecondConnect s input := by
      cases input with
      | modbus io => exact fun inLoop _ connects => opens ⟨inLoop, connects⟩
      | connect io => trivial
      | round io => trivial
    rw [(step_sameHandles opens).1]
    exact iff_of_true one allowed

/-- At every point of a run at most one handle is open, exactly when no retry
succeeds in connecting again. -/
theorem one_handle_iff (inputs : List Input) :
    (∀ front back, inputs = front ++ back →
      openHandles (Process.run {} front).trace ≤ 1) ↔
    Runs.Admits Process.step NoSecondConnect {} inputs := by
  apply Runs.always_iff_admits step_neverReleased step_handles_iff
  · simp [NeverReleased, openHandles]
  · simp [openHandles]

/-- Two tries, the second after a register read that failed. -/
def modbusRetry : List Input :=
  [.modbus { context := true, connected := true },
    .connect { socket := true, resolved := true, connected := true },
    .round { mstime := true, register := none, sendRecv := .none },
    .modbus { context := true, connected := true }]

theorem two_handles_modbusRetry :
    openHandles (Process.run {} modbusRetry).trace = 2 ∧
      ¬ ∀ front back, modbusRetry = front ++ back →
        openHandles (Process.run {} front).trace ≤ 1 := by
  have two : openHandles (Process.run {} modbusRetry).trace = 2 := by decide
  refine ⟨two, fun always => ?_⟩
  have one := always modbusRetry [] (List.append_nil _).symm
  omega

end RenogyX10.RenogyInflux
