import RenogyX10.RenogyInflux.Passes

set_option autoImplicit false

namespace RenogyX10.RenogyInflux

/-- Whenever `main_send_recv_loop` returned `ERROR_SHUTDOWN`, the termination pipe
could be read. -/
def ShutdownOnRequest : Link → Prop := EveryReturn .shutdown fun _ term => term = true

/-- Every call of recv and send was for a socket that was reported ready. -/
def ReportedOnly (s : Link) : Prop :=
  (∀ reported, .recv reported ∈ s.trace → reported = true) ∧
    ∀ bytes reported, .send bytes reported ∈ s.trace → reported = true

/-- No select fails while the termination pipe cannot be read. -/
def SelectWorks (s : Link) : LinkInput → Prop
  | .start _ => True
  | .pass io => ∀ endSendTime, s.ctl = .sending endSendTime → InWindow endSendTime io →
      io.select ≠ .failed false

theorem shutdownOnRequest_step_iff {s : Link} (input : LinkInput)
    (onRequest : ShutdownOnRequest s) :
    ShutdownOnRequest (s.step input) ↔ SelectWorks s input := by
  constructor
  · intro after
    cases input with
    | start io => trivial
    | pass io =>
        intro endSendTime sending inWindow failed
        rw [step_failed sending inWindow failed] at after
        have term : false = true := after s.unsent false List.mem_cons_self
        cases term
  · intro works
    apply EveryReturn.step onRequest ⟨nofun, nofun⟩
    · exact fun _ _ _ _ _ _ _ => nofun
    · rintro io endSendTime rfl sending inWindow failed _
      rcases failed with failed | term
      · cases pipe : io.select.term with
        | true => rfl
        | false =>
            rw [pipe] at failed
            exact absurd failed (works endSendTime sending inWindow)
      · exact term

namespace ReportedOnly

variable {s : Link}

theorem emit (reported : ReportedOnly s) {event : SckEvent}
    (recv : ∀ ready, event = .recv ready → ready = true)
    (send : ∀ bytes ready, event = .send bytes ready → ready = true) :
    ReportedOnly (s.emit event) := by
  constructor
  · intro ready isEvent
    rcases List.mem_cons.mp isEvent with same | older
    · exact recv ready same.symm
    · exact reported.1 ready older
  · intro bytes ready isEvent
    rcases List.mem_cons.mp isEvent with same | older
    · exact send bytes ready same.symm
    · exact reported.2 bytes ready older

theorem endSendRecv (reported : ReportedOnly s) (rv : Error) (term : Bool) :
    ReportedOnly (s.endSendRecv rv term) := reported.emit nofun nofun

theorem step (reported : ReportedOnly s) (input : LinkInput) : ReportedOnly (s.step input) := by
  apply step_cases input reported
  · intro io _ round
    exact start_rule round (fun _ => reported) reported fun _ _ => reported
  · intro io endSendTime _ sending
    apply step_rule sending reported
    · intro ready t kept
      apply kept.emit
      · intro other same
        cases same
        exact ready
      · exact nofun
    · intro ready t kept _
      apply kept.emit
      · exact nofun
      · intro bytes other same
        cases same
        exact ready
    · exact fun t kept => kept
    · exact fun t kept => kept
    · exact fun t rv term kept _ => kept.endSendRecv rv term
    · exact fun _ _ _ => reported.endSendRecv .none false
    · exact fun _ _ => reported.endSendRecv .shutdown _

end ReportedOnly

/-- A shutdown is reported on request only exactly if no select fails without one; a
failed select is never followed by a call for the socket. -/
theorem shutdown_onRequest_iff (buffer : List UInt8) (endSendTime : Int)
    (inputs : List LinkInput) :
    ((∀ front back, inputs = front ++ back →
        ShutdownOnRequest (Runs.exec Link.step (calling buffer endSendTime) front)) ↔
      Runs.Admits Link.step SelectWorks (calling buffer endSendTime) inputs) ∧
    ReportedOnly (Runs.exec Link.step (calling buffer endSendTime) inputs) := by
  constructor
  · exact Runs.always_iff_admits (fun _ _ (held : True) => held)
      (fun _ input _ good => shutdownOnRequest_step_iff input good) trivial nofun
  · have start : ReportedOnly (calling buffer endSendTime) := ⟨nofun, nofun⟩
    exact Runs.exec_keeps_always (fun _ input kept => kept.step input) inputs start

/-- A signal interrupts select, and nobody has asked for a shutdown. -/
theorem shutdown_without_request :
    .returned .shutdown 0 false ∈ (Runs.exec Link.step (calling [] 60000)
      [.pass ⟨some 0, .failed false, [], 0⟩]).trace := by
  decide

end RenogyX10.RenogyInflux
