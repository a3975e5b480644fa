import RenogyX10.RenogyInflux.SendRecv

set_option autoImplicit false

namespace RenogyX10.RenogyInflux

open Checked Proc

variable {endSendTime : Int} {io : PassIo} {s t : Link}

/-- The time that is left can be waited for. -/
def InWindow (endSendTime : Int) (io : PassIo) : Prop :=
  ∃ now, io.mstime = some now ∧ 0 ≤ endSendTime - now ∧ FitsI32 ((endSendTime - now) * 1000)

theorem checkDeadline_inWindow (inWindow : InWindow endSendTime io) (s : Link) :
    checkDeadline endSendTime io s = .ok () s := by
  obtain ⟨now, clock, left, product⟩ := inWindow
  have fits : FitsI32 (endSendTime - now) := by
    unfold FitsI32 at product ⊢
    omega
  unfold checkDeadline
  simp only [clock, orFail_some, pure_then, subI32, intCastI32_of_fits fits, orAbort_some,
    when_false _ (Int.not_lt.mpr left), mulI32, intCastI32_of_fits product]
  rfl

theorem checkDeadline_outside (outside : ¬ InWindow endSendTime io) (s : Link) :
    checkDeadline endSendTime io s = .error .fatal s ∨
      checkDeadline endSendTime io s = .panic s := by
  unfold checkDeadline
  cases clock : io.mstime with
  | none => exact .inl rfl
  | some now =>
      simp only [orFail_some, pure_then, subI32]
      by_cases fits : FitsI32 (endSendTime - now)
      · simp only [intCastI32_of_fits fits, orAbort_some, pure_then]
        by_cases tooLate : endSendTime - now < 0
        · left
          rw [when_true _ tooLate]
          rfl
        · have product : ¬ FitsI32 ((endSendTime - now) * 1000) := by
            intro product
            exact outside ⟨now, clock, Int.not_lt.mp tooLate, product⟩
          right
          simp only [when_false _ tooLate, pure_then, mulI32, intCastI32_of_not_fits product]
          rfl
      · right
        rw [intCastI32_of_not_fits fits]
        rfl

/-- What is done with a socket that was reported. -/
def transfer (io : PassIo) (readable writable : Bool) (unsent : Bool) : Proc Error Link Unit := do
  when readable (recvReply io)
  when (unsent && writable) (sendRequest io)

theorem handleSelect_timeout (timeout : io.select = .timeout) (s : Link) :
    handleSelect io s = .error (if s.Accepts then .none else .fatal) s := by
  unfold handleSelect
  simp only [read_bind, id_eq]
  rw [when_true _ timeout]
  rfl

/-- A failed select leaves the termination pipe in its set. -/
theorem handleSelect_failed {term : Bool} (failed : io.select = .failed term) (s : Link) :
    handleSelect io s = .error .shutdown s := by
  obtain ⟨mstime, select, recv, send⟩ := io
  cases failed
  rfl

theorem handleSelect_ready {term readable writable : Bool}
    (ready : io.select = .ready term readable writable) (s : Link) :
    handleSelect io s = if term then .error .shutdown s
      else transfer io readable writable (s.bufferOutSent < s.bufferOut.length) s := by
  obtain ⟨mstime, select, recv, send⟩ := io
  cases ready
  cases term <;> rfl

theorem step_pass (sending : s.ctl = .sending endSendTime) :
    s.step (.pass io) =
      conclude (Link.endSendRecv · io.select.term) (sendRecvPass endSendTime io s) := by
  unfold Link.step
  rw [sending]

theorem step_outside (sending : s.ctl = .sending endSendTime)
    (outside : ¬ InWindow endSendTime io) :
    s.step (.pass io) = s.endSendRecv .fatal io.select.term ∨
      s.step (.pass io) = { s with ctl := .undefined } := by
  rw [step_pass sending]
  unfold sendRecvPass
  rcases checkDeadline_outside outside s with late | overflow
  · left
    rw [bind_of_error late]
    rfl
  · right
    rw [bind_of_panic overflow]
    rfl

theorem step_inWindow (sending : s.ctl = .sending endSendTime)
    (inWindow : InWindow endSendTime io) :
    s.step (.pass io) = conclude (Link.endSendRecv · io.select.term) (handleSelect io s) := by
  rw [step_pass sending]
  unfold sendRecvPass
  rw [bind_of_ok (checkDeadline_inWindow inWindow s)]

theorem step_timeout (sending : s.ctl = .sending endSendTime)
    (inWindow : InWindow endSendTime io) (timeout : io.select = .timeout) :
    s.step (.pass io) = s.endSendRecv (if s.Accepts then .none else .fatal) false := by
  rw [step_inWindow sending inWindow, handleSelect_timeout timeout, timeout]
  rfl

theorem step_failed {term : Bool} (sending : s.ctl = .sending endSendTime)
    (inWindow : InWindow endSendTime io) (failed : io.select = .failed term) :
    s.step (.pass io) = s.endSendRecv .shutdown term := by
  rw [step_inWindow sending inWindow, handleSelect_failed failed, failed]
  rfl

theorem step_term {readable writable : Bool} (sending : s.ctl = .sending endSendTime)
    (inWindow : InWindow endSendTime io) (ready : io.select = .ready true readable writable) :
    s.step (.pass io) = s.endSendRecv .shutdown true := by
  rw [step_inWindow sending inWindow, handleSelect_ready ready, if_pos rfl, ready]
  rfl

theorem step_ready {readable writable : Bool} (sending : s.ctl = .sending endSendTime)
    (inWindow : InWindow endSendTime io) (ready : io.select = .ready false readable writable) :
    s.step (.pass io) = conclude (Link.endSendRecv · false)
      (transfer io readable writable (s.bufferOutSent < s.bufferOut.length) s) := by
  rw [step_inWindow sending inWindow, handleSelect_ready ready, if_neg Bool.false_ne_true, ready]
  rfl

/-- The bytes that recv stores. -/
def Link.received (io : PassIo) (s : Link) : Link :=
  s.receive (io.recv.take (bm1 - s.bufferIn.length)) io.select.readable

/-- The bytes that send takes. -/
def Link.sentOn (io : PassIo) (s : Link) : Link :=
  s.sendPiece (min io.send s.unsent) io.select.writable

theorem recvReply_full (io : PassIo) (full : bm1 ≤ s.bufferIn.length) :
    recvReply io s = .error .fatal s := by
  unfold recvReply
  simp only [read_bind, id_eq]
  rw [when_true _ full]
  rfl

theorem recvReply_room (io : PassIo) (room : s.bufferIn.length < bm1) :
    recvReply io s = if io.recv = [] then .error .connect (s.received io)
      else .ok () (s.received io) := by
  have left : bm1 - s.bufferIn.length ≠ 0 := by omega
  unfold recvReply
  simp only [read_bind, id_eq]
  rw [when_false _ (Nat.not_le.mpr room)]
  simp only [pure_bind_run, modify_bind, List.take_eq_nil_iff, left, false_or]
  unfold Proc.when
  split <;> rfl

theorem sendRequest_done (io : PassIo) (done : s.bufferOut.length ≤ s.bufferOutSent) :
    sendRequest io s = .ok () s := by
  unfold sendRequest
  simp only [read_bind, id_eq]
  rw [when_false _ (Nat.not_lt.mpr done)]
  rfl

theorem sendRequest_more (io : PassIo) (more : s.bufferOutSent < s.bufferOut.length) :
    sendRequest io s = if io.send = 0 then .error .connect (s.sentOn io)
      else .ok () (s.sentOn io) := by
  have left : s.unsent ≠ 0 := by
    unfold Link.unsent
    omega
  have none : min io.send s.unsent = 0 ↔ io.send = 0 := by omega
  unfold sendRequest
  simp only [read_bind, id_eq]
  rw [when_true _ more]
  simp only [modify_bind, none]
  unfold Proc.when
  split <;> rfl

theorem keeps_recvReply {inv : Link → Prop} (kept : ∀ t, inv t → inv (t.received io)) :
    Keeps inv (recvReply io) := by
  intro s holds
  by_cases full : bm1 ≤ s.bufferIn.length
  · rw [recvReply_full io full]
    exact holds
  · rw [recvReply_room io (Nat.not_le.mp full)]
    split <;> exact kept s holds

theorem keeps_sendRequest {inv : Link → Prop}
    (kept : ∀ t, inv t → t.bufferOutSent < t.bufferOut.length → inv (t.sentOn io)) :
    Keeps inv (sendRequest io) := by
  intro s holds
  by_cases more : s.bufferOutSent < s.bufferOut.length
  · rw [sendRequest_more io more]
    split <;> exact kept s holds more
  · rw [sendRequest_done io (Nat.not_lt.mp more)]
    exact holds

theorem keeps_transfer {inv : Link → Prop} {readable writable unsent : Bool}
    (received : readable = true → ∀ t, inv t → inv (t.received io))
    (sent : writable = true → ∀ t, inv t → t.bufferOutSent < t.bufferOut.length →
      inv (t.sentOn io)) :
    Keeps inv (transfer io readable writable unsent) := by
  unfold transfer
  refine .bind (.when fun isSet => keeps_recvReply (received isSet)) fun _ => .when fun both => ?_
  exact keeps_sendRequest (sent (Bool.and_eq_true_iff.mp both).2)

theorem transfer_error {readable writable unsent : Bool} {rv : Error}
    (failed : transfer io readable writable unsent s = .error rv t) :
    rv = .fatal ∨ rv = .connect := by
  unfold transfer at failed
  rcases of_bind_error failed with first | ⟨_, u, _, second⟩
  · have reading := of_when_error first
    by_cases full : bm1 ≤ s.bufferIn.length
    · rw [recvReply_full io full] at reading
      cases reading
      exact .inl rfl
    · rw [recvReply_room io (Nat.not_le.mp full)] at reading
      split at reading
      · cases reading
        exact .inr rfl
      · cases reading
  · have writing := of_when_error second
    by_cases more : u.bufferOutSent < u.bufferOut.length
    · rw [sendRequest_more io more] at writing
      split at writing
      · cases writing
        exact .inr rfl
      · cases writing
    · rw [sendRequest_done io (Nat.not_lt.mp more)] at writing
      cases writing

/-- A pass, from what it does to a state of the call: `running` is kept by every
piece, and `inv` is what it leaves behind. -/
theorem step_rule {inv running : Link → Prop} (sending : s.ctl = .sending endSendTime)
    (holds : running s)
    (received : io.select.readable = true → ∀ t, running t → running (t.received io))
    (sent : io.select.writable = true → ∀ t, running t → t.bufferOutSent < t.bufferOut.length →
      running (t.sentOn io))
    (stays : ∀ t, running t → inv t)
    (undefined : ∀ t, running t → inv { t with ctl := .undefined })
    (failed : ∀ t rv term, running t → rv = .fatal ∨ rv = .connect → inv (t.endSendRecv rv term))
    (accepted : InWindow endSendTime io → io.select = .timeout → s.Accepts →
      inv (s.endSendRecv .none false))
    (shutdown : InWindow endSendTime io → io.select = .failed io.select.term ∨
      io.select.term = true → inv (s.endSendRecv .shutdown io.select.term)) :
    inv (s.step (.pass io)) := by
  by_cases inWindow : InWindow endSendTime io
  · cases select : io.select with
    | failed term =>
        rw [step_failed sending inWindow select]
        rw [select] at shutdown
        exact shutdown inWindow (.inl rfl)
    | timeout =>
        rw [step_timeout sending inWindow select]
        split
        case isTrue accepts => exact accepted inWindow select accepts
        case isFalse => exact failed s .fatal false holds (.inl rfl)
    | ready term readable writable =>
        cases term with
        | true =>
            rw [step_term sending inWindow select]
            rw [select] at shutdown
            exact shutdown inWindow (.inr rfl)
        | false =>
            rw [step_ready sending inWindow select]
            rw [select] at received sent
            have kept : running (transfer io readable writable
                (s.bufferOutSent < s.bufferOut.length) s).state :=
              keeps_transfer received sent s holds
            cases ended : transfer io readable writable
                (s.bufferOutSent < s.bufferOut.length) s with
            | ok _ t =>
                rw [ended] at kept
                exact stays t kept
            | error rv t =>
                rw [ended] at kept
                exact failed t rv false kept (transfer_error ended)
            | panic t =>
                rw [ended] at kept
                exact undefined t kept
  · rcases step_outside sending inWindow with late | overflow
    · rw [late]
      exact failed s .fatal _ holds (.inl rfl)
    · rw [overflow]
      exact undefined s holds

theorem start_rule {inv : Link → Prop} {io : StartIo} (round : s.ctl = .round)
    (ended : ∀ rv, inv { s with ctl := .ended rv }) (undefined : inv { s with ctl := .undefined })
    (started : ∀ value endSendTime, inv (s.startSendRecv (bufferOutOf value) endSendTime)) :
    inv (s.step (.start io)) := by
  unfold Link.step
  rw [round]
  unfold startRound
  dsimp only
  cases io.mstime with
  | none => exact ended .fatal
  | some now =>
      cases io.register with
      | none => exact ended .modbus
      | some value =>
          simp only [orFail_some, pure_then]
          cases endSendTimeOf now with
          | none => exact undefined
          | some endSendTime => exact started value endSendTime

theorem step_cases {inv : Link → Prop} (input : LinkInput) (holds : inv s)
    (start : ∀ io, input = .start io → s.ctl = .round → inv (s.step (.start io)))
    (pass : ∀ io endSendTime, input = .pass io → s.ctl = .sending endSendTime →
      inv (s.step (.pass io))) :
    inv (s.step input) := by
  cases input with
  | start io =>
      cases ctl : s.ctl with
      | round => exact start io rfl ctl
      | _ =>
          unfold Link.step
          rw [ctl]
          exact holds
  | pass io =>
      cases ctl : s.ctl with
      | sending endSendTime => exact pass io endSendTime rfl ctl
      | _ =>
          unfold Link.step
          rw [ctl]
          exact holds

/-- `main_send_recv_loop` has returned, or an overflow has ended it. -/
def Link.Over (s : Link) : Prop := ∀ endSendTime, s.ctl ≠ .sending endSendTime

theorem over_of_ended {rv : Error} (ended : s.ctl = .ended rv) : s.Over := by
  intro later sending
  rw [ended] at sending
  cases sending

theorem over_endSendRecv (rv : Error) (term : Bool) (s : Link) : (s.endSendRecv rv term).Over := by
  intro later sending
  unfold Link.endSendRecv at sending
  dsimp only at sending
  split at sending <;> cases sending

theorem step_over (isOver : s.Over) : s.step (.pass io) = s := by
  unfold Link.step
  cases ctl : s.ctl with
  | sending later => exact absurd ctl (isOver later)
  | _ => rfl

/-- A call that is over takes no more passes. -/
theorem exec_over (isOver : s.Over) (passes : List PassIo) :
    Runs.exec Link.step s (passes.map .pass) = s := by
  induction passes with
  | nil => rfl
  | cons io rest ih =>
      rw [List.map_cons, Runs.exec_cons, step_over isOver]
      exact ih

/-- What holds whenever `main_send_recv_loop` returned this code. -/
def EveryReturn (rv : Error) (good : Nat → Bool → Prop) (s : Link) : Prop :=
  ∀ unsent term, .returned rv unsent term ∈ s.trace → good unsent term

namespace EveryReturn

variable {rv : Error} {good : Nat → Bool → Prop}

theorem emit (every : EveryReturn rv good s) {event : SckEvent}
    (last : ∀ unsent term, event = .returned rv unsent term → good unsent term) :
    EveryReturn rv good (s.emit event) := by
  intro unsent term isEvent
  rcases List.mem_cons.mp isEvent with same | older
  · exact last unsent term same.symm
  · exact every unsent term older

theorem endSendRecv (every : EveryReturn rv good s) {code : Error} {term : Bool}
    (last : code = rv → good s.unsent term) :
    EveryReturn rv good (s.endSendRecv code term) := by
  apply every.emit
  intro unsent other same
  cases same
  exact last rfl

theorem step (every : EveryReturn rv good s) {input : LinkInput}
    (notFailure : rv ≠ .fatal ∧ rv ≠ .connect)
    (accepted : ∀ io endSendTime, input = .pass io → s.ctl = .sending endSendTime →
      InWindow endSendTime io → io.select = .timeout → s.Accepts → .none = rv →
      good s.unsent false)
    (shutdown : ∀ io endSendTime, input = .pass io → s.ctl = .sending endSendTime →
      InWindow endSendTime io → io.select = .failed io.select.term ∨ io.select.term = true →
      .shutdown = rv → good s.unsent io.select.term) :
    EveryReturn rv good (s.step input) := by
  apply step_cases input every
  · intro io _ round
    exact start_rule round (fun _ => every) every fun _ _ => every
  · intro io endSendTime isPass sending
    apply step_rule sending every
    · exact fun _ t kept => kept.emit nofun
    · exact fun _ t kept _ => kept.emit nofun
    · exact fun t kept => kept
    · exact fun t kept => kept
    · intro t code term kept isFailure
      apply kept.endSendRecv
      rintro rfl
      rcases isFailure with fatal | connect
      · exact absurd fatal notFailure.1
      · exact absurd connect notFailure.2
    · exact fun inWindow timeout accepts =>
        every.endSendRecv (accepted io endSendTime isPass sending inWindow timeout accepts)
    · exact fun inWindow ended =>
        every.endSendRecv (shutdown io endSendTime isPass sending inWindow ended)

end EveryReturn

end RenogyX10.RenogyInflux
