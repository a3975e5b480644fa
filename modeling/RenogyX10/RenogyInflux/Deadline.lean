import RenogyX10.RenogyInflux.Passes

set_option autoImplicit false

namespace RenogyX10.RenogyInflux

open Checked Proc Toml

/-- Nothing fails in this pass, and nobody asks for a shutdown: the clock is not behind
the start of the round, select waits or reports a descriptor it was asked for, and recv
and send succeed. -/
structure Smooth (endSendTime : Int) (s : Link) (io : PassIo) : Prop where
  clock : ∃ now, io.mstime = some now ∧ endSendTime - 60 * 1000 ≤ now
  select : ∀ term, io.select ≠ .failed term
  noTerm : io.select.term = false
  reports : io.select = .timeout ∨ io.select.readable = true ∨
    io.select.writable = true ∧ s.bufferOutSent < s.bufferOut.length
  recv : io.select.readable = true → io.recv ≠ []
  send : io.select.writable = true → io.send ≠ 0

def SmoothInput (s : Link) : LinkInput → Prop
  | .start _ => False
  | .pass io => ∀ endSendTime, s.ctl = .sending endSendTime → Smooth endSendTime s io

/-- The clock is read before the deadline, and there is room for what can be read. -/
structure InTime (endSendTime : Int) (s : Link) (io : PassIo) : Prop where
  clock : ∀ now, io.mstime = some now → now ≤ endSendTime
  room : io.select.readable = true → s.bufferIn.length < bm1

def InTimeInput (s : Link) : LinkInput → Prop
  | .start _ => True
  | .pass io => ∀ endSendTime, s.ctl = .sending endSendTime → InTime endSendTime s io

/-- The request is sent, and the reply has the status that is looked for. -/
def Delivered (s : Link) : Prop :=
  s.bufferOut.length ≤ s.bufferOutSent ∧ noContent <:+: cString s.bufferIn

instance (s : Link) : Decidable (Delivered s) := inferInstanceAs (Decidable (_ ∧ _))

/-- It has returned `ERROR_NONE`. -/
def Link.Succeeded (s : Link) : Prop := s.ctl = .round

/-- What can still be sent and received. -/
def Link.left (s : Link) : Nat :=
  (s.bufferOut.length - s.bufferOutSent) + (bm1 - s.bufferIn.length)

/-- The buffers after a transfer in which nothing fails. -/
def Link.movedIn (io : PassIo) (readable : Bool) (s : Link) : Link :=
  if readable then s.received io else s

def Link.movedOut (io : PassIo) (writable : Bool) (s : Link) : Link :=
  if s.bufferOutSent < s.bufferOut.length ∧ writable then s.sentOn io else s

variable {endSendTime : Int} {io : PassIo} {s : Link} {readable writable : Bool}

theorem movedIn_run (room : readable = true → s.bufferIn.length < bm1)
    (recv : readable = true → io.recv ≠ []) :
    Proc.when (readable = true) (recvReply io) s = .ok () (s.movedIn io readable) := by
  cases readable with
  | false => rfl
  | true =>
      rw [when_true _ rfl, recvReply_room io (room rfl), if_neg (recv rfl)]
      rfl

theorem movedOut_run (send : writable = true → io.send ≠ 0) :
    Proc.when ((decide (s.bufferOutSent < s.bufferOut.length) && writable) = true)
      (sendRequest io) s = .ok () (s.movedOut io writable) := by
  unfold Link.movedOut Proc.when
  simp only [Bool.and_eq_true, decide_eq_true_eq]
  by_cases both : s.bufferOutSent < s.bufferOut.length ∧ writable = true
  · rw [if_pos both, if_pos both, sendRequest_more io both.1, if_neg (send both.2)]
  · rw [if_neg both, if_neg both]
    rfl

theorem movedIn_same (io : PassIo) (readable : Bool) (s : Link) :
    (s.movedIn io readable).bufferOut = s.bufferOut ∧
      (s.movedIn io readable).bufferOutSent = s.bufferOutSent ∧
      (s.movedIn io readable).ctl = s.ctl := by
  cases readable <;> exact ⟨rfl, rfl, rfl⟩

theorem transfer_moved (room : readable = true → s.bufferIn.length < bm1)
    (recv : readable = true → io.recv ≠ []) (send : writable = true → io.send ≠ 0) :
    transfer io readable writable (s.bufferOutSent < s.bufferOut.length) s =
      .ok () ((s.movedIn io readable).movedOut io writable) := by
  obtain ⟨out, sent, _⟩ := movedIn_same io readable s
  unfold transfer
  rw [bind_of_ok (movedIn_run room recv), ← out, ← sent]
  exact movedOut_run send

theorem moved_ctl (io : PassIo) (readable writable : Bool) (s : Link) :
    ((s.movedIn io readable).movedOut io writable).ctl = s.ctl := by
  unfold Link.movedOut
  split
  · exact (movedIn_same io readable s).2.2
  · exact (movedIn_same io readable s).2.2

theorem transfer_full {unsent : Bool} (isReadable : readable = true)
    (full : bm1 ≤ s.bufferIn.length) :
    transfer io readable writable unsent s = .error .fatal s := by
  unfold transfer
  rw [when_true _ isReadable, bind_of_error (recvReply_full io full)]

theorem left_movedIn (room : readable = true → s.bufferIn.length < bm1)
    (recv : readable = true → io.recv ≠ []) :
    (s.movedIn io readable).left + (if readable then 1 else 0) ≤ s.left := by
  cases readable with
  | false => exact Nat.le_refl _
  | true =>
      have some := room rfl
      have bytes : 0 < io.recv.length := List.length_pos_iff.mpr (recv rfl)
      have stored : (s.received io).bufferIn.length =
          s.bufferIn.length + min (bm1 - s.bufferIn.length) io.recv.length := by
        simp only [Link.received, Link.receive, List.length_append, List.length_take]
      show (s.bufferOut.length - s.bufferOutSent) + (bm1 - (s.received io).bufferIn.length) + 1 ≤
        s.left
      rw [stored]
      unfold Link.left
      omega

theorem left_movedOut (send : writable = true → io.send ≠ 0) :
    (s.movedOut io writable).left +
      (if s.bufferOutSent < s.bufferOut.length ∧ writable then 1 else 0) ≤ s.left := by
  unfold Link.movedOut
  by_cases both : s.bufferOutSent < s.bufferOut.length ∧ writable = true
  · have some := send both.2
    rw [if_pos both, if_pos both]
    show (s.bufferOut.length - (s.bufferOutSent + min io.send s.unsent)) +
      (bm1 - s.bufferIn.length) + 1 ≤ s.left
    unfold Link.left Link.unsent
    omega
  · rw [if_neg both, if_neg both]
    exact Nat.le_refl _

theorem left_moved (room : readable = true → s.bufferIn.length < bm1)
    (recv : readable = true → io.recv ≠ []) (send : writable = true → io.send ≠ 0)
    (reports : readable = true ∨ writable = true ∧ s.bufferOutSent < s.bufferOut.length) :
    ((s.movedIn io readable).movedOut io writable).left < s.left := by
  obtain ⟨out, sent, _⟩ := movedIn_same io readable s
  have first := left_movedIn room recv
  have second := left_movedOut (s := s.movedIn io readable) send
  rw [out, sent] at second
  rcases reports with isReadable | ⟨isWritable, more⟩
  · rw [if_pos isReadable] at first
    omega
  · rw [if_pos ⟨more, isWritable⟩] at second
    omega

/-- The window is exactly what the clock must meet. -/
theorem Smooth.inWindow_iff (smooth : Smooth endSendTime s io) :
    InWindow endSendTime io ↔ ∀ now, io.mstime = some now → now ≤ endSendTime := by
  obtain ⟨now, clock, start⟩ := smooth.clock
  constructor
  · intro ⟨other, reading, left, _⟩ third same
    rw [reading] at same
    cases same
    omega
  · intro inTime
    have late := inTime now clock
    refine ⟨now, clock, by omega, ?_⟩
    unfold FitsI32
    omega

/-- The outcome of a pass in which nothing fails. -/
inductive SmoothEnd (endSendTime : Int) (s : Link) (io : PassIo) (t : Link) : Prop where
  /-- the deadline is missed, or the reply is too big -/
  | late (missed : ¬ InTime endSendTime s io) (failed : ¬ t.Succeeded) (isOver : t.Over)
  | timeout (inTime : InTime endSendTime s io)
      (ended : t = s.endSendRecv (if s.Accepts then .none else .fatal) false)
  | moved (inTime : InTime endSendTime s io) (sending : t.ctl = .sending endSendTime)
      (less : t.left < s.left)

theorem smoothEnd (sending : s.ctl = .sending endSendTime) (smooth : Smooth endSendTime s io) :
    SmoothEnd endSendTime s io (s.step (.pass io)) := by
  by_cases inWindow : InWindow endSendTime io
  · have clock := smooth.inWindow_iff.mp inWindow
    cases select : io.select with
    | failed term => exact absurd select (smooth.select term)
    | timeout =>
        have room : io.select.readable = true → s.bufferIn.length < bm1 := by
          rw [select]
          exact nofun
        exact .timeout ⟨clock, room⟩ (step_timeout sending inWindow select)
    | ready term readable writable =>
        obtain ⟨_, _, noTerm, reports, recv, send⟩ := smooth
        rw [select] at noTerm reports recv send
        cases noTerm
        rw [step_ready sending inWindow select]
        by_cases room : readable = true → s.bufferIn.length < bm1
        · have inTime : InTime endSendTime s io := ⟨clock, by rw [select]; exact room⟩
          have received : readable = true → io.recv ≠ [] := recv
          have sent : writable = true → io.send ≠ 0 := send
          rw [transfer_moved room received sent]
          apply SmoothEnd.moved inTime
          · exact (moved_ctl io readable writable s).trans sending
          · exact left_moved room received sent (reports.resolve_left nofun)
        · have readable_full : readable = true ∧ bm1 ≤ s.bufferIn.length := by
            simpa only [Classical.not_imp, Nat.not_lt] using room
          have missed : ¬ InTime endSendTime s io := by
            intro inTime
            have fits := inTime.room
            rw [select] at fits
            exact room fits
          rw [transfer_full readable_full.1 readable_full.2]
          exact .late missed nofun nofun
  · have missed : ¬ InTime endSendTime s io := fun inTime =>
      inWindow (smooth.inWindow_iff.mpr inTime.clock)
    rcases step_outside sending inWindow with late | overflow
    · rw [late]
      exact .late missed nofun nofun
    · rw [overflow]
      exact .late missed nofun nofun

theorem admits_over (isOver : s.Over) (passes : List PassIo) :
    Runs.Admits Link.step InTimeInput s (passes.map .pass) := by
  induction passes with
  | nil => trivial
  | cons io rest ih =>
      rw [List.map_cons, Runs.admits_cons, step_over isOver]
      exact ⟨fun later sending => absurd sending (isOver later), ih⟩

theorem over_of_long {passes : List PassIo} (sending : s.ctl = .sending endSendTime)
    (smooth : Runs.Admits Link.step SmoothInput s (passes.map .pass))
    (long : s.left < passes.length) : (Runs.exec Link.step s (passes.map .pass)).Over := by
  induction passes generalizing s with
  | nil => cases long
  | cons io rest ih =>
      obtain ⟨first, later⟩ := smooth
      rw [List.map_cons, Runs.exec_cons]
      cases smoothEnd sending (first endSendTime sending) with
      | late missed failed isOver =>
          rw [exec_over isOver rest]
          exact isOver
      | timeout inTime ended =>
          have isOver : (s.step (.pass io)).Over := by
            rw [ended]
            exact over_endSendRecv _ false s
          rw [exec_over isOver rest]
          exact isOver
      | moved inTime onward less =>
          rw [List.length_cons] at long
          exact ih onward later (by omega)

/-- A call in which nothing fails succeeds exactly if every pass is in time. -/
theorem succeeded_iff {passes : List PassIo} (sending : s.ctl = .sending endSendTime)
    (smooth : Runs.Admits Link.step SmoothInput s (passes.map .pass))
    (isOver : (Runs.exec Link.step s (passes.map .pass)).Over)
    (delivered : Delivered (Runs.exec Link.step s (passes.map .pass))) :
    (Runs.exec Link.step s (passes.map .pass)).Succeeded ↔
      Runs.Admits Link.step InTimeInput s (passes.map .pass) := by
  induction passes generalizing s with
  | nil => exact absurd sending (isOver endSendTime)
  | cons io rest ih =>
      obtain ⟨first, later⟩ := smooth
      rw [List.map_cons, Runs.exec_cons] at isOver delivered ⊢
      rw [Runs.admits_cons]
      have only : InTimeInput s (.pass io) ↔ InTime endSendTime s io := by
        constructor
        · exact fun inTime => inTime endSendTime sending
        · intro inTime other same
          rw [sending] at same
          cases same
          exact inTime
      rw [only]
      cases smoothEnd sending (first endSendTime sending) with
      | late missed failed ended =>
          rw [exec_over ended rest]
          exact ⟨fun succeeded => absurd succeeded failed, fun inTime => absurd inTime.1 missed⟩
      | timeout inTime ended =>
          have returned : (s.step (.pass io)).Over := by
            rw [ended]
            exact over_endSendRecv _ false s
          have stays := exec_over returned rest
          rw [stays, ended] at delivered
          have accepts : s.Accepts := .inr delivered.2
          rw [if_pos accepts] at ended
          rw [stays, ended] at *
          exact ⟨fun _ => ⟨inTime, admits_over returned rest⟩, fun _ => rfl⟩
      | moved inTime onward less =>
          rw [ih onward later isOver delivered]
          exact ⟨fun admitted => ⟨inTime, admitted⟩, fun both => both.2⟩

/-- In a round in which nothing fails and the reply is received, the call returns, and
with success exactly if no head of the loop is reached past the deadline and the
reply has room. -/
theorem success_iff_inTime (buffer : List UInt8) (endSendTime : Int) (passes : List PassIo)
    (smooth : Runs.Admits Link.step SmoothInput (calling buffer endSendTime)
      (passes.map .pass)) :
    ((cString buffer).length + bm1 < passes.length →
      (Runs.exec Link.step (calling buffer endSendTime) (passes.map .pass)).Over) ∧
    ((Runs.exec Link.step (calling buffer endSendTime) (passes.map .pass)).Over →
      Delivered (Runs.exec Link.step (calling buffer endSendTime) (passes.map .pass)) →
      ((Runs.exec Link.step (calling buffer endSendTime) (passes.map .pass)).Succeeded ↔
        Runs.Admits Link.step InTimeInput (calling buffer endSendTime) (passes.map .pass))) :=
  ⟨over_of_long rfl smooth, succeeded_iff rfl smooth⟩

/-- A request is sent, and the reply is read a millisecond before the deadline. -/
def replyInTime : List PassIo :=
  [⟨some 0, .ready false false true, [], 100⟩,
    ⟨some 59999, .ready false true false, text "HTTP/1.1 204 No Content\r\n\r\n", 0⟩]

/-- Then the clock is read once more. -/
def lateReply (last : Int) : List PassIo := replyInTime ++ [⟨some last, .timeout, [], 0⟩]

theorem lateReply_smooth {last : Int} (forward : 0 ≤ last) :
    Runs.Admits Link.step SmoothInput (calling (text "POST /") 60000)
      ((lateReply last).map .pass) := by
  refine ⟨?_, ?_, ?_, trivial⟩
  · intro endSendTime sending
    cases sending
    exact ⟨⟨0, rfl, by decide⟩, nofun, rfl, .inr (.inr ⟨rfl, by decide +kernel⟩), nofun,
      fun _ => by decide⟩
  · intro endSendTime sending
    cases sending
    exact ⟨⟨59999, rfl, by decide⟩, nofun, rfl, .inr (.inl rfl), fun _ => by decide, nofun⟩
  · intro endSendTime sending
    have ctl : (Runs.exec Link.step (calling (text "POST /") 60000)
        (replyInTime.map .pass)).ctl = .sending 60000 := by decide +kernel
    have same : endSendTime = 60000 := LinkCtl.sending.inj (sending.symm.trans ctl)
    rw [same]
    exact ⟨⟨last, rfl, forward⟩, nofun, rfl, .inl rfl, nofun, nofun⟩

/-- At the deadline. -/
theorem success_iff_inTime_atDeadline :
    (Runs.exec Link.step (calling (text "POST /") 60000)
        ((lateReply 60000).map .pass)).Succeeded ↔
      Runs.Admits Link.step InTimeInput (calling (text "POST /") 60000)
        ((lateReply 60000).map .pass) := by
  have returned : (Runs.exec Link.step (calling (text "POST /") 60000)
      ((lateReply 60000).map .pass)).ctl = .round := by decide +kernel
  apply (success_iff_inTime (text "POST /") 60000 (lateReply 60000)
    (lateReply_smooth (by decide))).2
  · intro endSendTime sending
    rw [returned] at sending
    cases sending
  · decide +kernel

/-- Just past it the round is fatal. -/
theorem late_reply_fatal :
    Runs.Admits Link.step SmoothInput (calling (text "POST /") 60000)
        ((lateReply 60001).map .pass) ∧
      Delivered (Runs.exec Link.step (calling (text "POST /") 60000)
        ((lateReply 60001).map .pass)) ∧
      (Runs.exec Link.step (calling (text "POST /") 60000)
        ((lateReply 60001).map .pass)).ctl = .ended .fatal :=
  ⟨lateReply_smooth (by decide), by decide +kernel, by decide +kernel⟩

end RenogyX10.RenogyInflux
