import RenogyX10.RenogyInflux.Passes

set_option autoImplicit false

namespace RenogyX10.RenogyInflux

open Proc

/-- The code a round has ended with. -/
def Link.rv (s : Link) : Error :=
  match s.ctl with
  | .ended rv => rv
  | _ => .none

/-- The turn that a round is, from where its passes led. -/
def turnOf (io : StartIo) (t : Link) : RoundIo := ⟨io.mstime.isSome, io.register, t.rv⟩

/-- What the loop above does after a round. -/
def Link.leave (t : Link) (s : Process) : Process :=
  if t.ctl = .round then s else leaveModbusLoop t.rv s

/-- A round goes on, or it has ended with an error if it has ended. -/
def Rounded (s : Link) : Prop :=
  s.ctl = .round ∨ s.ctl = .undefined ∨ (∃ endSendTime, s.ctl = .sending endSendTime) ∨
    ∃ rv, rv ≠ .none ∧ s.ctl = .ended rv

theorem rounded_endSendRecv (rv : Error) (term : Bool) (s : Link) :
    Rounded (s.endSendRecv rv term) := by
  by_cases success : rv = .none
  · exact .inl (if_pos success)
  · exact .inr (.inr (.inr ⟨rv, success, if_neg success⟩))

theorem Rounded.failed {s : Link} {rv : Error} (rounded : Rounded s) (ended : s.ctl = .ended rv) :
    rv ≠ .none := by
  rcases rounded with other | other | ⟨_, other⟩ | ⟨code, failed, other⟩ <;> rw [ended] at other
  · cases other
  · cases other
  · cases other
  · cases other
    exact failed

theorem Rounded.pass {s : Link} (rounded : Rounded s) (io : PassIo) :
    Rounded (s.step (.pass io)) := by
  apply step_cases (.pass io) rounded
  · exact nofun
  · intro io endSendTime _ sending
    apply step_rule sending rounded
    · exact fun _ _ kept => kept
    · exact fun _ _ kept _ => kept
    · exact fun t kept => kept
    · exact fun t _ => .inr (.inl rfl)
    · exact fun t rv term _ _ => rounded_endSendRecv rv term t
    · exact fun _ _ _ => rounded_endSendRecv .none false s
    · exact fun _ _ => rounded_endSendRecv .shutdown _ s

theorem exec_rounded {s : Link} (rounded : Rounded s) (passes : List PassIo) :
    Rounded (Runs.exec Link.step s (passes.map .pass)) := by
  induction passes generalizing s with
  | nil => exact rounded
  | cons io rest ih => exact ih (rounded.pass io)

theorem step_start {s : Link} (io : StartIo) (round : s.ctl = .round) :
    (io.mstime = none ∧ (s.step (.start io)).ctl = .ended .fatal) ∨
    (∃ now, io.mstime = some now ∧ io.register = none ∧
      (s.step (.start io)).ctl = .ended .modbus) ∨
    ∃ now value, io.mstime = some now ∧ io.register = some value ∧
      Rounded (s.step (.start io)) := by
  unfold Link.step
  rw [round]
  unfold startRound
  dsimp only
  cases io.mstime with
  | none => exact .inl ⟨rfl, rfl⟩
  | some now =>
      right
      cases io.register with
      | none => exact .inl ⟨now, rfl, rfl, rfl⟩
      | some value =>
          right
          refine ⟨now, value, rfl, rfl, ?_⟩
          simp only [orFail_some, pure_then]
          cases endSendTimeOf now with
          | none => exact .inr (.inl rfl)
          | some endSendTime => exact .inr (.inr (.inl ⟨endSendTime, rfl⟩))

/-- A round with its passes: how it starts, and what the passes are answered. -/
def Link.afterRound (s : Link) (round : StartIo × List PassIo) : Link :=
  Runs.exec Link.step s (.start round.1 :: round.2.map .pass)

/-- `main_modbus_loop` is at its head again, or it has returned. -/
def Link.Returned (s : Link) : Prop := s.ctl = .round ∨ ∃ rv, s.ctl = .ended rv

instance (s : Link) : Decidable s.Returned :=
  match isCtl : s.ctl with
  | .round => .isTrue (.inl isCtl)
  | .ended rv => .isTrue (.inr ⟨rv, isCtl⟩)
  | .sending _ | .undefined => .isFalse (by simp [Link.Returned, isCtl])

/-- A round that is over is a turn of `main_modbus_loop` that the loop above takes with
the code the round ended with. -/
theorem mainModbusLoop_turnOf {start : Link} (round : start.ctl = .round) (io : StartIo)
    (passes : List PassIo) (s : Process) (isOver : (start.afterRound (io, passes)).Returned) :
    mainModbusLoop (turnOf io (start.afterRound (io, passes))) s =
      (start.afterRound (io, passes)).leave s := by
  unfold Link.afterRound Link.Returned at isOver
  unfold Link.afterRound
  rw [Runs.exec_cons] at isOver ⊢
  rcases step_start io round with ⟨clock, ended⟩ | ⟨now, clock, register, ended⟩ |
    ⟨now, value, clock, register, rounded⟩
  · rw [exec_over (over_of_ended ended) passes]
    simp [mainModbusLoop, turnOf, Link.leave, Link.rv, clock, ended]
  · rw [exec_over (over_of_ended ended) passes]
    simp [mainModbusLoop, turnOf, Link.leave, Link.rv, clock, register, ended]
  · have afterwards := exec_rounded rounded passes
    generalize Runs.exec Link.step (start.step (.start io)) (passes.map .pass) = t at *
    rcases isOver with again | ⟨rv, ended⟩
    · simp [mainModbusLoop, turnOf, Link.leave, Link.rv, clock, register, again]
    · have failed := afterwards.failed ended
      simp [mainModbusLoop, turnOf, Link.leave, Link.rv, clock, register, ended, failed]

/-- The turns that rounds on a connection are, one after the other. -/
def turnsOf : Link → List (StartIo × List PassIo) → List Input
  | _, [] => []
  | s, round :: rest =>
      .round (turnOf round.1 (s.afterRound round)) :: turnsOf (s.afterRound round) rest

theorem leaveModbusLoop_ctl (rv : Error) (s : Process) : (leaveModbusLoop rv s).ctl ≠ .round := by
  unfold leaveModbusLoop endConnect leaveConnectLoop endModbus
  dsimp only
  repeat' split
  all_goals exact nofun

theorem run_turnsOf_left {s : Process} (left : s.ctl ≠ .round)
    (rounds : List (StartIo × List PassIo)) (link : Link) : s.run (turnsOf link rounds) = s := by
  induction rounds generalizing link with
  | nil => rfl
  | cons round rest ih =>
      have same : s.step (.round (turnOf round.1 (link.afterRound round))) = s := by
        unfold Process.step
        cases ctl : s.ctl with
        | round => exact absurd ctl left
        | _ => rfl
      unfold Process.run turnsOf
      rw [Runs.exec_cons, same]
      exact ih _

theorem afterRound_ended {s : Link} {rv : Error} (ended : s.ctl = .ended rv)
    (rounds : List (StartIo × List PassIo)) : Runs.exec Link.afterRound s rounds = s := by
  induction rounds with
  | nil => rfl
  | cons round rest ih =>
      have start : s.step (.start round.1) = s := by
        unfold Link.step
        rw [ended]
      have same : s.afterRound round = s := by
        unfold Link.afterRound
        rw [Runs.exec_cons, start, exec_over (over_of_ended ended)]
      rw [Runs.exec_cons, same]
      exact ih

/-- The rounds on a connection, each with the passes that end it, are turns of
`main_modbus_loop`: the three loops go on exactly as they do with these turns. -/
theorem rounds_are_turns {start : Link} (round : start.ctl = .round)
    (rounds : List (StartIo × List PassIo))
    (concluded : Runs.Admits Link.afterRound (fun s round => (s.afterRound round).Returned)
      start rounds)
    {s : Process} (inLoop : s.ctl = .round) :
    s.run (turnsOf start rounds) = (Runs.exec Link.afterRound start rounds).leave s := by
  induction rounds generalizing start with
  | nil => exact (if_pos round).symm
  | cons first rest ih =>
      obtain ⟨returned, others⟩ := concluded
      have turn : s.step (.round (turnOf first.1 (start.afterRound first))) =
          (start.afterRound first).leave s := by
        unfold Process.step
        rw [inLoop]
        exact mainModbusLoop_turnOf round first.1 first.2 s returned
      unfold Process.run turnsOf
      rw [Runs.exec_cons, turn, Runs.exec_cons]
      rcases returned with again | ⟨rv, ended⟩
      · have same : (start.afterRound first).leave s = s := if_pos again
        rw [same]
        exact ih again others
      · have left : (start.afterRound first).leave s =
            leaveModbusLoop (start.afterRound first).rv s := if_neg (by rw [ended]; nofun)
        rw [afterRound_ended ended, left]
        exact run_turnsOf_left (leaveModbusLoop_ctl _ s) rest _

/-- A request is sent at once and not answered; a minute later no register can be read. -/
def sentAndFailed : List (StartIo × List PassIo) :=
  [(⟨some 0, some 125⟩, [⟨some 0, .ready false false true, [], 2048⟩, ⟨some 1, .timeout, [], 0⟩]),
    (⟨some 60001, none⟩, [])]

/-- The first round is no more than a turn that goes on; the second one leads back to
`main_modbus`, which tries again. -/
theorem rounds_are_turns_sentAndFailed :
    Process.run { ctl := .round } (turnsOf connected sentAndFailed) =
      (Runs.exec Link.afterRound connected sentAndFailed).leave { ctl := .round } ∧
    Process.run { ctl := .round } (turnsOf connected sentAndFailed) =
      ⟨.modbus, [.modbusFree, .close]⟩ := by
  constructor
  · exact rounds_are_turns rfl sentAndFailed (by decide +kernel) rfl
  · decide +kernel

end RenogyX10.RenogyInflux
