import Mathlib.Data.List.TakeWhile
import RenogyX10.RenogyInflux.Passes

set_option autoImplicit false

namespace RenogyX10.RenogyInflux

open Influx Toml

/-- The bytes that send took, in order; the trace is newest first. -/
def sentBytes : List SckEvent → List UInt8
  | [] => []
  | .send bytes _ :: older => sentBytes older ++ bytes
  | _ :: older => sentBytes older

/-- Whenever `main_send_recv_loop` returned `ERROR_NONE`, the request was sent. -/
def AllSent : Link → Prop := EveryReturn .none fun unsent _ => unsent = 0

/-- Whole requests, and a prefix of one. -/
def WholeRequests (bytes : List UInt8) : Prop :=
  ∃ (values : List UInt16) (value : UInt16) (cut : List UInt8), cut <+: bufferOutOf value ∧
    bytes = values.flatMap bufferOutOf ++ cut

/-- No timeout is taken for a success before the request is sent. -/
def NotCut (s : Link) : LinkInput → Prop
  | .start _ => True
  | .pass io => ∀ endSendTime, s.ctl = .sending endSendTime → InWindow endSendTime io →
      io.select = .timeout → s.Accepts → s.bufferOut.length ≤ s.bufferOutSent

theorem allSent_step_iff {s : Link} (input : LinkInput) (allSent : AllSent s) :
    AllSent (s.step input) ↔ NotCut s input := by
  constructor
  · intro after
    cases input with
    | start io => trivial
    | pass io =>
        intro endSendTime sending inWindow timeout accepts
        rw [step_timeout sending inWindow timeout, if_pos accepts] at after
        have none : s.unsent = 0 := after s.unsent false List.mem_cons_self
        unfold Link.unsent at none
        omega
  · intro notCut
    apply EveryReturn.step allSent ⟨nofun, nofun⟩
    · rintro io endSendTime rfl sending inWindow timeout accepts _
      exact Nat.sub_eq_zero_of_le (notCut endSendTime sending inWindow timeout accepts)
    · exact fun _ _ _ _ _ _ => nofun

/-- The call is in the middle of a request. -/
structure Midway (s : Link) : Prop where
  sent : s.bufferOutSent ≤ s.bufferOut.length
  front : ∃ (values : List UInt16) (value : UInt16), s.bufferOut = bufferOutOf value ∧
    sentBytes s.trace = values.flatMap bufferOutOf ++ s.bufferOut.take s.bufferOutSent

namespace Midway

variable {s : Link}

theorem whole (midway : Midway s) : WholeRequests (sentBytes s.trace) := by
  obtain ⟨values, value, request, bytes⟩ := midway.front
  refine ⟨values, value, s.bufferOut.take s.bufferOutSent, ?_, bytes⟩
  rw [← request]
  exact List.take_prefix s.bufferOutSent s.bufferOut

theorem sentOn (midway : Midway s) (io : PassIo) : Midway (s.sentOn io) := by
  obtain ⟨values, value, request, bytes⟩ := midway.front
  have within := midway.sent
  constructor
  · show s.bufferOutSent + min io.send s.unsent ≤ s.bufferOut.length
    unfold Link.unsent
    omega
  · refine ⟨values, value, request, ?_⟩
    show sentBytes s.trace ++ (s.bufferOut.drop s.bufferOutSent).take _ =
      _ ++ s.bufferOut.take (_ + _)
    rw [bytes, List.append_assoc, List.take_add]

theorem all (midway : Midway s) (sent : s.bufferOut.length ≤ s.bufferOutSent) :
    ∃ values : List UInt16, sentBytes s.trace = values.flatMap bufferOutOf := by
  obtain ⟨values, value, request, bytes⟩ := midway.front
  refine ⟨values ++ [value], ?_⟩
  rw [bytes, List.take_of_length_le sent, request, List.flatMap_append, List.flatMap_singleton]

end Midway

/-- The same, while the call goes on. -/
def InCall (endSendTime : Int) (s : Link) : Prop := Midway s ∧ s.ctl = .sending endSendTime

/-- What was sent, between two rounds and in one. -/
structure OnRequest (s : Link) : Prop where
  whole : WholeRequests (sentBytes s.trace)
  round : s.ctl = .round → ∃ values : List UInt16, sentBytes s.trace = values.flatMap bufferOutOf
  sending : ∀ endSendTime, s.ctl = .sending endSendTime → Midway s

theorem decimal_nonzero (value : Nat) : 0 ∉ decimal value := by
  intro isZero
  obtain ⟨digit, isDigit, zero⟩ := List.mem_map.mp isZero
  have range := Nat.isDigit_of_mem_toDigits (by decide) (by decide) isDigit
  have bounds : 48 ≤ digit.toNat ∧ digit.toNat ≤ 57 := by
    simp only [Char.isDigit, Bool.and_eq_true, decide_eq_true_eq] at range
    exact range
  have value := congrArg UInt8.toNat zero
  simp only [UInt8.toNat_ofNat', UInt8.toNat_zero] at value
  omega

theorem snprintf_nonzero {size : Nat} {bytes : List UInt8} (nonzero : 0 ∉ bytes) :
    0 ∉ snprintf size bytes :=
  fun isZero => nonzero (List.mem_of_mem_take isZero)

theorem bufferOutOf_nonzero (value : UInt16) : 0 ∉ bufferOutOf value := by
  have line : 0 ∉ bufferConOf value := by
    apply snprintf_nonzero
    simp only [List.mem_append, not_or]
    refine ⟨⟨by decide, decimal_nonzero _⟩, by decide⟩
  unfold bufferOutOf
  apply snprintf_nonzero
  simp only [List.mem_append, not_or]
  and_intros <;> first | exact decimal_nonzero _ | exact line | decide

theorem cString_bufferOutOf (value : UInt16) : cString (bufferOutOf value) = bufferOutOf value := by
  apply List.takeWhile_eq_self_iff.mpr
  intro byte isByte
  apply decide_eq_true
  rintro rfl
  exact bufferOutOf_nonzero value isByte

namespace OnRequest

variable {s : Link}

theorem connected : OnRequest connected := by
  constructor
  · exact ⟨[], 0, [], List.nil_prefix, rfl⟩
  · exact fun _ => ⟨[], rfl⟩
  · exact nofun

theorem ended {t : Link} (midway : Midway s) (trace : sentBytes t.trace = sentBytes s.trace)
    (busy : t.ctl ≠ .round) (isOver : ∀ endSendTime, t.ctl ≠ .sending endSendTime) :
    OnRequest t := by
  constructor
  · rw [trace]
    exact midway.whole
  · exact fun round => absurd round busy
  · exact fun endSendTime sending => absurd sending (isOver endSendTime)

theorem startSendRecv {t : Link} (value : UInt16) (endSendTime : Int)
    (request : t = s.startSendRecv (bufferOutOf value) endSendTime) (onRequest : OnRequest s)
    (round : s.ctl = .round) : OnRequest t := by
  subst request
  obtain ⟨values, bytes⟩ := onRequest.round round
  have midway : Midway (s.startSendRecv (bufferOutOf value) endSendTime) := by
    constructor
    · exact Nat.zero_le _
    · refine ⟨values, value, cString_bufferOutOf value, ?_⟩
      show sentBytes s.trace = _ ++ List.take 0 _
      rw [bytes, List.take_zero, List.append_nil]
  exact ⟨onRequest.whole, nofun, fun _ _ => midway⟩

theorem step (onRequest : OnRequest s) {input : LinkInput} (notCut : NotCut s input) :
    OnRequest (s.step input) := by
  apply step_cases input onRequest
  · intro io _ round
    have same : ∀ ctl, ctl ≠ .round → (∀ endSendTime, ctl ≠ .sending endSendTime) →
        OnRequest { s with ctl := ctl } := fun ctl busy isOver =>
      ⟨onRequest.whole, fun round => absurd round busy, fun e sending => absurd sending (isOver e)⟩
    apply start_rule round
    · exact fun rv => same (.ended rv) nofun nofun
    · exact same .undefined nofun nofun
    · exact fun value endSendTime => onRequest.startSendRecv value endSendTime rfl round
  · rintro io endSendTime rfl sending
    have midway := onRequest.sending endSendTime sending
    have inCall : InCall endSendTime s := ⟨midway, sending⟩
    apply step_rule sending inCall
    · exact fun _ t kept => ⟨⟨kept.1.sent, kept.1.front⟩, kept.2⟩
    · exact fun _ t kept _ => ⟨kept.1.sentOn io, kept.2⟩
    · intro t kept
      refine ⟨kept.1.whole, fun round => ?_, fun _ _ => kept.1⟩
      rw [kept.2] at round
      cases round
    · exact fun t kept => ended kept.1 rfl nofun nofun
    · intro t rv term kept isFailure
      have failed : rv ≠ .none := by
        rintro rfl
        simp at isFailure
      have left : (t.endSendRecv rv term).ctl = .ended rv := if_neg failed
      refine ended kept.1 rfl ?_ ?_ <;> rw [left] <;> exact nofun
    · intro inWindow timeout accepts
      have sent := notCut endSendTime sending inWindow timeout accepts
      exact ⟨midway.whole, fun _ => midway.all sent, nofun⟩
    · exact fun _ _ => ended midway rfl nofun nofun

end OnRequest

/-- Success means that the request was sent, and the connection carries whole
requests, exactly if no timeout is taken for a success before that: in one call and in
any number of rounds. -/
theorem requests_whole_iff (buffer : List UInt8) (endSendTime : Int) (inputs : List LinkInput) :
    ((∀ front back, inputs = front ++ back →
        AllSent (Runs.exec Link.step (calling buffer endSendTime) front)) ↔
      Runs.Admits Link.step NotCut (calling buffer endSendTime) inputs) ∧
    ((∀ front back, inputs = front ++ back →
        AllSent (Runs.exec Link.step connected front) ∧
          WholeRequests (sentBytes (Runs.exec Link.step connected front).trace)) ↔
      Runs.Admits Link.step NotCut connected inputs) := by
  have sentIff (s : Link) (isStart : AllSent s) :
      (∀ front back, inputs = front ++ back → AllSent (Runs.exec Link.step s front)) ↔
        Runs.Admits Link.step NotCut s inputs :=
    Runs.always_iff_admits (fun _ _ (held : True) => held)
      (fun _ input _ good => allSent_step_iff input good) trivial isStart
  refine ⟨sentIff (calling buffer endSendTime) nofun, ?_⟩
  constructor
  · intro always
    apply (sentIff connected nofun).mp
    exact fun front back split => (always front back split).1
  · intro admitted front back split
    have allSent := (sentIff connected nofun).mpr admitted front back split
    rw [split] at admitted
    have onRequest : OnRequest (Runs.exec Link.step connected front) :=
      Runs.exec_keeps (fun _ _ notCut kept => kept.step notCut)
        ((Runs.admits_append _ front back).mp admitted).1 OnRequest.connected
    exact ⟨allSent, onRequest.whole⟩

/-- Ten bytes of a request are sent, then the peer takes nothing for a minute. -/
def cutRequest : List LinkInput :=
  [.start ⟨some 0, some 125⟩, .pass ⟨some 0, .ready false false true, [], 10⟩,
    .pass ⟨some 1, .timeout, [], 0⟩]

theorem request_cut :
    .returned .none ((bufferOutOf 125).length - 10) false ∈
        (Runs.exec Link.step connected cutRequest).trace ∧
      0 < (bufferOutOf 125).length - 10 := by
  decide +kernel

end RenogyX10.RenogyInflux
