import RenogyX10.Influx.Space
import RenogyX10.Post
import RenogyX10.RenogyInflux.Requests

set_option autoImplicit false

namespace RenogyX10.RenogyInflux

open Http Influx Toml
open Post (Target postOf)

/-- The constants of the program. -/
def target : Target where
  org := text "org1"
  database := text "voltages"
  hostname := text "server3.xrdp.org"
  port := 8086
  token := text "Wh4XF_BN120-dvfZiI0T6L7DIdG7Ma8JnSMW6GnMTpT5" ++
    text "uG4qDlBFsEGS_jwo9eBD2pf2jtra7sgi0ajl5R-oEA=="

theorem target_clean : target.Clean := by
  constructor <;> constructor <;> decide

def valuePost (value : UInt16) : Message := postOf target (bufferConOf value)

theorem bufferConOf_length (value : UInt16) : (bufferConOf value).length ≤ 63 := by
  rw [bufferConOf, snprintf, List.length_take]
  exact Nat.min_le_left _ _

theorem valuePost_length (value : UInt16) : (valuePost value).bytes.length ≤ 2047 := by
  have count : (decimal (bufferConOf value).length).length ≤ 2 := by
    apply decimal_length_le (by decide)
    exact Nat.lt_of_le_of_lt (bufferConOf_length value) (by decide)
  have sum {front digits blank line : Nat} (a : front ≤ 1000) (b : digits ≤ 2) (c : blank ≤ 4)
      (d : line ≤ 63) : front + digits + blank + line ≤ 2047 := by omega
  rw [valuePost, Post.postOf_bytes, List.length_append, List.length_append, List.length_append]
  exact sum (by decide +kernel) count (by decide) (bufferConOf_length value)

theorem bufferOutOf_bytes (value : UInt16) : bufferOutOf value = (valuePost value).bytes := by
  have org : text "POST /api/v2/write?org=org1&bucket=" =
      text "POST /api/v2/write?org=" ++ text "org1" ++ text "&bucket=" := by decide
  have port : decimalInt target.port = decimal 8086 := rfl
  have fits := valuePost_length value
  unfold bufferOutOf snprintf
  rw [org]
  apply (List.take_of_length_le ?_).trans
  · rw [valuePost, Post.postOf_bytes, port]
    simp only [target, List.append_assoc]
  · rw [valuePost, Post.postOf_bytes, port] at fits
    simpa only [target, List.append_assoc] using fits

/-- The register of the round that an input begins, if it begins one. -/
def measuredIn (s : Link) : LinkInput → List UInt16
  | .start io =>
      match s.ctl, startRound io s with
      | .round, .ok _ _ => io.register.toList
      | _, _ => []
  | .pass _ => []

/-- A connection, with the registers of its rounds so far. -/
structure Rounds where
  link : Link
  values : List UInt16

def Rounds.step (r : Rounds) (input : LinkInput) : Rounds :=
  ⟨r.link.step input, r.values ++ measuredIn r.link input⟩

def Rounds.connected : Rounds := ⟨RenogyInflux.connected, []⟩

/-- The server reads the posts of the registers as far as they have arrived. Between two
rounds that is all of them, and in a round all but the last one in any case. -/
structure Posted (r : Rounds) : Prop where
  delivered : Http.Delivered (sentBytes r.link.trace) (r.values.map valuePost)
  round : r.link.ctl = .round → messagesOf (sentBytes r.link.trace) = r.values.map valuePost
  sending : ∀ endSendTime, r.link.ctl = .sending endSendTime →
    r.values.dropLast.map valuePost <+: messagesOf (sentBytes r.link.trace)

/-- The call is in the middle of the request for the last of these registers. -/
structure InRound (values : List UInt16) (s : Link) : Prop where
  sent : s.bufferOutSent ≤ s.bufferOut.length
  front : ∃ earlier value, values = earlier ++ [value] ∧ s.bufferOut = bufferOutOf value ∧
    sentBytes s.trace = earlier.flatMap bufferOutOf ++ s.bufferOut.take s.bufferOutSent

/-- The same, while the call goes on. -/
def InRoundCall (values : List UInt16) (endSendTime : Int) (s : Link) : Prop :=
  InRound values s ∧ s.ctl = .sending endSendTime

/-- What is sent are the requests for the registers. -/
structure OnRounds (values : List UInt16) (s : Link) : Prop where
  begins : sentBytes s.trace <+: values.flatMap bufferOutOf
  round : s.ctl = .round → sentBytes s.trace = values.flatMap bufferOutOf
  sending : ∀ endSendTime, s.ctl = .sending endSendTime → InRound values s

namespace InRound

variable {values : List UInt16} {s : Link}

theorem begins (inRound : InRound values s) : sentBytes s.trace <+: values.flatMap bufferOutOf := by
  obtain ⟨earlier, value, rfl, request, bytes⟩ := inRound.front
  rw [bytes, List.flatMap_append, List.flatMap_singleton, ← request]
  exact (List.prefix_append_right_inj _).mpr (List.take_prefix _ _)

theorem sentOn (inRound : InRound values s) (io : PassIo) : InRound values (s.sentOn io) := by
  obtain ⟨earlier, value, known, request, bytes⟩ := inRound.front
  have within := inRound.sent
  constructor
  · show s.bufferOutSent + min io.send s.unsent ≤ s.bufferOut.length
    unfold Link.unsent
    omega
  · refine ⟨earlier, value, known, request, ?_⟩
    show sentBytes s.trace ++ (s.bufferOut.drop s.bufferOutSent).take _ =
      _ ++ s.bufferOut.take (_ + _)
    rw [bytes, List.append_assoc, List.take_add]

theorem all (inRound : InRound values s) (sent : s.bufferOut.length ≤ s.bufferOutSent) :
    sentBytes s.trace = values.flatMap bufferOutOf := by
  obtain ⟨earlier, value, rfl, request, bytes⟩ := inRound.front
  rw [bytes, List.take_of_length_le sent, request, List.flatMap_append, List.flatMap_singleton]

end InRound

theorem start_measured {s : Link} (io : StartIo) (round : s.ctl = .round) :
    (measuredIn s (.start io) = [] ∧ (s.step (.start io)).trace = s.trace ∧
      (s.step (.start io)).ctl ≠ .round ∧ ∀ e, (s.step (.start io)).ctl ≠ .sending e) ∨
    ∃ value endSendTime, measuredIn s (.start io) = [value] ∧
      s.step (.start io) = s.startSendRecv (bufferOutOf value) endSendTime := by
  unfold measuredIn Link.step
  rw [round]
  unfold startRound
  dsimp only
  cases io.mstime with
  | none => exact .inl ⟨rfl, rfl, nofun, nofun⟩
  | some now =>
      cases io.register with
      | none => exact .inl ⟨rfl, rfl, nofun, nofun⟩
      | some value =>
          simp only [Proc.orFail_some, Proc.pure_then]
          cases endSendTimeOf now with
          | none => exact .inl ⟨rfl, rfl, nofun, nofun⟩
          | some endSendTime => exact .inr ⟨value, endSendTime, rfl, rfl⟩

namespace OnRounds

variable {values : List UInt16} {s : Link}

theorem connected : OnRounds [] connected := by
  constructor
  · exact List.nil_prefix
  · exact fun _ => rfl
  · exact nofun

theorem ended {t : Link} (inRound : InRound values s)
    (trace : sentBytes t.trace = sentBytes s.trace) (busy : t.ctl ≠ .round)
    (isOver : ∀ endSendTime, t.ctl ≠ .sending endSendTime) : OnRounds values t := by
  constructor
  · rw [trace]
    exact inRound.begins
  · exact fun round => absurd round busy
  · exact fun endSendTime sending => absurd sending (isOver endSendTime)

theorem start (onRounds : OnRounds values s) {io : StartIo} (round : s.ctl = .round) :
    OnRounds (values ++ measuredIn s (.start io)) (s.step (.start io)) := by
  have all := onRounds.round round
  rcases start_measured io round with ⟨none, trace, busy, isOver⟩ |
    ⟨value, endSendTime, measured, begun⟩
  · rw [none, List.append_nil]
    constructor
    · rw [trace]
      exact onRounds.begins
    · exact fun round => absurd round busy
    · exact fun endSendTime sending => absurd sending (isOver endSendTime)
  · rw [measured, begun]
    have inRound : InRound (values ++ [value]) (s.startSendRecv (bufferOutOf value) endSendTime) := by
      refine ⟨Nat.zero_le _, values, value, rfl, cString_bufferOutOf value, ?_⟩
      show sentBytes s.trace = _ ++ List.take 0 _
      rw [all, List.take_zero, List.append_nil]
    exact ⟨inRound.begins, nofun, fun _ _ => inRound⟩

theorem pass (onRounds : OnRounds values s) {io : PassIo} {endSendTime : Int}
    (notCut : NotCut s (.pass io)) (sending : s.ctl = .sending endSendTime) :
    OnRounds values (s.step (.pass io)) := by
  have inRound := onRounds.sending endSendTime sending
  have inCall : InRoundCall values endSendTime s := ⟨inRound, sending⟩
  apply step_rule sending inCall
  · exact fun _ t kept => ⟨⟨kept.1.sent, kept.1.front⟩, kept.2⟩
  · exact fun _ t kept _ => ⟨kept.1.sentOn io, kept.2⟩
  · rintro t ⟨kept, still⟩
    refine ⟨kept.begins, fun round => ?_, fun _ _ => kept⟩
    rw [still] at round
    cases round
  · exact fun t kept => ended kept.1 rfl nofun nofun
  · intro t rv term kept isFailure
    have failed : rv ≠ .none := by
      rintro rfl
      simp at isFailure
    have left : (t.endSendRecv rv term).ctl = .ended rv := if_neg failed
    refine ended kept.1 rfl ?_ ?_ <;> rw [left] <;> exact nofun
  · intro inWindow timeout accepts
    have sent := notCut endSendTime sending inWindow timeout accepts
    exact ⟨inRound.begins, fun _ => inRound.all sent, nofun⟩
  · exact fun _ _ => ended inRound rfl nofun nofun

theorem measuredIn_other {input : LinkInput}
    (other : ∀ io, input = .start io → s.ctl ≠ .round) : measuredIn s input = [] := by
  cases input with
  | start io =>
      unfold measuredIn
      cases ctl : s.ctl with
      | round => exact absurd ctl (other io rfl)
      | _ => rfl
  | pass io => rfl

theorem step (onRounds : OnRounds values s) {input : LinkInput} (notCut : NotCut s input) :
    OnRounds (values ++ measuredIn s input) (s.step input) := by
  by_cases starts : ∃ io, input = .start io ∧ s.ctl = .round
  · obtain ⟨io, rfl, round⟩ := starts
    exact onRounds.start round
  · have other : ∀ io, input = .start io → s.ctl ≠ .round :=
      fun io isStart round => starts ⟨io, isStart, round⟩
    rw [measuredIn_other other, List.append_nil]
    apply step_cases input onRounds
    · exact fun io isStart round => absurd round (other io isStart)
    · rintro io endSendTime rfl sending
      exact onRounds.pass notCut sending

end OnRounds

theorem flatMap_bufferOutOf (values : List UInt16) :
    values.flatMap bufferOutOf = (values.map valuePost).flatMap Message.bytes := by
  rw [List.flatMap_map]
  apply List.flatMap_congr
  exact fun value _ => bufferOutOf_bytes value

theorem valuePosts_formed (values : List UInt16) :
    ∀ m ∈ values.map valuePost, m.WellFormed := by
  rw [List.forall_mem_map]
  exact fun value _ => Post.postOf_wellFormed target_clean _

def Rounds.Sound (r : Rounds) : Prop := OnRounds r.values r.link

theorem Rounds.Sound.posted {r : Rounds} (onRounds : r.Sound) : Posted r := by
  have formed := valuePosts_formed r.values
  constructor
  · apply delivered formed
    rw [← flatMap_bufferOutOf]
    exact onRounds.begins
  · intro round
    rw [onRounds.round round, flatMap_bufferOutOf]
    exact messagesOf_bytes formed
  · intro endSendTime sending
    obtain ⟨earlier, value, known, request, bytes⟩ := (onRounds.sending endSendTime sending).front
    rw [known, List.dropLast_concat, bytes]
    have read := messagesOf_later (List.prefix_append (earlier.flatMap bufferOutOf)
      (r.link.bufferOut.take r.link.bufferOutSent))
    rwa [flatMap_bufferOutOf earlier, messagesOf_bytes (valuePosts_formed earlier),
      ← flatMap_bufferOutOf] at read

/-- In every run on one connection in which no timeout is taken for a success before the
request is sent, the server reads the registers of the rounds, in order and once each. -/
theorem registers_served (inputs : List LinkInput)
    (notCut : Runs.Admits Rounds.step (fun r => NotCut r.link) .connected inputs) :
    Posted (Runs.exec Rounds.step .connected inputs) := by
  have sound : (Runs.exec Rounds.step .connected inputs).Sound :=
    Runs.exec_keeps (fun _ _ notCut onRounds => OnRounds.step onRounds notCut) notCut
      OnRounds.connected
  exact sound.posted

/-- A register is read, its request is sent at once, and the reply does not come. -/
def quietRound : List LinkInput :=
  [.start ⟨some 0, some 125⟩, .pass ⟨some 0, .ready false false true, [], 2048⟩,
    .pass ⟨some 1, .timeout, [], 0⟩]

theorem registers_served_quietRound : Posted (Runs.exec Rounds.step .connected quietRound) := by
  apply registers_served
  refine ⟨trivial, ?_, ?_, trivial⟩
  · intro endSendTime _ _ timeout
    cases timeout
  · intro endSendTime _ _ _ _
    decide +kernel

end RenogyX10.RenogyInflux
