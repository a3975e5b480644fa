import RenogyX10.RenogyInflux.Passes

set_option autoImplicit false

/- The millisecond tick of `renogy_influx_log.c`. It is kept in an `int`, so it is the
position of the clock in a cycle of 2^32 ms. -/
namespace RenogyX10.RenogyInflux

open Checked

/-- What `clock_gettime` reads. The milliseconds fit the 64-bit `time_t` the code
computes with. -/
structure Timespec where
  sec : Nat
  nsec : Nat
  nsec_lt : nsec < 1000000000
  small : sec * 1000 + nsec / 1000000 < 2 ^ 63

/-- The milliseconds since the clock began. -/
def Timespec.ms (ts : Timespec) : Int := ts.sec * 1000 + ts.nsec / 1000000

def getMstime (ts : Timespec) : Int := wrapI32 ((ts.nsec / 1000000 : Int) + ts.sec * 1000)

/-- Nothing overflows, and `wait_mstime` is what is left of the minute. -/
def DeadlineExact (start now : Timespec) : Prop :=
  ∃ endSendTime, endSendTimeOf (getMstime start) = some endSendTime ∧
    subI32 endSendTime (getMstime now) = some (60 * 1000 - (now.ms - start.ms))

/-- Where the tick stands in the cycle that ends when it wraps. -/
def Timespec.phase (ts : Timespec) : Int := (ts.ms + 2 ^ 31) % 2 ^ 32

/-- The tick does not wrap during the round, nor before the minute is over, and not more
than 2^31 ms pass after it. -/
def FarFromWrap (start : Timespec) (elapsed : Int) : Prop :=
  start.phase + 60 * 1000 < 2 ^ 32 ∧ start.phase + elapsed < 2 ^ 32 ∧
    elapsed ≤ 2 ^ 31 + 60 * 1000

theorem getMstime_eq (ts : Timespec) : getMstime ts = wrapI32 ts.ms := by
  unfold getMstime Timespec.ms
  rw [Int.add_comm (ts.nsec / 1000000 : Int)]

/-- The deadline arithmetic is exact far from the end of a cycle of the tick only. -/
theorem deadlineExact_iff (start now : Timespec) (forward : start.ms ≤ now.ms) :
    DeadlineExact start now ↔ FarFromWrap start (now.ms - start.ms) := by
  have wrapped := wrapI32_add_eq_iff start.ms (Int.sub_nonneg.mpr forward)
  rw [Int.add_comm, Int.sub_add_cancel] at wrapped
  unfold DeadlineExact FarFromWrap endSendTimeOf addI32 subI32 Timespec.phase
  simp only [getMstime_eq, intCastI32_eq_some]
  constructor
  · intro ⟨endSendTime, ⟨ends, sum⟩, waits, difference⟩
    have same := wrapped.mp (by omega)
    unfold FitsI32 at ends waits
    unfold wrapI32 at ends
    omega
  · intro ⟨minute, round, passed⟩
    have same := wrapped.mpr round
    refine ⟨_, ⟨?_, rfl⟩, ?_, ?_⟩
    · unfold FitsI32 wrapI32
      omega
    · unfold FitsI32
      omega
    · omega

instance (start : Timespec) (elapsed : Int) : Decidable (FarFromWrap start elapsed) :=
  inferInstanceAs (Decidable (_ ∧ _ ∧ _))

def uptime (sec : Nat) (small : sec * 1000 < 2 ^ 63) : Timespec where
  sec := sec
  nsec := 0
  nsec_lt := by decide
  small := by simpa only [Nat.zero_div, Nat.add_zero] using small

/-- An hour after the host was started. -/
theorem deadlineExact_hour : DeadlineExact (uptime 3600 (by decide)) (uptime 3610 (by decide)) :=
  (deadlineExact_iff (uptime 3600 _) (uptime 3610 _) (by decide)).mpr (by decide)

/-- After 24 days, 20 hours and 31 minutes the deadline of a round is out of range. -/
theorem deadline_overflows :
    ¬ DeadlineExact (uptime 2147480 (by decide)) (uptime 2147480 (by decide)) := by
  intro ⟨endSendTime, sum, _⟩
  have overflow : endSendTimeOf (getMstime (uptime 2147480 (by decide))) = none := by
    decide +kernel
  rw [overflow] at sum
  cases sum

end RenogyX10.RenogyInflux
