import Multirotor.Proofs.Esc.PulseWidth

/-!
# Pulses stay within the range of their protocol

An offset cuts off a part of the pulse range and never adds to it, and no pulse leaves the range of
the law that its offsets make.  So what is written for a legal speed lies between the shortest and
the longest pulse of the protocol.  Lengths are compared in nanoseconds, a thousand times the
microseconds of the protocol.
-/

namespace Multirotor

open Binary32

/-- A whole number of microseconds is a thousand times as many nanoseconds. -/
theorem nanoseconds_whole {micros : Binary32} {n : ℤ} (whole : micros.Between n n)
    (range : 0 < n ∧ n ≤ 2000) : ((nanoseconds micros).toNat : ℤ) = n * 1000 := by
  have close := nanoseconds_close ((Near.of_between whole).mono (by positivity))
    ⟨by exact_mod_cast range.1, by exact_mod_cast range.2⟩
  have close : |((nanoseconds micros).toNat : ℤ) - n * 1000| < 1 := by exact_mod_cast close
  linarith [Int.abs_lt_one_iff.mp close]

namespace Protocol

theorem nanoseconds_shortest (p : Protocol) :
    ((nanoseconds p.timing.minPulse).toNat : ℚ) = 1000 * p.timing.minPulse.value := by
  obtain ⟨a, b, spans, -⟩ := p.exists_spans
  obtain ⟨positive, below, short⟩ := spans.ordered
  rw [spans.minPulse_eq, mul_comm]
  exact_mod_cast nanoseconds_whole spans.lowest (by omega)

/-- The write is one that an ESC of the protocol takes for a speed. -/
structure Carries (p : Protocol) (w : Write) : Prop where
  /-- The period is that of the protocol. -/
  period : w.periodNs.toNat = 1000 * p.timing.periodUs.toNat
  /-- The pulse is no shorter than the shortest of the full range. -/
  shortest : 1000 * p.timing.minPulse.value ≤ w.pulseNs.toNat
  /-- The pulse is no longer than the longest of the full range. -/
  longest : w.pulseNs.toNat ≤ 1000 * p.timing.maxPulse.value

theorem Carries.not_isStop {p : Protocol} {w : Write} (carries : p.Carries w) : ¬ w.IsStop := by
  rintro ⟨no_period, _⟩
  have period := carries.period
  rw [no_period] at period
  revert period
  cases p <;> decide

end Protocol

/-- The write drives a motor at a speed. -/
structure Write.Drives (w : Write) (e : Esc) (speed : Binary32) : Prop where
  channel : w.channel = e.channel
  /-- The period is that of the protocol. -/
  period : w.periodNs.toNat = 1000 * e.protocol.timing.periodUs.toNat
  /-- The pulse divides the range of the motor at the speed.  It is counted in nanoseconds, a
  thousand to the microsecond. -/
  pulse : ∃ product,
    IsThousandfold (e.timing.minPulse + speed * (e.timing.maxPulse - e.timing.minPulse)) product ∧
      IsCount product w.pulseNs

namespace Esc.Tuned

variable {e : Esc}

theorem toNat_periodNs (tuned : e.Tuned) :
    e.timing.periodNs.toNat = 1000 * e.protocol.timing.periodUs.toNat := by
  rw [tuned.periodNs_eq, e.protocol.toNat_periodNs]

theorem armingWrite_carries (tuned : e.Tuned) : e.protocol.Carries e.armingWrite := by
  obtain ⟨a, b, spans, -⟩ := e.protocol.exists_spans
  have pulse : (e.armingWrite.pulseNs.toNat : ℚ) = _ := e.protocol.nanoseconds_shortest
  refine ⟨tuned.toNat_periodNs, pulse.ge, ?_⟩
  have ordered : (a : ℚ) + 1 ≤ b := spans.cast.2.1
  rw [pulse, spans.minPulse_eq, spans.maxPulse_eq]
  linarith

theorem speedWrite_carries (tuned : e.Tuned) {speed : Binary32} (legal : 0 ≤ speed ∧ speed ≤ 1) :
    e.protocol.Carries (e.speedWrite speed) := by
  have period := tuned.toNat_periodNs
  obtain ⟨min, max, accepted⟩ := tuned
  obtain ⟨a, b, spans, -⟩ := e.protocol.exists_spans
  obtain ⟨lower, upper⟩ := (spans.linear accepted).within legal
  refine ⟨period, ?_, ?_⟩
  · rw [spans.minPulse_eq]
    exact (spans.le_lowNs min).trans lower
  · rw [spans.maxPulse_eq]
    exact upper.trans (spans.highNs_le max)

theorem speedWrite_drives (tuned : e.Tuned) (speed : Binary32) :
    (e.speedWrite speed).Drives e speed where
  channel := rfl
  period := tuned.toNat_periodNs
  pulse := ⟨_, isThousandfold_mul _, isCount_toUInt32 _⟩

end Esc.Tuned

end Multirotor
