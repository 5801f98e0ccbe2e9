import Multirotor.Proofs.Esc.ArmingPulse

/-!
# Speeds are pulses between two ends

An ESC can be set up on a ready device with any two offsets that leave something of the pulse range.
Whatever is done with it from then on, as long as it is in use the pulses of its speeds follow the
linear law of these offsets.
-/

namespace Multirotor.Esc

/-- An ESC writes the pulses of the legal speeds, and they follow the law between two ends. -/
structure Interpolates (e : Esc) (low high : ℚ) : Prop where
  /-- Every legal speed is written with its pulse. -/
  written : ∀ {speed} (bench : Bench), 0 ≤ speed ∧ speed ≤ 1 →
    (e.drive speed bench).2.timer.attempts = bench.timer.attempts.push (e.speedWrite speed)
  /-- The pulses follow the law. -/
  linear : Linear (fun speed => (e.speedWrite speed).pulseNs) low high

/-- The law depends on the timing alone. -/
theorem interpolates_of_withOffsets {e : Esc} (initialized : e.lifecycle = .initialized)
    {p : Protocol} {min max : UInt8} (accepted : p.timing.withOffsets min max = .ok e.timing) :
    e.Interpolates (p.timing.lowNs min) (p.timing.highNs max) := by
  obtain ⟨_, _, spans, -⟩ := p.exists_spans
  refine ⟨fun bench legal => ?_, spans.linear accepted⟩
  rw [drive_eq initialized legal, bench.attempts_write]

/-- A ready device and offsets that leave something are enough to set up an ESC. -/
theorem exists_configure {protocol : Protocol} {settings : EscSettings}
    (sensible : settings.minOffset.toNat + settings.maxOffset.toNat < 100) (channel : UInt32)
    {before : Bench} (ready : before.timer.ready = true) :
    ∃ e after, configure channel protocol settings before = (.ok e, after) ∧
      protocol.timing.withOffsets settings.minOffset settings.maxOffset = .ok e.timing := by
  obtain ⟨timing, accepted⟩ : ∃ timing,
      protocol.timing.withOffsets settings.minOffset settings.maxOffset = .ok timing :=
    ⟨_, Timing.withOffsets_eq_ok_iff.mpr ⟨sensible, rfl⟩⟩
  refine ⟨⟨channel, protocol, timing, settings.armMs, .initialized, .disarmed⟩,
    before.log (.escConfigured channel protocol timing), ?_, accepted⟩
  simp only [configure, ready, accepted, Bool.not_true, Bool.false_eq_true, if_false]

/-- Offsets that leave something set up an ESC whose pulses, after whatever has happened to it,
follow their law as long as it is in use; and no pulse of that law outlasts the period. -/
theorem configure_interpolates (protocol : Protocol) {settings : EscSettings}
    (sensible : settings.minOffset.toNat + settings.maxOffset.toNat < 100) (channel : UInt32)
    {before : Bench} (ready : before.timer.ready = true) :
    let low := protocol.timing.lowNs settings.minOffset
    let high := protocol.timing.highNs settings.maxOffset
    high ≤ 1000 * protocol.timing.periodUs.toNat ∧
      ∃ e after, configure channel protocol settings before = (.ok e, after) ∧
        ∀ steps : List Step, (steps.foldl advance (e, after)).1.lifecycle = .initialized →
          (steps.foldl advance (e, after)).1.Interpolates low high := by
  intro low high
  obtain ⟨e, after, configured, accepted⟩ := exists_configure sensible channel ready
  refine ⟨protocol.highNs_le _, e, after, configured, fun steps initialized => ?_⟩
  obtain ⟨lifecycle, arming, same⟩ := run_eq (e, after) steps
  apply interpolates_of_withOffsets initialized
  rw [same]
  exact accepted

/-- The narrowest range with a dead zone at either end, after a stop. -/
theorem configure_interpolates_multishot :
    let settings : EscSettings := { minOffset := 7, maxOffset := 12 }
    let before : Bench := { timer := .bench 4 }
    settings.minOffset.toNat + settings.maxOffset.toNat < 100 ∧ before.timer.ready = true ∧
      ∃ e after, configure 2 .multishot settings before = (.ok e, after) ∧
        (e.stop after).2.1.Interpolates 6400 22600 := by
  intro settings before
  have sensible : settings.minOffset.toNat + settings.maxOffset.toNat < 100 := by decide
  have ready : before.timer.ready = true := rfl
  obtain ⟨-, e, after, configured, law⟩ :=
    configure_interpolates .multishot sensible 2 ready
  obtain ⟨_, started⟩ := configure_ok configured
  obtain ⟨_, stopped⟩ := e.stop_eq after
  have law := law [.operate .stop] (by
    change (e.stop after).2.1.lifecycle = _
    rw [stopped, started])
  have five : (5 : Binary32).value = 5 := Binary32.value_ofNat (n := 5) (by norm_num)
  have twentyfive : (25 : Binary32).value = 25 := Binary32.value_ofNat (n := 25) (by norm_num)
  have seven : settings.minOffset.toNat = 7 := rfl
  have twelve : settings.maxOffset.toNat = 12 := rfl
  have low : Protocol.multishot.timing.lowNs settings.minOffset = 6400 := by
    simp only [Timing.lowNs, Protocol.timing, five, twentyfive, seven]
    norm_num
  have high : Protocol.multishot.timing.highNs settings.maxOffset = 22600 := by
    simp only [Timing.highNs, Protocol.timing, five, twentyfive, twelve]
    norm_num
  rw [low, high] at law
  exact ⟨sensible, ready, e, after, configured, law⟩

end Multirotor.Esc
