import Multirotor.Proofs.Esc.Nanoseconds
import Multirotor.Proofs.Mixer.Reachable

/-!
# The width of a pulse

Offsets cut percentages off both ends of a pulse range, and the pulse of a speed divides what is
left in proportion.  Rounding moves the ends by no more than `2 ^ -13` microseconds and the pulse by
no more than `2 ^ -12`, a quarter of a nanosecond, so the pulse in whole nanoseconds is less than
one away from the exact law.  The ends of the law are whole numbers of nanoseconds, which the pulse
therefore meets exactly and never passes.
-/

namespace Multirotor

open Binary32

namespace Timing

/-- The pulse of speed 0 in nanoseconds when a percentage is cut off below. -/
def lowNs (t : Timing) (min : UInt8) : ℚ :=
  1000 * t.minPulse.value + 10 * (t.maxPulse.value - t.minPulse.value) * min.toNat

/-- The pulse of speed 1 in nanoseconds when a percentage is cut off above. -/
def highNs (t : Timing) (max : UInt8) : ℚ :=
  1000 * t.maxPulse.value - 10 * (t.maxPulse.value - t.minPulse.value) * max.toNat

/-- The pulse range lies between two whole numbers of microseconds that binary32 resolves well
enough. -/
structure Spans (t : Timing) (a b : ℤ) : Prop where
  /-- The shortest pulse. -/
  lowest : t.minPulse.Between a a
  /-- The longest pulse. -/
  highest : t.maxPulse.Between b b
  /-- The shortest pulse is a pulse, the longest is longer, and both are short enough. -/
  ordered : 0 < a ∧ a < b ∧ b ≤ 2000
  /-- The range is narrow enough. -/
  narrow : b - a ≤ 1000

/-- Ends that are off by at most `2 ^ -13` microseconds, with room between them. -/
structure Ends (t : Timing) (low high : ℚ) : Prop where
  /-- The pulse of speed 0. -/
  lower : t.minPulse.Near low (1 / 2 ^ 13)
  /-- The pulse of speed 1. -/
  upper : t.maxPulse.Near high (1 / 2 ^ 13)
  /-- The ends are pulses, and short enough. -/
  range : 1 ≤ low ∧ high ≤ 2000
  /-- More room than rounding takes, and no more than binary32 resolves. -/
  apart : low + 1 / 100 ≤ high ∧ high - low ≤ 1000

variable {t narrowed : Timing} {a b : ℤ} {min max : UInt8}

theorem withOffsets_eq_ok_iff :
    t.withOffsets min max = .ok narrowed ↔
      min.toNat + max.toNat < 100 ∧
        narrowed =
          { t with
            minPulse := t.minPulse + (t.maxPulse - t.minPulse) * (ofNat min.toNat / 100)
            maxPulse := t.maxPulse - (t.maxPulse - t.minPulse) * (ofNat max.toNat / 100) } := by
  rw [withOffsets]
  split
  · rename_i beyond
    simp [Nat.not_lt.mpr beyond]
  · rename_i sensible
    simp [Nat.not_le.mp sensible, eq_comm]

namespace Spans

theorem minPulse_eq (spans : t.Spans a b) : t.minPulse.value = a := spans.lowest.value_eq

theorem maxPulse_eq (spans : t.Spans a b) : t.maxPulse.value = b := spans.highest.value_eq

/-- The order of the ends in exact numbers. -/
theorem cast (spans : t.Spans a b) :
    (1 : ℚ) ≤ a ∧ (a : ℚ) + 1 ≤ b ∧ (b : ℚ) ≤ 2000 ∧ (b : ℚ) - a ≤ 1000 := by
  obtain ⟨positive, below, short⟩ := spans.ordered
  have narrow := spans.narrow
  refine ⟨?_, ?_, ?_, ?_⟩
  · exact_mod_cast positive
  · exact_mod_cast below
  · exact_mod_cast short
  · exact_mod_cast narrow

/-- The ends of the law are whole numbers of nanoseconds. -/
theorem ends_eq (spans : t.Spans a b) (min max : UInt8) :
    t.lowNs min = (1000 * a + 10 * (b - a) * min.toNat : ℤ) ∧
      t.highNs max = (1000 * b - 10 * (b - a) * max.toNat : ℤ) := by
  rw [lowNs, highNs, spans.minPulse_eq, spans.maxPulse_eq]
  push_cast
  exact ⟨rfl, rfl⟩

private theorem cut_nonneg (spans : t.Spans a b) (percent : UInt8) :
    0 ≤ 10 * ((b : ℚ) - a) * percent.toNat := by
  obtain ⟨-, below, -, -⟩ := spans.cast
  exact mul_nonneg (by linarith) (Nat.cast_nonneg _)

/-- An offset below does not shorten the shortest pulse. -/
theorem le_lowNs (spans : t.Spans a b) (min : UInt8) : 1000 * a ≤ t.lowNs min := by
  rw [lowNs, spans.minPulse_eq, spans.maxPulse_eq]
  exact le_add_of_nonneg_right (spans.cut_nonneg min)

/-- An offset above does not lengthen the longest pulse. -/
theorem highNs_le (spans : t.Spans a b) (max : UInt8) : t.highNs max ≤ 1000 * b := by
  rw [highNs, spans.minPulse_eq, spans.maxPulse_eq]
  exact sub_le_self _ (spans.cut_nonneg max)

/-- Offsets that leave one percent of the range leave at least ten nanoseconds. -/
theorem lowNs_add_le (spans : t.Spans a b) (sensible : min.toNat + max.toNat < 100) :
    t.lowNs min + 10 ≤ t.highNs max := by
  obtain ⟨-, below, -, -⟩ := spans.cast
  have rest : (min.toNat : ℚ) + max.toNat ≤ 99 := by
    exact_mod_cast (show min.toNat + max.toNat ≤ 99 by omega)
  have cut : 10 * ((b : ℚ) - a) * (min.toNat + max.toNat) ≤ 10 * (b - a) * 99 :=
    mul_le_mul_of_nonneg_left rest (by linarith)
  rw [lowNs, highNs, spans.minPulse_eq, spans.maxPulse_eq]
  linarith

/-- What an offset cuts off. -/
private theorem offset_near (spans : t.Spans a b) {percent : UInt8}
    (sensible : percent.toNat ≤ 100) :
    ((t.maxPulse - t.minPulse) * (ofNat percent.toNat / 100)).Near
      ((b - a) * (percent.toNat / 100)) (1 / 2 ^ 14) := by
  obtain ⟨positive, below, -, narrow⟩ := spans.cast
  have span := spans.highest.sub spans.lowest (by have := spans.ordered; omega)
  have fraction_nonneg : (0 : ℚ) ≤ percent.toNat / 100 := by positivity
  have fraction_le : (percent.toNat / 100 : ℚ) ≤ 1 := by
    rw [div_le_one (by norm_num)]
    exact_mod_cast sensible
  have part_nonneg : 0 ≤ ((b : ℚ) - a) * (percent.toNat / 100) :=
    mul_nonneg (by linarith) fraction_nonneg
  have part_le : ((b : ℚ) - a) * (percent.toNat / 100) ≤ 1000 * 1 :=
    mul_le_mul narrow fraction_le fraction_nonneg (by norm_num)
  have product := Near.mul_of_between span (percentage_near sensible) (k := 14) (by norm_num) (by
    push_cast
    rw [abs_of_nonneg part_nonneg, abs_of_nonneg (by linarith)]
    linarith)
  push_cast at product
  rw [abs_of_nonneg (by linarith : (0 : ℚ) ≤ b - a)] at product
  exact product.mono (by linarith)

/-- Rounding barely moves the ends of a narrowed range. -/
theorem ends (spans : t.Spans a b) (accepted : t.withOffsets min max = .ok narrowed) :
    narrowed.Ends (t.lowNs min / 1000) (t.highNs max / 1000) := by
  obtain ⟨sensible, rfl⟩ := withOffsets_eq_ok_iff.mp accepted
  have le_low := spans.le_lowNs min
  have apart := spans.lowNs_add_le sensible
  have high_le := spans.highNs_le max
  obtain ⟨positive, below, short, narrow⟩ := spans.cast
  have low_eq : t.lowNs min / 1000 = a + (b - a) * (min.toNat / 100) := by
    rw [lowNs, spans.minPulse_eq, spans.maxPulse_eq]
    ring
  have high_eq : t.highNs max / 1000 = b - (b - a) * (max.toNat / 100) := by
    rw [highNs, spans.minPulse_eq, spans.maxPulse_eq]
    ring
  have lower := (Near.of_between spans.lowest).add
    (spans.offset_near (show min.toNat ≤ 100 by omega)) (k := 13) (by norm_num) (by
      rw [← low_eq, abs_of_nonneg (by linarith)]
      linarith)
  have upper := (Near.of_between spans.highest).sub
    (spans.offset_near (show max.toNat ≤ 100 by omega)) (k := 13) (by norm_num) (by
      rw [← high_eq, abs_of_nonneg (by linarith)]
      linarith)
  rw [← low_eq] at lower
  rw [← high_eq] at upper
  exact ⟨lower.mono (by norm_num), upper.mono (by norm_num),
    ⟨by linarith, by linarith⟩, ⟨by linarith, by linarith⟩⟩

end Spans

/-! ## The pulse in microseconds -/

/-- A mean lies between its ends. -/
private theorem mean_between {x low high : ℚ} (nonneg : 0 ≤ x) (le_one : x ≤ 1)
    (ordered : low ≤ high) :
    low ≤ low + x * (high - low) ∧ low + x * (high - low) ≤ high := by
  have width_nonneg : 0 ≤ high - low := sub_nonneg.mpr ordered
  have part_nonneg := mul_nonneg nonneg width_nonneg
  have part_le := mul_le_of_le_one_left width_nonneg le_one
  constructor <;> linarith

/-- Means of ends that nearly agree. -/
private theorem mean_close {x p q low high d : ℚ} (nonneg : 0 ≤ x) (le_one : x ≤ 1)
    (lower : |p - low| ≤ d) (upper : |q - high| ≤ d) :
    |p + x * (q - p) - (low + x * (high - low))| ≤ d := by
  have rest_nonneg : 0 ≤ 1 - x := sub_nonneg.mpr le_one
  calc
    |p + x * (q - p) - (low + x * (high - low))| = |(1 - x) * (p - low) + x * (q - high)| := by
      congr 1
      ring
    _ ≤ (1 - x) * |p - low| + x * |q - high| := by
      refine (abs_add_le _ _).trans_eq ?_
      rw [abs_mul, abs_mul, abs_of_nonneg nonneg, abs_of_nonneg rest_nonneg]
    _ ≤ (1 - x) * d + x * d :=
      add_le_add (mul_le_mul_of_nonneg_left lower rest_nonneg)
        (mul_le_mul_of_nonneg_left upper nonneg)
    _ = d := by ring

namespace Ends

variable {low high : ℚ} {x y : Binary32}

theorem width_between (ends : t.Ends low high) :
    (0 ≤ t.maxPulse.value - t.minPulse.value ∧ t.maxPulse.value - t.minPulse.value ≤ 1001) ∧
      (t.maxPulse - t.minPulse).Between 0 1001 := by
  have nonneg : 0 ≤ t.maxPulse.value - t.minPulse.value := by
    linarith [ends.lower.upper, ends.upper.lower, ends.apart.1]
  have size : t.maxPulse.value - t.minPulse.value ≤ 1001 := by
    linarith [ends.lower.lower, ends.upper.upper, ends.apart.2]
  exact ⟨⟨nonneg, size⟩, (sub_roundsTo ends.upper.finite ends.lower.finite).between
    (by exact_mod_cast nonneg) (by exact_mod_cast size) (by norm_num)⟩

/-- The pulse of a speed divides the range in proportion. -/
theorem pulse_near (ends : t.Ends low high) (unit : x.Between 0 1) :
    (t.pulse x).Near (low + x.value * (high - low)) (1 / 2 ^ 12) := by
  obtain ⟨⟨width_nonneg, width_le⟩, width_between⟩ := ends.width_between
  have width_size : |t.maxPulse.value - t.minPulse.value| ≤ (1001 : ℤ) := by
    rw [abs_of_nonneg width_nonneg]
    exact_mod_cast width_le
  have width := Near.of_roundsTo (u := t.maxPulse.value - t.minPulse.value) (d := 0) (k := 14)
    (sub_roundsTo ends.upper.finite ends.lower.finite) (by norm_num) (by rw [sub_self, abs_zero])
    (by push_cast at width_size; linarith)
  have share := (Near.of_finite unit.finite).mul_between width (a := 1) (b := 1001)
    (unit.mono (by norm_num) le_rfl) (width_between.mono (by norm_num) le_rfl) width_size (k := 14)
    (by norm_num) (by norm_num)
  have mean := mean_between unit.value_nonneg unit.value_le_one (sub_nonneg.mp width_nonneg)
  have sum := (Near.of_finite ends.lower.finite).add share (k := 13) (by norm_num) (by
    have lower := ends.lower.lower
    have upper := ends.upper.upper
    obtain ⟨positive, short⟩ := ends.range
    rw [abs_of_nonneg (by linarith)]
    push_cast
    linarith)
  exact (sum.of_close (mean_close unit.value_nonneg unit.value_le_one ends.lower.close
    ends.upper.close)).mono (by norm_num)

/-- Faster speeds do not have shorter pulses. -/
theorem pulse_mono (ends : t.Ends low high) (unit_x : x.Between 0 1) (unit_y : y.Between 0 1)
    (le : x.value ≤ y.value) : (t.pulse x).value ≤ (t.pulse y).value := by
  obtain ⟨-, width⟩ := ends.width_between
  have share {z : Binary32} (unit : z.Between 0 1) :
      (z * (t.maxPulse - t.minPulse)).Between 0 1001 :=
    unit.mul_of_nonneg width (by norm_num)
  have shares : (x * (t.maxPulse - t.minPulse)).value ≤ (y * (t.maxPulse - t.minPulse)).value := by
    rw [← le_iff_value (share unit_x).finite (share unit_y).finite]
    exact (mul_roundsTo unit_x.finite width.finite).mono (mul_roundsTo unit_y.finite width.finite)
      (mul_le_mul_of_nonneg_right le width.value_nonneg)
  rw [← le_iff_value (ends.pulse_near unit_x).finite (ends.pulse_near unit_y).finite]
  exact (add_roundsTo ends.lower.finite (share unit_x).finite).mono
    (add_roundsTo ends.lower.finite (share unit_y).finite) (add_le_add_right shares _)

end Ends

end Timing

/-! ## The law -/

/-- Pulses that grow with the speed, in proportion but for the rounding to whole nanoseconds. -/
structure Linear (pulseNs : Binary32 → UInt32) (low high : ℚ) : Prop where
  /-- Faster speeds do not have shorter pulses. -/
  mono : ∀ {x y}, 0 ≤ x → x ≤ y → y ≤ 1 → pulseNs x ≤ pulseNs y
  /-- A pulse is less than one nanosecond away from its share of the range. -/
  close : ∀ {x}, 0 ≤ x ∧ x ≤ 1 → |((pulseNs x).toNat : ℚ) - (low + x.value * (high - low))| < 1
  /-- No pulse leaves the range. -/
  within : ∀ {x}, 0 ≤ x ∧ x ≤ 1 → low ≤ (pulseNs x).toNat ∧ ((pulseNs x).toNat : ℚ) ≤ high
  /-- Speed 0 has the shortest pulse. -/
  zero : ((pulseNs 0).toNat : ℚ) = low
  /-- Speed 1 has the longest pulse. -/
  one : ((pulseNs 1).toNat : ℚ) = high

/-- Whole numbers less than one apart are in order. -/
private theorem int_le_natCast {m : ℕ} {n : ℤ} (less : (n : ℚ) - 1 < m) : (n : ℚ) ≤ m := by
  have less : n - 1 < (m : ℤ) := by exact_mod_cast less
  exact_mod_cast Int.le_of_sub_one_lt less

private theorem natCast_le_int {m : ℕ} {n : ℤ} (less : (m : ℚ) < n + 1) : (m : ℚ) ≤ n := by
  have less : (m : ℤ) < n + 1 := by exact_mod_cast less
  exact_mod_cast Int.lt_add_one_iff.mp less

private theorem natCast_eq_int {m : ℕ} {n : ℤ} (close : |(m : ℚ) - n| < 1) : (m : ℚ) = n := by
  obtain ⟨lower, upper⟩ := abs_lt.mp close
  exact le_antisymm (natCast_le_int (by linarith)) (int_le_natCast (by linarith))

namespace Timing

namespace Ends

variable {t : Timing} {low high : ℚ} {x y : Binary32}

private theorem mean_mem (ends : t.Ends low high) (unit : x.Between 0 1) :
    1 ≤ low + x.value * (high - low) ∧ low + x.value * (high - low) ≤ 2000 := by
  obtain ⟨positive, short⟩ := ends.range
  have mean := mean_between unit.value_nonneg unit.value_le_one
    (show low ≤ high by linarith [ends.apart.1])
  exact ⟨positive.trans mean.1, mean.2.trans short⟩

theorem pulseNs_close (ends : t.Ends low high) (unit : x.Between 0 1) :
    |((nanoseconds (t.pulse x)).toNat : ℚ) - (low + x.value * (high - low)) * 1000| < 1 :=
  nanoseconds_close (ends.pulse_near unit) (ends.mean_mem unit)

theorem pulseNs_mono (ends : t.Ends low high) (unit_x : x.Between 0 1) (unit_y : y.Between 0 1)
    (le : x.value ≤ y.value) : nanoseconds (t.pulse x) ≤ nanoseconds (t.pulse y) := by
  apply nanoseconds_mono
  rw [le_iff_value (ends.pulse_near unit_x).finite (ends.pulse_near unit_y).finite]
  exact ends.pulse_mono unit_x unit_y le

end Ends

/-- The pulses of a narrowed range follow the law of its offsets. -/
theorem Spans.linear {t narrowed : Timing} {a b : ℤ} {min max : UInt8} (spans : t.Spans a b)
    (accepted : t.withOffsets min max = .ok narrowed) :
    Linear (fun x => nanoseconds (narrowed.pulse x)) (t.lowNs min) (t.highNs max) := by
  have ends := spans.ends accepted
  have apart := spans.lowNs_add_le (withOffsets_eq_ok_iff.mp accepted).1
  obtain ⟨low_whole, high_whole⟩ := spans.ends_eq min max
  set low := t.lowNs min
  set high := t.highNs max
  have unit {x : Binary32} (legal : 0 ≤ x ∧ x ≤ 1) : x.Between 0 1 :=
    between_of_le zero_between one_between legal.1 legal.2
  have close {x : Binary32} (legal : 0 ≤ x ∧ x ≤ 1) :
      |((nanoseconds (narrowed.pulse x)).toNat : ℚ) - (low + x.value * (high - low))| < 1 := by
    have exact_pulse : (low / 1000 + x.value * (high / 1000 - low / 1000)) * 1000 =
        low + x.value * (high - low) := by ring
    rw [← exact_pulse]
    exact ends.pulseNs_close (unit legal)
  have zero_legal : (0 : Binary32) ≤ 0 ∧ (0 : Binary32) ≤ 1 := by decide
  have one_legal : (0 : Binary32) ≤ 1 ∧ (1 : Binary32) ≤ 1 := by decide
  refine ⟨fun lower le upper => ?_, close, fun {x} legal => ?_, ?_, ?_⟩
  · have unit_x := unit ⟨lower, Binary32.le_trans le upper⟩
    have unit_y := unit ⟨Binary32.le_trans lower le, upper⟩
    exact ends.pulseNs_mono unit_x unit_y ((le_iff_value unit_x.finite unit_y.finite).mp le)
  · obtain ⟨below, above⟩ := abs_lt.mp (close legal)
    have mean := mean_between (unit legal).value_nonneg (unit legal).value_le_one
      (show low ≤ high by linarith)
    rw [low_whole, high_whole]
    refine ⟨int_le_natCast ?_, natCast_le_int ?_⟩
    · rw [← low_whole]
      linarith
    · rw [← high_whole]
      linarith
  · have end_close := close zero_legal
    rw [value_zero, zero_mul, add_zero, low_whole] at end_close
    rw [low_whole]
    exact natCast_eq_int end_close
  · have end_close := close one_legal
    rw [value_one, one_mul, add_sub_cancel, high_whole] at end_close
    rw [high_whole]
    exact natCast_eq_int end_close

end Timing

/-! ## Protocols -/

/-- The pulse ranges are whole numbers of microseconds, and every period has room for the longest
pulse. -/
theorem Protocol.exists_spans (p : Protocol) :
    ∃ a b : ℤ, p.timing.Spans a b ∧ b ≤ p.timing.periodUs.toNat := by
  have whole (n : Nat) (small : n ≤ 2 ^ 24) : (Binary32.ofNat n).Between n n :=
    ofNat_between small
  cases p with
  | pwm =>
    exact ⟨1000, 2000, ⟨whole 1000 (by norm_num), whole 2000 (by norm_num), by norm_num,
      by norm_num⟩, by decide⟩
  | oneShot125 =>
    exact ⟨125, 250, ⟨whole 125 (by norm_num), whole 250 (by norm_num), by norm_num,
      by norm_num⟩, by decide⟩
  | oneShot42 =>
    exact ⟨42, 84, ⟨whole 42 (by norm_num), whole 84 (by norm_num), by norm_num,
      by norm_num⟩, by decide⟩
  | multishot =>
    exact ⟨5, 25, ⟨whole 5 (by norm_num), whole 25 (by norm_num), by norm_num,
      by norm_num⟩, by decide⟩

/-- No offset makes the longest pulse outlast the period. -/
theorem Protocol.highNs_le (p : Protocol) (max : UInt8) :
    p.timing.highNs max ≤ 1000 * p.timing.periodUs.toNat := by
  obtain ⟨a, b, spans, room⟩ := p.exists_spans
  have room : (b : ℚ) ≤ p.timing.periodUs.toNat := by exact_mod_cast room
  exact (spans.highNs_le max).trans (mul_le_mul_of_nonneg_left room (by norm_num))

/-- Periods in nanoseconds fit 32 bits. -/
theorem Protocol.toNat_periodNs (p : Protocol) :
    p.timing.periodNs.toNat = 1000 * p.timing.periodUs.toNat := by
  cases p <;> rfl

namespace Esc.Tuned

variable {e : Esc}

theorem periodNs_eq (tuned : e.Tuned) : e.timing.periodNs = e.protocol.timing.periodNs := by
  obtain ⟨min, max, accepted⟩ := tuned
  rw [(Timing.withOffsets_eq_ok_iff.mp accepted).2]
  rfl

/-- No period is zero, so no speed is written as a stop. -/
theorem periodNs_ne_zero (tuned : e.Tuned) : e.timing.periodNs ≠ 0 := by
  rw [tuned.periodNs_eq]
  cases e.protocol <;> decide

/-- The pulse of a legal speed is over before its period is. -/
theorem pulseNs_le (tuned : e.Tuned) {speed : Binary32} (legal : 0 ≤ speed ∧ speed ≤ 1) :
    (e.speedWrite speed).pulseNs ≤ e.timing.periodNs := by
  have period := tuned.periodNs_eq
  obtain ⟨min, max, accepted⟩ := tuned
  obtain ⟨a, b, spans, -⟩ := e.protocol.exists_spans
  have pulse := ((spans.linear accepted).within legal).2.trans (e.protocol.highNs_le max)
  rw [period, UInt32.le_iff_toNat_le, e.protocol.toNat_periodNs]
  exact_mod_cast pulse

end Esc.Tuned

end Multirotor
