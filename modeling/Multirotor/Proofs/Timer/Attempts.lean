import Mathlib.Algebra.Group.Nat.Defs
import Multirotor.Timer.Basic

/-!
# Sequences of writes

What a timer answers to a write depends on its make, its readiness and its faults, and no write
changes any of these.  So a sequence of writes can be judged as a whole before its first write, the
attempts of a sequence are recorded in order, and each channel keeps the last write that was
accepted on it.  A channel that takes a write takes all lesser ones.
-/

namespace Multirotor.Timer

/-- Two timers answer alike: they are of one make, equally ready, and have the same faults. -/
structure Agrees (t u : Timer) : Prop where
  /-- The clocks run alike. -/
  clockHz : t.clockHz = u.clockHz
  /-- The counters are equally wide. -/
  counterMax : t.counterMax = u.counterMax
  /-- The same channels exist. -/
  channelCount : t.channelCount = u.channelCount
  /-- Both take writes, or neither does. -/
  ready : t.ready = u.ready
  /-- The same faults were injected. -/
  faults : t.faults = u.faults

namespace Agrees

theorem refl (t : Timer) : t.Agrees t := ⟨rfl, rfl, rfl, rfl, rfl⟩

theorem trans {t u v : Timer} (first : t.Agrees u) (second : u.Agrees v) : t.Agrees v :=
  ⟨first.1.trans second.1, first.2.trans second.2, first.3.trans second.3,
    first.4.trans second.4, first.5.trans second.5⟩

theorem refusal?_eq {t u : Timer} (agrees : t.Agrees u) (w : Write) :
    t.refusal? w = u.refusal? w := by
  rcases t
  rcases u
  obtain ⟨rfl, rfl, rfl, rfl, rfl⟩ := agrees
  rfl

end Agrees

theorem set_agrees (t : Timer) (w : Write) : (t.set w).2.Agrees t := by
  rw [set]
  split <;> exact ⟨rfl, rfl, rfl, rfl, rfl⟩

def answer (t : Timer) (w : Write) : Except WriteError Unit :=
  match t.refusal? w with
  | some reason => .error reason
  | none => .ok ()

theorem set_answer (t : Timer) (w : Write) : (t.set w).1 = t.answer w := by
  rcases refused : t.refusal? w <;> simp [set, answer, refused]

theorem answer_eq_ok_iff {t : Timer} {w : Write} : t.answer w = .ok () ↔ t.refusal? w = none := by
  rw [answer]
  split <;> simp_all

theorem Agrees.answer_eq {t u : Timer} (agrees : t.Agrees u) (w : Write) :
    t.answer w = u.answer w := by
  rw [answer, answer, agrees.refusal?_eq]

/-! ## Runs of writes -/

/-- Attempts writes in their order, whatever the answers are, and collects the answers. -/
def attemptAll (t : Timer) : List Write → List (Except WriteError Unit) × Timer
  | [] => ([], t)
  | w :: ws => ((t.set w).1 :: ((t.set w).2.attemptAll ws).1, ((t.set w).2.attemptAll ws).2)

theorem attemptAll_append (t : Timer) (first second : List Write) :
    (t.attemptAll (first ++ second)).2 = ((t.attemptAll first).2.attemptAll second).2 := by
  induction first generalizing t with
  | nil => rfl
  | cons w first induction => exact induction (t.set w).2

theorem attemptAll_agrees (t : Timer) (ws : List Write) : (t.attemptAll ws).2.Agrees t := by
  induction ws generalizing t with
  | nil => exact .refl t
  | cons w ws induction => exact (induction (t.set w).2).trans (t.set_agrees w)

/-- Every answer is the one that the timer gives before the first write. -/
theorem attemptAll_answers (t : Timer) (ws : List Write) :
    (t.attemptAll ws).1 = ws.map t.answer := by
  induction ws generalizing t with
  | nil => rfl
  | cons w ws induction =>
    have later : ws.map (t.set w).2.answer = ws.map t.answer :=
      List.map_congr_left fun v _ => (t.set_agrees w).answer_eq v
    rw [attemptAll, induction, later, set_answer, List.map_cons]

/-- Every write is recorded, in order. -/
theorem attempts_attemptAll (t : Timer) (ws : List Write) :
    (t.attemptAll ws).2.attempts.toList = t.attempts.toList ++ ws := by
  induction ws generalizing t with
  | nil => simp [attemptAll]
  | cons w ws induction =>
    rw [attemptAll, induction, attempts_set]
    simp

/-- A channel keeps the last write of a sequence that was accepted on it. -/
theorem output?_attemptAll (t : Timer) (ws : List Write) (channel : UInt32) :
    (t.attemptAll ws).2.output? channel =
      (ws.reverse.find? fun w => w.channel = channel ∧ t.refusal? w = none).or
        (t.output? channel) := by
  induction ws generalizing t with
  | nil => rfl
  | cons w ws induction =>
    simp only [attemptAll, induction, (t.set_agrees w).refusal?_eq, output?_set,
      List.reverse_cons, List.find?_append]
    cases ws.reverse.find? fun w => w.channel = channel ∧ t.refusal? w = none with
    | some later => rfl
    | none =>
      by_cases accepted : t.refusal? w = none ∧ channel = w.channel
      · simp [accepted]
      · have skipped : ¬ (w.channel = channel ∧ t.refusal? w = none) := fun h =>
          accepted ⟨h.2, h.1.symm⟩
        simp [accepted, skipped]

/-- A channel on which every write of a sequence is refused keeps what it has. -/
theorem output?_attemptAll_of_refused {t : Timer} {ws : List Write} {channel : UInt32}
    (refused : ∀ w ∈ ws, w.channel = channel → t.refusal? w ≠ none) :
    (t.attemptAll ws).2.output? channel = t.output? channel := by
  have none_found : ws.reverse.find? (fun w => w.channel = channel ∧ t.refusal? w = none) = none :=
    List.find?_eq_none.mpr fun w mem => by
      simpa using refused w (List.mem_reverse.mp mem)
  rw [output?_attemptAll, none_found, Option.none_or]

/-- An accepted write that is the only one of a sequence for its channel is there to stay. -/
theorem output?_attemptAll_of_accepted {t : Timer} {ws : List Write} {w : Write} (mem : w ∈ ws)
    (accepted : t.refusal? w = none) (only : ∀ v ∈ ws, v.channel = w.channel → v = w) :
    (t.attemptAll ws).2.output? w.channel = some w := by
  rw [output?_attemptAll]
  generalize found : ws.reverse.find? _ = last
  rcases last with _ | v
  · have missed := List.find?_eq_none.mp found w (List.mem_reverse.mpr mem)
    simp [accepted] at missed
  · have matching := List.find?_some found
    have v_mem := List.mem_reverse.mp (List.mem_of_find?_eq_some found)
    simp only [decide_eq_true_eq] at matching
    exact congrArg some (only v v_mem matching.1)

/-! ## Writes up to a refusal -/

/-- The writes of a sequence that is broken off at the first refusal, that one included. -/
def throughRefusal (t : Timer) : List Write → List Write
  | [] => []
  | w :: ws => if t.refusal? w = none then w :: t.throughRefusal ws else [w]

theorem Agrees.throughRefusal_eq {t u : Timer} (agrees : t.Agrees u) (ws : List Write) :
    t.throughRefusal ws = u.throughRefusal ws := by
  induction ws with
  | nil => rfl
  | cons w ws induction => rw [throughRefusal, throughRefusal, agrees.refusal?_eq, induction]

theorem mem_of_mem_throughRefusal {t : Timer} {ws : List Write} {w : Write}
    (mem : w ∈ t.throughRefusal ws) : w ∈ ws := by
  induction ws with
  | nil => exact mem
  | cons v ws induction =>
    rw [throughRefusal] at mem
    split at mem
    · rcases List.mem_cons.mp mem with rfl | later
      · exact List.mem_cons_self
      · exact List.mem_cons_of_mem _ (induction later)
    · rw [List.mem_singleton.mp mem]
      exact List.mem_cons_self

/-- A sequence of which nothing was refused was not broken off. -/
theorem accepted_of_throughRefusal {t : Timer} {ws : List Write}
    (accepted : ∀ w ∈ t.throughRefusal ws, t.refusal? w = none) :
    ∀ w ∈ ws, t.refusal? w = none := by
  induction ws with
  | nil => exact accepted
  | cons v ws induction =>
    rw [throughRefusal] at accepted
    split at accepted
    · obtain ⟨first, rest⟩ := List.forall_mem_cons.mp accepted
      exact List.forall_mem_cons.mpr ⟨first, induction rest⟩
    · rename_i refused
      exact absurd (accepted v List.mem_cons_self) refused

/-! ## What a channel takes -/

theorem refusal?_eq_none_iff {t : Timer} {w : Write} :
    t.refusal? w = none ↔
      t.ready = true ∧ ¬ (w.channel = 0 ∨ t.channelCount < w.channel) ∧
        (∀ fault ∈ t.faults, fault.1 ≠ w.channel) ∧
        ¬ w.periodNs < w.pulseNs ∧ ¬ t.counterMax < t.ticks w.periodNs := by
  rw [refusal?]
  grind

/-- Ticks are counted in 64 bits, which is enough for every time span and clock. -/
theorem mul_clockHz_lt (durationNs clockHz : UInt32) :
    durationNs.toNat * clockHz.toNat < 2 ^ 64 := by
  have bound := Nat.mul_lt_mul'' durationNs.toNat_lt clockHz.toNat_lt
  omega

/-- The product fits into 64 bits, so ticks are counted exactly. -/
theorem toNat_ticks (t : Timer) (durationNs : UInt32) :
    (t.ticks durationNs).toNat = durationNs.toNat * t.clockHz.toNat / 1000000000 := by
  rw [ticks, UInt64.toNat_div, UInt64.toNat_mul, UInt32.toNat_toUInt64, UInt32.toNat_toUInt64,
    Nat.mod_eq_of_lt (mul_clockHz_lt durationNs t.clockHz)]
  rfl

theorem ticks_le_ticks (t : Timer) {d e : UInt32} (le : d ≤ e) : t.ticks d ≤ t.ticks e := by
  rw [UInt64.le_iff_toNat_le, toNat_ticks, toNat_ticks]
  exact Nat.div_le_div_right (Nat.mul_le_mul_right _ (UInt32.le_iff_toNat_le.mp le))

/-- A channel that takes a write takes every write whose period is no longer and whose pulse ends
within it. -/
theorem refusal?_eq_none_of_le {t : Timer} {v w : Write} (accepted : t.refusal? v = none)
    (channel : w.channel = v.channel) (period : w.periodNs ≤ v.periodNs)
    (pulse : w.pulseNs ≤ w.periodNs) : t.refusal? w = none := by
  obtain ⟨ready, exists_channel, no_fault, _, representable⟩ := refusal?_eq_none_iff.mp accepted
  rw [← channel] at exists_channel no_fault
  have shorter := t.ticks_le_ticks period
  exact refusal?_eq_none_iff.mpr ⟨ready, exists_channel, no_fault, UInt32.not_lt.mpr pulse,
    UInt64.not_lt.mpr (UInt64.le_trans shorter (UInt64.not_lt.mp representable))⟩

end Multirotor.Timer
